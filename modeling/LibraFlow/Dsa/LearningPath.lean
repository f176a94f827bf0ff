import LibraFlow.Dsa.Graph
import LibraFlow.Library.DepthFirst

/-! The learning path of a book. One visited set serves the whole traversal, and a book
that is first entered at the last level hides its successors, also from the shorter paths
that come later: the path covers its depth exactly when the books within the depth have a
depth-first tree of that height. -/

set_option autoImplicit false

namespace LibraFlow.Dsa.BookGraphEngine

open LibraFlow.Library LibraFlow.Library.Digraph

variable {engine : BookGraphEngine}

/-- The books an edge leads to, in the order the traversal turns to them. -/
def traversalOrder (engine : BookGraphEngine) (isbn : String) : List String :=
  (engine.sortedEdges isbn).map Edge.targetIsbn

private theorem mem_traversalOrder (isbn successor : String) :
    successor ∈ engine.traversalOrder isbn ↔ successor ∈ engine.successors isbn :=
  ((List.perm_insertionSort _ _).map Edge.targetIsbn).mem_iff

/-- The number of edges that a depth allows from the start. -/
def edgesAllowed (maxDepth : Int) : Nat := maxDepth.toNat - 1

def learningIsbns (engine : BookGraphEngine) (start : String) (maxDepth : Int) : List String :=
  (engine.dfsLearningPath start maxDepth).map NodeMeta.isbn

/-- A learning path starts at its book, has no book twice, and has exactly the books
within its depth. -/
structure CoversDepth (engine : BookGraphEngine) (start : String) (maxDepth : Int) : Prop where
  first : (engine.learningIsbns start maxDepth).head? = some start
  distinct : (engine.learningIsbns start maxDepth).Nodup
  covered : ∀ isbn, isbn ∈ engine.learningIsbns start maxDepth ↔
    Within engine.successors start (edgesAllowed maxDepth) isbn

/-- The books within the depth have a depth-first tree that is no higher. -/
def FitsDepth (engine : BookGraphEngine) (start : String) (maxDepth : Int) : Prop :=
  ∃ place, DepthFirstTree engine.traversalOrder start (edgesAllowed maxDepth) place ∧
    ∀ isbn, Within engine.successors start (edgesAllowed maxDepth) isbn →
      ∃ path, place isbn = some path

/-- The state of a traversal that entered some books. -/
def Traversal.of (entered : List (String × List String)) : Traversal :=
  ⟨(entered.map Prod.fst).toFinset, entered.map Prod.fst⟩

private theorem dfs_of (levels : Nat) (above : List String) (node : String)
    (entered : List (String × List String)) :
    engine.dfs levels node (.of entered) =
      .of (explore engine.traversalOrder levels above node entered) := by
  induction levels generalizing above node entered with
  | zero => rfl
  | succ levels ih =>
      have enter : (⟨insert node (Traversal.of entered).visited,
          (Traversal.of entered).path ++ [node]⟩ : Traversal) =
          .of (entered ++ [(node, above ++ [node])]) := by
        simp only [Traversal.of, List.map_append, List.map_cons, List.map_nil,
          List.toFinset_append, List.toFinset_cons, List.toFinset_nil, insert_empty_eq,
          Finset.union_singleton]
      unfold dfs explore
      simp only [enter, traversalOrder, List.foldl_map, apply_ite Traversal.of]
      refine if_congr ?_ rfl ?_
      · exact List.mem_toFinset
      · refine List.foldl_hom Traversal.of fun entered edge => ?_
        rw [← ih]
        split
        · next seen =>
            rw [ih (above ++ [node]), explore_seen _ _ _ (List.mem_toFinset.mp seen)]
        · rfl

/-- The books a traversal enters are within its height. -/
theorem within_of_entered {start isbn : String} {height : Nat}
    (entered : isbn ∈ (explore engine.traversalOrder (height + 1) [] start []).map Prod.fst) :
    Within engine.successors start height isbn := by
  have tree := DepthFirstTree.of_explore engine.traversalOrder start height
  obtain ⟨path, placed⟩ := (tree.entered_root isbn).mp entered
  exact (Within.congr mem_traversalOrder).mp (tree.within placed)

theorem WellFormed.known_of_within (wellFormed : engine.WellFormed) {start isbn : String}
    (known : start ∈ engine.nodes) {edges : Nat}
    (near : Within engine.successors start edges isbn) : isbn ∈ engine.nodes := by
  obtain ⟨path, walk, _⟩ := near
  exact walk.mem_of_closed known fun _ _ _ edge => wellFormed.successors_mem edge

/-- The books of a learning path are those the traversal enters. -/
theorem learningIsbns_eq (wellFormed : engine.WellFormed) {start : String}
    (known : start ∈ engine.nodes) {maxDepth : Int} (deep : 1 ≤ maxDepth) :
    engine.learningIsbns start maxDepth =
      (explore engine.traversalOrder (edgesAllowed maxDepth + 1) [] start []).map Prod.fst := by
  have levels : maxDepth.toNat = edgesAllowed maxDepth + 1 := by
    unfold edgesAllowed
    omega
  have path := congrArg Traversal.path (engine.dfs_of maxDepth.toNat [] start [])
  change (engine.dfs maxDepth.toNat start ⟨∅, []⟩).path = _ at path
  rw [learningIsbns, dfsLearningPath, if_neg (not_not_intro known), path, List.map_map, levels]
  refine (List.map_congr_left fun isbn entered => ?_).trans (List.map_id _)
  exact (wellFormed.metaOf (wellFormed.known_of_within known (within_of_entered entered))).2

/-- The books within the depth have their tree exactly when the traversal enters them all. -/
theorem fitsDepth_iff (start : String) (maxDepth : Int) :
    FitsDepth engine start maxDepth ↔
      ∀ isbn, Within engine.successors start (edgesAllowed maxDepth) isbn →
        isbn ∈ (explore engine.traversalOrder (edgesAllowed maxDepth + 1) [] start []).map
          Prod.fst := by
  have fits := DepthFirstTree.covers_iff engine.traversalOrder start (edgesAllowed maxDepth)
  simp only [Within.congr mem_traversalOrder] at fits
  exact fits.symm

/-- In a graph built by any calls, with any weights, the learning path of a book covers
its depth exactly when the books within the depth have a depth-first tree of that height. -/
theorem coversDepth_iff (calls : List GraphCall) (start : String) (maxDepth : Int)
    (known : start ∈ (build calls).nodes) (deep : 1 ≤ maxDepth) :
    CoversDepth (build calls) start maxDepth ↔ FitsDepth (build calls) start maxDepth := by
  have same := learningIsbns_eq (wellFormed_build calls) known deep
  refine Iff.trans ⟨fun covers isbn near => ?_, fun reached => ?_⟩ (fitsDepth_iff ..).symm
  · rw [← same]
    exact (covers.covered isbn).mpr near
  · obtain ⟨inside, split, distinct, _⟩ :=
      explore_root (build calls).traversalOrder start (edgesAllowed maxDepth)
    refine ⟨?_, ?_, fun isbn => ?_⟩
    · rw [same, split]
      rfl
    · rw [same, split]
      exact distinct
    · rw [same]
      exact ⟨within_of_entered, reached isbn⟩

/-- A heavy detour from `S` to `B`, which are linked as well, and `C` behind `B`. -/
def detour : List GraphCall :=
  [.addRelation "S" "A" (9 / 10) "SIMILAR_TO" true,
    .addRelation "A" "B" (9 / 10) "SIMILAR_TO" true,
    .addRelation "S" "B" (1 / 10) "SIMILAR_TO" true,
    .addRelation "B" "C" (5 / 10) "SIMILAR_TO" true]

/-- Depth four is enough for the detour. -/
theorem coversDepth_detour : CoversDepth (build detour) "S" 4 := by
  have known : "S" ∈ (build detour).nodes := by decide +kernel
  refine (coversDepth_iff detour "S" 4 known (by decide)).mpr ?_
  have nodes : (build detour).nodes = ["S", "A", "B", "C"] := by decide +kernel
  have entered : (explore (build detour).traversalOrder 4 [] "S" []).map Prod.fst =
      ["S", "A", "B", "C"] := by decide +kernel
  refine (fitsDepth_iff ..).mpr ?_
  intro isbn near
  change isbn ∈ (explore (build detour).traversalOrder 4 [] "S" []).map Prod.fst
  rw [entered, ← nodes]
  exact (wellFormed_build detour).known_of_within known near

/-- At depth three the detour reaches `B` at the last level, so that `C` is left out. -/
theorem not_coversDepth_detour :
    "S" ∈ (build detour).nodes ∧ ¬ CoversDepth (build detour) "S" 3 := by
  have path : (build detour).learningIsbns "S" 3 = ["S", "A", "B"] := by decide +kernel
  refine ⟨by decide +kernel, fun covers => ?_⟩
  have near : Within (build detour).successors "S" 2 "C" := by
    have first : "B" ∈ (build detour).successors "S" := by decide +kernel
    have second : "C" ∈ (build detour).successors "B" := by decide +kernel
    exact ((Within.root _ "S" 0).step first).step second
  have listed := (covers.covered "C").mpr near
  rw [path] at listed
  exact absurd listed (by decide)

end LibraFlow.Dsa.BookGraphEngine
