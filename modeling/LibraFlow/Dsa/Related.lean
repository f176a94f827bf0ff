import LibraFlow.Dsa.Graph
import LibraFlow.Dsa.InvertedIndex
import LibraFlow.Library.Ranking

/-! The books related to a book. A link counts with its weight, and a link of a linked
book with four tenths of it; the books with the largest sums are listed. -/

set_option autoImplicit false

namespace LibraFlow.Dsa

open LibraFlow.Library LibraFlow.Library.Digraph

/-- How much of a list a Python slice with this upper end keeps. -/
def sliceLength (limit : Int) (length : Nat) : Nat :=
  if 0 ≤ limit then limit.toNat else length - limit.natAbs

theorem sliceTo_eq_take {α : Type} (limit : Int) (items : List α) :
    sliceTo limit items = items.take (sliceLength limit items.length) := by
  unfold sliceTo sliceLength
  split <;> rfl

/-- One line of a list of related books. -/
structure RelatedBook where
  isbn : String
  title : String
  category : String
  similarityScore : ℚ
  deriving DecidableEq

namespace BookGraphEngine

/-- The scores after an edge of the root and the edges of the book it leads to. -/
def scoreEdge (engine : BookGraphEngine) (isbn : String) (scores : Dict String ℚ) (edge : Edge) :
    Dict String ℚ :=
  (engine.edgesFrom edge.targetIsbn).foldl
    (fun scores subEdge =>
      if subEdge.targetIsbn ≠ isbn then scores.add subEdge.targetIsbn (subEdge.weight * (4 / 10))
      else scores)
    (scores.add edge.targetIsbn edge.weight)

def relatedScores (engine : BookGraphEngine) (isbn : String) : Dict String ℚ :=
  ((engine.edgesFrom isbn).foldl (engine.scoreEdge isbn) .empty).erase isbn

/-- A line for a book and its score; a book without a record has a placeholder title. -/
def relatedBook (engine : BookGraphEngine) (entry : String × ℚ) : RelatedBook :=
  match (engine.metaOf entry.1).details with
  | some details => ⟨entry.1, details.title, details.category, roundTo 3 entry.2⟩
  | none => ⟨entry.1, "Book " ++ entry.1, "", roundTo 3 entry.2⟩

def getRelatedRecommendations (engine : BookGraphEngine) (isbn : String) (topK : Int := 5) :
    List RelatedBook :=
  if isbn ∉ engine.nodes then []
  else (sliceTo topK (ranked (engine.relatedScores isbn).entries)).map engine.relatedBook

/-- The sum of the weights of the links from a book to another. -/
def linkWeight (engine : BookGraphEngine) (source target : String) : ℚ :=
  (((engine.edgesFrom source).filter fun edge => edge.targetIsbn = target).map Edge.weight).sum

/-- How close a book is to a root: its links, and the links of the linked books. -/
def affinity (engine : BookGraphEngine) (root isbn : String) : ℚ :=
  engine.linkWeight root isbn +
    4 / 10 * ((engine.successors root).map fun between => engine.linkWeight between isbn).sum

/-- The amounts that are added up, in their order. -/
def contributions (engine : BookGraphEngine) (root : String) : List (String × ℚ) :=
  (engine.edgesFrom root).flatMap fun edge =>
    (edge.targetIsbn, edge.weight) ::
      ((engine.edgesFrom edge.targetIsbn).filter fun subEdge => subEdge.targetIsbn ≠ root).map
        fun subEdge => (subEdge.targetIsbn, subEdge.weight * (4 / 10))

section Scores

variable {engine : BookGraphEngine} {root isbn : String}

private theorem scoreEdge_eq (scores : Dict String ℚ) (edge : Edge) :
    engine.scoreEdge root scores edge =
      ((edge.targetIsbn, edge.weight) ::
        ((engine.edgesFrom edge.targetIsbn).filter fun subEdge => subEdge.targetIsbn ≠ root).map
          fun subEdge => (subEdge.targetIsbn, subEdge.weight * (4 / 10))).foldl
        (fun scores update => scores.add update.1 update.2) scores := by
  simp only [scoreEdge, List.foldl_cons, List.foldl_map, List.foldl_filter, decide_eq_true_eq]

private theorem relatedScores_eq (root : String) :
    engine.relatedScores root = (Dict.tally (engine.contributions root)).erase root := by
  rw [relatedScores, Dict.tally, contributions, List.foldl_flatMap]
  congr 2
  funext scores edge
  exact scoreEdge_eq scores edge

/-- The amounts that the links of a linked book add for a book other than the root. -/
theorem amountsOf_links (away : isbn ≠ root) (edges : List Edge) :
    (Dict.amountsOf isbn ((edges.filter fun edge => edge.targetIsbn ≠ root).map
      fun edge => (edge.targetIsbn, edge.weight * (4 / 10)))).sum =
      ((edges.filter fun edge => edge.targetIsbn = isbn).map Edge.weight).sum * (4 / 10) := by
  induction edges with
  | nil => simp [Dict.amountsOf]
  | cons edge rest ih =>
      by_cases found : edge.targetIsbn = isbn
      · simp only [Dict.amountsOf, List.filter_cons, found, away, ne_eq, not_false_eq_true,
          decide_true, ↓reduceIte, List.map_cons, List.sum_cons, add_mul] at ih ⊢
        rw [ih]
      · by_cases back : edge.targetIsbn = root
        · simpa [List.filter_cons, back, found, Ne.symm away] using ih
        · simpa [Dict.amountsOf, List.filter_cons, back, found] using ih

private theorem amountsOf_contributions (away : isbn ≠ root) :
    (Dict.amountsOf isbn (engine.contributions root)).sum = engine.affinity root isbn := by
  unfold contributions affinity
  rw [linkWeight, successors]
  induction engine.edgesFrom root with
  | nil => simp [Dict.amountsOf]
  | cons edge rest ih =>
      have links := amountsOf_links away (engine.edgesFrom edge.targetIsbn)
      have split : ∀ first second : List (String × ℚ), Dict.amountsOf isbn (first ++ second) =
          Dict.amountsOf isbn first ++ Dict.amountsOf isbn second := by
        intro first second
        simp [Dict.amountsOf]
      rw [List.flatMap_cons, split, List.sum_append, ih, ← List.singleton_append, split,
        List.sum_append, links]
      by_cases found : edge.targetIsbn = isbn
      · simp only [Dict.amountsOf, found, decide_true, List.filter_cons_of_pos, List.filter_nil,
          List.map_cons, List.map_nil, List.sum_cons, List.sum_nil]
        unfold linkWeight
        ring
      · simp only [Dict.amountsOf, found, decide_false, Bool.false_eq_true, not_false_eq_true,
          List.filter_cons_of_neg, List.filter_nil, List.map_cons, List.map_nil, List.sum_cons,
          List.sum_nil]
        unfold linkWeight
        ring

/-- The books that get an amount, the root apart, are those within two links. -/
theorem mem_contributions (away : isbn ≠ root) :
    isbn ∈ (engine.contributions root).map Prod.fst ↔ Within engine.successors root 2 isbn := by
  constructor
  · intro member
    obtain ⟨update, listed, rfl⟩ := List.mem_map.mp member
    obtain ⟨edge, linked, added⟩ := List.mem_flatMap.mp listed
    have first : Within engine.successors root 1 edge.targetIsbn :=
      (Within.root _ root 0).step (List.mem_map_of_mem linked)
    rcases List.mem_cons.mp added with rfl | second
    · exact first.mono (by decide)
    · obtain ⟨subEdge, kept, rfl⟩ := List.mem_map.mp second
      exact first.step (List.mem_map_of_mem (List.mem_filter.mp kept).1)
  · intro near
    rcases near.cases with same | ⟨fewer, between, two, reached, last⟩
    · exact absurd same away
    · obtain rfl : fewer = 1 := by omega
      obtain ⟨subEdge, subLinked, rfl⟩ := List.mem_map.mp last
      rcases reached.cases with rfl | ⟨none, parent, one, start, first⟩
      · refine List.mem_map.mpr ⟨(subEdge.targetIsbn, subEdge.weight), ?_, rfl⟩
        exact List.mem_flatMap.mpr ⟨subEdge, subLinked, List.mem_cons_self⟩
      · obtain rfl : none = 0 := by omega
        rcases start.cases with rfl | ⟨_, _, impossible, _⟩
        · obtain ⟨edge, linked, rfl⟩ := List.mem_map.mp first
          refine List.mem_map.mpr ⟨(subEdge.targetIsbn, subEdge.weight * (4 / 10)), ?_, rfl⟩
          refine List.mem_flatMap.mpr ⟨edge, linked, List.mem_cons_of_mem _ ?_⟩
          refine List.mem_map.mpr ⟨subEdge, List.mem_filter.mpr ⟨subLinked, ?_⟩, rfl⟩
          exact decide_eq_true away
        · omega

/-- The scores of the books around a root. -/
theorem get?_relatedScores (root isbn : String) (score : ℚ) :
    (engine.relatedScores root).get? isbn = some score ↔
      isbn ≠ root ∧ Within engine.successors root 2 isbn ∧ score = engine.affinity root isbn := by
  rw [relatedScores_eq, Dict.get?_erase, Dict.get?_tally]
  by_cases same : root = isbn
  · simp [same]
  · have away : isbn ≠ root := Ne.symm same
    rw [if_neg same, amountsOf_contributions away]
    by_cases near : Within engine.successors root 2 isbn
    · rw [if_pos ((mem_contributions away).mpr near)]
      simp [away, near, eq_comm]
    · rw [if_neg fun member => near ((mem_contributions away).mp member)]
      simp [near]

private theorem mem_relatedScores (root isbn : String) (score : ℚ) :
    (isbn, score) ∈ (engine.relatedScores root).entries ↔
      isbn ≠ root ∧ Within engine.successors root 2 isbn ∧ score = engine.affinity root isbn := by
  rw [← Dict.get?_eq_some_iff, get?_relatedScores]

theorem WellFormed.relatedBook (wellFormed : engine.WellFormed) {entry : String × ℚ}
    (known : entry.1 ∈ engine.nodes) :
    ∃ details, engine.nodesMeta.get? entry.1 = some ⟨entry.1, some details⟩ ∧
      engine.relatedBook entry =
        ⟨entry.1, details.title, details.category, roundTo 3 entry.2⟩ := by
  obtain ⟨details, found⟩ := wellFormed.recorded entry.1 known
  have recorded : engine.metaOf entry.1 = ⟨entry.1, some details⟩ := by
    rw [BookGraphEngine.metaOf, found]
    rfl
  exact ⟨details, found, by rw [BookGraphEngine.relatedBook, recorded]⟩

end Scores

/-- In a graph built by any calls, with any weights, loops and parallel links: the books
related to a book are those within two links of it, ranked by the weights of the links to
them and four tenths of the weights of the links through another book. As many are listed
as the limit asks for, each once, and none that is left out is closer. -/
theorem getRelatedRecommendations_spec (calls : List GraphCall) (root : String) (topK : Int)
    (known : root ∈ (build calls).nodes) :
    ∃ near kept : List (String × ℚ), (near.map Prod.fst).Nodup ∧
      (∀ isbn score, (isbn, score) ∈ near ↔ isbn ≠ root ∧
        Within (build calls).successors root 2 isbn ∧
        score = (build calls).affinity root isbn) ∧
      Best (sliceLength topK near.length) near kept ∧ (kept.map Prod.fst).Nodup ∧
      ((build calls).getRelatedRecommendations root topK).map RelatedBook.isbn =
        kept.map Prod.fst ∧
      ∀ line ∈ (build calls).getRelatedRecommendations root topK, ∃ details,
        (build calls).nodesMeta.get? line.isbn = some ⟨line.isbn, some details⟩ ∧
        line = ⟨line.isbn, details.title, details.category,
          roundTo 3 ((build calls).affinity root line.isbn)⟩ := by
  have wellFormed := wellFormed_build calls
  have members := @mem_relatedScores (build calls) root
  have nodup : ((build calls).relatedScores root).keys.Nodup :=
    ((build calls).relatedScores root).keysNodup
  have best := best_take_ranked (sliceLength topK ((build calls).relatedScores root).entries.length)
    ((build calls).relatedScores root).entries
  have listed : (build calls).getRelatedRecommendations root topK =
      ((ranked ((build calls).relatedScores root).entries).take
        (sliceLength topK ((build calls).relatedScores root).entries.length)).map
          (build calls).relatedBook := by
    rw [getRelatedRecommendations, if_neg (not_not_intro known), sliceTo_eq_take,
      (ranked_perm _).length_eq]
  generalize (ranked ((build calls).relatedScores root).entries).take _ = kept at best listed
  have inGraph : ∀ entry ∈ kept, entry.2 = (build calls).affinity root entry.1 ∧
      entry.1 ∈ (build calls).nodes := by
    intro entry member
    obtain ⟨_, near, score⟩ := (members entry.1 entry.2).mp (best.sub.subset member)
    obtain ⟨path, walk, _⟩ := near
    exact ⟨score, walk.mem_of_closed known fun _ _ _ edge => wellFormed.successors_mem edge⟩
  refine ⟨_, kept, nodup, members, best, best.keys_nodup nodup, ?_, ?_⟩
  · rw [listed, List.map_map]
    refine List.map_congr_left fun entry member => ?_
    obtain ⟨details, _, line⟩ := wellFormed.relatedBook (inGraph entry member).2
    rw [Function.comp_apply, line]
  · intro line member
    rw [listed] at member
    obtain ⟨entry, inKept, rfl⟩ := List.mem_map.mp member
    obtain ⟨score, inNodes⟩ := inGraph entry inKept
    obtain ⟨details, found, line⟩ := wellFormed.relatedBook inNodes
    rw [line]
    exact ⟨details, found, by rw [score]⟩

/-- Three books that are linked with each other. -/
def triangle : List GraphCall :=
  [.addRelation "A" "B" (9 / 10) "SIMILAR_TO" true,
    .addRelation "B" "C" (5 / 10) "SIMILAR_TO" true,
    .addRelation "A" "C" (1 / 10) "SIMILAR_TO" true]

theorem getRelatedRecommendations_triangle :
    ((build triangle).getRelatedRecommendations "A" 1).map RelatedBook.isbn = ["B"] ∧
      ∀ line ∈ (build triangle).getRelatedRecommendations "A" 1,
        line.similarityScore = roundTo 3 ((build triangle).affinity "A" line.isbn) := by
  obtain ⟨_, _, _, _, _, _, _, lines⟩ :=
    getRelatedRecommendations_spec triangle "A" 1 (by decide +kernel)
  refine ⟨by decide +kernel, fun line member => ?_⟩
  obtain ⟨_, _, same⟩ := lines line member
  rw [same]

end BookGraphEngine

end LibraFlow.Dsa
