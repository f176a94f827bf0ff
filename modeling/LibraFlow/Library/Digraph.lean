import Mathlib.Data.Finset.Card
import Mathlib.Data.List.Chain

/-! Walks in a directed graph that is given by the successors of its nodes, and the
frontier of a breadth-first search: the discovered walks that wait for expansion are
shortest walks, of two adjacent lengths at most. -/

set_option autoImplicit false

namespace LibraFlow.Library.Digraph

variable {α : Type}

/-- A walk along edges, with the nodes it visits. -/
structure IsPath (next : α → List α) (start target : α) (path : List α) : Prop where
  starts : path.head? = some start
  ends : path.getLast? = some target
  follows : path.IsChain fun node successor => successor ∈ next node

/-- Some walk reaches a node over at most the given number of edges. -/
def Within (next : α → List α) (start : α) (edges : Nat) (node : α) : Prop :=
  ∃ path, IsPath next start node path ∧ path.length ≤ edges + 1

variable {next : α → List α} {start target node successor : α} {path : List α} {edges : Nat}

namespace IsPath

theorem single (next : α → List α) (start : α) : IsPath next start start [start] :=
  ⟨rfl, rfl, .singleton _⟩

theorem ne_nil (walk : IsPath next start target path) : path ≠ [] := by
  intro empty
  subst path
  cases walk.starts

theorem snoc (walk : IsPath next start node path) (edge : successor ∈ next node) :
    IsPath next start successor (path ++ [successor]) where
  starts := by rw [List.head?_append_of_ne_nil _ walk.ne_nil, walk.starts]
  ends := List.getLast?_concat
  follows := by
    refine walk.follows.append (.singleton _) ?_
    intro last found other only
    cases only
    cases walk.ends.symm.trans found
    exact edge

theorem mono {wider : α → List α} (walk : IsPath next start target path)
    (covered : ∀ node, ∀ successor ∈ next node, successor ∈ wider node) :
    IsPath wider start target path :=
  ⟨walk.starts, walk.ends, walk.follows.imp fun node successor edge => covered node successor edge⟩

/-- The last edge of a walk. -/
theorem cases_snoc (walk : IsPath next start target path) :
    path = [start] ∧ target = start ∨
      ∃ above parent, path = above ++ [target] ∧ IsPath next start parent above ∧
        target ∈ next parent := by
  obtain ⟨above, rfl⟩ := List.getLast?_eq_some_iff.mp walk.ends
  cases parts : above.getLast? with
  | none =>
      have empty : above = [] := List.getLast?_eq_none_iff.mp parts
      subst above
      cases walk.starts
      exact .inl ⟨rfl, rfl⟩
  | some parent =>
      have present : above ≠ [] := by
        intro empty
        subst above
        cases parts
      have joined := (List.isChain_append.mp walk.follows)
      refine .inr ⟨above, parent, rfl, ⟨?_, parts, joined.1⟩, joined.2.2 parent parts target rfl⟩
      rw [← walk.starts, List.head?_append_of_ne_nil _ present]

/-- A set that is closed under edges holds the end of every walk it holds the start of. -/
theorem mem_of_closed {closed : α → Prop} (walk : IsPath next start target path)
    (contains : closed start)
    (closure : ∀ node, closed node → ∀ successor ∈ next node, closed successor) :
    closed target := by
  induction path using List.reverseRecOn generalizing target with
  | nil => exact absurd rfl walk.ne_nil
  | append_singleton above last ih =>
      rcases walk.cases_snoc with ⟨_, rfl⟩ | ⟨other, parent, same, shorter, edge⟩
      · exact contains
      · obtain ⟨rfl, _⟩ := List.append_inj' same rfl
        exact closure parent (ih shorter) target edge

end IsPath

namespace Within

theorem congr {other : α → List α}
    (same : ∀ node successor, successor ∈ next node ↔ successor ∈ other node) :
    Within next start edges node ↔ Within other start edges node := by
  refine exists_congr fun path => and_congr_left fun _ => ⟨fun walk => ?_, fun walk => ?_⟩
  · exact walk.mono fun node successor => (same node successor).mp
  · exact walk.mono fun node successor => (same node successor).mpr

theorem root (next : α → List α) (start : α) (edges : Nat) : Within next start edges start :=
  ⟨[start], .single next start, by simp⟩

theorem mono {more : Nat} (reached : Within next start edges node) (fewer : edges ≤ more) :
    Within next start more node := by
  obtain ⟨path, walk, short⟩ := reached
  exact ⟨path, walk, by omega⟩

theorem step (reached : Within next start edges node) (edge : successor ∈ next node) :
    Within next start (edges + 1) successor := by
  obtain ⟨path, walk, short⟩ := reached
  exact ⟨path ++ [successor], walk.snoc edge, by
    rw [List.length_append, List.length_singleton]
    omega⟩

theorem cases (reached : Within next start edges node) :
    node = start ∨
      ∃ fewer parent, edges = fewer + 1 ∧ Within next start fewer parent ∧ node ∈ next parent := by
  obtain ⟨path, walk, short⟩ := reached
  rcases walk.cases_snoc with ⟨_, same⟩ | ⟨above, parent, rfl, shorter, edge⟩
  · exact .inl same
  · rw [List.length_append, List.length_singleton] at short
    have positive := List.length_pos_iff.mpr shorter.ne_nil
    exact .inr ⟨edges - 1, parent, by omega, ⟨above, shorter, by omega⟩, edge⟩

end Within

/-- A shortest walk from the start, through discovered nodes only. -/
structure Found (next : α → List α) (start : α) (visited : Finset α) (edges : Nat)
    (path : List α) (last : α) : Prop where
  walk : IsPath next start last path
  length : path.length = edges + 1
  simple : path.Nodup
  discovered : ∀ node ∈ path, node ∈ visited
  shortest : ∀ fewer, Within next start fewer last → edges ≤ fewer

/-- The state of a breadth-first search at a level: walks of that many edges come before
walks of one edge more, every node within the level is discovered, and so are the
successors of every node that does not wait. -/
structure Frontier (next : α → List α) (start target : α) (level : Nat) (visited : Finset α)
    (current following : List (List α)) : Prop where
  root : start ∈ visited
  near : ∀ path ∈ current, ∃ last, Found next start visited level path last
  far : ∀ path ∈ following, ∃ last, Found next start visited (level + 1) path last
  reached : ∀ node, Within next start level node → node ∈ visited
  expanded : ∀ node ∈ visited, (∃ path ∈ current ++ following, path.getLast? = some node) ∨
    node ≠ target ∧ ∀ successor ∈ next node, successor ∈ visited

/-- The nodes a scan discovers among the successors it is given. -/
structure Fresh [DecidableEq α] (successors : List α) (visited : Finset α) (fresh : List α) :
    Prop where
  distinct : fresh.Nodup
  new : ∀ node ∈ fresh, node ∉ visited ∧ node ∈ successors
  complete : ∀ node ∈ successors, node ∈ visited ∨ node ∈ fresh

theorem Found.mono {visited wider : Finset α} {last : α}
    (found : Found next start visited edges path last) (covered : visited ⊆ wider) :
    Found next start wider edges path last :=
  { found with discovered := fun node member => covered (found.discovered node member) }

namespace Frontier

variable {level : Nat} {visited : Finset α} {current following : List (List α)}

theorem initial [DecidableEq α] (next : α → List α) (start target : α) :
    Frontier next start target 0 {start} [[start]] [] where
  root := Finset.mem_singleton_self start
  near path member := by
    rw [List.mem_singleton] at member
    subst path
    exact ⟨start, .single next start, rfl, List.nodup_singleton start, by simp, by simp⟩
  far := by simp
  reached node found := by
    rcases found.cases with rfl | ⟨fewer, _, impossible, _⟩
    · exact Finset.mem_singleton_self node
    · omega
  expanded node member := by
    rw [Finset.mem_singleton] at member
    subst node
    exact .inl ⟨[start], by simp, rfl⟩

/-- When no walk of the level waits any more, the search is at the next level. -/
theorem shift (frontier : Frontier next start target level visited [] following) :
    Frontier next start target (level + 1) visited following [] where
  root := frontier.root
  near := frontier.far
  far := by simp
  expanded := by simpa using frontier.expanded
  reached node found := by
    rcases found.cases with rfl | ⟨fewer, parent, same, close, edge⟩
    · exact frontier.root
    · obtain rfl : level = fewer := by omega
      rcases frontier.expanded parent (frontier.reached parent close) with
        ⟨path, member, ends⟩ | ⟨_, successors⟩
      -- a node within the level is not the end of a longer shortest walk
      · obtain ⟨last, walk⟩ := frontier.far path member
        cases walk.walk.ends.symm.trans ends
        have := walk.shortest level close
        omega
      · exact successors node edge

/-- Expanding the first walk appends one walk for each node it discovers. -/
theorem advance [DecidableEq α] {last : α} {fresh : List α}
    (frontier : Frontier next start target level visited (path :: current) following)
    (ends : path.getLast? = some last) (other : last ≠ target)
    (scanned : Fresh (next last) visited fresh) :
    Frontier next start target level (visited ∪ fresh.toFinset) current
      (following ++ fresh.map fun node => path ++ [node]) where
  root := Finset.mem_union_left _ frontier.root
  near waiting member := by
    obtain ⟨node, found⟩ := frontier.near waiting (List.mem_cons_of_mem _ member)
    exact ⟨node, found.mono Finset.subset_union_left⟩
  far waiting member := by
    rcases List.mem_append.mp member with earlier | added
    · obtain ⟨node, found⟩ := frontier.far waiting earlier
      exact ⟨node, found.mono Finset.subset_union_left⟩
    · obtain ⟨node, discovered, rfl⟩ := List.mem_map.mp added
      obtain ⟨_, found⟩ := frontier.near path List.mem_cons_self
      cases found.walk.ends.symm.trans ends
      obtain ⟨unseen, edge⟩ := scanned.new node discovered
      refine ⟨node, found.walk.snoc edge, by simp [found.length], ?_, ?_, ?_⟩
      · refine List.nodup_append.mpr ⟨found.simple, List.nodup_singleton node, ?_⟩
        intro left leftMember right rightMember equal
        rw [List.mem_singleton] at rightMember
        subst equal rightMember
        exact unseen (found.discovered left leftMember)
      · intro visitedNode member
        rcases List.mem_append.mp member with before | same
        · exact Finset.mem_union_left _ (found.discovered visitedNode before)
        · rw [List.mem_singleton] at same
          subst visitedNode
          exact Finset.mem_union_right _ (List.mem_toFinset.mpr discovered)
      · intro fewer close
        by_contra short
        exact unseen (frontier.reached node (close.mono (by omega)))
  reached node close := Finset.mem_union_left _ (frontier.reached node close)
  expanded node member := by
    rcases Finset.mem_union.mp member with before | discovered
    · rcases frontier.expanded node before with ⟨waiting, queued, atEnd⟩ | ⟨different, closed⟩
      · rcases List.mem_cons.mp queued with rfl | later
        · cases ends.symm.trans atEnd
          refine .inr ⟨other, fun successor edge => ?_⟩
          rcases scanned.complete successor edge with seen | found
          · exact Finset.mem_union_left _ seen
          · exact Finset.mem_union_right _ (List.mem_toFinset.mpr found)
        · refine .inl ⟨waiting, ?_, atEnd⟩
          rw [← List.append_assoc]
          exact List.mem_append_left _ later
      · refine .inr ⟨different, fun successor edge => ?_⟩
        exact Finset.mem_union_left _ (closed successor edge)
    · refine .inl ⟨path ++ [node], ?_, List.getLast?_concat⟩
      refine List.mem_append_right _ (List.mem_append_right _ ?_)
      exact List.mem_map.mpr ⟨node, List.mem_toFinset.mp discovered, rfl⟩

/-- The first walk to the target is a shortest one. -/
theorem shortest (frontier : Frontier next start target level visited (path :: current) following)
    (ends : path.getLast? = some target) :
    IsPath next start target path ∧ path.Nodup ∧
      ∀ other, IsPath next start target other → path.length ≤ other.length := by
  obtain ⟨last, found⟩ := frontier.near path List.mem_cons_self
  cases found.walk.ends.symm.trans ends
  refine ⟨found.walk, found.simple, fun other walk => ?_⟩
  have positive := List.length_pos_iff.mpr walk.ne_nil
  have least := found.shortest (other.length - 1) ⟨other, walk, by omega⟩
  have := found.length
  omega

/-- Once no walk waits, there is no walk to the target. -/
theorem exhausted (frontier : Frontier next start target level visited [] []) :
    ¬ IsPath next start target path := by
  intro walk
  have settled : ∀ node ∈ visited,
      node ≠ target ∧ ∀ successor ∈ next node, successor ∈ visited := by
    intro node member
    rcases frontier.expanded node member with ⟨_, impossible, _⟩ | settled
    · cases impossible
    · exact settled
  have discovered : target ∈ visited :=
    walk.mem_of_closed frontier.root fun node member => (settled node member).2
  exact (settled target discovered).1 rfl

end Frontier

end LibraFlow.Library.Digraph
