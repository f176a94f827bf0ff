import Mathlib.Algebra.BigOperators.Group.Finset.Basic
import Mathlib.Algebra.Order.BigOperators.Group.Finset
import Mathlib.Data.Finset.Insert

/-! Emptying a priority queue, and greedy choice in a family of finite sets closed
under subsets. When adding an element to a part of an independent set costs at
most `k` other elements, choosing by decreasing weight gives at least a `k`-th of
the best weight. -/

set_option autoImplicit false

namespace LibraFlow.Library

/-- The elements of a heap in an order in which each one taken out is a minimum
of those still in it. -/
inductive Drains {α : Type} (before : α → α → Prop) : List α → List α → Prop where
  | nil : Drains before [] []
  | pop {heap remaining popped : List α} {item : α} : heap.Perm (item :: remaining) →
      (∀ other ∈ remaining, before item other) → Drains before remaining popped →
      Drains before heap (item :: popped)

namespace Drains

variable {α : Type} {before : α → α → Prop} {heap popped : List α}

theorem perm (drains : Drains before heap popped) : popped.Perm heap := by
  induction drains with
  | nil => exact .nil
  | pop taken _ _ ih => exact (ih.cons _).trans taken.symm

theorem sorted (drains : Drains before heap popped) : popped.Pairwise before := by
  induction drains with
  | nil => exact .nil
  | pop _ minimum later ih =>
      exact .cons (fun other member => minimum other (later.perm.subset member)) ih

/-- Any sorted arrangement is such an order. -/
theorem of_sorted (arranged : popped.Perm heap) (sorted : popped.Pairwise before) :
    Drains before heap popped := by
  induction popped generalizing heap with
  | nil =>
      rw [List.nil_perm.mp arranged]
      exact .nil
  | cons item rest ih =>
      obtain ⟨minimum, sortedRest⟩ := List.pairwise_cons.mp sorted
      exact .pop arranged.symm minimum (ih (.refl rest) sortedRest)

end Drains

structure IndependenceSystem (α : Type) where
  Independent : Finset α → Prop
  empty : Independent ∅
  subset : ∀ {small large : Finset α}, Independent large → small ⊆ large → Independent small

namespace IndependenceSystem

variable {α : Type} [DecidableEq α] (system : IndependenceSystem α)

open Classical in
/-- Add an element to the chosen ones when it fits. -/
noncomputable def choose (chosen : Finset α) (item : α) : Finset α :=
  if system.Independent (insert item chosen) then insert item chosen else chosen

noncomputable def greedy (order : List α) (chosen : Finset α) : Finset α :=
  order.foldl system.choose chosen

/-- An element that extends a part of an independent set can replace at most `k`
elements outside that part. -/
def Extendible (k : Nat) : Prop :=
  ∀ {part whole : Finset α} {item : α}, part ⊆ whole → system.Independent whole →
    item ∉ whole → system.Independent (insert item part) →
      ∃ removed ⊆ whole \ part, removed.card ≤ k ∧
        system.Independent (insert item (whole \ removed))

variable {system}

theorem choose_independent {chosen : Finset α} (item : α) (independent : system.Independent chosen) :
    system.Independent (system.choose chosen item) := by
  unfold choose
  split
  · assumption
  · exact independent

theorem subset_choose (chosen : Finset α) (item : α) : chosen ⊆ system.choose chosen item := by
  unfold choose
  split
  · exact Finset.subset_insert item chosen
  · exact Finset.Subset.refl chosen

theorem greedy_independent (order : List α) {chosen : Finset α}
    (independent : system.Independent chosen) : system.Independent (system.greedy order chosen) := by
  induction order generalizing chosen with
  | nil => exact independent
  | cons item rest ih => exact ih (choose_independent item independent)

theorem subset_greedy (order : List α) (chosen : Finset α) :
    chosen ⊆ system.greedy order chosen := by
  induction order generalizing chosen with
  | nil => exact Finset.Subset.refl chosen
  | cons item rest ih => exact (subset_choose chosen item).trans (ih _)

/-- An element left out fits no longer. -/
theorem mem_greedy_of_fits {order : List α} {chosen : Finset α} {item : α} (listed : item ∈ order)
    (fits : system.Independent (insert item (system.greedy order chosen))) :
    item ∈ system.greedy order chosen := by
  induction order generalizing chosen with
  | nil => cases listed
  | cons first rest ih =>
      rcases List.mem_cons.mp listed with same | later
      · subst same
        apply subset_greedy rest
        have fitted : system.Independent (insert item chosen) := by
          apply system.subset fits
          exact Finset.insert_subset_insert item
            ((subset_choose chosen item).trans (subset_greedy rest _))
        rw [choose, if_pos fitted]
        exact Finset.mem_insert_self item chosen
      · exact ih later fits

section Weights

variable {R : Type} [AddCommMonoid R] [PartialOrder R] [IsOrderedAddMonoid R] {weight : α → R}

/-- Make room for a chosen element: what an independent set loses weighs at most
`k` times as much as the element. -/
theorem exists_exchange {k : Nat} (extendible : system.Extendible k) (positive : 1 ≤ k)
    {part whole : Finset α} {item : α} (included : part ⊆ whole)
    (independent : system.Independent whole) (fresh : item ∉ part)
    (fits : system.Independent (insert item part)) (nonnegative : 0 ≤ weight item)
    (heaviest : ∀ other ∈ whole \ part, weight other ≤ weight item) :
    ∃ exchanged, insert item part ⊆ exchanged ∧ system.Independent exchanged ∧
      exchanged \ insert item part ⊆ (whole \ part).erase item ∧
      ∑ other ∈ whole \ part, weight other ≤
        k • weight item + ∑ other ∈ exchanged \ insert item part, weight other := by
  by_cases present : item ∈ whole
  · refine ⟨whole, Finset.insert_subset present included, independent, ?_, ?_⟩
    · intro other member
      simp only [Finset.mem_sdiff, Finset.mem_insert, not_or] at member
      simp [member]
    · have split : whole \ part = insert item (whole \ insert item part) := by
        rw [Finset.insert_eq, Finset.insert_eq, Finset.sdiff_union_distrib]
        ext other
        by_cases same : other = item <;> simp [same, present, fresh]
      rw [split, Finset.sum_insert (by simp)]
      exact add_le_add_left (le_self_nsmul nonnegative (Nat.one_le_iff_ne_zero.mp positive)) _
  · obtain ⟨removed, outside, few, exchanged⟩ := extendible included independent present fits
    have kept : insert item (whole \ removed) \ insert item part = (whole \ part) \ removed := by
      ext other
      by_cases same : other = item
      · simp [same, present]
      · simp only [Finset.mem_sdiff, Finset.mem_insert, same, false_or]
        tauto
    have lost : ∑ other ∈ removed, weight other ≤ k • weight item :=
      calc ∑ other ∈ removed, weight other
          ≤ removed.card • weight item :=
            Finset.sum_le_card_nsmul removed weight _ fun other member =>
              heaviest other (outside member)
        _ ≤ k • weight item := nsmul_le_nsmul_left nonnegative few
    refine ⟨insert item (whole \ removed), ?_, exchanged, ?_, ?_⟩
    · apply Finset.insert_subset_insert
      intro other member
      refine Finset.mem_sdiff.mpr ⟨included member, ?_⟩
      intro gone
      exact (Finset.mem_sdiff.mp (outside gone)).2 member
    · rw [kept]
      intro other member
      obtain ⟨old, _⟩ := Finset.mem_sdiff.mp member
      refine Finset.mem_erase.mpr ⟨?_, old⟩
      intro same
      exact present (same ▸ (Finset.mem_sdiff.mp old).1)
    · rw [kept, ← Finset.sum_sdiff outside, add_comm]
      exact add_le_add_left lost _

/-- What the greedy choice adds to a part weighs at least a `k`-th of what any
independent set adds to it. -/
theorem weight_sdiff_le {k : Nat} (extendible : system.Extendible k) (positive : 1 ≤ k)
    {order : List α} (sorted : order.Pairwise fun first later => weight later ≤ weight first)
    (nonnegative : ∀ item ∈ order, 0 ≤ weight item) {part whole : Finset α} (included : part ⊆ whole)
    (independent : system.Independent whole) (covered : ∀ item ∈ whole \ part, item ∈ order) :
    ∑ item ∈ whole \ part, weight item ≤
      k • ∑ item ∈ system.greedy order part \ part, weight item := by
  -- Along the order, an independent set is exchanged for one that contains the choice so far.
  induction order generalizing part whole with
  | nil =>
      have nothing : whole \ part = ∅ := Finset.eq_empty_of_forall_notMem fun item member => by
        cases covered item member
      have unchanged : system.greedy [] part \ part = ∅ := Finset.sdiff_self part
      rw [nothing, unchanged, Finset.sum_empty, nsmul_zero]
  | cons item rest ih =>
      obtain ⟨first, sortedRest⟩ := List.pairwise_cons.mp sorted
      have nonnegativeRest : ∀ other ∈ rest, 0 ≤ weight other := fun other member =>
        nonnegative other (List.mem_cons_of_mem item member)
      have inRest : ∀ other ∈ whole \ part, other ≠ item → other ∈ rest := fun other member other_ne =>
        (List.mem_cons.mp (covered other member)).resolve_left other_ne
      by_cases taken : item ∉ part ∧ system.Independent (insert item part)
      · obtain ⟨fresh, fits⟩ := taken
        have step : system.greedy (item :: rest) part = system.greedy rest (insert item part) := by
          rw [greedy, List.foldl_cons, choose, if_pos fits, greedy]
        have heaviest : ∀ other ∈ whole \ part, weight other ≤ weight item := by
          intro other member
          rcases List.mem_cons.mp (covered other member) with same | later
          · rw [same]
          · exact first other later
        obtain ⟨exchanged, contains, exchangedIndependent, shrunk, bound⟩ := exists_exchange
          extendible positive included independent fresh fits
          (nonnegative item List.mem_cons_self) heaviest
        have others := ih sortedRest nonnegativeRest contains exchangedIndependent
          fun other member => by
            obtain ⟨other_ne, old⟩ := Finset.mem_erase.mp (shrunk member)
            exact inRest other old other_ne
        have chosen : system.greedy rest (insert item part) \ part =
            insert item (system.greedy rest (insert item part) \ insert item part) := by
          ext other
          by_cases same : other = item
          · simp [same, fresh, subset_greedy rest _ (Finset.mem_insert_self item part)]
          · simp [same]
        rw [step, chosen, Finset.sum_insert (by simp), nsmul_add]
        exact bound.trans (add_le_add_right others _)
      · have notMember : item ∉ whole \ part := by
          intro member
          obtain ⟨present, fresh⟩ := Finset.mem_sdiff.mp member
          exact taken ⟨fresh, system.subset independent (Finset.insert_subset present included)⟩
        have step : system.greedy (item :: rest) part = system.greedy rest part := by
          rw [greedy, List.foldl_cons, choose, greedy]
          split
          · next fits =>
              have old : item ∈ part := by
                by_contra fresh
                exact taken ⟨fresh, fits⟩
              rw [Finset.insert_eq_of_mem old]
          · rfl
        rw [step]
        exact ih sortedRest nonnegativeRest included independent fun other member =>
          inRest other member fun same => notMember (same ▸ member)

theorem weight_le {k : Nat} (extendible : system.Extendible k) (positive : 1 ≤ k)
    {order : List α} (sorted : order.Pairwise fun first later => weight later ≤ weight first)
    (nonnegative : ∀ item ∈ order, 0 ≤ weight item) {whole : Finset α}
    (independent : system.Independent whole) (covered : ∀ item ∈ whole, item ∈ order) :
    ∑ item ∈ whole, weight item ≤ k • ∑ item ∈ system.greedy order ∅, weight item := by
  have bound := weight_sdiff_le extendible positive sorted nonnegative (Finset.empty_subset whole)
    independent (by simpa using covered)
  simpa using bound

end Weights

end IndependenceSystem

end LibraFlow.Library
