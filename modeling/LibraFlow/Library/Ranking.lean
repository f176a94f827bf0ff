import LibraFlow.Library.Dict
import Mathlib.Algebra.BigOperators.Group.List.Basic
import Mathlib.Data.List.Sort

/-! Amounts that are added up under keys, and the entries with the largest ones. -/

set_option autoImplicit false

namespace LibraFlow.Library

variable {κ S : Type}

namespace Dict

variable [DecidableEq κ] [AddMonoid S]

/-- Add to what is kept under a key; a new key starts at zero. -/
def add (scores : Dict κ S) (key : κ) (amount : S) : Dict κ S :=
  scores.set key ((scores.get? key).getD 0 + amount)

def tally (updates : List (κ × S)) : Dict κ S :=
  updates.foldl (fun scores update => scores.add update.1 update.2) .empty

/-- The amounts under one key. -/
def amountsOf (key : κ) (updates : List (κ × S)) : List S :=
  (updates.filter fun update => update.1 = key).map Prod.snd

theorem get?_add (scores : Dict κ S) (key other : κ) (amount : S) :
    (scores.add key amount).get? other =
      if key = other then some ((scores.get? key).getD 0 + amount) else scores.get? other :=
  get?_set scores key other _

omit [AddMonoid S] in
theorem mem_amountsOf_ne_nil (key : κ) (updates : List (κ × S)) :
    amountsOf key updates ≠ [] ↔ key ∈ updates.map Prod.fst := by
  simp [amountsOf, List.filter_eq_nil_iff]

theorem get?_foldl_add (scores : Dict κ S) (updates : List (κ × S)) (key : κ) :
    (updates.foldl (fun scores update => scores.add update.1 update.2) scores).get? key =
      if key ∈ updates.map Prod.fst then
        some ((scores.get? key).getD 0 + (amountsOf key updates).sum)
      else scores.get? key := by
  induction updates generalizing scores with
  | nil => rfl
  | cons update rest ih =>
      obtain ⟨changed, amount⟩ := update
      simp only [List.foldl_cons, ih, List.map_cons, List.mem_cons]
      by_cases same : changed = key
      · subst changed
        have first : amountsOf key ((key, amount) :: rest) = amount :: amountsOf key rest := by
          simp [amountsOf]
        rw [if_pos (Or.inl rfl : key = key ∨ key ∈ rest.map Prod.fst), first, List.sum_cons,
          ← add_assoc, get?_add, if_pos rfl, Option.getD_some]
        split
        · rfl
        · next absent =>
            have none : amountsOf key rest = [] := by
              by_contra found
              exact absent ((mem_amountsOf_ne_nil key rest).mp found)
            rw [none, List.sum_nil, add_zero]
      · have skipped : amountsOf key ((changed, amount) :: rest) = amountsOf key rest := by
          simp [amountsOf, same]
        rw [get?_add, if_neg same, skipped]
        have other : (key = changed ∨ key ∈ rest.map Prod.fst) ↔ key ∈ rest.map Prod.fst :=
          or_iff_right (Ne.symm same)
        simp only [other]

/-- What a tally has under a key is the sum of its amounts. -/
theorem get?_tally (updates : List (κ × S)) (key : κ) :
    (tally updates).get? key =
      if key ∈ updates.map Prod.fst then some (amountsOf key updates).sum else none := by
  rw [tally, get?_foldl_add]
  simp

end Dict

/-- Larger scores come first, equal ones in the order they had. -/
def ranked [LinearOrder S] (entries : List (κ × S)) : List (κ × S) :=
  entries.insertionSort fun left right => right.2 ≤ left.2

/-- Some of the entries, the largest first, such that none left out is larger. -/
structure Best [LinearOrder S] (limit : Nat) (entries kept : List (κ × S)) : Prop where
  sub : List.Subperm kept entries
  length : kept.length = min limit entries.length
  sorted : kept.Pairwise fun left right => right.2 ≤ left.2
  best : ∀ entry ∈ entries, entry ∉ kept → ∀ other ∈ kept, entry.2 ≤ other.2

section Ranked

variable [LinearOrder S] {entries kept : List (κ × S)} {limit : Nat}

theorem ranked_perm (entries : List (κ × S)) : (ranked entries).Perm entries :=
  List.perm_insertionSort _ _

theorem ranked_sorted (entries : List (κ × S)) :
    (ranked entries).Pairwise fun left right => right.2 ≤ left.2 := by
  have total : Std.Total fun left right : κ × S => right.2 ≤ left.2 :=
    ⟨fun left right => le_total right.2 left.2⟩
  have trans : IsTrans (κ × S) fun left right => right.2 ≤ left.2 :=
    ⟨fun _ _ _ first second => second.trans first⟩
  exact List.pairwise_insertionSort _ _

theorem best_take_ranked (limit : Nat) (entries : List (κ × S)) :
    Best limit entries ((ranked entries).take limit) where
  sub := (List.take_sublist _ _).subperm.trans (ranked_perm entries).subperm
  length := by rw [List.length_take, (ranked_perm entries).length_eq]
  sorted := (ranked_sorted entries).sublist (List.take_sublist _ _)
  best := by
    intro entry member omitted other kept
    have listed : entry ∈ ranked entries := (ranked_perm entries).mem_iff.mpr member
    rw [← List.take_append_drop limit (ranked entries), List.mem_append] at listed
    have dropped := listed.resolve_left omitted
    have sorted := ranked_sorted entries
    rw [← List.take_append_drop limit (ranked entries), List.pairwise_append] at sorted
    exact sorted.2.2 other kept entry dropped

theorem Best.keys_nodup (best : Best limit entries kept)
    (distinct : (entries.map Prod.fst).Nodup) : (kept.map Prod.fst).Nodup := by
  obtain ⟨same, perm, sublist⟩ := best.sub
  exact (perm.map Prod.fst).nodup_iff.mp (distinct.sublist (sublist.map Prod.fst))

end Ranked

end LibraFlow.Library
