import LibraFlow.Library.Run
import Mathlib.Algebra.Order.BigOperators.Group.Finset

/-! Participants that take turns in a shared system. When every turn leaves less to do
for the one that takes it and no more for the others, no schedule goes on for ever. When
a participant that cannot move waits for one that can, or for one on a higher level, no
schedule gets stuck before all have finished. -/

set_option autoImplicit false

namespace LibraFlow.Library

namespace Run

variable {σ ι κ : Type} {step : σ → ι → σ → Prop} {start final : σ}
  {trace : List (Transition σ ι)}

/-- The number of turns is bounded by what there is to do at the start. -/
theorem length_add_left_le [DecidableEq κ] {participants : Finset κ} {left : σ → κ → Nat}
    {Invariant : σ → Prop} (run : Run step start trace final) (initially : Invariant start)
    (preserved : ∀ before label after, Invariant before → step before label after →
      Invariant after)
    (lowers : ∀ before label after, Invariant before → step before label after →
      ∃ id ∈ participants, left after id < left before id ∧
        ∀ other, other ≠ id → left after other = left before other) :
    trace.length + ∑ id ∈ participants, left final id ≤ ∑ id ∈ participants, left start id := by
  induction run with
  | nil => simp
  | @snoc trace before after label earlier taken ih =>
      have invariant := earlier.always initially preserved
      obtain ⟨id, present, lower, others⟩ := lowers before label after invariant taken
      have less : ∑ id ∈ participants, left after id < ∑ id ∈ participants, left before id := by
        apply Finset.sum_lt_sum
        · intro other _
          by_cases same : other = id
          · subst other
            exact Nat.le_of_lt lower
          · exact Nat.le_of_eq (others other same)
        · exact ⟨id, present, lower⟩
      rw [List.length_append, List.length_singleton]
      omega

end Run

/-- Waiting leads upwards, so somebody at the end of the chain can move. -/
theorem exists_ready_of_waiting {κ : Type} {Busy Ready : κ → Prop} {level : κ → Nat} {bound : Nat}
    (bounded : ∀ id, Busy id → level id ≤ bound)
    (waits : ∀ id, Busy id → ¬ Ready id →
      ∃ holder, Busy holder ∧ (Ready holder ∨ level id < level holder))
    {id : κ} (busy : Busy id) : ∃ other, Busy other ∧ Ready other := by
  induction distance : bound - level id using Nat.strongRecOn generalizing id with
  | ind distance ih =>
      by_cases ready : Ready id
      · exact ⟨id, busy, ready⟩
      · obtain ⟨holder, active, free | higher⟩ := waits id busy ready
        · exact ⟨holder, active, free⟩
        · have below := bounded holder active
          exact ih (bound - level holder) (by omega) active rfl

end LibraFlow.Library
