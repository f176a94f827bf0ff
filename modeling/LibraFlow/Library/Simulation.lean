import LibraFlow.Library.Proc
import LibraFlow.Library.Run

/-! Two systems that serve the same calls side by side. When a relation between their
states is kept by every permitted call, and makes the two outcomes of such a call agree,
the systems cannot be told apart in a run. -/

set_option autoImplicit false

namespace LibraFlow.Library

/-- Rename the value a procedure returns. -/
def Proc.returning {σ ε α β : Type} (name : α → β) (procedure : Proc σ ε α) : Proc σ ε β :=
  fun state => ((procedure state).1.map name, (procedure state).2)

section Simulation

variable {σ τ ι α β : Type}

/-- Both systems serve one call. -/
def SideBySide (first : ι → σ → α × σ) (second : ι → τ → β × τ) (before : σ × τ) (call : ι)
    (after : σ × τ) : Prop :=
  ((first call before.1).2, (second call before.2).2) = after

/-- Permitted calls on related states have outcomes that agree, and keep the relation. -/
structure Simulates (first : ι → σ → α × σ) (second : ι → τ → β × τ) (related : σ → τ → Prop)
    (permitted : σ → ι → Prop) (agree : σ → ι → α → β → Prop) : Prop where
  outcomes : ∀ state other call, related state other → permitted state call →
    agree state call (first call state).1 (second call other).1
  related : ∀ state other call, related state other → permitted state call →
    related (first call state).2 (second call other).2

theorem Simulates.run {first : ι → σ → α × σ} {second : ι → τ → β × τ}
    {related : σ → τ → Prop} {permitted : σ → ι → Prop} {agree : σ → ι → α → β → Prop}
    (simulates : Simulates first second related permitted agree) {start final : σ × τ}
    {trace : List (Transition (σ × τ) ι)} (run : Run (SideBySide first second) start trace final)
    (initially : related start.1 start.2)
    (allowed : ∀ taken ∈ trace, permitted taken.before.1 taken.label) :
    (∀ taken ∈ trace, agree taken.before.1 taken.label (first taken.label taken.before.1).1
      (second taken.label taken.before.2).1) ∧ related final.1 final.2 := by
  induction run with
  | nil => exact ⟨by simp, initially⟩
  | snoc _ taken ih =>
      obtain ⟨earlier, middle⟩ := ih fun taken member =>
        allowed taken (List.mem_append_left _ member)
      have last := allowed _ (List.mem_append_right _ List.mem_cons_self)
      cases taken
      refine ⟨?_, simulates.related _ _ _ middle last⟩
      intro taken member
      rcases List.mem_append.mp member with old | new
      · exact earlier taken old
      · rw [List.mem_singleton] at new
        subst new
        exact simulates.outcomes _ _ _ middle last

end Simulation

end LibraFlow.Library
