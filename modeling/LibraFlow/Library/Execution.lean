import Mathlib.Order.WellFounded
import LibraFlow.Library.Run

/-! Infinite executions of a labelled transition system, and progress under
fairness: a rank that no step raises and that every step of one kind lowers
cannot be lowered for ever. -/

set_option autoImplicit false

namespace LibraFlow.Library

structure Execution {σ ι : Type} (step : σ → ι → σ → Prop) where
  states : Nat → σ
  labels : Nat → ι
  taken : ∀ time, step (states time) (labels time) (states (time + 1))

namespace Execution

/-- The states of a deterministic system under a sequence of labels. -/
def follow {σ ι : Type} (exec : σ → ι → σ) (start : σ) (labels : Nat → ι) : Nat → σ
  | 0 => start
  | time + 1 => exec (follow exec start labels time) (labels time)

def ofLabels {σ ι : Type} {step : σ → ι → σ → Prop} {exec : σ → ι → σ} (start : σ)
    (labels : Nat → ι) (taken : ∀ state label, step state label (exec state label)) :
    Execution step where
  states := follow exec start labels
  labels := labels
  taken _ := taken _ _

variable {σ ι : Type} {step : σ → ι → σ → Prop} (execution : Execution step)

/-- A property kept by every transition from some time on holds ever after. -/
theorem invariant {Invariant : σ → Prop} {start time : Nat} (reached : start ≤ time)
    (initially : Invariant (execution.states start))
    (preserved : ∀ moment, start ≤ moment → Invariant (execution.states moment) →
      Invariant (execution.states (moment + 1))) : Invariant (execution.states time) := by
  induction time, reached using Nat.le_induction with
  | base => exact initially
  | succ moment later ih => exact preserved moment later ih

/-- Until the goal is reached, every step keeps the invariant and does not raise
the rank, and every step of the fair kind lowers it. -/
def Progress {α : Type} [Preorder α] (rank : σ → α) (Invariant Goal : σ → Prop) (Fair : ι → Prop)
    (time : Nat) : Prop :=
  Invariant (execution.states time) →
    Goal (execution.states time) ∨ Goal (execution.states (time + 1)) ∨
    Invariant (execution.states (time + 1)) ∧
      rank (execution.states (time + 1)) ≤ rank (execution.states time) ∧
      (Fair (execution.labels time) →
        rank (execution.states (time + 1)) < rank (execution.states time))

variable {α : Type} [Preorder α] {rank : σ → α} {Invariant Goal : σ → Prop} {Fair : ι → Prop}

/-- The next fair step reaches the goal or lowers the rank, unless the goal is
reached before. -/
theorem next_fair (distance : Nat) {start : Nat} (initially : Invariant (execution.states start))
    (fair : Fair (execution.labels (start + distance)))
    (progress : ∀ time, start ≤ time → execution.Progress rank Invariant Goal Fair time) :
    (∃ time, start ≤ time ∧ Goal (execution.states time)) ∨
    ∃ time, start < time ∧ Invariant (execution.states time) ∧
      rank (execution.states time) < rank (execution.states start) := by
  induction distance generalizing start with
  | zero =>
      rcases progress start (Nat.le_refl start) initially with here | next | ⟨kept, _, lower⟩
      · exact .inl ⟨start, Nat.le_refl start, here⟩
      · exact .inl ⟨start + 1, Nat.le_succ start, next⟩
      · exact .inr ⟨start + 1, Nat.lt_succ_self start, kept, lower fair⟩
  | succ distance ih =>
      rcases progress start (Nat.le_refl start) initially with here | next | ⟨kept, bound, _⟩
      · exact .inl ⟨start, Nat.le_refl start, here⟩
      · exact .inl ⟨start + 1, Nat.le_succ start, next⟩
      · have onward : start + 1 + distance = start + (distance + 1) := by omega
        rcases ih kept (onward ▸ fair) fun time later => progress time (by omega) with
          ⟨time, later, goal⟩ | ⟨time, later, invariant, lower⟩
        · exact .inl ⟨time, by omega, goal⟩
        · exact .inr ⟨time, by omega, invariant, lower.trans_le bound⟩

/-- Fair progress along a well-founded rank reaches the goal. -/
theorem reaches [WellFoundedLT α] {start : Nat} (initially : Invariant (execution.states start))
    (fair : ∀ time, start ≤ time → ∃ later, time ≤ later ∧ Fair (execution.labels later))
    (progress : ∀ time, start ≤ time → execution.Progress rank Invariant Goal Fair time) :
    ∃ time, start ≤ time ∧ Goal (execution.states time) := by
  generalize level : rank (execution.states start) = current
  induction current using WellFoundedLT.induction generalizing start with
  | ind current ih =>
      obtain ⟨next, later, occurs⟩ := fair start (Nat.le_refl start)
      obtain ⟨distance, rfl⟩ := Nat.exists_eq_add_of_le later
      rcases execution.next_fair distance initially occurs progress with
        reached | ⟨time, later, invariant, lower⟩
      · exact reached
      · obtain ⟨finish, after, goal⟩ := ih _ (level ▸ lower) invariant
          (fun moment later => fair moment (by omega))
          (fun moment later => progress moment (by omega)) rfl
        exact ⟨finish, by omega, goal⟩

end Execution

end LibraFlow.Library
