import LibraFlow.Library.Proc

/-! What a procedure leaves alone, and what it does not look at. Both are shown
step by step, whether a step raises or not. -/

set_option autoImplicit false

namespace LibraFlow.Library.Proc

variable {σ ε α β τ : Type}

/-- This view of the state is the same afterwards. -/
def Keeps (view : σ → τ) (procedure : Proc σ ε α) : Prop :=
  ∀ state, view (procedure state).2 = view state

/-- The invariant holds afterwards whenever it held before. -/
def Preserves (invariant : σ → Prop) (procedure : Proc σ ε α) : Prop :=
  ∀ state, invariant state → invariant (procedure state).2

/-- Similar states give the same outcome and lead to similar states. -/
def Respects (similar : σ → σ → Prop) (procedure : Proc σ ε α) : Prop :=
  ∀ state other, similar state other →
    (procedure state).1 = (procedure other).1 ∧ similar (procedure state).2 (procedure other).2

/-- A procedure that neither looks at the state nor changes it. -/
def Stateless (procedure : Proc σ ε α) : Prop :=
  ∃ outcome, ∀ state, procedure state = (outcome, state)

theorem stateless_pure (value : α) : Stateless (Pure.pure value : Proc σ ε α) :=
  ⟨.ok value, fun _ => rfl⟩

theorem stateless_expect (error : ε) (found : Option α) :
    Stateless (expect error found : Proc σ ε α) := by
  cases found with
  | none => exact ⟨.error error, fun _ => rfl⟩
  | some value => exact ⟨.ok value, fun _ => rfl⟩

theorem stateless_lift {δ : Type} (convert : δ → ε) (result : Except δ α) :
    Stateless (lift convert result : Proc σ ε α) := by
  cases result with
  | error error => exact ⟨.error (convert error), fun _ => rfl⟩
  | ok value => exact ⟨.ok value, fun _ => rfl⟩

theorem stateless_check (condition : Bool) (error : ε) :
    Stateless (check condition error : Proc σ ε Unit) := by
  cases condition with
  | false => exact ⟨.error error, fun _ => rfl⟩
  | true => exact ⟨.ok (), fun _ => rfl⟩

section Outcomes

variable {state after : σ}

theorem bind_eq_ok_iff {first : Proc σ ε α} {next : α → Proc σ ε β} {value : β} :
    (first >>= next) state = (.ok value, after) ↔ ∃ middle between,
      first state = (.ok middle, between) ∧ next middle between = (.ok value, after) := by
  rw [bind_apply]
  rcases first state with ⟨outcome, between⟩
  cases outcome with
  | error error => simp
  | ok middle =>
      constructor
      · intro ran
        exact ⟨middle, between, rfl, ran⟩
      · rintro ⟨_, _, same, ran⟩
        cases same
        exact ran

theorem ok_of_check {condition : Bool} {error : ε} {next : Unit → Proc σ ε β} {value : β}
    (ran : (check condition error >>= next) state = (.ok value, after)) :
    condition = true ∧ next () state = (.ok value, after) := by
  cases condition with
  | false => cases ran
  | true => exact ⟨rfl, ran⟩

theorem ok_of_expect {error : ε} {found : Option α} {next : α → Proc σ ε β} {value : β}
    (ran : (expect error found >>= next) state = (.ok value, after)) :
    ∃ present, found = some present ∧ next present state = (.ok value, after) := by
  cases found with
  | none => cases ran
  | some present => exact ⟨present, rfl, ran⟩

theorem ok_of_lift {δ : Type} {convert : δ → ε} {result : Except δ α} {next : α → Proc σ ε β}
    {value : β} (ran : (lift convert result >>= next) state = (.ok value, after)) :
    ∃ present, result = .ok present ∧ next present state = (.ok value, after) := by
  cases result with
  | error error => cases ran
  | ok present => exact ⟨present, rfl, ran⟩

end Outcomes

section Keeping

variable {view : σ → τ}

theorem Stateless.keeps {procedure : Proc σ ε α} (stateless : Stateless procedure) :
    Keeps view procedure := by
  obtain ⟨outcome, same⟩ := stateless
  intro state
  rw [same]

theorem keeps_read (look : σ → α) : Keeps view (read look : Proc σ ε α) := fun _ => rfl

theorem keeps_update {change : σ → σ} (same : ∀ state, view (change state) = view state) :
    Keeps view (update change : Proc σ ε Unit) := same

theorem Keeps.bind {first : Proc σ ε α} {next : α → Proc σ ε β} (keeps : Keeps view first)
    (later : ∀ value, Keeps view (next value)) : Keeps view (first >>= next) := by
  intro state
  have kept := keeps state
  rw [bind_apply]
  split
  · next value after ran =>
      rw [ran] at kept
      exact (later value after).trans kept
  · next error after ran =>
      rw [ran] at kept
      exact kept

end Keeping

section Preserving

variable {invariant : σ → Prop}

theorem Stateless.preserves {procedure : Proc σ ε α} (stateless : Stateless procedure) :
    Preserves invariant procedure := by
  obtain ⟨outcome, same⟩ := stateless
  intro state held
  rw [same]
  exact held

theorem preserves_read (look : σ → α) : Preserves invariant (read look : Proc σ ε α) :=
  fun _ held => held

theorem Preserves.bind {first : Proc σ ε α} {next : α → Proc σ ε β}
    (preserves : Preserves invariant first) (later : ∀ value, Preserves invariant (next value)) :
    Preserves invariant (first >>= next) := by
  intro state held
  have kept := preserves state held
  rw [bind_apply]
  split
  · next value after ran =>
      rw [ran] at kept
      exact later value after kept
  · next error after ran =>
      rw [ran] at kept
      exact kept

end Preserving

section Respecting

variable {similar : σ → σ → Prop}

theorem Stateless.respects {procedure : Proc σ ε α} (stateless : Stateless procedure) :
    Respects similar procedure := by
  obtain ⟨outcome, same⟩ := stateless
  intro state other alike
  rw [same, same]
  exact ⟨rfl, alike⟩

theorem respects_read {look : σ → α}
    (unseen : ∀ state other, similar state other → look state = look other) :
    Respects similar (read look : Proc σ ε α) := by
  intro state other alike
  exact ⟨congrArg Except.ok (unseen state other alike), alike⟩

theorem respects_update {change : σ → σ}
    (kept : ∀ state other, similar state other → similar (change state) (change other)) :
    Respects similar (update change : Proc σ ε Unit) := by
  intro state other alike
  exact ⟨rfl, kept state other alike⟩

theorem Respects.bind {first : Proc σ ε α} {next : α → Proc σ ε β}
    (respects : Respects similar first) (later : ∀ value, Respects similar (next value)) :
    Respects similar (first >>= next) := by
  intro state other alike
  obtain ⟨same, after⟩ := respects state other alike
  rw [bind_apply, bind_apply]
  rcases left : first state with ⟨outcome, leftAfter⟩
  rcases right : first other with ⟨otherOutcome, rightAfter⟩
  rw [left, right] at same after
  subst same
  cases outcome with
  | error error => exact ⟨rfl, after⟩
  | ok value => exact later value leftAfter rightAfter after

end Respecting

end LibraFlow.Library.Proc
