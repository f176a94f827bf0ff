import Mathlib.Init

/-! Finite runs of a labelled transition system. A run keeps the transitions it
took, so that a property may speak about a reached state, about a single
transition of a run, or about the part of a run after a given transition. -/

set_option autoImplicit false

namespace LibraFlow.Library

/-- One transition taken by a run. -/
structure Transition (σ ι : Type) where
  before : σ
  label : ι
  after : σ

/-- `Run step start trace final`: the transitions in `trace` lead from `start` to `final`. -/
inductive Run {σ ι : Type} (step : σ → ι → σ → Prop) (start : σ) :
    List (Transition σ ι) → σ → Prop where
  | nil : Run step start [] start
  | snoc {trace : List (Transition σ ι)} {middle final : σ} {label : ι} :
      Run step start trace middle → step middle label final →
      Run step start (trace ++ [⟨middle, label, final⟩]) final

namespace Run

variable {σ ι : Type} {step : σ → ι → σ → Prop} {start final : σ}
  {trace : List (Transition σ ι)}

theorem cons {middle : σ} {label : ι} (taken : step start label middle)
    (run : Run step middle trace final) : Run step start (⟨start, label, middle⟩ :: trace) final := by
  induction run with
  | nil => exact Run.nil.snoc taken
  | snoc _ next ih => exact ih.snoc next

/-- A run leads from one state to the other by steps with one label. -/
def Only (step : σ → ι → σ → Prop) (label : ι) (start final : σ) : Prop :=
  ∃ trace, Run step start trace final ∧ ∀ taken ∈ trace, taken.label = label

theorem Only.refl (label : ι) (state : σ) : Only step label state state :=
  ⟨[], .nil, by simp⟩

theorem Only.first {middle : σ} {label : ι} (taken : step start label middle)
    (later : Only step label middle final) : Only step label start final := by
  obtain ⟨trace, run, labels⟩ := later
  refine ⟨_, run.cons taken, ?_⟩
  intro other member
  rcases List.mem_cons.mp member with rfl | rest
  · rfl
  · exact labels other rest

theorem Only.trans {middle : σ} {label : ι} (first : Only step label start middle)
    (later : Only step label middle final) : Only step label start final := by
  obtain ⟨trace, run, labels⟩ := first
  induction run generalizing final with
  | nil => exact later
  | snoc _ taken ih =>
      have last := labels _ (List.mem_append_right _ List.mem_cons_self)
      dsimp only at last
      subst last
      exact ih (.first taken later) fun other member => labels other (List.mem_append_left _ member)

/-- Runs of a system are runs of every system with more steps. -/
theorem mono {wider : σ → ι → σ → Prop} (run : Run step start trace final)
    (covered : ∀ before label after, step before label after → wider before label after) :
    Run wider start trace final := by
  induction run with
  | nil => exact .nil
  | snoc _ taken ih => exact ih.snoc (covered _ _ _ taken)

/-- The transitions of a deterministic system under a list of labels. -/
def trail (exec : σ → ι → σ) : σ → List ι → List (Transition σ ι)
  | _, [] => []
  | state, label :: rest => ⟨state, label, exec state label⟩ :: trail exec (exec state label) rest

theorem of_exec {exec : σ → ι → σ} (taken : ∀ state label, step state label (exec state label))
    (state : σ) (labels : List ι) :
    Run step state (trail exec state labels) (labels.foldl exec state) := by
  induction labels generalizing state with
  | nil => exact .nil
  | cons label rest ih => exact (ih (exec state label)).cons (taken state label)

/-- Follow a partial step function along a list of labels, as long as every step
passes a check. -/
def replay (exec : σ → ι → Option σ) (check : σ → ι → Bool) : σ → List ι → Option σ
  | state, [] => some state
  | state, label :: rest =>
      if check state label then (exec state label).bind fun next => replay exec check next rest
      else none

theorem of_replay {exec : σ → ι → Option σ} {check : σ → ι → Bool} {labels : List ι}
    (replayed : replay exec check start labels = some final) :
    ∃ trace, Run (fun before label after => exec before label = some after) start trace final ∧
      trace.map Transition.label = labels ∧
      ∀ transition ∈ trace, check transition.before transition.label = true := by
  induction labels generalizing start with
  | nil =>
      cases replayed
      exact ⟨[], .nil, rfl, by simp⟩
  | cons label rest ih =>
      unfold replay at replayed
      split at replayed
      · next passes =>
          obtain ⟨middle, first, later⟩ := Option.bind_eq_some_iff.mp replayed
          obtain ⟨trace, run, same, checked⟩ := ih later
          refine ⟨_, run.cons first, by rw [List.map_cons, same], ?_⟩
          intro transition member
          obtain rfl | earlier := List.mem_cons.mp member
          · exact passes
          · exact checked transition earlier
      · cases replayed

/-- The transitions that a partial step function takes along a list of labels. -/
def path (exec : σ → ι → Option σ) : σ → List ι → List (Transition σ ι)
  | _, [] => []
  | state, label :: rest =>
      match exec state label with
      | none => []
      | some next => ⟨state, label, next⟩ :: path exec next rest

theorem path_of_replay {exec : σ → ι → Option σ} {check : σ → ι → Bool} {labels : List ι}
    (replayed : replay exec check start labels = some final) :
    Run (fun before label after => exec before label = some after) start
      (path exec start labels) final ∧ (path exec start labels).map Transition.label = labels := by
  induction labels generalizing start with
  | nil =>
      cases replayed
      exact ⟨.nil, rfl⟩
  | cons label rest ih =>
      unfold replay at replayed
      split at replayed
      · obtain ⟨middle, first, later⟩ := Option.bind_eq_some_iff.mp replayed
        obtain ⟨run, same⟩ := ih later
        simp only [path, first]
        exact ⟨run.cons first, by rw [List.map_cons, same]⟩
      · cases replayed

/-- A property kept by every permitted transition holds after every run of
permitted transitions. -/
theorem invariant {Invariant : σ → Prop} {Permitted : Transition σ ι → Prop}
    (run : Run step start trace final)
    (permitted : ∀ transition ∈ trace, Permitted transition)
    (initially : Invariant start)
    (preserved : ∀ before label after, Invariant before → step before label after →
      Permitted ⟨before, label, after⟩ → Invariant after) :
    Invariant final := by
  induction run with
  | nil => exact initially
  | snoc _ taken ih =>
      have earlier := ih fun transition member =>
        permitted transition (List.mem_append_left _ member)
      exact preserved _ _ _ earlier taken (permitted _ (by simp))

/-- A property kept by every transition holds after every run. -/
theorem always {Invariant : σ → Prop} (run : Run step start trace final)
    (initially : Invariant start)
    (preserved : ∀ before label after, Invariant before → step before label after →
      Invariant after) : Invariant final := by
  induction run with
  | nil => exact initially
  | snoc _ taken ih => exact preserved _ _ _ ih taken

/-- The transitions of a run that concern a part of the system. -/
def partTrail {τ κ : Type} (view : σ → τ) (relabel : ι → Option κ)
    (trace : List (Transition σ ι)) : List (Transition τ κ) :=
  trace.filterMap fun transition =>
    (relabel transition.label).map fun label =>
      ⟨view transition.before, label, view transition.after⟩

/-- A run of a system is a run of a part of it, which stands still at the other steps. -/
theorem part {τ κ : Type} {inner : τ → κ → τ → Prop} (view : σ → τ) (relabel : ι → Option κ)
    (run : Run step start trace final)
    (moves : ∀ before label after, step before label after → ∀ moved,
      relabel label = some moved → inner (view before) moved (view after))
    (stays : ∀ before label after, step before label after →
      relabel label = none → view after = view before) :
    Run inner (view start) (partTrail view relabel trace) (view final) := by
  induction run with
  | nil => exact .nil
  | @snoc _ _ _ label _ taken ih =>
      rw [partTrail, List.filterMap_append]
      cases relabelled : relabel label with
      | none =>
          rw [stays _ _ _ taken relabelled]
          simpa [partTrail, relabelled] using ih
      | some moved =>
          simpa [partTrail, relabelled] using ih.snoc (moves _ _ _ taken moved relabelled)

/-- Every transition of a run is a step. -/
theorem taken (run : Run step start trace final) :
    ∀ transition ∈ trace, step transition.before transition.label transition.after := by
  induction run with
  | nil => simp
  | snoc _ next ih =>
      intro transition member
      rcases List.mem_append.mp member with old | new
      · exact ih transition old
      · rw [List.mem_singleton] at new
        exact new ▸ next

/-- A run whose transitions all follow a rule is a run of the steps that follow it. -/
theorem conform (rule : σ → ι → Prop) (run : Run step start trace final)
    (conforms : ∀ transition ∈ trace, rule transition.before transition.label) :
    Run (fun before label after => rule before label ∧ step before label after)
      start trace final := by
  induction run with
  | nil => exact .nil
  | @snoc trace middle final label _ taken ih =>
      have earlier := ih fun transition member =>
        conforms transition (List.mem_append_left _ member)
      have last := conforms ⟨middle, label, final⟩ (by simp)
      exact earlier.snoc ⟨last, taken⟩

/-- Every transition of a run starts in a state that satisfies the invariant. -/
theorem transition_invariant {Invariant : σ → Prop} {Permitted : Transition σ ι → Prop}
    (run : Run step start trace final)
    (permitted : ∀ transition ∈ trace, Permitted transition)
    (initially : Invariant start)
    (preserved : ∀ before label after, Invariant before → step before label after →
      Permitted ⟨before, label, after⟩ → Invariant after) :
    ∀ transition ∈ trace, Invariant transition.before ∧
      step transition.before transition.label transition.after := by
  induction run with
  | nil => simp
  | snoc earlierRun taken ih =>
      have earlier := fun transition member =>
        permitted transition (List.mem_append_left _ member)
      intro transition member
      rcases List.mem_append.mp member with old | new
      · exact ih earlier transition old
      · rw [List.mem_singleton] at new
        subst transition
        exact ⟨earlierRun.invariant earlier initially preserved, taken⟩

/-- A run can be cut after any of its transitions. -/
theorem split {leading trailing : List (Transition σ ι)}
    (run : Run step start (leading ++ trailing) final) :
    ∃ middle, Run step start leading middle ∧ Run step middle trailing final := by
  generalize whole : leading ++ trailing = trace at run
  induction run generalizing trailing with
  | nil =>
      obtain ⟨rfl, rfl⟩ := List.append_eq_nil_iff.mp whole
      exact ⟨start, .nil, .nil⟩
  | @snoc earlier middle last label earlierRun taken ih =>
      rcases List.eq_nil_or_concat trailing with rfl | ⟨init, final, rfl⟩
      · rw [List.append_nil] at whole
        exact ⟨last, whole ▸ earlierRun.snoc taken, .nil⟩
      · rw [List.concat_eq_append, ← List.append_assoc] at whole
        obtain ⟨same, lastSame⟩ := List.append_inj' whole rfl
        obtain ⟨cut, first, second⟩ := ih same
        cases lastSame
        exact ⟨cut, first, by simpa using second.snoc taken⟩

/-- The last transition of a run. -/
theorem last {leading : List (Transition σ ι)} {transition : Transition σ ι}
    (run : Run step start (leading ++ [transition]) final) :
    Run step start leading transition.before ∧
      step transition.before transition.label transition.after ∧ transition.after = final := by
  generalize whole : leading ++ [transition] = trace at run
  cases run with
  | nil => simp at whole
  | snoc earlier taken =>
      obtain ⟨same, lastSame⟩ := List.append_inj' whole rfl
      cases lastSame
      exact ⟨same ▸ earlier, taken, rfl⟩

end Run

end LibraFlow.Library
