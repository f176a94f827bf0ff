import LibraFlow.Storage.CircuitBreaker

/-! Overlapping calls on one circuit breaker. A call is admitted under the lock,
its operation runs outside, and the outcome is applied under the lock again, by
then possibly to a breaker in another state. -/

set_option autoImplicit false

namespace LibraFlow.Storage

open LibraFlow.Library

/-- Where a call stands. With its operation go the state that admitted it and the
number of trips until then; the code keeps neither. -/
inductive CallPhase where
  | idle
  | running (admittedIn : CircuitState) (trips : Nat)
  | completed (admittedIn : CircuitState) (trips : Nat)
  | ended
  deriving DecidableEq

/-- The operation of a call that was admitted and is not settled yet. -/
def CallPhase.admission? : CallPhase → Option (CircuitState × Nat)
  | .running admittedIn trips | .completed admittedIn trips => some (admittedIn, trips)
  | .idle | .ended => none

/-- A breaker with its calls, and the times at which it has tripped, latest first. -/
structure Calls (ε : Type) where
  breaker : CircuitBreaker ε
  clock : ℚ
  trips : List ℚ
  phases : Nat → CallPhase

inductive CallAction where
  | allow (id : Nat) (now : ℚ)
  | complete (id : Nat)
  | settle (id : Nat) (now : ℚ)
  deriving DecidableEq

namespace Calls

variable {α ε : Type}

def start (breaker : CircuitBreaker ε) (now : ℚ) : Calls ε := ⟨breaker, now, [], fun _ => .idle⟩

def enter (calls : Calls ε) (id : Nat) (phase : CallPhase) : Calls ε :=
  { calls with phases := Function.update calls.phases id phase }

/-- Whether applying an outcome trips the breaker. -/
def tripsOn (breaker : CircuitBreaker ε) : Except ε α → Bool
  | .ok _ => false
  | .error error => breaker.expectedExceptions error &&
      decide (breaker.failureThreshold ≤ breaker.failureCount + 1 ∨ breaker.state = .halfOpen)

def exec (operations : Nat → Except ε α) (calls : Calls ε) : CallAction → Option (Calls ε)
  | .allow id now =>
      match calls.phases id with
      | .idle =>
          if now < calls.clock then none
          else
            let (allowed, breaker) := calls.breaker.allow now
            some { calls.enter id
              (if allowed then .running breaker.state calls.trips.length else .ended) with
              breaker, clock := now }
      | _ => none
  | .complete id =>
      match calls.phases id with
      | .running admittedIn trips => some (calls.enter id (.completed admittedIn trips))
      | _ => none
  | .settle id now =>
      match calls.phases id with
      | .completed _ _ =>
          if now < calls.clock then none
          else some { calls.enter id .ended with
            breaker := calls.breaker.settle (operations id) now
            clock := now
            trips := if tripsOn calls.breaker (operations id) then now :: calls.trips
              else calls.trips }
      | _ => none

def Step (operations : Nat → Except ε α) (before : Calls ε) (action : CallAction)
    (after : Calls ε) : Prop :=
  before.exec operations action = some after

/-- The breaker leaves its open state only when every trip is its timeout ago. -/
def StaysOpen (taken : Transition (Calls ε) CallAction) : Prop :=
  taken.before.breaker.state = .opened → taken.after.breaker.state ≠ .opened →
    ∀ tripped ∈ taken.before.trips,
      tripped + taken.before.breaker.recoveryTimeout ≤ taken.after.clock

/-- The breaker closes only when a probe succeeds that was admitted since the
latest trip. -/
def ClosesByProbe (operations : Nat → Except ε α) (taken : Transition (Calls ε) CallAction) :
    Prop :=
  taken.before.breaker.state ≠ .closed → taken.after.breaker.state = .closed →
    ∃ id now, taken.label = .settle id now ∧ (operations id).isOk = true ∧
      taken.before.phases id = .completed .halfOpen taken.before.trips.length

/-- An operation that succeeds finds the breaker closed, or was admitted since the
latest trip. -/
def Timely (operations : Nat → Except ε α) (taken : Transition (Calls ε) CallAction) : Prop :=
  ∀ id now admittedIn trips, taken.label = .settle id now → (operations id).isOk = true →
    taken.before.phases id = .completed admittedIn trips →
    taken.before.breaker.state = .closed ∨ trips = taken.before.trips.length

/-- What one step of a call can do. -/
inductive Moves (operations : Nat → Except ε α) (before : Calls ε) :
    CallAction → Calls ε → Prop where
  | refused {id : Nat} {now : ℚ} (later : before.clock ≤ now) :
      Moves operations before (.allow id now) { before.enter id .ended with clock := now }
  | admitted {id : Nat} {now : ℚ} (later : before.clock ≤ now)
      (notOpened : before.breaker.state ≠ .opened) :
      Moves operations before (.allow id now)
        { before.enter id (.running before.breaker.state before.trips.length) with clock := now }
  | probed {id : Nat} {now : ℚ} (later : before.clock ≤ now)
      (opened : before.breaker.state = .opened)
      (rested : before.breaker.recoveryTimeout ≤ now - before.breaker.lastStateChange) :
      Moves operations before (.allow id now)
        { before.enter id (.running .halfOpen before.trips.length) with
          breaker := { before.breaker with state := .halfOpen }, clock := now }
  | completed {id trips : Nat} {admittedIn : CircuitState}
      (phase : before.phases id = .running admittedIn trips) :
      Moves operations before (.complete id) (before.enter id (.completed admittedIn trips))
  | succeeded {id trips : Nat} {now : ℚ} {admittedIn : CircuitState} (later : before.clock ≤ now)
      (phase : before.phases id = .completed admittedIn trips)
      (returned : (operations id).isOk = true) :
      Moves operations before (.settle id now) { before.enter id .ended with
        breaker := before.breaker.onSuccess, clock := now }
  | tripped {id count : Nat} {now : ℚ} (later : before.clock ≤ now)
      (failed : (operations id).isOk = false) :
      Moves operations before (.settle id now) { before.enter id .ended with
        breaker := { before.breaker with
          failureCount := count, state := .opened, lastStateChange := now }
        clock := now
        trips := now :: before.trips }
  | settled {id count : Nat} {now : ℚ} (later : before.clock ≤ now)
      (failed : (operations id).isOk = false) :
      Moves operations before (.settle id now) { before.enter id .ended with
        breaker := { before.breaker with failureCount := count }, clock := now }

theorem Step.moves {operations : Nat → Except ε α} {before after : Calls ε} {action : CallAction}
    (taken : Step operations before action after) : Moves operations before action after := by
  unfold Step at taken
  cases action with
  | allow id now =>
      simp only [exec] at taken
      split at taken
      · split at taken
        · cases taken
        · next notEarlier =>
            have later := le_of_not_gt notEarlier
            rw [Option.some.injEq] at taken
            subst after
            by_cases opened : before.breaker.state = .opened
            · by_cases rested :
                  before.breaker.recoveryTimeout ≤ now - before.breaker.lastStateChange
              · simp only [CircuitBreaker.allow, opened, rested, ↓reduceIte]
                exact .probed later opened rested
              · simp only [CircuitBreaker.allow, opened, rested, ↓reduceIte, Bool.false_eq_true]
                exact .refused later
            · simp only [CircuitBreaker.allow, opened, ↓reduceIte]
              exact .admitted later opened
      · cases taken
  | complete id =>
      simp only [exec] at taken
      split at taken
      · next phase =>
          cases taken
          exact .completed phase
      · cases taken
  | settle id now =>
      simp only [exec] at taken
      split at taken
      · next phase =>
          split at taken
          · cases taken
          · next notEarlier =>
              have later := le_of_not_gt notEarlier
              rw [Option.some.injEq] at taken
              subst after
              cases operation : operations id with
              | ok value =>
                  exact .succeeded later phase (by rw [operation]; rfl)
              | error error =>
                  have failed : (operations id).isOk = false := by rw [operation]; rfl
                  cases expected : before.breaker.expectedExceptions error with
                  | false =>
                      simp only [CircuitBreaker.settle, tripsOn, expected, Bool.false_eq_true,
                        ↓reduceIte, Bool.false_and]
                      exact .settled later failed
                  | true =>
                      by_cases trips : before.breaker.failureThreshold ≤
                          before.breaker.failureCount + 1 ∨ before.breaker.state = .halfOpen
                      · simp only [CircuitBreaker.settle, CircuitBreaker.onFailure, tripsOn,
                          expected, trips, ↓reduceIte, decide_true, Bool.and_true]
                        exact .tripped later failed
                      · simp only [CircuitBreaker.settle, CircuitBreaker.onFailure, tripsOn,
                          expected, trips, ↓reduceIte, decide_false, Bool.and_false,
                          Bool.false_eq_true]
                        exact .settled later failed
      · cases taken

/-- The trips seen from the breaker, and what admissions since the latest trip mean. -/
structure Tracked (calls : Calls ε) : Prop where
  past : ∀ tripped ∈ calls.trips, tripped ≤ calls.clock
  opened : calls.breaker.state = .opened →
    ∀ tripped ∈ calls.trips, tripped ≤ calls.breaker.lastStateChange
  known : ∀ id admittedIn trips, (calls.phases id).admission? = some (admittedIn, trips) →
    trips ≤ calls.trips.length
  recent : ∀ id admittedIn, (calls.phases id).admission? =
      some (admittedIn, calls.trips.length) → calls.breaker.state ≠ .closed →
    admittedIn = .halfOpen ∧ calls.breaker.state = .halfOpen

private theorem tracked_start (breaker : CircuitBreaker ε) (now : ℚ) : Tracked
    (start breaker now) := by
  constructor
  · intro tripped member
    cases member
  · intro _ tripped member
    cases member
  · intro id admittedIn trips admitted
    cases admitted
  · intro id admittedIn admitted
    cases admitted

section Steps

variable {operations : Nat → Except ε α} {before after : Calls ε} {action : CallAction}

/-- The admission of a call after another call, or the same one, has moved. -/
theorem admission_update {phases : Nat → CallPhase} {id other : Nat} {phase : CallPhase}
    {admission : CircuitState × Nat}
    (admitted : (Function.update phases id phase other).admission? = some admission) :
    phase.admission? = some admission ∨ (phases other).admission? = some admission := by
  by_cases same : other = id
  · rw [same, Function.update_self] at admitted
    exact .inl admitted
  · rw [Function.update_of_ne same] at admitted
    exact .inr admitted

/-- A call ends and the breaker changes at most its counter. -/
theorem Tracked.quiet (tracked : Tracked before) {id count : Nat} {now : ℚ}
    (later : before.clock ≤ now) :
    Tracked { before.enter id .ended with
      breaker := { before.breaker with failureCount := count }, clock := now } := by
  refine ⟨fun tripped member => (tracked.past tripped member).trans later, tracked.opened, ?_, ?_⟩
  · intro other admittedIn trips admitted
    rcases admission_update admitted with new | old
    · cases new
    · exact tracked.known other admittedIn trips old
  · intro other admittedIn admitted
    rcases admission_update admitted with new | old
    · cases new
    · exact tracked.recent other admittedIn old

theorem Moves.tracked (moves : Moves operations before action after) (tracked : Tracked before) :
    Tracked after := by
  cases moves with
  | refused later => exact tracked.quiet later
  | settled later => exact tracked.quiet later
  | admitted later notOpened =>
      refine ⟨fun tripped member => (tracked.past tripped member).trans later, tracked.opened, ?_,
        ?_⟩
      · intro other admittedIn trips admitted
        rcases admission_update admitted with new | old
        · cases new
          exact le_refl _
        · exact tracked.known other admittedIn trips old
      · intro other admittedIn admitted notClosed
        rcases admission_update admitted with new | old
        · cases new
          cases state : before.breaker.state with
          | closed => exact absurd state notClosed
          | opened => exact absurd state notOpened
          | halfOpen => exact ⟨rfl, state⟩
        · exact tracked.recent other admittedIn old notClosed
  | probed later opened rested =>
      refine ⟨fun tripped member => (tracked.past tripped member).trans later, ?_, ?_, ?_⟩
      · intro impossible
        cases impossible
      · intro other admittedIn trips admitted
        rcases admission_update admitted with new | old
        · cases new
          exact le_refl _
        · exact tracked.known other admittedIn trips old
      · intro other admittedIn admitted _
        rcases admission_update admitted with new | old
        · cases new
          exact ⟨rfl, rfl⟩
        · have probing := (tracked.recent other admittedIn old (by rw [opened]; decide)).2
          rw [opened] at probing
          cases probing
  | completed phase =>
      refine ⟨tracked.past, tracked.opened, ?_, ?_⟩
      · intro other admittedIn trips admitted
        rcases admission_update admitted with new | old
        · exact tracked.known _ admittedIn trips (by rw [phase]; exact new)
        · exact tracked.known other admittedIn trips old
      · intro other admittedIn admitted
        rcases admission_update admitted with new | old
        · exact tracked.recent _ admittedIn (by rw [phase]; exact new)
        · exact tracked.recent other admittedIn old
  | succeeded later phase returned =>
      refine ⟨fun tripped member => (tracked.past tripped member).trans later, ?_, ?_, ?_⟩
      · intro impossible
        cases impossible
      · intro other admittedIn trips admitted
        rcases admission_update admitted with new | old
        · cases new
        · exact tracked.known other admittedIn trips old
      · intro other admittedIn _ notClosed
        exact absurd rfl notClosed
  | @tripped id count now later failed =>
      have earlier : ∀ tripped ∈ now :: before.trips, tripped ≤ now := by
        intro tripped member
        rcases List.mem_cons.mp member with rfl | old
        · exact le_refl _
        · exact (tracked.past tripped old).trans later
      refine ⟨earlier, fun _ => earlier, ?_, ?_⟩
      · intro other admittedIn trips admitted
        rcases admission_update admitted with new | old
        · cases new
        · exact (tracked.known other admittedIn trips old).trans (Nat.le_succ _)
      · intro other admittedIn admitted
        rcases admission_update admitted with new | old
        · cases new
        · have known := tracked.known other admittedIn _ old
          simp only [List.length_cons] at known
          omega

/-- A step in which a success is timely keeps the breaker open for its timeout. -/
theorem Moves.staysOpen (moves : Moves operations before action after) (tracked : Tracked before)
    (timely : Timely operations ⟨before, action, after⟩) :
    StaysOpen ⟨before, action, after⟩ := by
  intro opened left tripped member
  cases moves with
  | refused | admitted | completed | settled => exact absurd opened left
  | tripped => exact absurd rfl left
  | probed _ _ rested =>
      have bound := tracked.opened opened tripped member
      simp only at rested bound ⊢
      linarith
  | @succeeded id trips now admittedIn _ phase returned =>
      rcases timely id now admittedIn trips rfl returned phase with closed | latest
      · have impossible : CircuitState.opened = .closed := opened.symm.trans closed
        cases impossible
      · have probing := (tracked.recent id admittedIn (by rw [phase, latest]; rfl)
          (fun closed => by cases opened.symm.trans closed)).2
        cases opened.symm.trans probing

/-- A step in which a success is timely closes the breaker by a probe only. -/
theorem Moves.closesByProbe (moves : Moves operations before action after)
    (tracked : Tracked before) (timely : Timely operations ⟨before, action, after⟩) :
    ClosesByProbe operations ⟨before, action, after⟩ := by
  intro notClosed closed
  cases moves with
  | refused | admitted | completed | settled => exact absurd closed notClosed
  | tripped => cases closed
  | probed => cases closed
  | @succeeded id trips now admittedIn _ phase returned =>
      rcases timely id now admittedIn trips rfl returned phase with already | latest
      · exact absurd already notClosed
      · have probe := (tracked.recent id admittedIn (by rw [phase, latest]; rfl) notClosed).1
        refine ⟨id, now, rfl, returned, ?_⟩
        rw [phase, probe, latest]

/-- A success that is not timely closes the breaker all the same. -/
theorem Moves.timely (moves : Moves operations before action after)
    (probe : ClosesByProbe operations ⟨before, action, after⟩) :
    Timely operations ⟨before, action, after⟩ := by
  intro id now admittedIn trips label returned phase
  cases moves with
  | refused | admitted | probed | completed => cases label
  | tripped _ failed | settled _ failed =>
      cases label
      rw [returned] at failed
      cases failed
  | succeeded =>
      by_cases closed : before.breaker.state = .closed
      · exact .inl closed
      · obtain ⟨other, time, same, _, completed⟩ := probe closed rfl
        cases label
        cases same
        rw [phase] at completed
        cases completed
        exact .inr rfl

end Steps

/-- Over any interleaving of calls: the breaker stays open for its timeout after
every trip and closes only by a probe admitted since the latest trip, exactly
when every success finds it closed or was admitted since the latest trip. -/
theorem run_staysOpen_iff {operations : Nat → Except ε α} {name : String} {failureThreshold : Nat}
    {recoveryTimeout now : ℚ} {expectedExceptions : ε → Bool}
    {trace : List (Transition (Calls ε) CallAction)} {final : Calls ε}
    (run : Run (Step operations)
      (start (.new name failureThreshold recoveryTimeout expectedExceptions now) now) trace
      final) :
    (∀ taken ∈ trace, StaysOpen taken ∧ ClosesByProbe operations taken) ↔
      ∀ taken ∈ trace, Timely operations taken := by
  have tracked : ∀ taken ∈ trace, Tracked taken.before ∧
      Step operations taken.before taken.label taken.after := by
    have permitted : ∀ taken ∈ trace, (fun _ : Transition (Calls ε) CallAction => True) taken :=
      fun _ _ => trivial
    refine run.transition_invariant permitted (tracked_start _ _) ?_
    intro before action after earlier step _
    exact step.moves.tracked earlier
  constructor
  · intro kept taken member
    exact (tracked taken member).2.moves.timely (kept taken member).2
  · intro timely taken member
    obtain ⟨earlier, step⟩ := tracked taken member
    exact ⟨step.moves.staysOpen earlier (timely taken member),
      step.moves.closesByProbe earlier (timely taken member)⟩

def timelyCheck (operations : Nat → Except ε α) (calls : Calls ε) : CallAction → Bool
  | .settle id _ =>
      match calls.phases id with
      | .completed _ trips => (operations id).isOk = true →
          calls.breaker.state = .closed ∨ trips = calls.trips.length
      | _ => true
  | _ => true

private theorem timelyCheck_sound {operations : Nat → Except ε α}
    {taken : Transition (Calls ε) CallAction}
    (checked : timelyCheck operations taken.before taken.label = true) :
    Timely operations taken := by
  intro id now admittedIn trips label succeeded phase
  rw [label] at checked
  simp only [timelyCheck, phase, decide_eq_true_eq] at checked
  exact checked succeeded

/-- The first operation fails, all others return. -/
def firstFails : Nat → Except String Nat
  | 0 => .error "down"
  | _ => .ok 7

/-- A breaker that trips on the first failure and rests for five seconds. -/
def restless : Calls String := start (.new "cache" 1 5 (fun _ => true) 0) 0

/-- An operation admitted before the trip returns a second after it and closes the breaker. -/
theorem late_success_closes_early :
    ∃ trace final, Run (Step firstFails) restless trace final ∧
      ∃ taken ∈ trace, ¬ StaysOpen taken ∧ ¬ ClosesByProbe firstFails taken := by
  have replayed : (Run.replay (exec firstFails) (fun _ _ => true) restless
      [.allow 0 0, .allow 1 0, .complete 0, .settle 0 0, .complete 1]).map (fun calls =>
        (calls.breaker.state, calls.breaker.recoveryTimeout, calls.trips, calls.phases 1,
          calls.clock)) = some (.opened, 5, [0], .completed .closed 0, 0) := by
    decide +kernel
  obtain ⟨middle, ran, facts⟩ := Option.map_eq_some_iff.mp replayed
  obtain ⟨trace, run, _, _⟩ := Run.of_replay ran
  simp only [Prod.mk.injEq] at facts
  obtain ⟨opened, timeout, trips, phase, clock⟩ := facts
  have closes : Step firstFails middle (.settle 1 1) { middle.enter 1 .ended with
      breaker := middle.breaker.onSuccess, clock := 1 } := by
    simp [Step, exec, phase, clock, firstFails, CircuitBreaker.settle, tripsOn, enter]
  refine ⟨_, _, run.snoc closes, _, List.mem_append_right _ (List.mem_singleton_self _), ?_, ?_⟩
  · intro stays
    have early := stays opened (fun impossible => by cases impossible) 0 (by simp [trips])
    simp only [timeout] at early
    norm_num at early
  · intro probe
    obtain ⟨id, now, same, _, completed⟩ := probe (by simp [opened]) rfl
    cases same
    rw [phase] at completed
    cases completed

/-- The first and the third operation fail, all others return. -/
def twoFail : Nat → Except String Nat
  | 0 | 2 => .error "down"
  | _ => .ok 7

/-- Three calls in flight at once, one that is refused after the trip, and two probes. -/
def overlappingCalls : List CallAction :=
  [.allow 0 0, .allow 1 0, .allow 2 0, .complete 1, .complete 0, .settle 1 1, .settle 0 2,
    .allow 3 3, .complete 2, .settle 2 4, .allow 4 9, .allow 5 9, .complete 5, .complete 4,
    .settle 5 10, .settle 4 10]

/-- With probes admitted after the latest trip the breaker closes as documented, whatever
overlaps with them. -/
theorem run_staysOpen_iff_overlapping :
    ∃ trace final, Run (Step twoFail) restless trace final ∧
      trace.map Transition.label = overlappingCalls ∧
      final.breaker.state = .closed ∧ final.trips = [4, 2] ∧
      ∀ taken ∈ trace, StaysOpen taken ∧ ClosesByProbe twoFail taken := by
  have replayed : (Run.replay (exec twoFail) (timelyCheck twoFail) restless overlappingCalls).map
      (fun calls => (calls.breaker.state, calls.trips)) = some (.closed, [4, 2]) := by
    decide +kernel
  obtain ⟨final, ran, facts⟩ := Option.map_eq_some_iff.mp replayed
  obtain ⟨trace, run, labels, checked⟩ := Run.of_replay ran
  simp only [Prod.mk.injEq] at facts
  refine ⟨trace, final, run, labels, facts.1, facts.2, (run_staysOpen_iff run).mpr ?_⟩
  intro taken member
  exact timelyCheck_sound (checked taken member)

end Calls

end LibraFlow.Storage
