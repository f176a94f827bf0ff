import LibraFlow.Library.Run
import Mathlib.Data.Rat.Defs
import Mathlib.Algebra.Order.Ring.Rat
import Mathlib.Tactic.Linarith

/-! The circuit breaker in front of the cache and the risk model, used by one
caller after the other. Over every sequence of calls the failure counter, the
state and the answers are determined by the outcomes of the calls so far. -/

set_option autoImplicit false

namespace LibraFlow.Storage

open LibraFlow.Library

inductive CircuitState where
  | closed
  | opened
  | halfOpen
  deriving DecidableEq, Repr

/-- What a guarded call raises: the breaker's own error, or the exception of the
operation or the fallback. -/
inductive CallError (ε : Type) where
  | circuitOpen (message : String)
  | raised (error : ε)
  deriving DecidableEq

/-- A breaker for operations that raise `ε`; times are in seconds. -/
structure CircuitBreaker (ε : Type) where
  name : String
  failureThreshold : Nat
  recoveryTimeout : ℚ
  expectedExceptions : ε → Bool
  state : CircuitState
  failureCount : Nat
  lastStateChange : ℚ

namespace CircuitBreaker

variable {α ε : Type}

def new (name : String) (failureThreshold : Nat) (recoveryTimeout : ℚ)
    (expectedExceptions : ε → Bool) (now : ℚ) : CircuitBreaker ε where
  name := name
  failureThreshold := failureThreshold
  recoveryTimeout := recoveryTimeout
  expectedExceptions := expectedExceptions
  state := .closed
  failureCount := 0
  lastStateChange := now

/-- Whether an operation may run now, and the breaker afterwards. -/
def allow (breaker : CircuitBreaker ε) (now : ℚ) : Bool × CircuitBreaker ε :=
  if breaker.state = .opened then
    if breaker.recoveryTimeout ≤ now - breaker.lastStateChange then
      (true, { breaker with state := .halfOpen })
    else (false, breaker)
  else (true, breaker)

def onSuccess (breaker : CircuitBreaker ε) : CircuitBreaker ε :=
  { breaker with state := .closed, failureCount := 0 }

/-- The counter goes on counting when the breaker trips. -/
def onFailure (breaker : CircuitBreaker ε) (now : ℚ) : CircuitBreaker ε :=
  let counted := { breaker with failureCount := breaker.failureCount + 1 }
  if counted.failureThreshold ≤ counted.failureCount ∨ counted.state = .halfOpen then
    { counted with state := .opened, lastStateChange := now }
  else counted

/-- The effect of an operation that has run. An unexpected exception passes
through without a trace. -/
def settle (breaker : CircuitBreaker ε) (operation : Except ε α) (now : ℚ) : CircuitBreaker ε :=
  match operation with
  | .ok _ => breaker.onSuccess
  | .error error =>
      if breaker.expectedExceptions error then breaker.onFailure now else breaker

/-- The answer when the operation gives none. -/
def fallBack (fallback : Option (Except ε α)) (error : CallError ε) : Except (CallError ε) α :=
  match fallback with
  | some (.ok value) => .ok value
  | some (.error other) => .error (.raised other)
  | none => .error error

/-- A call: the times at which it is made and at which its operation ends, what
the operation does when it is executed, and what the fallback does. -/
structure Call (α ε : Type) where
  now : ℚ
  later : ℚ
  operation : Except ε α
  fallback : Option (Except ε α)

def call (breaker : CircuitBreaker ε) (request : Call α ε) :
    Except (CallError ε) α × CircuitBreaker ε :=
  match breaker.allow request.now with
  | (false, refused) =>
      (fallBack request.fallback (.circuitOpen ("Circuit '" ++ breaker.name ++ "' is OPEN")),
        refused)
  | (true, admitted) =>
      let settled := admitted.settle request.operation request.later
      match request.operation with
      | .ok value => (.ok value, settled)
      | .error error =>
          if admitted.expectedExceptions error then
            (fallBack request.fallback (.raised error), settled)
          else (.error (.raised error), settled)

def Step (before : CircuitBreaker ε) (request : Call α ε) (after : CircuitBreaker ε) : Prop :=
  (before.call request).2 = after

/-- The operation of a call is executed. -/
def executes (breaker : CircuitBreaker ε) (request : Call α ε) : Bool :=
  (breaker.allow request.now).1

/-- The operation of a call fails with an expected exception. -/
def failsExpectedly (breaker : CircuitBreaker ε) (request : Call α ε) : Bool :=
  match request.operation with
  | .ok _ => false
  | .error error => breaker.expectedExceptions error

/-- A call of a run whose operation was executed and returned. -/
def succeeded (taken : Transition (CircuitBreaker ε) (Call α ε)) : Bool :=
  taken.before.executes taken.label && taken.label.operation.isOk

/-- A call of a run whose operation was executed and failed as expected. -/
def failed (taken : Transition (CircuitBreaker ε) (Call α ε)) : Bool :=
  taken.before.executes taken.label && taken.before.failsExpectedly taken.label

/-- The expected failures since the last success. -/
def failuresSince (trace : List (Transition (CircuitBreaker ε) (Call α ε))) : Nat :=
  (trace.reverse.takeWhile fun taken => !succeeded taken).countP failed

/-- The time at which a call trips the breaker. -/
def trip? (taken : Transition (CircuitBreaker ε) (Call α ε)) : Option ℚ :=
  if failed taken ∧ taken.after.state = .opened then some taken.label.later else none

/-- The time of the last trip of a run. -/
def lastTrip? (trace : List (Transition (CircuitBreaker ε) (Call α ε))) : Option ℚ :=
  trace.reverse.findSome? trip?

/-- What a call can do to the breaker. -/
inductive Called (before : CircuitBreaker ε) (request : Call α ε) : CircuitBreaker ε → Prop where
  | refused (executed : before.executes request = false) (tripped : before.state = .opened) :
      Called before request before
  | succeeded {value : α} (executed : before.executes request = true)
      (returned : request.operation = .ok value) :
      Called before request (before.allow request.now).2.onSuccess
  | failed {error : ε} (executed : before.executes request = true)
      (raised : request.operation = .error error)
      (expected : before.expectedExceptions error = true) :
      Called before request ((before.allow request.now).2.onFailure request.later)
  | unexpected {error : ε} (executed : before.executes request = true)
      (raised : request.operation = .error error)
      (unexpected : before.expectedExceptions error = false) :
      Called before request (before.allow request.now).2

section Calls

variable {before after : CircuitBreaker ε} {request : Call α ε}

theorem allow_settings (breaker : CircuitBreaker ε) (now : ℚ) :
    (breaker.allow now).2 = { breaker with state := (breaker.allow now).2.state } := by
  unfold allow
  split
  · split <;> rfl
  · rfl

theorem allow_executed (executed : before.executes request = true) :
    (before.allow request.now).2.state ≠ .opened ∧
      ((before.allow request.now).2.state = .closed ↔ before.state = .closed) := by
  unfold executes at executed
  unfold allow at executed ⊢
  split
  · next tripped =>
      split
      · simp [tripped]
      · next early => simp [tripped, early] at executed
  · next notTripped => exact ⟨notTripped, Iff.rfl⟩

theorem Step.called (taken : Step before request after) : Called before request after := by
  unfold Step call at taken
  generalize admission : before.allow request.now = admitted at taken
  obtain ⟨allowed, admitted⟩ := admitted
  have same : (before.allow request.now).2 = admitted := by rw [admission]
  have settings : admitted.expectedExceptions = before.expectedExceptions := by
    rw [← same, allow_settings]
  cases allowed with
  | false =>
      simp only at taken
      subst after
      have refused : before.executes request = false := by rw [executes, admission]
      unfold allow at admission
      split at admission
      · next tripped =>
          split at admission
          · cases admission
          · cases admission
            exact .refused refused tripped
      · cases admission
  | true =>
      have executed : before.executes request = true := by rw [executes, admission]
      cases operation : request.operation with
      | ok value =>
          simp only [operation, settle] at taken
          subst after
          rw [← same]
          exact .succeeded executed operation
      | error error =>
          cases expected : before.expectedExceptions error with
          | true =>
              simp only [operation, settle, settings, expected, ↓reduceIte] at taken
              subst after
              rw [← same]
              exact .failed executed operation expected
          | false =>
              simp only [operation, settle, settings, expected, Bool.false_eq_true,
                ↓reduceIte] at taken
              subst after
              rw [← same]
              exact .unexpected executed operation expected

end Calls

/-- The breaker after a run of calls, told from the outcomes of the calls. -/
structure Counted (trace : List (Transition (CircuitBreaker ε) (Call α ε)))
    (breaker : CircuitBreaker ε) : Prop where
  positive : 0 < breaker.failureThreshold
  count : breaker.failureCount = failuresSince trace
  closed_iff : breaker.state = .closed ↔ breaker.failureCount < breaker.failureThreshold
  tripped : breaker.state = .opened → lastTrip? trace = some breaker.lastStateChange

section Trace

variable {trace : List (Transition (CircuitBreaker ε) (Call α ε))}
  {taken : Transition (CircuitBreaker ε) (Call α ε)}

private theorem failuresSince_snoc :
    failuresSince (trace ++ [taken]) =
      if succeeded taken then 0
      else failuresSince trace + if failed taken then 1 else 0 := by
  unfold failuresSince
  rw [List.reverse_append, List.reverse_singleton, List.singleton_append, List.takeWhile_cons]
  cases succeeded taken with
  | true => rfl
  | false => simp only [Bool.not_false, ↓reduceIte, List.countP_cons, Bool.false_eq_true]

private theorem lastTrip?_snoc :
    lastTrip? (trace ++ [taken]) = (trip? taken).or (lastTrip? trace) := by
  unfold lastTrip?
  rw [List.reverse_append, List.reverse_singleton, List.singleton_append, List.findSome?_cons]
  cases trip? taken <;> rfl

end Trace

section Counting

variable {before after : CircuitBreaker ε} {request : Call α ε}
  {trace : List (Transition (CircuitBreaker ε) (Call α ε))}

/-- A call that neither returns nor fails as expected leaves the count and the trips alone. -/
theorem quiet_snoc (trace : List (Transition (CircuitBreaker ε) (Call α ε)))
    (after : CircuitBreaker ε) (unsuccessful : succeeded ⟨before, request, after⟩ = false)
    (unfailed : failed ⟨before, request, after⟩ = false) :
    failuresSince (trace ++ [⟨before, request, after⟩]) = failuresSince trace ∧
      lastTrip? (trace ++ [⟨before, request, after⟩]) = lastTrip? trace := by
  rw [failuresSince_snoc, lastTrip?_snoc, unsuccessful, unfailed, trip?, unfailed]
  exact ⟨rfl, rfl⟩

/-- An expected failure is counted, and the breaker trips when the count reaches
the threshold or the operation was a probe. -/
theorem Counted.fail {error : ε} (counted : Counted trace before)
    (executed : before.executes request = true) (raised : request.operation = .error error)
    (expected : before.expectedExceptions error = true) :
    Counted (trace ++ [⟨before, request, (before.allow request.now).2.onFailure request.later⟩])
      ((before.allow request.now).2.onFailure request.later) := by
  have failure : ∀ next, failed ⟨before, request, next⟩ = true := by
    intro next
    rw [failed, executed, failsExpectedly, raised]
    exact expected
  have unsuccessful : ∀ next, succeeded ⟨before, request, next⟩ = false := by
    intro next
    rw [succeeded, executed, raised]
    rfl
  obtain ⟨notOpened, closed_iff⟩ := allow_executed executed
  have settings := allow_settings before request.now
  generalize (before.allow request.now).2 = admitted at *
  have count : admitted.failureCount = before.failureCount := by rw [settings]
  have threshold : admitted.failureThreshold = before.failureThreshold := by rw [settings]
  have positive := counted.positive
  rw [← threshold] at positive
  by_cases trips : admitted.failureThreshold ≤ admitted.failureCount + 1 ∨
      admitted.state = .halfOpen
  · have next : admitted.onFailure request.later =
        { admitted with
          failureCount := admitted.failureCount + 1
          state := .opened
          lastStateChange := request.later } := by
      simp only [onFailure, if_pos trips]
    rw [next]
    refine ⟨positive, ?_, ?_, ?_⟩
    · rw [failuresSince_snoc, unsuccessful, failure, ← counted.count, ← count]
      rfl
    · simp only [reduceCtorEq, false_iff, not_lt]
      obtain reached | probing := trips
      · exact reached
      · have notClosed : ¬ before.failureCount < before.failureThreshold := by
          rw [← counted.closed_iff, ← closed_iff, probing]
          decide
        omega
    · intro _
      rw [lastTrip?_snoc, trip?, failure]
      rfl
  · have next : admitted.onFailure request.later =
        { admitted with failureCount := admitted.failureCount + 1 } := by
      simp only [onFailure, if_neg trips]
    rw [not_or, not_le] at trips
    have closed : admitted.state = .closed := by
      cases state : admitted.state with
      | closed => rfl
      | opened => exact absurd state notOpened
      | halfOpen => exact absurd state trips.2
    rw [next]
    refine ⟨positive, ?_, ?_, fun tripped => absurd tripped notOpened⟩
    · rw [failuresSince_snoc, unsuccessful, failure, ← counted.count, ← count]
      rfl
    · simp only [closed, true_iff]
      exact trips.1

theorem Counted.called (counted : Counted trace before)
    (called : Called before request after) :
    Counted (trace ++ [⟨before, request, after⟩]) after := by
  cases called with
  | refused executed tripped =>
      obtain ⟨count, trip⟩ := quiet_snoc trace before
        (by rw [CircuitBreaker.succeeded, executed]; rfl)
        (by rw [CircuitBreaker.failed, executed]; rfl)
      refine ⟨counted.positive, count ▸ counted.count, counted.closed_iff, ?_⟩
      rw [trip]
      exact counted.tripped
  | succeeded executed returned =>
      have success : CircuitBreaker.succeeded
          ⟨before, request, (before.allow request.now).2.onSuccess⟩ = true := by
        rw [CircuitBreaker.succeeded, executed, returned]
        rfl
      have positive : 0 < (before.allow request.now).2.failureThreshold := by
        rw [allow_settings]
        exact counted.positive
      refine ⟨positive, ?_, ⟨fun _ => positive, fun _ => rfl⟩, ?_⟩
      · rw [failuresSince_snoc, if_pos success]
        rfl
      · intro impossible
        cases impossible
  | failed executed raised expected => exact counted.fail executed raised expected
  | unexpected executed raised unexpected =>
      obtain ⟨notOpened, closed_iff⟩ := allow_executed executed
      have settings := allow_settings before request.now
      obtain ⟨count, _⟩ := quiet_snoc trace (before.allow request.now).2
        (by rw [CircuitBreaker.succeeded, executed, raised]; rfl)
        (by rw [CircuitBreaker.failed, executed, failsExpectedly, raised]; exact unexpected)
      refine ⟨?_, ?_, ?_, fun tripped => absurd tripped notOpened⟩
      · rw [settings]
        exact counted.positive
      · rw [count, settings]
        exact counted.count
      · rw [closed_iff, counted.closed_iff, settings]

end Counting

section Runs

variable {before after final : CircuitBreaker ε} {request : Call α ε}
  {trace : List (Transition (CircuitBreaker ε) (Call α ε))}

/-- The settings of a breaker. -/
def settings (breaker : CircuitBreaker ε) : Nat × ℚ × (ε → Bool) :=
  (breaker.failureThreshold, breaker.recoveryTimeout, breaker.expectedExceptions)

private theorem settings_allow (breaker : CircuitBreaker ε) (now : ℚ) :
    (breaker.allow now).2.settings = breaker.settings := by
  rw [allow_settings]
  rfl

private theorem settings_onFailure (breaker : CircuitBreaker ε) (now : ℚ) :
    (breaker.onFailure now).settings = breaker.settings := by
  simp only [onFailure]
  split <;> rfl

theorem Called.settings (called : Called before request after) :
    after.settings = before.settings := by
  cases called with
  | refused => rfl
  | succeeded => exact settings_allow before request.now
  | failed => exact (settings_onFailure _ _).trans (settings_allow before request.now)
  | unexpected => exact settings_allow before request.now

private theorem counted_run {start : CircuitBreaker ε} (run : Run Step start trace final)
    (initially : Counted ([] : List (Transition (CircuitBreaker ε) (Call α ε))) start) :
    Counted trace final ∧ final.settings = start.settings := by
  induction run with
  | nil => exact ⟨initially, rfl⟩
  | snoc _ taken ih =>
      obtain ⟨counted, same⟩ := ih
      exact ⟨counted.called taken.called, taken.called.settings.trans same⟩

/-- An operation is executed unless the breaker has tripped too recently. -/
theorem Counted.executes_iff (counted : Counted trace before) :
    before.executes request = true ↔ before.state ≠ .opened ∨
      ∃ tripped, lastTrip? trace = some tripped ∧
        before.recoveryTimeout ≤ request.now - tripped := by
  unfold executes allow
  by_cases opened : before.state = .opened
  · rw [if_pos opened, counted.tripped opened]
    by_cases late : before.recoveryTimeout ≤ request.now - before.lastStateChange
    · simp [opened, late]
    · simp [opened, late]
  · simp [opened]

private theorem call_halfOpen (probing : (before.call request).2.state = .halfOpen) :
    before.executes request = true ∧ ∃ error, request.operation = .error error ∧
      before.expectedExceptions error = false := by
  have called : Called before request (before.call request).2 := Step.called rfl
  generalize (before.call request).2 = after at called probing
  cases called with
  | refused _ tripped =>
      rw [tripped] at probing
      cases probing
  | succeeded => cases probing
  | @failed error =>
      simp only [onFailure] at probing
      split at probing
      · cases probing
      · next noTrip => exact absurd (.inr probing) noTrip
  | unexpected executed raised unexpected => exact ⟨executed, _, raised, unexpected⟩

/-- Without a result of the operation the caller gets the fallback's. -/
theorem call_fallback (without : before.executes request = false ∨
      ∃ error, request.operation = .error error ∧ before.expectedExceptions error = true) :
    ∃ error, (before.call request).1 = fallBack request.fallback error := by
  unfold call
  generalize admission : before.allow request.now = admitted
  obtain ⟨allowed, admitted⟩ := admitted
  cases allowed with
  | false => exact ⟨_, rfl⟩
  | true =>
      obtain refused | ⟨error, raised, expected⟩ := without
      · rw [executes, admission] at refused
        cases refused
      · have same : admitted.expectedExceptions = before.expectedExceptions := by
          have settings := settings_allow before request.now
          rw [admission] at settings
          exact congrArg (fun settings => settings.2.2) settings
        simp only [raised, same, expected, ↓reduceIte]
        exact ⟨_, rfl⟩

/-- The breaker over any sequence of calls that do not overlap, and the next call. -/
theorem run_sequential {name : String} {failureThreshold : Nat} {recoveryTimeout start : ℚ}
    {expectedExceptions : ε → Bool} (positive : 1 ≤ failureThreshold)
    (run : Run Step (new name failureThreshold recoveryTimeout expectedExceptions start)
      trace final) :
    final.failureCount = failuresSince trace ∧
    (final.state = .closed ↔ final.failureCount < failureThreshold) ∧
    ∀ request : Call α ε,
      (final.executes request = true ↔ final.state ≠ .opened ∨
        ∃ tripped, lastTrip? trace = some tripped ∧ recoveryTimeout ≤ request.now - tripped) ∧
      ((final.call request).2.state = .halfOpen → final.executes request = true ∧
        ∃ error, request.operation = .error error ∧ expectedExceptions error = false) ∧
      (final.executes request = false ∨ (∃ error, request.operation = .error error ∧
          expectedExceptions error = true) →
        match request.fallback with
        | some (.ok value) => (final.call request).1 = .ok value
        | some (.error error) => (final.call request).1 = .error (.raised error)
        | none => ∃ error, (final.call request).1 = .error error) := by
  have initially : Counted ([] : List (Transition (CircuitBreaker ε) (Call α ε)))
      (new name failureThreshold recoveryTimeout expectedExceptions start) := by
    refine ⟨positive, rfl, ?_, fun tripped => by cases tripped⟩
    exact ⟨fun _ => positive, fun _ => rfl⟩
  obtain ⟨counted, same⟩ := counted_run run initially
  simp only [settings, new, Prod.mk.injEq] at same
  obtain ⟨threshold, timeout, expected⟩ := same
  refine ⟨counted.count, threshold ▸ counted.closed_iff, ?_⟩
  intro request
  refine ⟨timeout ▸ counted.executes_iff, ?_, ?_⟩
  · intro probing
    rw [← expected]
    exact call_halfOpen probing
  · intro without
    rw [← expected] at without
    obtain ⟨error, answer⟩ := call_fallback without
    rw [answer]
    cases request.fallback with
    | none => exact ⟨error, rfl⟩
    | some given => cases given <;> rfl

end Runs

/-- Two calls of an operation that is down. -/
def twoFailures : List (Call Nat String) :=
  [⟨0, 0, .error "down", none⟩, ⟨1, 1, .error "down", none⟩]

/-- After two failures a breaker with threshold two answers with the fallback. -/
theorem run_sequential_two_failures :
    let exec := fun (breaker : CircuitBreaker String) (request : Call Nat String) =>
      (breaker.call request).2
    let start := new "cache" 2 5 (fun _ => true) 0
    let final := twoFailures.foldl exec start
    final.state = .opened ∧ final.failureCount = failuresSince (Run.trail exec start twoFailures) ∧
      (final.call (⟨2, 2, .ok 7, some (.ok 3)⟩ : Call Nat String)).1 = .ok 3 := by
  intro exec start final
  obtain ⟨count, _, next⟩ := run_sequential (by decide)
    (Run.of_exec (fun _ _ => rfl) start twoFailures)
  refine ⟨by decide +kernel, count, ?_⟩
  exact (next (⟨2, 2, .ok 7, some (.ok 3)⟩ : Call Nat String)).2.2 (.inl (by decide +kernel))

end CircuitBreaker

end LibraFlow.Storage
