import LibraFlow.Api.ClaimOwnership
import LibraFlow.Api.Routers

/-! Payments over several API processes. Each process keeps idempotency keys in a
store of its own, so that a retry is recognised only by the process that answered
the first request. -/

set_option autoImplicit false

namespace LibraFlow.Api

open LibraFlow.Core LibraFlow.Library

variable {μ ρ κ : Type}

/-- The call that an action belongs to. -/
def CallAction.call : CallAction ρ → Nat
  | .get call | .setInProgress call | .start call | .finish call _ | .settle call => call

/-- The processes with their stores, and the calls they answer under one clock. -/
structure ReplicatedSystem (κ ρ : Type) where
  stores : κ → IdempotencyStore ρ
  calls : Nat → CallPhase ρ
  clock : ℚ

namespace ReplicatedSystem

/-- Every process has just started. -/
def fresh (clock : ℚ) : ReplicatedSystem κ ρ :=
  ⟨fun _ => defaultIdempotencyStore, fun _ => .idle, clock⟩

/-- What one process sees. -/
def view (system : ReplicatedSystem κ ρ) (process : κ) : IdempotencySystem ρ :=
  ⟨system.stores process, system.calls, system.clock⟩

/-- A step of a call in the process it is routed to. -/
def exec [DecidableEq κ] (routing : Nat → κ) (requests : Nat → IdempotentRequest)
    (system : ReplicatedSystem κ ρ) (now : ℚ) (action : CallAction ρ) :
    Option (ReplicatedSystem κ ρ) :=
  ((system.view (routing action.call)).exec requests now action).map fun after =>
    ⟨Function.update system.stores (routing action.call) after.store, after.calls, after.clock⟩

end ReplicatedSystem

def ReplicatedStep [DecidableEq κ] (routing : Nat → κ) (requests : Nat → IdempotentRequest)
    (before : ReplicatedSystem κ ρ) (label : TimedAction ρ) (after : ReplicatedSystem κ ρ) : Prop :=
  before.clock ≤ label.now ∧ before.exec routing requests label.now label.action = some after

abbrev ReplicatedTrace (κ ρ : Type) : Type :=
  List (Transition (ReplicatedSystem κ ρ) (TimedAction ρ))

/-- Retries of one request to `/billing/pay`. -/
def paymentRetries (idempotencyKey sub : Option String) (req : PayFineRequest μ) (_ : Nat) :
    IdempotentRequest :=
  ⟨idempotencyKey, (ApiRequest.mk idempotencyKey sub (.payFine req)).scopingUser, 200⟩

/-- No step comes later than the lease of a call in progress. -/
def WithinLease (transition : Transition (ReplicatedSystem κ ρ) (TimedAction ρ)) : Prop :=
  ∀ call since, (transition.before.calls call).since = some since →
    transition.label.now ≤ since + leaseSeconds

/-- Within a day of a successful payment nothing is paid again, and every successful
response is the one of that payment. -/
def PaidOnce (trace : ReplicatedTrace κ ρ) : Prop :=
  ∀ leading paid trailing call result, trace = leading ++ paid :: trailing →
    paid.label.action = .finish call (some result) →
    ∀ step ∈ trailing, step.label.now ≤ paid.label.now + 86400 →
      (∀ other again, step.label.action ≠ .finish other (some again)) ∧
      ∀ other response, step.after.calls other = .returned response →
        step.before.calls other = .returned response ∨ response = result

section Payment

variable {requests : Nat → IdempotentRequest} {before after : IdempotencySystem ρ} {now paidAt : ℚ}
  {call : Nat} {result : ρ}

/-- The invariant of calls that share a key, after `Consistent`: none runs unprotected. -/
def Protected (system : IdempotencySystem ρ) : Prop :=
  ∀ call, system.calls call ≠ .unprotected

theorem Protected.move {other : Nat} {phase : CallPhase ρ} {store : IdempotencyStore ρ}
    (guarded : Protected before) (keyed : phase ≠ .unprotected) :
    Protected (before.move other phase store now) := by
  intro call
  simp only [IdempotencySystem.move, Function.update_apply]
  split
  · exact keyed
  · exact guarded call

private theorem step_protected {action : CallAction ρ}
    (keyed : ∀ call, truthy (requests call).idempotencyKey = true) (guarded : Protected before)
    (ran : before.exec requests now action = some after) : Protected after := by
  cases action with
  | get call =>
      cases exec_moves ran with
      | @served _ entry _ _ => exact guarded.move (by cases entry.data <;> simp [IdempotencyData.answer])
      | missed _ _ _ => exact guarded.move (by simp)
      | unprotected keyless =>
          rw [keyed call] at keyless
          cases keyless
  | setInProgress call =>
      cases exec_moves ran with
      | claimed _ => exact guarded.move (by simp)
      | refused => exact guarded.move (by simp)
  | start call =>
      cases exec_moves ran with
      | started _ => exact guarded.move (by simp)
  | finish call outcome =>
      cases outcome <;> simp only [IdempotencySystem.exec] at ran <;> split at ran <;> cases ran
      all_goals exact guarded.move (by simp)
  | settle call =>
      simp only [IdempotencySystem.exec] at ran
      split at ran <;> cases ran
      all_goals exact guarded.move (by simp)

/-- A payment that succeeded at the given time is about to be stored, or is stored
for a day from then at least. -/
def Recorded (requests : Nat → IdempotentRequest) (call : Nat) (result : ρ) (paidAt : ℚ)
    (system : IdempotencySystem ρ) : Prop :=
  (∃ since, system.calls call = .succeeded since result) ∨
  ∃ expiry, paidAt + 86400 ≤ expiry ∧ Stored requests (requests call).entryKey result expiry system

/-- Nobody else is in progress, and the entry turns calls away or gives the result. -/
structure Shielded (requests : Nat → IdempotentRequest) (call : Nat) (result : ρ) (now : ℚ)
    (system : IdempotencySystem ρ) : Prop where
  alone : ∀ other since, (system.calls other).since = some since →
    other = call ∧ ∃ claimed, system.calls call = .succeeded claimed result
  entry : ∃ entry, system.store.memoryStore.get? (requests call).entryKey = some entry ∧
    now ≤ entry.expiresAt ∧
    (entry.data.answer = .conflict ∨ entry.data.answer = .returned result)

theorem Recorded.shielded (shared : ∀ other, (requests other).entryKey = (requests call).entryKey)
    (guarded : Guarded requests before)
    (prompt : ∀ call since, (before.calls call).since = some since → now ≤ since + leaseSeconds)
    (within : now ≤ paidAt + 86400) (recorded : Recorded requests call result paidAt before) :
    Shielded requests call result now before := by
  rcases recorded with ⟨since, succeeded⟩ | ⟨expiry, longEnough, stored⟩
  · have inProgress : (before.calls call).since = some since := by rw [succeeded]; rfl
    refine ⟨?_, ?_⟩
    · intro other otherSince otherProgress
      have same := guarded.unique other call otherSince since otherProgress inProgress (shared other)
      exact ⟨same, since, succeeded⟩
    · exact ⟨_, guarded.entry call since inProgress, prompt call since inProgress, .inl rfl⟩
  · refine ⟨?_, ?_⟩
    · intro other since inProgress
      exact absurd (shared other) (stored.quiet other since inProgress)
    · obtain ⟨statusCode, found⟩ := stored.entry
      exact ⟨_, found, within.trans longEnough, .inr rfl⟩

theorem Shielded.not_free (shielded : Shielded requests call result now before) :
    ¬ before.store.Free (requests call).entryKey now := by
  intro free
  obtain ⟨entry, found, live, _⟩ := shielded.entry
  exact absurd live (not_le.mpr (free entry found))

/-- While a payment is shielded no other payment is made, and its response is the
only one that is given. -/
theorem Shielded.step (shared : ∀ other, (requests other).entryKey = (requests call).entryKey)
    (keyed : ∀ call, truthy (requests call).idempotencyKey = true) (guarded : Protected before)
    (shielded : Shielded requests call result now before) {action : CallAction ρ}
    (ran : before.exec requests now action = some after) :
    (∀ other again, action ≠ .finish other (some again)) ∧
    ∀ other response, after.calls other = .returned response →
      before.calls other = .returned response ∨ response = result := by
  have moved : ∀ {caller : Nat} {phase : CallPhase ρ} {store : IdempotencyStore ρ},
      (∀ response, phase = .returned response → response = result) →
      ∀ other response, (before.move caller phase store now).calls other = .returned response →
        before.calls other = .returned response ∨ response = result := by
    intro caller phase store answers other response returned
    simp only [IdempotencySystem.move, Function.update_apply] at returned
    split at returned
    · exact .inr (answers response returned)
    · exact .inl returned
  cases action with
  | get caller =>
      refine ⟨by simp, ?_⟩
      cases exec_moves ran with
      | @served _ entry found live =>
          apply moved
          intro response answer
          obtain ⟨present, stored, _, answers⟩ := shielded.entry
          rw [shared caller, stored] at found
          cases found
          rcases answers with refused | given
          · rw [refused] at answer
            cases answer
          · rw [given] at answer
            cases answer
            rfl
      | missed free _ _ => exact absurd (shared caller ▸ free) shielded.not_free
      | unprotected keyless =>
          rw [keyed caller] at keyless
          cases keyless
  | setInProgress caller =>
      refine ⟨by simp, ?_⟩
      cases exec_moves ran with
      | claimed free => exact absurd (shared caller ▸ free) shielded.not_free
      | refused => exact moved (by simp)
  | start caller =>
      refine ⟨by simp, ?_⟩
      cases exec_moves ran with
      | started _ => exact moved (by simp)
  | finish caller outcome =>
      -- A call that can finish is in progress, but not yet done.
      have idle : ∀ since, before.calls caller ≠ .running since := by
        intro since running
        obtain ⟨rfl, claimed, succeeded⟩ := shielded.alone caller since (by rw [running]; rfl)
        rw [running] at succeeded
        cases succeeded
      cases outcome <;> simp only [IdempotencySystem.exec] at ran <;> split at ran
      all_goals
        first
        | next running => exact absurd running (idle _)
        | next unprotected => exact absurd unprotected (guarded caller)
        | cases ran
  | settle caller =>
      refine ⟨by simp, ?_⟩
      simp only [IdempotencySystem.exec] at ran
      split at ran
      · next since response phase =>
          cases ran
          obtain ⟨rfl, claimed, succeeded⟩ := shielded.alone caller since (by rw [phase]; rfl)
          rw [phase] at succeeded
          cases succeeded
          exact moved (by simp)
      · next since phase =>
          cases ran
          exact moved (by simp)
      · cases ran

private theorem exec_moved {action : CallAction ρ}
    (ran : before.exec requests now action = some after) :
    ∃ phase store, after = before.move action.call phase store now := by
  cases exec_moves ran <;> exact ⟨_, _, rfl⟩

private theorem recorded_of_finish (guarded : Protected before)
    (ran : before.exec requests now (.finish call (some result)) = some after) :
    Recorded requests call result paidAt after := by
  simp only [IdempotencySystem.exec] at ran
  split at ran
  · next since running =>
      cases ran
      exact .inl ⟨since, by simp [IdempotencySystem.move]⟩
  · next unprotected => exact absurd unprotected (guarded call)
  · cases ran

theorem Recorded.step (guarded : Guarded requests before)
    (ttl : before.store.ttlSeconds = 86400) (later : paidAt ≤ now) (within : now ≤ paidAt + 86400)
    (recorded : Recorded requests call result paidAt before) {action : CallAction ρ}
    (ran : before.exec requests now action = some after) :
    Recorded requests call result paidAt after := by
  rcases recorded with ⟨since, succeeded⟩ | ⟨expiry, longEnough, stored⟩
  · by_cases itself : action.call = call
    · -- All that such a call can do is to store its response.
      cases action with
      | settle caller =>
          have same : caller = call := itself
          subst same
          have stored := stored_of_settle guarded succeeded ran
          refine .inr ⟨_, ?_, stored⟩
          rw [ttl]
          exact add_le_add_left later 86400
      | get caller | setInProgress caller | start caller =>
          have same : caller = call := itself
          subst same
          simp [IdempotencySystem.exec, succeeded] at ran
      | finish caller outcome =>
          have same : caller = call := itself
          subst same
          cases outcome <;> simp [IdempotencySystem.exec, succeeded] at ran
    · obtain ⟨phase, store, rfl⟩ := exec_moved ran
      refine .inl ⟨since, ?_⟩
      simp only [IdempotencySystem.move, Function.update_apply, if_neg (Ne.symm itself)]
      exact succeeded
  · exact .inr ⟨expiry, longEnough, (exec_moves ran).stored (within.trans longEnough) stored⟩

end Payment

section OneProcess

variable [DecidableEq κ] {routing : Nat → κ} {requests : Nat → IdempotentRequest} {process : κ}
  {before after : ReplicatedSystem κ ρ} {label : TimedAction ρ}

theorem ReplicatedStep.clock (taken : ReplicatedStep routing requests before label after) :
    after.clock = label.now := by
  obtain ⟨moved, ran, rfl⟩ := Option.map_eq_some_iff.mp taken.2
  obtain ⟨phase, store, rfl⟩ := exec_moved ran
  rfl

/-- When all calls go to one process, its view is a system with one store. -/
theorem ReplicatedStep.view (together : ∀ call, routing call = process)
    (taken : ReplicatedStep routing requests before label after) :
    IdempotencyStep requests (before.view process) label (after.view process) := by
  refine ⟨taken.1, ?_⟩
  obtain ⟨moved, ran, rfl⟩ := Option.map_eq_some_iff.mp taken.2
  rw [together] at ran
  rw [ran, together]
  simp [ReplicatedSystem.view]

theorem run_times {start final : ReplicatedSystem κ ρ} {trace : ReplicatedTrace κ ρ}
    (run : Run (ReplicatedStep routing requests) start trace final) :
    start.clock ≤ final.clock ∧ ∀ step ∈ trace, step.label.now ≤ final.clock := by
  induction run with
  | nil => exact ⟨le_refl _, by simp⟩
  | snoc _ taken ih =>
      rw [taken.clock]
      refine ⟨ih.1.trans taken.1, ?_⟩
      intro step member
      rcases List.mem_append.mp member with old | new
      · exact (ih.2 step old).trans taken.1
      · rw [List.mem_singleton] at new
        exact new ▸ le_refl _

/-- The invariant of the one process. -/
structure Sound (requests : Nat → IdempotentRequest) (process : κ)
    (system : ReplicatedSystem κ ρ) : Prop where
  consistent : Consistent requests 86400 (system.view process)
  guarded : Protected (system.view process)

theorem Sound.step (together : ∀ call, routing call = process)
    (keyed : ∀ call, truthy (requests call).idempotencyKey = true)
    (sound : Sound requests process before)
    (taken : ReplicatedStep routing requests before label after)
    (prompt : WithinLease ⟨before, label, after⟩) : Sound requests process after := by
  have step := taken.view together
  exact ⟨step_consistent sound.consistent step prompt, step_protected keyed sound.guarded step.2⟩

theorem run_sound (together : ∀ call, routing call = process)
    (keyed : ∀ call, truthy (requests call).idempotencyKey = true) {clock : ℚ}
    {trace : ReplicatedTrace κ ρ} {final : ReplicatedSystem κ ρ}
    (run : Run (ReplicatedStep routing requests) (.fresh clock) trace final)
    (prompt : ∀ step ∈ trace, WithinLease step) : Sound requests process final := by
  have initially : Sound requests process (.fresh clock : ReplicatedSystem κ ρ) := by
    refine ⟨consistent_empty requests 86400 clock, ?_⟩
    intro call
    simp [ReplicatedSystem.view, ReplicatedSystem.fresh]
  exact run.invariant prompt initially fun _ _ _ sound taken within =>
    sound.step together keyed taken within

/-- A process that answers all the calls, with a payment on record. -/
structure SoundAfter (requests : Nat → IdempotentRequest) (process : κ) (call : Nat) (result : ρ)
    (paidAt : ℚ) (system : ReplicatedSystem κ ρ) : Prop where
  sound : Sound requests process system
  recorded : Recorded requests call result paidAt (system.view process)
  later : paidAt ≤ system.clock

theorem SoundAfter.step (together : ∀ call, routing call = process)
    (keyed : ∀ call, truthy (requests call).idempotencyKey = true) {call : Nat} {result : ρ}
    {paidAt : ℚ} (earlier : SoundAfter requests process call result paidAt before)
    (taken : ReplicatedStep routing requests before label after)
    (prompt : WithinLease ⟨before, label, after⟩) (within : label.now ≤ paidAt + 86400) :
    SoundAfter requests process call result paidAt after := by
  have step := taken.view together
  have later := earlier.later.trans taken.1
  refine ⟨earlier.sound.step together keyed taken prompt, ?_, taken.clock ▸ later⟩
  exact earlier.recorded.step earlier.sound.consistent.guarded earlier.sound.consistent.ttl later
    within step.2

private theorem paidOnce_of_together (together : ∀ call, routing call = process)
    (keyed : ∀ call, truthy (requests call).idempotencyKey = true)
    (shared : ∀ call other, (requests other).entryKey = (requests call).entryKey) {clock : ℚ}
    {trace : ReplicatedTrace κ ρ} {final : ReplicatedSystem κ ρ}
    (run : Run (ReplicatedStep routing requests) (.fresh clock) trace final)
    (prompt : ∀ step ∈ trace, WithinLease step) : PaidOnce trace := by
  intro leading paid trailing call result cut pays step member within
  obtain ⟨between, rest, split⟩ := List.append_of_mem member
  have regrouped : trace = (leading ++ [paid]) ++ (between ++ [step]) ++ rest := by
    simp [cut, split]
  obtain ⟨_, first, _⟩ := (regrouped ▸ run).split
  obtain ⟨middle, payment, follow⟩ := first.split
  obtain ⟨start, made, rfl⟩ := payment.last
  obtain ⟨onward, taken, _⟩ := follow.last
  have earlier := run_sound together keyed start fun transition old =>
    prompt transition (by simp [cut, old])
  have initially : SoundAfter requests process call result paid.label.now paid.after := by
    have ran := (made.view together).2
    rw [pays] at ran
    exact ⟨earlier.step together keyed made (prompt paid (by simp [cut])),
      recorded_of_finish earlier.guarded ran, le_of_eq made.clock.symm⟩
  have permitted : ∀ transition ∈ between,
      WithinLease transition ∧ transition.label.now ≤ paid.label.now + 86400 := by
    intro transition old
    refine ⟨prompt transition (by simp [cut, split, old]), ?_⟩
    exact (((run_times onward).2 transition old).trans taken.1).trans within
  have reached := onward.invariant permitted initially fun _ _ _ recorded moved allowed =>
    recorded.step together keyed moved allowed.1 allowed.2
  have shielded := reached.recorded.shielded (shared call) reached.sound.consistent.guarded
    (prompt step (by simp [cut, split])) within
  exact shielded.step (shared call) keyed reached.sound.guarded (taken.view together).2

end OneProcess

section Instant

variable [DecidableEq κ] {routing : Nat → κ} {requests : Nat → IdempotentRequest} {clock : ℚ}

/-- Nothing happens but at one time. -/
structure AtOnce (clock : ℚ) (system : ReplicatedSystem κ ρ) : Prop where
  now : system.clock = clock
  claims : ∀ call since, (system.calls call).since = some since → since = clock

/-- A claim is as old as before, or it is taken in this step. -/
theorem since_of_exec {before after : IdempotencySystem ρ} {now since : ℚ} {action : CallAction ρ}
    (ran : before.exec requests now action = some after) {call : Nat}
    (inProgress : (after.calls call).since = some since) :
    (before.calls call).since = some since ∨ since = now := by
  have moved : ∀ {caller : Nat} {phase : CallPhase ρ} {store : IdempotencyStore ρ},
      ((before.move caller phase store now).calls call).since = some since →
      (phase.since = none ∨ phase.since = (before.calls caller).since ∨
        phase.since = some now) → (before.calls call).since = some since ∨ since = now := by
    intro caller phase store later cases
    rw [since_move] at later
    split at later
    · next same =>
        subst same
        rcases cases with none | kept | fresh
        · rw [none] at later
          cases later
        · exact .inl (kept ▸ later)
        · rw [fresh] at later
          exact .inr (Option.some.inj later).symm
    · exact .inl later
  cases exec_moves ran with
  | @served _ entry _ _ =>
      exact moved inProgress (.inl (by cases entry.data <;> rfl))
  | missed _ _ _ | unprotected _ | refused => exact moved inProgress (.inl rfl)
  | claimed _ => exact moved inProgress (.inr (.inr rfl))
  | started claimed => exact moved inProgress (.inr (.inl claimed.symm))
  | finished same => exact moved inProgress (.inr (.inl same))
  | settled _ done _ _ => exact moved inProgress (.inl done)

theorem AtOnce.step {before after : ReplicatedSystem κ ρ} {label : TimedAction ρ}
    (atOnce : AtOnce clock before) (taken : ReplicatedStep routing requests before label after)
    (instant : label.now = clock) : AtOnce clock after := by
  refine ⟨taken.clock.trans instant, ?_⟩
  obtain ⟨moved, ran, rfl⟩ := Option.map_eq_some_iff.mp taken.2
  intro call since inProgress
  rcases since_of_exec ran inProgress with earlier | fresh
  · exact atOnce.claims call since earlier
  · exact fresh.trans instant

private theorem withinLease_of_instant {trace : ReplicatedTrace κ ρ} {final : ReplicatedSystem κ ρ}
    (run : Run (ReplicatedStep routing requests) (.fresh clock) trace final)
    (instant : ∀ step ∈ trace, step.label.now = clock) : ∀ step ∈ trace, WithinLease step := by
  have initially : AtOnce clock (.fresh clock : ReplicatedSystem κ ρ) := by
    refine ⟨rfl, ?_⟩
    intro call since inProgress
    cases inProgress
  have always := run.transition_invariant instant initially fun _ _ _ atOnce taken now =>
    atOnce.step taken now
  intro step member call since inProgress
  rw [instant step member, (always step member).1.claims call since inProgress]
  exact le_add_of_nonneg_right (by norm_num [leaseSeconds])

def ReplicatedSystem.execAt (routing : Nat → κ) (requests : Nat → IdempotentRequest)
    (system : ReplicatedSystem κ ρ) (label : TimedAction ρ) : Option (ReplicatedSystem κ ρ) :=
  if system.clock ≤ label.now then system.exec routing requests label.now label.action else none

/-- Two payments at the same time break the promise. -/
theorem not_paidOnce_of_replay {leading between : List (TimedAction ρ)} {first second : Nat}
    {result again : ρ}
    (replayed : (Run.replay (ReplicatedSystem.execAt routing requests) (fun _ _ => true)
      (.fresh 0 : ReplicatedSystem κ ρ) (leading ++ ⟨.finish first (some result), 0⟩ ::
        (between ++ [⟨.finish second (some again), 0⟩]))).isSome = true)
    (instant : ∀ label ∈ leading ++ between, label.now = 0) :
    ∃ trace final, Run (ReplicatedStep routing requests) (.fresh 0 : ReplicatedSystem κ ρ)
      trace final ∧ (∀ step ∈ trace, WithinLease step) ∧ ¬ PaidOnce trace := by
  obtain ⟨final, ran⟩ := Option.isSome_iff_exists.mp replayed
  obtain ⟨trace, run, labels, _⟩ := Run.of_replay ran
  have steps : Run (ReplicatedStep routing requests) (.fresh 0) trace final := by
    refine run.mono ?_
    intro before label after taken
    unfold ReplicatedSystem.execAt at taken
    split at taken
    · next timely => exact ⟨timely, taken⟩
    · cases taken
  refine ⟨trace, final, steps, withinLease_of_instant steps ?_, ?_⟩
  · intro step member
    have label : step.label ∈ trace.map Transition.label := List.mem_map_of_mem member
    simp only [labels, List.mem_append, List.mem_cons, List.not_mem_nil, or_false] at label
    rcases label with early | first | late | second
    · exact instant step.label (List.mem_append_left _ early)
    · rw [first]
    · exact instant step.label (List.mem_append_right _ late)
    · rw [second]
  · intro once
    obtain ⟨before, others, rfl, _, rest⟩ := List.map_eq_append_iff.mp labels
    obtain ⟨paid, trailing, rfl, pays, rest⟩ := List.map_eq_cons_iff.mp rest
    obtain ⟨middle, last, rfl, _, rest⟩ := List.map_eq_append_iff.mp rest
    obtain ⟨step, _, rfl, repeats, _⟩ := List.map_eq_cons_iff.mp rest
    have within : step.label.now ≤ paid.label.now + 86400 := by
      rw [pays, repeats]
      norm_num
    have nothing := once before paid _ first result rfl (by rw [pays]) step (by simp) within
    exact nothing.1 second again (by rw [repeats])

/-- The steps with which a call claims its key. -/
def claimSteps (call : Nat) : List (TimedAction ρ) :=
  [⟨.get call, 0⟩, ⟨.setInProgress call, 0⟩, ⟨.start call, 0⟩]

private theorem two_processes_pay (ρ : Type) [Inhabited ρ] {idempotencyKey : Option String}
    (sub : Option String) (req : PayFineRequest μ) (keyed : truthy idempotencyKey = true) {first second : Nat}
    (apart : routing first ≠ routing second) :
    (Run.replay (ReplicatedSystem.execAt routing (paymentRetries idempotencyKey sub req))
      (fun _ _ => true) (.fresh 0 : ReplicatedSystem κ ρ)
      (claimSteps first ++ ⟨.finish first (some default), 0⟩ ::
        (claimSteps second ++ [⟨.finish second (some default), 0⟩]))).isSome = true := by
  have different : first ≠ second := fun same => apart (by rw [same])
  simp [claimSteps, Run.replay, ReplicatedSystem.execAt, ReplicatedSystem.exec,
    ReplicatedSystem.view, ReplicatedSystem.fresh, CallAction.call, IdempotencySystem.exec,
    IdempotencySystem.execGet, IdempotencySystem.execSetInProgress, IdempotencyStore.get,
    IdempotencyStore.setInProgress, IdempotencyStore.claim, IdempotencySystem.move,
    paymentRetries, defaultIdempotencyStore, keyed, different.symm, apart.symm]

private theorem keyless_calls_pay (ρ : Type) [Inhabited ρ] (routing : Nat → κ)
    {idempotencyKey : Option String} (sub : Option String) (req : PayFineRequest μ) (keyless : truthy idempotencyKey = false) :
    (Run.replay (ReplicatedSystem.execAt routing (paymentRetries idempotencyKey sub req))
      (fun _ _ => true) (.fresh 0 : ReplicatedSystem κ ρ)
      ([⟨.get 0, 0⟩] ++ ⟨.finish 0 (some default), 0⟩ ::
        ([⟨.get 1, 0⟩] ++ [⟨.finish 1 (some default), 0⟩]))).isSome = true := by
  simp [Run.replay, ReplicatedSystem.execAt, ReplicatedSystem.exec, ReplicatedSystem.view,
    ReplicatedSystem.fresh, CallAction.call, IdempotencySystem.exec, IdempotencySystem.execGet,
    IdempotencySystem.move, paymentRetries, keyless]

end Instant

/-- Retried payments are made once, whatever the interleaving, iff they carry a key
and one process answers them all. -/
theorem paidOnce_iff_one_process [DecidableEq κ] [Inhabited ρ] (routing : Nat → κ)
    (idempotencyKey sub : Option String) (req : PayFineRequest μ) :
    (∀ clock (trace : ReplicatedTrace κ ρ) final,
      Run (ReplicatedStep routing (paymentRetries idempotencyKey sub req)) (.fresh clock) trace
        final →
      (∀ step ∈ trace, WithinLease step) → PaidOnce trace) ↔
    truthy idempotencyKey = true ∧ ∀ first second, routing first = routing second := by
  constructor
  · intro once
    have keyed : truthy idempotencyKey = true := by
      apply Classical.byContradiction
      intro keyless
      obtain ⟨trace, final, run, prompt, twice⟩ := not_paidOnce_of_replay
        (keyless_calls_pay ρ routing sub req (Bool.eq_false_iff.mpr keyless)) (by simp)
      exact twice (once 0 trace final run prompt)
    refine ⟨keyed, ?_⟩
    intro first second
    apply Classical.byContradiction
    intro apart
    obtain ⟨trace, final, run, prompt, twice⟩ := not_paidOnce_of_replay
      (two_processes_pay ρ sub req keyed apart) (by simp [claimSteps])
    exact twice (once 0 trace final run prompt)
  · rintro ⟨keyed, together⟩ clock trace final run prompt
    exact paidOnce_of_together (fun call => together call 0) (fun _ => keyed) (fun _ _ => rfl) run
      prompt

/-- Two processes, one request each: both pay. -/
theorem two_replicas_pay_twice :
    ∃ (routing : Nat → Fin 2) (trace : ReplicatedTrace (Fin 2) Nat)
      (final : ReplicatedSystem (Fin 2) Nat),
      Run (ReplicatedStep routing (paymentRetries (some "K1") (some "U1")
        { userId := "U1", amount := 50, paymentMetadata := () })) (.fresh 0) trace final ∧
      (∀ step ∈ trace, WithinLease step) ∧ ¬ PaidOnce trace := by
  let routing : Nat → Fin 2 := fun call => if call = 0 then 0 else 1
  have apart : routing 0 ≠ routing 1 := by decide
  have keyed : truthy (some "K1") = true := by decide
  obtain ⟨trace, final, run, prompt, twice⟩ := not_paidOnce_of_replay
    (two_processes_pay Nat (some "U1") ⟨"U1", 50, "UPI", ()⟩ keyed apart)
    (by simp [claimSteps])
  exact ⟨routing, trace, final, run, prompt, twice⟩

end LibraFlow.Api
