import LibraFlow.Api.IdempotencyProperties

/-! Whose claim a call settles. Claims carry no owner: a call that outlives its lease
may find the claim or the response of another call under its key. This module tells
who wrote the entry of a key, and when a call meets its own claim only. -/

set_option autoImplicit false

namespace LibraFlow.Api

open LibraFlow.Core LibraFlow.Library

variable {ρ : Type}

/-- Calls with the same key and user; their responses may differ in the status code. -/
def repeated (idempotencyKey userId : Option String) (statusCodes : Nat → Int) (call : Nat) :
    IdempotentRequest :=
  ⟨idempotencyKey, userId, statusCodes call⟩

abbrev IdempotencyTrace (ρ : Type) : Type :=
  List (Transition (IdempotencySystem ρ) (TimedAction ρ))

/-- The call that writes the entry of the key in a step, or removes it when it settles. -/
def writer (transition : Transition (IdempotencySystem ρ) (TimedAction ρ)) : Option Nat :=
  match transition.label.action with
  | .setInProgress call =>
      if (transition.after.calls call).since.isSome then some call else none
  | .settle call => some call
  | _ => none

/-- The call that was the last to write. -/
def lastWriter (trace : IdempotencyTrace ρ) : Option Nat :=
  trace.foldl (fun last transition => (writer transition).or last) none

private theorem lastWriter_snoc (trace : IdempotencyTrace ρ)
    (transition : Transition (IdempotencySystem ρ) (TimedAction ρ)) :
    lastWriter (trace ++ [transition]) = (writer transition).or (lastWriter trace) := by
  simp [lastWriter, List.foldl_append]

/-- The entry that all the calls share. -/
def IdempotencySystem.entry (system : IdempotencySystem ρ)
    (idempotencyKey userId : Option String) : Option (IdempotencyEntry ρ) :=
  system.store.memoryStore.get? (IdempotencyStore.makeKey (idempotencyKey.getD "") userId)

/-- What a step does to the shared entry and to the claims of the calls. -/
inductive EntryMove (idempotencyKey userId : Option String)
    (transition : Transition (IdempotencySystem ρ) (TimedAction ρ)) : Prop where
  | quiet (unwritten : writer transition = none)
      (phases : ∀ call, (transition.after.calls call).since =
        (transition.before.calls call).since)
      (kept : transition.after.entry idempotencyKey userId =
          transition.before.entry idempotencyKey userId ∨
        transition.after.entry idempotencyKey userId = none ∧
        ∀ entry, transition.before.entry idempotencyKey userId = some entry →
          entry.expiresAt < transition.label.now)
  | claimed {call : Nat} (label : transition.label.action = .setInProgress call)
      (idle : (transition.before.calls call).since = none)
      (phases : ∀ other, (transition.after.calls other).since =
        if other = call then some transition.label.now else (transition.before.calls other).since)
      (free : ∀ entry, transition.before.entry idempotencyKey userId = some entry →
        entry.expiresAt < transition.label.now)
      (entry : transition.after.entry idempotencyKey userId =
        some ⟨.inProgress, transition.label.now + leaseSeconds⟩)
  | settled {call : Nat} {since : ℚ} (label : transition.label.action = .settle call)
      (inProgress : (transition.before.calls call).since = some since)
      (phases : ∀ other, (transition.after.calls other).since =
        if other = call then none else (transition.before.calls other).since)
      (finished : ∀ expiresAt, transition.after.entry idempotencyKey userId ≠
        some ⟨.inProgress, expiresAt⟩)

section Inversion

variable {idempotencyKey userId : Option String} {statusCodes : Nat → Int}
  {before after : IdempotencySystem ρ} {now : ℚ}

private theorem since_unchanged {call : Nat} {phase : CallPhase ρ} {store : IdempotencyStore ρ}
    (same : phase.since = (before.calls call).since) (other : Nat) :
    ((before.move call phase store now).calls other).since = (before.calls other).since := by
  rw [since_move]
  split
  · next equal => rw [same, equal]
  · rfl

private theorem entryMove_get {call : Nat} (idle : before.calls call = .idle)
    (ran : before.execGet (repeated idempotencyKey userId statusCodes call) call now = after) :
    EntryMove idempotencyKey userId ⟨before, ⟨.get call, now⟩, after⟩ := by
  have none : (before.calls call).since = none := by rw [idle]; rfl
  unfold repeated at ran
  simp only [IdempotencySystem.execGet, IdempotencyStore.get] at ran
  by_cases keyed : truthy idempotencyKey = true
  · rw [if_pos keyed] at ran
    cases found : before.store.memoryStore.get? (IdempotencyStore.makeKey
        (idempotencyKey.getD "") userId) with
    | none =>
        simp only [found] at ran
        subst ran
        exact .quiet rfl (since_unchanged none.symm) (.inl rfl)
    | some entry =>
        simp only [found] at ran
        by_cases expired : entry.expiresAt < now
        · simp only [expired, ↓reduceIte] at ran
          subst ran
          refine .quiet rfl (since_unchanged none.symm) (.inr ⟨?_, ?_⟩)
          · simp [IdempotencySystem.entry, IdempotencySystem.move, Dict.get?_erase]
          · intro other present
            cases found.symm.trans present
            exact expired
        · simp only [expired, ↓reduceIte] at ran
          cases data : entry.data with
          | inProgress | completed statusCode responseBody =>
              simp only [data] at ran
              subst ran
              exact .quiet rfl (since_unchanged none.symm) (.inl rfl)
  · rw [if_neg keyed] at ran
    subst ran
    exact .quiet rfl (since_unchanged none.symm) (.inl rfl)

private theorem entryMove_setInProgress {call : Nat} (claiming : before.calls call = .claiming) :
    EntryMove idempotencyKey userId ⟨before, ⟨.setInProgress call, now⟩,
      before.execSetInProgress (repeated idempotencyKey userId statusCodes call) call now⟩ := by
  have none : (before.calls call).since = none := by rw [claiming]; rfl
  have claims (free : ∀ entry, before.entry idempotencyKey userId = some entry →
      entry.expiresAt < now) :
      EntryMove idempotencyKey userId ⟨before, ⟨.setInProgress call, now⟩,
        before.move call (.claimed now) (before.store.claim
          (IdempotencyStore.makeKey (idempotencyKey.getD "") userId) leaseSeconds now) now⟩ := by
    refine .claimed rfl none (fun _ => since_move) free ?_
    simp [IdempotencySystem.entry, IdempotencySystem.move, IdempotencyStore.claim]
  unfold IdempotencySystem.execSetInProgress IdempotencyStore.setInProgress
  simp only [repeated]
  cases found : before.store.memoryStore.get? (IdempotencyStore.makeKey
      (idempotencyKey.getD "") userId) with
  | none => exact claims fun entry present => by cases found.symm.trans present
  | some entry =>
      by_cases live : now ≤ entry.expiresAt
      · simp only [live, ↓reduceIte]
        refine .quiet ?_ (since_unchanged none.symm) (.inl rfl)
        simp [writer, IdempotencySystem.move, CallPhase.since]
      · simp only [live, ↓reduceIte]
        refine claims ?_
        intro other present
        cases found.symm.trans present
        exact not_le.mp live

private theorem entryMove_of_step {action : CallAction ρ}
    (ran : before.exec (repeated idempotencyKey userId statusCodes) now action = some after) :
    EntryMove idempotencyKey userId ⟨before, ⟨action, now⟩, after⟩ := by
  cases action with
  | get call =>
      simp only [IdempotencySystem.exec] at ran
      split at ran
      · next idle =>
          exact entryMove_get idle (Option.some.inj ran)
      · cases ran
  | setInProgress call =>
      simp only [IdempotencySystem.exec] at ran
      split at ran
      · next claiming =>
          cases ran
          exact entryMove_setInProgress claiming
      · cases ran
  | start call =>
      simp only [IdempotencySystem.exec] at ran
      split at ran
      · next since phase =>
          cases ran
          exact .quiet rfl (since_unchanged (by rw [phase]; rfl)) (.inl rfl)
      · cases ran
  | finish call result =>
      cases result <;> simp only [IdempotencySystem.exec] at ran <;> split at ran
      all_goals
        first
        | next phase =>
            cases ran
            exact .quiet rfl (since_unchanged (by rw [phase]; rfl)) (.inl rfl)
        | cases ran
  | settle call =>
      simp only [IdempotencySystem.exec] at ran
      split at ran
      · next since result phase =>
          cases ran
          refine .settled rfl (by simp only [phase]; rfl) (fun _ => since_move) ?_
          simp [IdempotencySystem.entry, IdempotencySystem.move, IdempotencyStore.setCompleted,
            repeated]
      · next since phase =>
          cases ran
          refine .settled rfl (by simp only [phase]; rfl) (fun _ => since_move) ?_
          simp [IdempotencySystem.entry, IdempotencySystem.move, IdempotencyStore.clear, repeated,
            Dict.get?_erase]
      · cases ran

end Inversion

/-- A claim in the store was written by a call that is still in progress on it. -/
def Authored (idempotencyKey userId : Option String) (author : Option Nat)
    (system : IdempotencySystem ρ) : Prop :=
  ∀ expiresAt, system.entry idempotencyKey userId = some ⟨.inProgress, expiresAt⟩ →
    ∃ call since, author = some call ∧ (system.calls call).since = some since ∧
      expiresAt = since + leaseSeconds

theorem EntryMove.authored {idempotencyKey userId : Option String} {author : Option Nat}
    {transition : Transition (IdempotencySystem ρ) (TimedAction ρ)}
    (move : EntryMove idempotencyKey userId transition)
    (authored : Authored idempotencyKey userId author transition.before) :
    Authored idempotencyKey userId ((writer transition).or author) transition.after := by
  intro expiresAt stored
  cases move with
  | quiet unwritten phases kept =>
      rcases kept with same | ⟨dropped, _⟩
      · rw [same] at stored
        obtain ⟨call, since, isAuthor, inProgress, deadline⟩ := authored expiresAt stored
        exact ⟨call, since, by simp [unwritten, isAuthor], by rw [phases, inProgress], deadline⟩
      · rw [dropped] at stored
        cases stored
  | @claimed call label idle phases free entry =>
      rw [entry] at stored
      cases stored
      have written : writer transition = some call := by simp [writer, label, phases]
      exact ⟨call, transition.label.now, by simp [written], by simp [phases], rfl⟩
  | settled label inProgress phases finished => exact absurd stored (finished expiresAt)

/-- Leases of calls in progress do not overlap, and a lease that is not over has its
claim in the store. -/
structure Leased (idempotencyKey userId : Option String) (system : IdempotencySystem ρ) :
    Prop where
  live : ∀ call since, (system.calls call).since = some since →
    system.clock ≤ since + leaseSeconds →
    system.entry idempotencyKey userId = some ⟨.inProgress, since + leaseSeconds⟩
  apart : ∀ left right leftSince rightSince, left ≠ right →
    (system.calls left).since = some leftSince → (system.calls right).since = some rightSince →
    leftSince + leaseSeconds < rightSince ∨ rightSince + leaseSeconds < leftSince

/-- A call that settles when its lease is over finds nothing under its key, or the
claim it wrote: no other call has taken over. -/
def Undisturbed (idempotencyKey userId : Option String)
    (transition : Transition (IdempotencySystem ρ) (TimedAction ρ)) : Prop :=
  ∀ call since, transition.label.action = .settle call →
    (transition.before.calls call).since = some since →
    since + leaseSeconds < transition.label.now →
    ∀ entry, transition.before.entry idempotencyKey userId = some entry →
      entry = ⟨.inProgress, since + leaseSeconds⟩

/-- A call claims the key only when the leases of all calls in progress are over. -/
def ClaimsAlone (transition : Transition (IdempotencySystem ρ) (TimedAction ρ)) : Prop :=
  ∀ call other since, transition.label.action = .setInProgress call →
    (transition.after.calls call).since.isSome = true → other ≠ call →
    (transition.before.calls other).since = some since →
    since + leaseSeconds < transition.label.now

section Leases

variable {idempotencyKey userId : Option String}
  {transition : Transition (IdempotencySystem ρ) (TimedAction ρ)}

/-- Nobody whose lease is running is in progress on a key that is free. -/
theorem Leased.over_of_free (leased : Leased idempotencyKey userId transition.before)
    (clock : transition.before.clock ≤ transition.label.now)
    (free : ∀ entry, transition.before.entry idempotencyKey userId = some entry →
      entry.expiresAt < transition.label.now)
    {call : Nat} {since : ℚ} (inProgress : (transition.before.calls call).since = some since) :
    since + leaseSeconds < transition.label.now := by
  apply lt_of_not_ge
  intro running
  have entry := leased.live call since inProgress (clock.trans running)
  exact absurd (free _ entry) (not_lt.mpr running)

/-- The claim that an undisturbed call meets when it settles. -/
theorem Leased.settles (leased : Leased idempotencyKey userId transition.before)
    (clock : transition.before.clock ≤ transition.label.now)
    (undisturbed : Undisturbed idempotencyKey userId transition) {call : Nat} {since : ℚ}
    (label : transition.label.action = .settle call)
    (inProgress : (transition.before.calls call).since = some since)
    {entry : IdempotencyEntry ρ}
    (stored : transition.before.entry idempotencyKey userId = some entry) :
    entry = ⟨.inProgress, since + leaseSeconds⟩ := by
  by_cases overdue : since + leaseSeconds < transition.label.now
  · exact undisturbed call since label inProgress overdue entry stored
  · have running := clock.trans (not_lt.mp overdue)
    rw [leased.live call since inProgress running] at stored
    exact (Option.some.inj stored).symm

/-- Calls that claimed the key at the same time are the same call. -/
theorem Leased.same_call {system : IdempotencySystem ρ}
    (leased : Leased idempotencyKey userId system) {left right : Nat} {since : ℚ}
    (leftProgress : (system.calls left).since = some since)
    (rightProgress : (system.calls right).since = some since) : left = right := by
  apply Classical.byContradiction
  intro different
  have lease : (0 : ℚ) < leaseSeconds := by norm_num [leaseSeconds]
  rcases leased.apart left right since since different leftProgress rightProgress with
    overlap | overlap <;> linarith

theorem EntryMove.leased (move : EntryMove idempotencyKey userId transition)
    (clock : transition.before.clock ≤ transition.label.now)
    (advanced : transition.after.clock = transition.label.now)
    (undisturbed : Undisturbed idempotencyKey userId transition)
    (leased : Leased idempotencyKey userId transition.before) :
    Leased idempotencyKey userId transition.after := by
  cases move with
  | quiet unwritten phases kept =>
      refine ⟨?_, ?_⟩
      · intro call since inProgress running
        rw [phases] at inProgress
        rw [advanced] at running
        have entry := leased.live call since inProgress (clock.trans running)
        rcases kept with same | ⟨_, free⟩
        · rw [same, entry]
        · exact absurd (leased.over_of_free clock free inProgress) (not_lt.mpr running)
      · intro left right leftSince rightSince different leftProgress rightProgress
        rw [phases] at leftProgress rightProgress
        exact leased.apart left right leftSince rightSince different leftProgress rightProgress
  | @claimed call label idle phases free entry =>
      have overdue : ∀ other since, other ≠ call →
          (transition.after.calls other).since = some since →
          since + leaseSeconds < transition.label.now := by
        intro other since different inProgress
        rw [phases, if_neg different] at inProgress
        exact leased.over_of_free clock free inProgress
      have own : ∀ since, (transition.after.calls call).since = some since →
          since = transition.label.now := by
        intro since inProgress
        rw [phases, if_pos rfl] at inProgress
        exact (Option.some.inj inProgress).symm
      refine ⟨?_, ?_⟩
      · intro other since inProgress running
        rw [advanced] at running
        by_cases different : other = call
        · subst different
          rw [own since inProgress]
          exact entry
        · exact absurd (overdue other since different inProgress) (not_lt.mpr running)
      · intro left right leftSince rightSince different leftProgress rightProgress
        by_cases leftNew : left = call
        · subst leftNew
          rw [own leftSince leftProgress]
          exact .inr (overdue right rightSince different.symm rightProgress)
        · by_cases rightNew : right = call
          · subst rightNew
            rw [own rightSince rightProgress]
            exact .inl (overdue left leftSince leftNew leftProgress)
          · rw [phases, if_neg leftNew] at leftProgress
            rw [phases, if_neg rightNew] at rightProgress
            exact leased.apart left right leftSince rightSince different leftProgress rightProgress
  | @settled call since label inProgress phases finished =>
      have earlier : ∀ other otherSince, (transition.after.calls other).since = some otherSince →
          other ≠ call ∧ (transition.before.calls other).since = some otherSince := by
        intro other otherSince remaining
        rw [phases] at remaining
        split at remaining
        · cases remaining
        · next different => exact ⟨different, remaining⟩
      refine ⟨?_, ?_⟩
      · intro other otherSince remaining running
        -- The entry would be the claim of both calls, whose leases do not overlap.
        obtain ⟨different, otherProgress⟩ := earlier other otherSince remaining
        rw [advanced] at running
        have entry := leased.live other otherSince otherProgress (clock.trans running)
        have same := leased.settles clock undisturbed label inProgress entry
        have equal : otherSince = since := by
          simpa using congrArg IdempotencyEntry.expiresAt same
        subst equal
        exact absurd (leased.same_call otherProgress inProgress) different
      · intro left right leftSince rightSince different leftProgress rightProgress
        exact leased.apart left right leftSince rightSince different
          (earlier left leftSince leftProgress).2 (earlier right rightSince rightProgress).2

end Leases

section Runs

variable {idempotencyKey userId : Option String} {statusCodes : Nat → Int} {ttlSeconds clock : ℚ}
  {trace : IdempotencyTrace ρ} {final : IdempotencySystem ρ}

theorem run_authored
    (run : Run (IdempotencyStep (repeated idempotencyKey userId statusCodes))
      (.empty ttlSeconds clock) trace final) :
    Authored idempotencyKey userId (lastWriter trace) final := by
  induction run with
  | nil =>
      intro expiresAt stored
      cases stored
  | snoc _ taken ih =>
      rw [lastWriter_snoc]
      exact (entryMove_of_step taken.2).authored ih

private theorem step_clock {requests : Nat → IdempotentRequest} {before after : IdempotencySystem ρ}
    {label : TimedAction ρ} (taken : IdempotencyStep requests before label after) :
    after.clock = label.now := by
  obtain ⟨action, now⟩ := label
  cases exec_moves taken.2 <;> rfl

theorem run_leased
    (run : Run (IdempotencyStep (repeated idempotencyKey userId statusCodes))
      (.empty ttlSeconds clock) trace final)
    (undisturbed : ∀ transition ∈ trace, Undisturbed idempotencyKey userId transition) :
    Leased idempotencyKey userId final := by
  refine run.invariant undisturbed ⟨?_, ?_⟩ ?_
  · intro call since inProgress
    cases inProgress
  · intro left right leftSince rightSince _ inProgress
    cases inProgress
  · intro before label after leased taken undisturbed
    exact (entryMove_of_step taken.2).leased taken.1 (step_clock taken) undisturbed leased

end Runs

/-- The entry that a settling call removes or overwrites, if any, is the claim that
this call wrote. -/
def SettlesOwnClaim (idempotencyKey userId : Option String) (leading : IdempotencyTrace ρ)
    (transition : Transition (IdempotencySystem ρ) (TimedAction ρ)) : Prop :=
  ∀ call, transition.label.action = .settle call →
    ∀ entry, transition.before.entry idempotencyKey userId = some entry →
      lastWriter leading = some call ∧ entry.data = .inProgress

/-- Calls touch their own claims only iff none of them settles after its lease on an
entry that another call has written since. -/
theorem run_ownClaims_iff (idempotencyKey userId : Option String) (statusCodes : Nat → Int)
    (ttlSeconds clock : ℚ) {trace : IdempotencyTrace ρ} {final : IdempotencySystem ρ}
    (run : Run (IdempotencyStep (repeated idempotencyKey userId statusCodes))
      (.empty ttlSeconds clock) trace final) :
    (∀ leading transition trailing, trace = leading ++ transition :: trailing →
      SettlesOwnClaim idempotencyKey userId leading transition ∧ ClaimsAlone transition) ↔
    ∀ transition ∈ trace, Undisturbed idempotencyKey userId transition := by
  have reached : ∀ leading transition trailing, trace = leading ++ transition :: trailing →
      Run (IdempotencyStep (repeated idempotencyKey userId statusCodes))
        (.empty ttlSeconds clock) leading transition.before ∧
      IdempotencyStep (repeated idempotencyKey userId statusCodes) transition.before
        transition.label transition.after := by
    intro leading transition trailing cut
    have regrouped : trace = (leading ++ [transition]) ++ trailing := by simp [cut]
    obtain ⟨middle, first, _⟩ := (regrouped ▸ run).split
    exact ⟨first.last.1, first.last.2.1⟩
  constructor
  · intro own transition member call since label inProgress _ entry stored
    obtain ⟨leading, trailing, cut⟩ := List.append_of_mem member
    obtain ⟨isAuthor, data⟩ := (own leading transition trailing cut).1 call label entry stored
    obtain ⟨expiresAt, rfl⟩ : ∃ expiresAt, entry = ⟨.inProgress, expiresAt⟩ :=
      ⟨entry.expiresAt, by rw [← data]⟩
    obtain ⟨author, authorSince, wrote, authorProgress, deadline⟩ :=
      run_authored (reached leading transition trailing cut).1 expiresAt stored
    have itself : author = call := Option.some.inj (wrote.symm.trans isAuthor)
    subst itself
    rw [inProgress] at authorProgress
    cases authorProgress
    rw [deadline]
  · intro undisturbed leading transition trailing cut
    obtain ⟨before, taken⟩ := reached leading transition trailing cut
    have leased := run_leased before fun earlier member =>
      undisturbed earlier (by simp [cut, member])
    have here := undisturbed transition (by simp [cut])
    refine ⟨?_, ?_⟩
    · intro call label entry stored
      cases entryMove_of_step taken.2 with
      | quiet unwritten _ _ => simp [writer, label] at unwritten
      | claimed other _ _ _ _ => cases label.symm.trans other
      | @settled settling since other inProgress _ _ =>
          cases label.symm.trans other
          have own := leased.settles taken.1 here label inProgress stored
          subst own
          obtain ⟨author, authorSince, wrote, authorProgress, deadline⟩ :=
            run_authored before _ stored
          have equal : since = authorSince := add_right_cancel deadline
          subst equal
          refine ⟨?_, rfl⟩
          rw [wrote, leased.same_call authorProgress inProgress]
    · intro call other since label claims different inProgress
      cases entryMove_of_step taken.2 with
      | quiet unwritten _ _ => simp [writer, label, claims] at unwritten
      | claimed _ _ _ free _ => exact leased.over_of_free taken.1 free inProgress
      | settled settles _ _ _ => cases label.symm.trans settles

/-- One step at its time; `none` when it comes too early. -/
def IdempotencySystem.execAt (requests : Nat → IdempotentRequest) (system : IdempotencySystem ρ)
    (label : TimedAction ρ) : Option (IdempotencySystem ρ) :=
  if system.clock ≤ label.now then system.exec requests label.now label.action else none

private theorem step_of_execAt {requests : Nat → IdempotentRequest}
    {before after : IdempotencySystem ρ}
    {label : TimedAction ρ} (ran : before.execAt requests label = some after) :
    IdempotencyStep requests before label after := by
  unfold IdempotencySystem.execAt at ran
  split at ran
  · next timely => exact ⟨timely, ran⟩
  · cases ran

/-- A decidable form of `Undisturbed`. -/
def undisturbed (idempotencyKey userId : Option String) (system : IdempotencySystem Nat)
    (label : TimedAction Nat) : Bool :=
  match label.action with
  | .settle call =>
      match (system.calls call).since, system.entry idempotencyKey userId with
      | some since, some entry => decide (entry = ⟨.inProgress, since + leaseSeconds⟩)
      | _, _ => true
  | _ => true

private theorem undisturbed_sound {idempotencyKey userId : Option String}
    {transition : Transition (IdempotencySystem Nat) (TimedAction Nat)}
    (checked : undisturbed idempotencyKey userId transition.before transition.label = true) :
    Undisturbed idempotencyKey userId transition := by
  intro call since label inProgress _ entry stored
  simpa [undisturbed, label, inProgress, stored] using checked

def retriedPayment : Nat → IdempotentRequest := repeated (some "K1") (some "U1") fun _ => 200

/-- A call outlives its lease while nobody else asks; its response is then replayed. -/
theorem run_ownClaims_slow_call :
    ∃ trace final, Run (IdempotencyStep retriedPayment)
        (.empty 86400 0 : IdempotencySystem Nat) trace final ∧ final.calls 1 = .returned 7 ∧
      ∀ leading transition trailing, trace = leading ++ transition :: trailing →
        SettlesOwnClaim (some "K1") (some "U1") leading transition ∧ ClaimsAlone transition := by
  have replayed : (Run.replay (IdempotencySystem.execAt retriedPayment)
      (undisturbed (some "K1") (some "U1")) (.empty 86400 0)
      [⟨.get 0, 0⟩, ⟨.setInProgress 0, 0⟩, ⟨.start 0, 0⟩, ⟨.finish 0 (some 7), 70⟩, ⟨.settle 0, 70⟩,
        ⟨.get 1, 80⟩]).map (fun final => final.calls 1) = some (.returned 7) := by
    decide +kernel
  obtain ⟨final, ran, answered⟩ := Option.map_eq_some_iff.mp replayed
  obtain ⟨trace, run, _, checked⟩ := Run.of_replay ran
  have steps := run.mono fun _ _ _ => step_of_execAt
  refine ⟨trace, final, steps, answered, ?_⟩
  refine (run_ownClaims_iff (some "K1") (some "U1") (fun _ => 200) 86400 0 steps).mpr ?_
  intro transition member
  exact undisturbed_sound (checked transition member)

/-- The first call outlives its lease, the second takes the key over, and the first
fails: it removes the live claim of the second. -/
theorem late_failure_clears_other_claim :
    ∃ (trace : IdempotencyTrace Nat) (final : IdempotencySystem Nat),
      Run (IdempotencyStep retriedPayment) (.empty 86400 0) trace final ∧
      ¬ ∀ leading transition trailing, trace = leading ++ transition :: trailing →
        SettlesOwnClaim (some "K1") (some "U1") leading transition ∧ ClaimsAlone transition := by
  let start : IdempotencySystem Nat := .empty 86400 0
  let labels : List (TimedAction Nat) := [⟨.get 0, 0⟩, ⟨.setInProgress 0, 0⟩, ⟨.start 0, 0⟩,
    ⟨.get 1, 61⟩, ⟨.setInProgress 1, 61⟩, ⟨.start 1, 61⟩, ⟨.finish 0 none, 62⟩]
  have replayed : (Run.replay (IdempotencySystem.execAt retriedPayment) (fun _ _ => true) start
      labels).map (fun middle => (middle.entry (some "K1") (some "U1"),
        (middle.execAt retriedPayment ⟨.settle 0, 62⟩).isSome)) =
      some (some ⟨.inProgress, 121⟩, true) := by
    decide +kernel
  have author : lastWriter (Run.path (IdempotencySystem.execAt retriedPayment) start labels) =
      some 1 := by
    decide +kernel
  obtain ⟨middle, ran, facts⟩ := Option.map_eq_some_iff.mp replayed
  obtain ⟨stored, enabled⟩ := Prod.mk.inj facts
  obtain ⟨final, settles⟩ := Option.isSome_iff_exists.mp enabled
  have run := (Run.path_of_replay ran).1.mono fun _ _ _ => step_of_execAt
  refine ⟨_, final, run.snoc (step_of_execAt settles), ?_⟩
  intro own
  have mine := ((own _ _ [] rfl).1 0 rfl _ stored).1
  rw [author] at mine
  cases mine

end LibraFlow.Api
