import LibraFlow.Api.Idempotency

/-! Idempotent execution. While every operation finishes within the lease of its
claim, the entry of a key belongs to the one call in progress on it, and once a
response is stored every later call gets that response until it expires. -/

set_option autoImplicit false

namespace LibraFlow.Api

open LibraFlow.Core LibraFlow.Library

variable {ρ : Type}

/-- The key of the store entry a call uses. -/
def IdempotentRequest.entryKey (request : IdempotentRequest) : String :=
  IdempotencyStore.makeKey (request.idempotencyKey.getD "") request.userId

/-- When a call in progress claimed its key. -/
def CallPhase.since : CallPhase ρ → Option ℚ
  | .claimed since | .running since | .succeeded since _ | .failed since => some since
  | .idle | .claiming | .unprotected | .returned _ | .conflict | .raised => none

/-- What a lookup that finds live data answers. -/
def IdempotencyData.answer : IdempotencyData ρ → CallPhase ρ
  | .completed _ responseBody => .returned responseBody
  | .inProgress => .conflict

/-- No entry under the key is live. -/
def IdempotencyStore.Free (store : IdempotencyStore ρ) (key : String) (now : ℚ) : Prop :=
  ∀ entry, store.memoryStore.get? key = some entry → entry.expiresAt < now

/-- What one step can do. -/
inductive Moves (requests : Nat → IdempotentRequest) (before : IdempotencySystem ρ) (now : ℚ) :
    CallAction ρ → IdempotencySystem ρ → Prop where
  | served {call : Nat} {entry : IdempotencyEntry ρ}
      (found : before.store.memoryStore.get? (requests call).entryKey = some entry)
      (live : now ≤ entry.expiresAt) :
      Moves requests before now (.get call) (before.move call entry.data.answer before.store now)
  | missed {call : Nat} {store : IdempotencyStore ρ}
      (free : before.store.Free (requests call).entryKey now)
      (ttl : store.ttlSeconds = before.store.ttlSeconds)
      (kept : ∀ key, key ≠ (requests call).entryKey →
        store.memoryStore.get? key = before.store.memoryStore.get? key) :
      Moves requests before now (.get call) (before.move call .claiming store now)
  | unprotected {call : Nat} (keyless : truthy (requests call).idempotencyKey = false) :
      Moves requests before now (.get call) (before.move call .unprotected before.store now)
  | claimed {call : Nat} (free : before.store.Free (requests call).entryKey now) :
      Moves requests before now (.setInProgress call) (before.move call (.claimed now)
        (before.store.claim (requests call).entryKey leaseSeconds now) now)
  | refused {call : Nat} : Moves requests before now (.setInProgress call)
      (before.move call .conflict before.store now)
  | started {call : Nat} {since : ℚ} (claimed : (before.calls call).since = some since) :
      Moves requests before now (.start call) (before.move call (.running since) before.store now)
  | finished {call : Nat} {result : Option ρ} {phase : CallPhase ρ}
      (same : phase.since = (before.calls call).since) :
      Moves requests before now (.finish call result) (before.move call phase before.store now)
  | settled {call : Nat} {phase : CallPhase ρ} {store : IdempotencyStore ρ} {since : ℚ}
      (inProgress : (before.calls call).since = some since) (done : phase.since = none)
      (ttl : store.ttlSeconds = before.store.ttlSeconds)
      (kept : ∀ key, key ≠ (requests call).entryKey →
        store.memoryStore.get? key = before.store.memoryStore.get? key) :
      Moves requests before now (.settle call) (before.move call phase store now)

section Inversion

variable {requests : Nat → IdempotentRequest} {before after : IdempotencySystem ρ} {now : ℚ}

private theorem execGet_moves (call : Nat) :
    Moves requests before now (.get call) (before.execGet (requests call) call now) := by
  unfold IdempotencySystem.execGet IdempotencyStore.get
  cases keyed : truthy (requests call).idempotencyKey with
  | false => exact .unprotected keyed
  | true =>
      simp only [↓reduceIte]
      cases found : before.store.memoryStore.get? (IdempotencyStore.makeKey
          ((requests call).idempotencyKey.getD "") (requests call).userId) with
      | none => exact .missed (fun entry present => by cases found.symm.trans present) rfl fun _ _ => rfl
      | some entry =>
          by_cases expired : entry.expiresAt < now
          · simp only [expired, ↓reduceIte]
            refine .missed ?_ rfl ?_
            · intro other present
              cases found.symm.trans present
              exact expired
            · intro key different
              rw [Dict.get?_erase]
              exact if_neg (Ne.symm different)
          · simp only [expired, ↓reduceIte]
            have moves : Moves requests before now (.get call)
                (before.move call entry.data.answer before.store now) :=
              .served found (not_lt.mp expired)
            cases data : entry.data <;> rw [data] at moves <;> exact moves

private theorem execSetInProgress_moves (call : Nat) :
    Moves requests before now (.setInProgress call)
      (before.execSetInProgress (requests call) call now) := by
  unfold IdempotencySystem.execSetInProgress IdempotencyStore.setInProgress
  cases found : before.store.memoryStore.get? (IdempotencyStore.makeKey
      ((requests call).idempotencyKey.getD "") (requests call).userId) with
  | none => exact .claimed fun entry present => by cases found.symm.trans present
  | some entry =>
      by_cases live : now ≤ entry.expiresAt
      · simp only [live, ↓reduceIte]
        exact .refused
      · simp only [live, ↓reduceIte]
        refine .claimed ?_
        intro other present
        cases found.symm.trans present
        exact not_le.mp live

/-- Every step is one of the moves above. -/
theorem exec_moves {action : CallAction ρ}
    (ran : before.exec requests now action = some after) :
    Moves requests before now action after := by
  cases action with
  | get call =>
      simp only [IdempotencySystem.exec] at ran
      split at ran
      · cases ran
        exact execGet_moves call
      · cases ran
  | setInProgress call =>
      simp only [IdempotencySystem.exec] at ran
      split at ran
      · cases ran
        exact execSetInProgress_moves call
      · cases ran
  | start call =>
      simp only [IdempotencySystem.exec] at ran
      split at ran
      · next since phase =>
          cases ran
          exact .started (by rw [phase]; rfl)
      · cases ran
  | finish call result =>
      cases result <;> simp only [IdempotencySystem.exec] at ran <;> split at ran
      all_goals
        first
        | next phase =>
            cases ran
            exact .finished (by rw [phase]; rfl)
        | cases ran
  | settle call =>
      simp only [IdempotencySystem.exec] at ran
      split at ran
      · next since result phase =>
          cases ran
          refine .settled (by rw [phase]; rfl) rfl rfl ?_
          intro key different
          exact Dict.get?_set_of_ne _ _ (Ne.symm different)
      · next since phase =>
          cases ran
          refine .settled (by rw [phase]; rfl) rfl rfl ?_
          intro key different
          simp only [IdempotencyStore.clear]
          rw [Dict.get?_erase]
          exact if_neg (Ne.symm different)
      · cases ran

end Inversion

/-- Every operation finishes, and its outcome is stored, within the lease of its
claim: no step comes later than that while the call is in progress. -/
def Prompt (step : Transition (IdempotencySystem ρ) (TimedAction ρ)) : Prop :=
  ∀ call since, (step.before.calls call).since = some since →
    step.label.now ≤ since + leaseSeconds

/-- Each call in progress owns the entry of its key. -/
structure Guarded (requests : Nat → IdempotentRequest) (system : IdempotencySystem ρ) : Prop where
  entry : ∀ call since, (system.calls call).since = some since →
    system.store.memoryStore.get? (requests call).entryKey =
      some ⟨.inProgress, since + leaseSeconds⟩
  unique : ∀ left right leftSince rightSince, (system.calls left).since = some leftSince →
    (system.calls right).since = some rightSince →
    (requests left).entryKey = (requests right).entryKey → left = right

section Guards

variable {requests : Nat → IdempotentRequest} {before after : IdempotencySystem ρ} {now : ℚ}

theorem since_move {call other : Nat} {phase : CallPhase ρ} {store : IdempotencyStore ρ} :
    ((before.move call phase store now).calls other).since =
      if other = call then phase.since else (before.calls other).since := by
  simp only [IdempotencySystem.move, Function.update_apply]
  split <;> rfl

/-- A key that is free has no call in progress on it. -/
theorem Guarded.ne_of_free (guarded : Guarded requests before)
    (prompt : ∀ call since, (before.calls call).since = some since → now ≤ since + leaseSeconds)
    {key : String} (free : before.store.Free key now) {call : Nat} {since : ℚ}
    (inProgress : (before.calls call).since = some since) : (requests call).entryKey ≠ key := by
  rintro rfl
  have expired := free _ (guarded.entry call since inProgress)
  exact absurd (prompt call since inProgress) (not_le.mpr expired)

/-- A move that takes no new call into progress and leaves the entries of the
others alone. -/
theorem Guarded.move (guarded : Guarded requests before) {call : Nat} {phase : CallPhase ρ}
    {store : IdempotencyStore ρ}
    (same : phase.since = none ∨ phase.since = (before.calls call).since)
    (kept : ∀ other since, ((before.move call phase store now).calls other).since = some since →
      store.memoryStore.get? (requests other).entryKey =
        before.store.memoryStore.get? (requests other).entryKey) :
    Guarded requests (before.move call phase store now) := by
  have earlier : ∀ other since, ((before.move call phase store now).calls other).since =
      some since → (before.calls other).since = some since := by
    intro other since inProgress
    rw [since_move] at inProgress
    split at inProgress
    · next equal =>
        subst other
        rcases same with none | unchanged
        · rw [none] at inProgress
          cases inProgress
        · rw [← unchanged, inProgress]
    · exact inProgress
  refine ⟨?_, ?_⟩
  · intro other since inProgress
    exact (kept other since inProgress).trans
      (guarded.entry other since (earlier other since inProgress))
  · intro left right leftSince rightSince leftProgress rightProgress
    exact guarded.unique left right leftSince rightSince (earlier left leftSince leftProgress)
      (earlier right rightSince rightProgress)

theorem Moves.guarded {action : CallAction ρ} (moves : Moves requests before now action after)
    (prompt : ∀ call since, (before.calls call).since = some since → now ≤ since + leaseSeconds)
    (guarded : Guarded requests before) : Guarded requests after := by
  cases moves with
  | @served call entry found live =>
      refine guarded.move (.inl ?_) fun _ _ _ => rfl
      cases entry.data <;> rfl
  | @missed call store free ttl kept =>
      refine guarded.move (.inl rfl) ?_
      intro other since inProgress
      rw [since_move] at inProgress
      split at inProgress
      · cases inProgress
      · exact kept _ (guarded.ne_of_free prompt free inProgress)
  | unprotected => exact guarded.move (.inl rfl) fun _ _ _ => rfl
  | refused => exact guarded.move (.inl rfl) fun _ _ _ => rfl
  | started claimed => exact guarded.move (.inr claimed.symm) fun _ _ _ => rfl
  | finished same => exact guarded.move (.inr same) fun _ _ _ => rfl
  | @settled call phase store since inProgress done ttl kept =>
      refine guarded.move (.inl done) ?_
      intro other otherSince otherProgress
      rw [since_move] at otherProgress
      split at otherProgress
      · rw [done] at otherProgress
        cases otherProgress
      · next different =>
          refine kept _ fun sameKey => different ?_
          exact guarded.unique other call otherSince since otherProgress inProgress sameKey
  | @claimed call free =>
      have others : ∀ other since, other ≠ call → (before.calls other).since = some since →
          (requests other).entryKey ≠ (requests call).entryKey :=
        fun other since _ inProgress => guarded.ne_of_free prompt free inProgress
      refine ⟨?_, ?_⟩
      · intro other since inProgress
        rw [since_move] at inProgress
        split at inProgress
        · next equal =>
            subst other
            cases inProgress
            exact Dict.get?_set_self _ _ _
        · next different =>
            have separate := others other since different inProgress
            simp only [IdempotencySystem.move, IdempotencyStore.claim]
            rw [Dict.get?_set_of_ne _ _ (Ne.symm separate)]
            exact guarded.entry other since inProgress
      · intro left right leftSince rightSince leftProgress rightProgress sameKey
        rw [since_move] at leftProgress rightProgress
        split at leftProgress
        · next leftEqual =>
            split at rightProgress
            · next rightEqual => rw [leftEqual, rightEqual]
            · next different =>
                exact absurd (leftEqual ▸ sameKey).symm (others right _ different rightProgress)
        · next different =>
            split at rightProgress
            · next rightEqual =>
                exact absurd (rightEqual ▸ sameKey) (others left _ different leftProgress)
            · exact guarded.unique left right _ _ leftProgress rightProgress sameKey

/-- A stored response, with nobody in progress on its key. -/
structure Stored (requests : Nat → IdempotentRequest) (key : String) (response : ρ) (expiry : ℚ)
    (system : IdempotencySystem ρ) : Prop where
  entry : ∃ statusCode, system.store.memoryStore.get? key =
    some ⟨.completed statusCode response, expiry⟩
  quiet : ∀ call since, (system.calls call).since = some since → (requests call).entryKey ≠ key

theorem Stored.not_free {key : String} {response : ρ} {expiry : ℚ}
    (stored : Stored requests key response expiry before) (within : now ≤ expiry) :
    ¬ before.store.Free key now := by
  intro free
  obtain ⟨statusCode, found⟩ := stored.entry
  exact absurd within (not_le.mpr (free _ found))

theorem Stored.move {key : String} {response : ρ} {expiry : ℚ}
    (stored : Stored requests key response expiry before) {call : Nat} {phase : CallPhase ρ}
    {store : IdempotencyStore ρ}
    (kept : store.memoryStore.get? key = before.store.memoryStore.get? key)
    (quiet : ∀ since, phase.since = some since → (requests call).entryKey ≠ key) :
    Stored requests key response expiry (before.move call phase store now) := by
  obtain ⟨statusCode, found⟩ := stored.entry
  refine ⟨⟨statusCode, kept.trans found⟩, ?_⟩
  intro other since inProgress
  rw [since_move] at inProgress
  split at inProgress
  · next equal =>
      subst other
      exact quiet since inProgress
  · exact stored.quiet other since inProgress

/-- Until it expires a stored response stays. -/
theorem Moves.stored {action : CallAction ρ} (moves : Moves requests before now action after)
    {key : String} {response : ρ} {expiry : ℚ} (within : now ≤ expiry)
    (stored : Stored requests key response expiry before) :
    Stored requests key response expiry after := by
  cases moves with
  | @served call entry found live =>
      refine stored.move rfl ?_
      intro since inProgress
      cases data : entry.data <;> rw [data] at inProgress <;> cases inProgress
  | @missed call store free ttl kept =>
      have different : key ≠ (requests call).entryKey := by
        rintro rfl
        exact stored.not_free within free
      exact stored.move (kept key different) nofun
  | unprotected => exact stored.move rfl nofun
  | refused => exact stored.move rfl nofun
  | @claimed call free =>
      have different : (requests call).entryKey ≠ key := by
        rintro rfl
        exact stored.not_free within free
      refine stored.move ?_ fun _ _ => different
      exact Dict.get?_set_of_ne _ _ different
  | @started call since claimed => exact stored.move rfl fun _ _ => stored.quiet call since claimed
  | @finished call result phase same =>
      refine stored.move rfl ?_
      intro since inProgress
      rw [same] at inProgress
      exact stored.quiet call since inProgress
  | @settled call phase store since inProgress done ttl kept =>
      refine stored.move (kept key (Ne.symm (stored.quiet call since inProgress))) ?_
      intro later progress
      rw [done] at progress
      cases progress

theorem Moves.ttl {action : CallAction ρ} (moves : Moves requests before now action after) :
    after.store.ttlSeconds = before.store.ttlSeconds := by
  cases moves with
  | missed free ttl kept => exact ttl
  | settled inProgress done ttl kept => exact ttl
  | served | unprotected | claimed | refused | started | finished => rfl

/-- Storing the response of a successful operation. -/
theorem stored_of_settle {call : Nat} {since : ℚ} {result : ρ} (guarded : Guarded requests before)
    (succeeded : before.calls call = .succeeded since result)
    (ran : before.exec requests now (.settle call) = some after) :
    Stored requests (requests call).entryKey result (now + before.store.ttlSeconds) after := by
  simp only [IdempotencySystem.exec, succeeded, Option.some.injEq] at ran
  subst after
  refine ⟨⟨(requests call).statusCode, Dict.get?_set_self _ _ _⟩, ?_⟩
  intro other otherSince inProgress sameKey
  rw [since_move] at inProgress
  split at inProgress
  · cases inProgress
  · next different =>
      refine different (guarded.unique other call otherSince since inProgress ?_ sameKey)
      rw [succeeded]
      rfl

/-- While a response is stored no operation of its key starts. -/
theorem Stored.no_start {key : String} {response : ρ} {expiry : ℚ} {other : Nat}
    (stored : Stored requests key response expiry before)
    (ran : before.exec requests now (.start other) = some after) :
    (requests other).entryKey ≠ key := by
  cases exec_moves ran with
  | @started _ since claimed => exact stored.quiet other since claimed

/-- While a response is stored every call of its key gets it. -/
theorem Stored.answers {key : String} {response : ρ} {expiry : ℚ} {other : Nat}
    (stored : Stored requests key response expiry before) (within : now ≤ expiry)
    (ran : before.exec requests now (.get other) = some after)
    (keyed : truthy (requests other).idempotencyKey = true)
    (same : (requests other).entryKey = key) : after.calls other = .returned response := by
  subst key
  cases exec_moves ran with
  | served found live =>
      obtain ⟨statusCode, present⟩ := stored.entry
      cases found.symm.trans present
      exact Function.update_self _ _ _
  | missed free ttl kept => exact absurd free (stored.not_free within)
  | unprotected keyless =>
      rw [keyed] at keyless
      cases keyless

end Guards

/-- The invariant of whole runs. -/
structure Consistent (requests : Nat → IdempotentRequest) (ttlSeconds : ℚ)
    (system : IdempotencySystem ρ) : Prop where
  guarded : Guarded requests system
  ttl : system.store.ttlSeconds = ttlSeconds

theorem consistent_empty (requests : Nat → IdempotentRequest) (ttlSeconds clock : ℚ) :
    Consistent requests ttlSeconds (IdempotencySystem.empty ttlSeconds clock : IdempotencySystem ρ) :=
  ⟨⟨nofun, nofun⟩, rfl⟩

theorem step_consistent {requests : Nat → IdempotentRequest} {ttlSeconds : ℚ}
    {before after : IdempotencySystem ρ} {label : TimedAction ρ}
    (consistent : Consistent requests ttlSeconds before)
    (taken : IdempotencyStep requests before label after)
    (prompt : Prompt ⟨before, label, after⟩) : Consistent requests ttlSeconds after := by
  have moves := exec_moves taken.2
  exact ⟨moves.guarded prompt consistent.guarded, moves.ttl.trans consistent.ttl⟩

/-- In every run whose operations keep to their leases: no two operations of one
key are in progress at once, and from the moment a response is stored until its
time to live is over, no operation of that key starts and every call of that key
returns that response. -/
theorem run_idempotent (requests : Nat → IdempotentRequest) (ttlSeconds clock : ℚ)
    {trace : List (Transition (IdempotencySystem ρ) (TimedAction ρ))}
    {final : IdempotencySystem ρ}
    (run : Run (IdempotencyStep requests) (IdempotencySystem.empty ttlSeconds clock) trace final)
    (prompt : ∀ step ∈ trace, Prompt step) :
    (∀ left right leftSince rightSince, final.calls left = .running leftSince →
      final.calls right = .running rightSince →
      (requests left).entryKey = (requests right).entryKey → left = right) ∧
    ∀ leading stored trailing call since result, trace = leading ++ stored :: trailing →
      stored.label.action = .settle call → stored.before.calls call = .succeeded since result →
      (∀ step ∈ trailing, step.label.now ≤ stored.label.now + ttlSeconds) →
      (∀ step ∈ trailing, ∀ other, step.label.action = .start other →
        (requests other).entryKey ≠ (requests call).entryKey) ∧
      ∀ step ∈ trailing, ∀ other, step.label.action = .get other →
        truthy (requests other).idempotencyKey = true →
        (requests other).entryKey = (requests call).entryKey →
        step.after.calls other = .returned result := by
  constructor
  · have consistent : Consistent requests ttlSeconds final :=
      run.invariant prompt (consistent_empty requests ttlSeconds clock)
        fun _ _ _ => step_consistent
    intro left right leftSince rightSince leftRuns rightRuns sameKey
    exact consistent.guarded.unique left right leftSince rightSince (by rw [leftRuns]; rfl)
      (by rw [rightRuns]; rfl) sameKey
  · rintro leading stored trailing call since result rfl settles succeeded within
    rw [← List.singleton_append, ← List.append_assoc] at run
    obtain ⟨middle, first, second⟩ := run.split
    obtain ⟨earlier, ⟨_, ran⟩, rfl⟩ := first.last
    have consistent : Consistent requests ttlSeconds stored.before :=
      earlier.invariant (fun step member => prompt step (List.mem_append_left _ member))
        (consistent_empty requests ttlSeconds clock) fun _ _ _ => step_consistent
    rw [settles] at ran
    have initially := stored_of_settle consistent.guarded succeeded ran
    rw [consistent.ttl] at initially
    have reached := second.transition_invariant within initially
      fun _ _ _ earlier taken permitted => (exec_moves taken.2).stored permitted earlier
    constructor
    · intro step member other starts
      obtain ⟨current, _, taken⟩ := reached step member
      rw [starts] at taken
      exact current.no_start taken
    · intro step member other asks keyed sameKey
      obtain ⟨current, _, taken⟩ := reached step member
      rw [asks] at taken
      exact current.answers (within step member) taken keyed sameKey

/-- Two calls with one key, the second a retry of the first. -/
def retried : Nat → IdempotentRequest := fun _ => ⟨some "K1", some "U1", 200⟩

private theorem step_now {before after : IdempotencySystem Nat} (action : CallAction Nat)
    (clock : before.clock ≤ 0) (ran : before.exec retried 0 action = some after) :
    IdempotencyStep retried before ⟨action, 0⟩ after := ⟨clock, ran⟩

private theorem prompt_now {before after : IdempotencySystem Nat} {action : CallAction Nat}
    (others : ∀ call, call ≠ 0 → (before.calls call).since = none)
    (claimed : (before.calls 0).since = none ∨ (before.calls 0).since = some 0) :
    Prompt ⟨before, ⟨action, 0⟩, after⟩ := by
  intro call since inProgress
  have first : call = 0 := by
    apply Classical.byContradiction
    intro different
    rw [others call different] at inProgress
    cases inProgress
  subst call
  obtain none | same := claimed
  · rw [none] at inProgress
    cases inProgress
  · rw [same] at inProgress
    cases inProgress
    norm_num [leaseSeconds]

theorem run_idempotent_retry : ∃ trace final,
    Run (IdempotencyStep retried) (IdempotencySystem.empty 86400 0) trace final ∧
      (∀ step ∈ trace, Prompt step) ∧
      trace.map (fun step => step.label.action) =
        [.get 0, .setInProgress 0, .start 0, .finish 0 (some 7), .settle 0, .get 1] ∧
      final.calls 1 = .returned 7 := by
  have asked : Run (IdempotencyStep retried) (IdempotencySystem.empty 86400 0) _ _ :=
    Run.nil.snoc (step_now (.get 0) le_rfl rfl)
  have claimed := asked.snoc (step_now (.setInProgress 0) le_rfl rfl)
  have started := claimed.snoc (step_now (.start 0) le_rfl rfl)
  have finished := started.snoc (step_now (.finish 0 (some 7)) le_rfl rfl)
  have settled := finished.snoc (step_now (.settle 0) le_rfl rfl)
  have repeated := settled.snoc (step_now (.get 1) le_rfl rfl)
  refine ⟨_, _, repeated, ?prompt, rfl, ?answer⟩
  case answer =>
    have stored := (run_idempotent retried 86400 0 repeated ?prompt).2 _ _ _ 0 0 7
      (List.append_assoc _ [_] [_]) rfl rfl
    refine (stored ?within).2 _ (List.mem_singleton_self _) 1 rfl (by decide) rfl
    intro step member
    rw [List.mem_singleton.mp member]
    norm_num
  intro step member
  simp only [List.nil_append, List.cons_append, List.mem_cons, List.not_mem_nil,
    or_false] at member
  obtain rfl | rfl | rfl | rfl | rfl | rfl := member
  all_goals
    apply prompt_now
    · intro call different
      match call with
      | 0 => exact absurd rfl different
      | call + 1 => rfl
    · first
      | exact .inl rfl
      | exact .inr rfl

end LibraFlow.Api
