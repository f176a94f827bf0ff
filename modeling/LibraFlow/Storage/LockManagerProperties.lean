import LibraFlow.Storage.LockManager

/-! Safety of the Redis locks. A stored token belongs to a client that has not
released it, a release spares the tokens of others, and clients exclude each other
as long as no key expires under the client it protects. -/

set_option autoImplicit false

namespace LibraFlow.Storage

open LibraFlow.Library

variable {manager : ConcurrencyLockManager} {tokens : Nat → String}
  {requests : Nat → LockRequest}

namespace LockSystem

/-- No client has called yet, and no lock key exists. -/
structure Initial (manager : ConcurrencyLockManager) (system : LockSystem) : Prop where
  idle : ∀ client, system.clients client = .idle
  unlocked : ∀ resourceId, system.redis.get? (manager.lockKey resourceId) = none

/-- The value of a lock key is the token of a client that acquired it and has not
released it. -/
def Owned (manager : ConcurrencyLockManager) (tokens : Nat → String)
    (requests : Nat → LockRequest) (system : LockSystem) : Prop :=
  ∀ resourceId token, system.redis.get? (manager.lockKey resourceId) = some token →
    ∃ client, tokens client = token ∧ (requests client).resourceId = resourceId ∧
      (system.clients client).unreleased = true

theorem Owned.of_initial {system : LockSystem} (initial : Initial manager system) :
    Owned manager tokens requests system := by
  intro resourceId token stored
  rw [initial.unlocked resourceId] at stored
  cases stored

/-- A key keeps its owner when no client gives up its lock. -/
theorem Owned.move {system : LockSystem} (owned : Owned manager tokens requests system)
    {client : Nat} {phase : LockPhase} {redis : Redis}
    (kept : (system.clients client).unreleased = true → phase.unreleased = true)
    {resourceId token : String}
    (stored : system.redis.get? (manager.lockKey resourceId) = some token) :
    ∃ owner, tokens owner = token ∧ (requests owner).resourceId = resourceId ∧
      ((system.move client phase redis).clients owner).unreleased = true := by
  obtain ⟨owner, same, resource, unreleased⟩ := owned resourceId token stored
  refine ⟨owner, same, resource, ?_⟩
  simp only [LockSystem.move, Function.update_apply]
  split
  · next holder => exact kept (holder ▸ unreleased)
  · exact unreleased

theorem Owned.step {before after : LockSystem} {action : LockAction}
    (owned : Owned manager tokens requests before)
    (taken : LockStep manager tokens requests before action after) :
    Owned manager tokens requests after := by
  intro resourceId token stored
  cases exec_effect taken with
  | moved same outside => exact owned.move (fun held => same ▸ held) stored
  | @acquired client free =>
      simp only [LockSystem.move, Dict.get?_set] at stored
      split at stored
      · next key =>
          refine ⟨client, Option.some.inj stored, manager.lockKey_injective key, ?_⟩
          simp [LockSystem.move, LockPhase.unreleased]
      · exact owned.move (fun _ => rfl) stored
  | @released client outcome =>
      obtain ⟨earlier, foreign⟩ := Redis.get?_luaReleaseLock_imp stored
      obtain ⟨owner, same, resource, unreleased⟩ := owned resourceId token earlier
      refine ⟨owner, same, resource, ?_⟩
      have other : owner ≠ client := by
        intro itself
        subst itself
        exact foreign (by rw [resource]) same.symm
      simpa [LockSystem.move, other] using unreleased
  | expired =>
      simp only [Dict.get?_erase] at stored
      split at stored
      · cases stored
      · exact owned resourceId token stored

/-- The key of a client in its critical section holds its token. -/
def Held (manager : ConcurrencyLockManager) (tokens : Nat → String)
    (requests : Nat → LockRequest) (system : LockSystem) : Prop :=
  ∀ client, system.clients client = .critical →
    system.redis.get? (manager.lockKey (requests client).resourceId) = some (tokens client)

/-- A key expires while the client whose token it holds is in its critical section. -/
def ExpiresInUse (tokens : Nat → String) (transition : Transition LockSystem LockAction) : Prop :=
  ∃ key client, transition.label = .expire key ∧
    transition.before.redis.get? key = some (tokens client) ∧
    transition.before.clients client = .critical

theorem Held.step {before after : LockSystem} {action : LockAction}
    (distinct : Function.Injective tokens) (held : Held manager tokens requests before)
    (taken : LockStep manager tokens requests before action after)
    (timely : ¬ ExpiresInUse tokens ⟨before, action, after⟩) :
    Held manager tokens requests after := by
  intro holder critical
  cases exec_effect taken with
  | @moved _ client phase same outside =>
      simp only [LockSystem.move, Function.update_apply] at critical
      split at critical
      · exact absurd critical outside
      · exact held holder critical
  | @acquired client free =>
      by_cases itself : holder = client
      · subst itself
        simp [LockSystem.move]
      · simp only [LockSystem.move, Function.update_apply, if_neg itself] at critical
        have stored := held holder critical
        have elsewhere : manager.lockKey (requests client).resourceId ≠
            manager.lockKey (requests holder).resourceId := by
          intro same
          rw [same, stored] at free
          cases free
        simp only [LockSystem.move, Dict.get?_set, if_neg elsewhere]
        exact stored
  | @released client outcome =>
      by_cases itself : holder = client
      · simp [LockSystem.move, itself] at critical
      · simp only [LockSystem.move, Function.update_apply, if_neg itself] at critical
        exact Redis.get?_luaReleaseLock_of_ne (held holder critical) fun same =>
          itself (distinct same)
  | @expired key =>
      have stored := held holder critical
      simp only [Dict.get?_erase]
      split
      · next same =>
          rw [← same] at stored
          exact absurd ⟨key, holder, rfl, stored, critical⟩ timely
      · exact stored

/-- Clients of one resource whose key holds their token are the same client. -/
theorem Held.exclusive {system : LockSystem} (distinct : Function.Injective tokens)
    (held : Held manager tokens requests system) {first second : Nat}
    (firstCritical : system.clients first = .critical)
    (secondCritical : system.clients second = .critical)
    (resource : (requests first).resourceId = (requests second).resourceId) :
    first = second := by
  have stored := held first firstCritical
  rw [resource, held second secondCritical] at stored
  exact (distinct (Option.some.inj stored)).symm

/-- A release leaves every key alone that holds another token. -/
theorem release_spares {before after : LockSystem} {client : Nat} {outcome : ReleaseOutcome}
    (taken : LockStep manager tokens requests before (.release client outcome) after)
    {key token : String} (stored : before.redis.get? key = some token)
    (foreign : token ≠ tokens client) : after.redis.get? key = some token := by
  cases exec_effect taken with
  | moved _ _ => exact stored
  | released => exact Redis.get?_luaReleaseLock_of_ne stored foreign

end LockSystem

open LockSystem

/-- The lock protocol is safe in every run; mutual exclusion needs leases that
outlast the critical sections. -/
theorem run_lockProtocol (manager : ConcurrencyLockManager) (tokens : Nat → String)
    (requests : Nat → LockRequest) (distinct : Function.Injective tokens)
    {start final : LockSystem} {trace : List (Transition LockSystem LockAction)}
    (initial : Initial manager start)
    (run : Run (LockStep manager tokens requests) start trace final) :
    (∀ resourceId token, final.redis.get? (manager.lockKey resourceId) = some token →
      ∃ client, tokens client = token ∧ (requests client).resourceId = resourceId ∧
        (final.clients client).unreleased = true) ∧
    (∀ transition ∈ trace, ∀ client outcome key token,
      transition.label = .release client outcome →
      transition.before.redis.get? key = some token → token ≠ tokens client →
      transition.after.redis.get? key = some token) ∧
    ((∀ transition ∈ trace, ¬ ExpiresInUse tokens transition) →
      ∀ first second, final.clients first = .critical → final.clients second = .critical →
        (requests first).resourceId = (requests second).resourceId → first = second) := by
  refine ⟨?_, ?_, ?_⟩
  · exact run.always (Owned.of_initial initial) fun _ _ _ owned taken => owned.step taken
  · intro transition member client outcome key token label stored foreign
    have taken := run.taken transition member
    rw [label] at taken
    exact release_spares taken stored foreign
  · intro timely first second firstCritical secondCritical resource
    have held : Held manager tokens requests start := by
      intro client critical
      rw [initial.idle client] at critical
      cases critical
    exact (run.invariant timely held fun _ _ _ held taken timely =>
      held.step distinct taken timely).exclusive distinct firstCritical secondCritical resource

/-- Tokens that differ in length. -/
def unaryToken (client : Nat) : String := String.ofList (List.replicate client 'a')

private theorem unaryToken_injective : Function.Injective unaryToken := by
  intro first second same
  have lengths := congrArg (fun token => token.toList.length) same
  simpa [unaryToken] using lengths

/-- The first client alone loses keys, and only outside its critical section. -/
def expiresOutside (system : LockSystem) : LockAction → Bool
  | .expire key =>
      decide (system.redis.get? key = some (unaryToken 0) ∧ system.clients 0 ≠ .critical)
  | _ => true

private theorem expiresOutside_sound {transition : Transition LockSystem LockAction}
    (checked : expiresOutside transition.before transition.label = true) :
    ¬ ExpiresInUse unaryToken transition := by
  rintro ⟨key, client, label, stored, critical⟩
  simp only [expiresOutside, label, decide_eq_true_eq] at checked
  obtain ⟨first, outside⟩ := checked
  rw [stored] at first
  have itself : client = 0 := unaryToken_injective (Option.some.inj first)
  exact outside (itself ▸ critical)

/-- Two clients of one copy. The key of the first expires once it has left its
section; the second takes the lock, and the first releases too late. -/
theorem run_lockProtocol_late_release :
    ∃ (trace : List (Transition LockSystem LockAction)) (final : LockSystem),
      Run (LockStep {} unaryToken fun _ => ⟨"C1", 5⟩) ⟨.empty, fun _ => .idle⟩ trace final ∧
      (∀ transition ∈ trace, ¬ ExpiresInUse unaryToken transition) ∧
      final.redis.get? "lock:C1" = some (unaryToken 1) ∧ final.clients 0 = .finished true ∧
      ∀ client, final.clients client = .critical → client = 1 := by
  let idle : LockSystem := ⟨.empty, fun _ => .idle⟩
  have replayed : ((Run.replay (LockSystem.exec {} unaryToken fun _ => ⟨"C1", 5⟩) expiresOutside
      idle [.start 0 0, .testDeadline 0 0, .set 0, .start 1 0, .testDeadline 1 0, .set 1,
        .leave 0, .expire "lock:C1", .testDeadline 1 1, .set 1, .release 0 .answered]).map
      fun final => (final.redis.get? "lock:C1", final.clients 0, final.clients 1)) =
      some (some (unaryToken 1), .finished true, .critical) := by
    decide +kernel
  obtain ⟨final, ran, reached⟩ := Option.map_eq_some_iff.mp replayed
  simp only [Prod.mk.injEq] at reached
  obtain ⟨stored, finished, critical⟩ := reached
  obtain ⟨trace, run, _, checked⟩ := Run.of_replay ran
  have timely : ∀ transition ∈ trace, ¬ ExpiresInUse unaryToken transition := by
    intro transition member
    exact expiresOutside_sound (checked transition member)
  have initial : Initial {} idle := ⟨fun _ => rfl, fun _ => rfl⟩
  have safe := run_lockProtocol {} unaryToken _ unaryToken_injective initial run
  refine ⟨trace, final, run, timely, stored, finished, ?_⟩
  intro client inside
  exact safe.2.2 timely client 1 inside critical rfl

end LibraFlow.Storage
