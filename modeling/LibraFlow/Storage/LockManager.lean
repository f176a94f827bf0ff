import LibraFlow.Library.Dict
import LibraFlow.Library.Run
import Mathlib.Data.Rat.Defs
import Mathlib.Logic.Function.Basic

/-! Exclusive locks kept in Redis. Any number of clients run
`acquire_pessimistic_lock` over one Redis; keys may expire at any moment, and a
release may fail without anybody noticing. -/

set_option autoImplicit false

namespace LibraFlow.Storage

open LibraFlow.Library

structure ConcurrencyLockManager where
  keyPrefix : String := "lock:"

namespace ConcurrencyLockManager

def lockKey (manager : ConcurrencyLockManager) (resourceId : String) : String :=
  manager.keyPrefix ++ resourceId

theorem lockKey_injective (manager : ConcurrencyLockManager) {first second : String}
    (same : manager.lockKey first = manager.lockKey second) : first = second :=
  (String.append_right_inj manager.keyPrefix).mp same

end ConcurrencyLockManager

/-- The keys of a Redis with their values. -/
abbrev Redis := Dict String String

namespace Redis

/-- `SET key value NX`: `none` when the key exists. -/
def setNx (redis : Redis) (key value : String) : Option Redis :=
  match redis.get? key with
  | some _ => none
  | none => some (Dict.set redis key value)

/-- The script `LUA_RELEASE_LOCK`: delete the key if it holds the token. -/
def luaReleaseLock (redis : Redis) (key token : String) : Redis :=
  if redis.get? key = some token then Dict.erase redis key else redis

theorem get?_luaReleaseLock_of_ne {redis : Redis} {key other token value : String}
    (stored : redis.get? other = some value) (foreign : value ≠ token) :
    (redis.luaReleaseLock key token).get? other = some value := by
  unfold luaReleaseLock
  split
  · next held =>
      rw [Dict.get?_erase, if_neg, stored]
      intro same
      rw [← same, held] at stored
      exact foreign (Option.some.inj stored).symm
  · exact stored

theorem get?_luaReleaseLock_imp {redis : Redis} {key other token value : String}
    (stored : (redis.luaReleaseLock key token).get? other = some value) :
    redis.get? other = some value ∧ (other = key → value ≠ token) := by
  unfold luaReleaseLock at stored
  split at stored
  · rw [Dict.get?_erase] at stored
    split at stored
    · cases stored
    · next elsewhere => exact ⟨stored, fun same => absurd same.symm elsewhere⟩
  · next foreign =>
      refine ⟨stored, ?_⟩
      intro same value
      rw [← same, ← value] at foreign
      exact foreign stored

end Redis

/-- The arguments of a call that matter for the protocol. -/
structure LockRequest where
  resourceId : String
  timeout : ℚ := 5

/-- Where a client stands. A client is in its critical section from the `SET` that
succeeded until the body of its `with` statement ends. -/
inductive LockPhase where
  | idle
  | waiting (deadline : ℚ)
  | attempting (deadline : ℚ)
  | critical
  | releasing
  | finished (released : Bool)
  | timedOut
  deriving DecidableEq

/-- The client has acquired its lock and no release of it has been carried out. -/
def LockPhase.unreleased : LockPhase → Bool
  | .critical | .releasing | .finished false => true
  | _ => false

/-- What becomes of the call of the release script. In the last two cases the
client gets an exception, which it swallows. -/
inductive ReleaseOutcome where
  | answered
  | replyLost
  | notExecuted
  deriving DecidableEq

inductive LockAction where
  | start (client : Nat) (now : ℚ)
  | testDeadline (client : Nat) (now : ℚ)
  | set (client : Nat)
  | leave (client : Nat)
  | release (client : Nat) (outcome : ReleaseOutcome)
  | expire (key : String)
  deriving DecidableEq

structure LockSystem where
  redis : Redis
  clients : Nat → LockPhase

namespace LockSystem

variable (manager : ConcurrencyLockManager) (tokens : Nat → String) (requests : Nat → LockRequest)

def move (system : LockSystem) (client : Nat) (phase : LockPhase) (redis : Redis) : LockSystem :=
  ⟨redis, Function.update system.clients client phase⟩

/-- One step of `acquire_pessimistic_lock`, or the expiry of a key; `none` when the
client is not at that step. -/
def exec (system : LockSystem) : LockAction → Option LockSystem
  | .start client now =>
      match system.clients client with
      | .idle =>
          some (system.move client (.waiting (now + (requests client).timeout)) system.redis)
      | _ => none
  | .testDeadline client now =>
      match system.clients client with
      | .waiting deadline =>
          if now < deadline then some (system.move client (.attempting deadline) system.redis)
          else some (system.move client .timedOut system.redis)
      | _ => none
  | .set client =>
      match system.clients client with
      | .attempting deadline =>
          match system.redis.setNx (manager.lockKey (requests client).resourceId)
              (tokens client) with
          | some redis => some (system.move client .critical redis)
          | none => some (system.move client (.waiting deadline) system.redis)
      | _ => none
  | .leave client =>
      match system.clients client with
      | .critical => some (system.move client .releasing system.redis)
      | _ => none
  | .release client outcome =>
      match system.clients client, outcome with
      | .releasing, .notExecuted => some (system.move client (.finished false) system.redis)
      | .releasing, _ => some (system.move client (.finished true)
          (system.redis.luaReleaseLock (manager.lockKey (requests client).resourceId)
            (tokens client)))
      | _, _ => none
  | .expire key =>
      match system.redis.get? key with
      | some _ => some { system with redis := Dict.erase system.redis key }
      | none => none

/-- What a step can do: move a client outside Redis, acquire, release or expire. -/
inductive Effect (before : LockSystem) : LockAction → LockSystem → Prop where
  | moved {action : LockAction} {client : Nat} {phase : LockPhase}
      (same : (before.clients client).unreleased = phase.unreleased)
      (outside : phase ≠ .critical) :
      Effect before action (before.move client phase before.redis)
  | acquired {client : Nat}
      (free : before.redis.get? (manager.lockKey (requests client).resourceId) = none) :
      Effect before (.set client) (before.move client .critical
        (Dict.set before.redis (manager.lockKey (requests client).resourceId) (tokens client)))
  | released {client : Nat} {outcome : ReleaseOutcome} :
      Effect before (.release client outcome) (before.move client (.finished true)
        (before.redis.luaReleaseLock (manager.lockKey (requests client).resourceId)
          (tokens client)))
  | expired {key : String} :
      Effect before (.expire key) { before with redis := Dict.erase before.redis key }

variable {manager tokens requests}

theorem exec_effect {before after : LockSystem} {action : LockAction}
    (taken : before.exec manager tokens requests action = some after) :
    Effect manager tokens requests before action after := by
  cases action with
  | start client now =>
      simp only [exec] at taken
      split at taken <;> cases taken
      next phase => exact .moved (by rw [phase]; rfl) (by simp)
  | testDeadline client now =>
      simp only [exec] at taken
      split at taken
      · next deadline phase =>
          split at taken <;> cases taken <;> exact .moved (by rw [phase]; rfl) (by simp)
      · cases taken
  | set client =>
      simp only [exec, Redis.setNx] at taken
      cases free : before.redis.get? (manager.lockKey (requests client).resourceId) with
      | some holder =>
          simp only [free] at taken
          split at taken <;> cases taken
          next deadline phase => exact .moved (by rw [phase]; rfl) (by simp)
      | none =>
          simp only [free] at taken
          split at taken <;> cases taken
          exact .acquired free
  | leave client =>
      simp only [exec] at taken
      split at taken <;> cases taken
      next phase => exact .moved (by rw [phase]; rfl) (by simp)
  | release client outcome =>
      simp only [exec] at taken
      split at taken <;> cases taken
      · next phase => exact .moved (by rw [phase]; rfl) (by simp)
      · exact .released
  | expire key =>
      simp only [exec] at taken
      split at taken <;> cases taken
      exact .expired

end LockSystem

/-- One step of the clients and of Redis, under the tokens the clients drew. -/
def LockStep (manager : ConcurrencyLockManager) (tokens : Nat → String)
    (requests : Nat → LockRequest) (before : LockSystem) (action : LockAction)
    (after : LockSystem) : Prop :=
  before.exec manager tokens requests action = some after

end LibraFlow.Storage
