import LibraFlow.Core.Values
import LibraFlow.Library.Dict
import LibraFlow.Library.Run

/-! Idempotency keys without Redis. The store keeps one entry per key and user;
any number of calls of `handle_idempotent_operation` run over it, and their
steps interleave under a clock that never runs backwards. -/

set_option autoImplicit false

namespace LibraFlow.Api

open LibraFlow.Core LibraFlow.Library

variable {ρ : Type}

inductive IdempotencyData (ρ : Type) where
  | inProgress
  | completed (statusCode : Int) (responseBody : ρ)
  deriving DecidableEq

structure IdempotencyEntry (ρ : Type) where
  data : IdempotencyData ρ
  expiresAt : ℚ
  deriving DecidableEq

structure IdempotencyStore (ρ : Type) where
  ttlSeconds : ℚ
  memoryStore : Dict String (IdempotencyEntry ρ)

namespace IdempotencyStore

def makeKey (key : String) (userId : Option String) : String :=
  if truthy userId then "idemp:" ++ userId.getD "" ++ ":" ++ key else "idemp:global:" ++ key

/-- The live data under a key; an expired entry is dropped. -/
def get (store : IdempotencyStore ρ) (key : String) (userId : Option String) (now : ℚ) :
    Option (IdempotencyData ρ) × IdempotencyStore ρ :=
  match store.memoryStore.get? (makeKey key userId) with
  | some entry =>
      if entry.expiresAt < now then
        (none, { store with memoryStore := store.memoryStore.erase (makeKey key userId) })
      else (some entry.data, store)
  | none => (none, store)

def claim (store : IdempotencyStore ρ) (fullKey : String) (timeoutSeconds now : ℚ) :
    IdempotencyStore ρ :=
  { store with memoryStore := store.memoryStore.set fullKey ⟨.inProgress, now + timeoutSeconds⟩ }

def setInProgress (store : IdempotencyStore ρ) (key : String) (timeoutSeconds : ℚ)
    (userId : Option String) (now : ℚ) : Bool × IdempotencyStore ρ :=
  match store.memoryStore.get? (makeKey key userId) with
  | some entry =>
      if now ≤ entry.expiresAt then (false, store)
      else (true, store.claim (makeKey key userId) timeoutSeconds now)
  | none => (true, store.claim (makeKey key userId) timeoutSeconds now)

def setCompleted (store : IdempotencyStore ρ) (key : String) (statusCode : Int) (responseBody : ρ)
    (userId : Option String) (now : ℚ) : IdempotencyStore ρ :=
  { store with
    memoryStore := store.memoryStore.set (makeKey key userId)
      ⟨.completed statusCode responseBody, now + store.ttlSeconds⟩ }

def clear (store : IdempotencyStore ρ) (key : String) (userId : Option String) :
    IdempotencyStore ρ :=
  { store with memoryStore := store.memoryStore.erase (makeKey key userId) }

end IdempotencyStore

/-- The arguments of one call, its operation apart. -/
structure IdempotentRequest where
  idempotencyKey : Option String
  userId : Option String := none
  statusCode : Int := 200

/-- Where a call stands. A call without a key runs its operation directly; the
others remember when they claimed their key. -/
inductive CallPhase (ρ : Type) where
  | idle
  | claiming
  | claimed (since : ℚ)
  | running (since : ℚ)
  | unprotected
  | succeeded (since : ℚ) (result : ρ)
  | failed (since : ℚ)
  | returned (result : ρ)
  | conflict
  | raised
  deriving DecidableEq

inductive CallAction (ρ : Type) where
  | get (call : Nat)
  | setInProgress (call : Nat)
  | start (call : Nat)
  | finish (call : Nat) (result : Option ρ)
  | settle (call : Nat)
  deriving DecidableEq

/-- Seconds an operation may take before its claim expires. -/
def leaseSeconds : ℚ := 60

structure IdempotencySystem (ρ : Type) where
  store : IdempotencyStore ρ
  calls : Nat → CallPhase ρ
  clock : ℚ

namespace IdempotencySystem

def empty (ttlSeconds clock : ℚ) : IdempotencySystem ρ :=
  ⟨⟨ttlSeconds, .empty⟩, fun _ => .idle, clock⟩

/-- Move one call on, with the store it leaves behind. -/
def move (system : IdempotencySystem ρ) (call : Nat) (phase : CallPhase ρ)
    (store : IdempotencyStore ρ) (now : ℚ) : IdempotencySystem ρ :=
  ⟨store, Function.update system.calls call phase, now⟩

/-- The first step of a call: run without protection, or look the key up. -/
def execGet (request : IdempotentRequest) (call : Nat) (now : ℚ) (system : IdempotencySystem ρ) :
    IdempotencySystem ρ :=
  if truthy request.idempotencyKey then
    match system.store.get (request.idempotencyKey.getD "") request.userId now with
    | (some (.completed _ responseBody), store) =>
        system.move call (.returned responseBody) store now
    | (some .inProgress, store) => system.move call .conflict store now
    | (none, store) => system.move call .claiming store now
  else system.move call .unprotected system.store now

def execSetInProgress (request : IdempotentRequest) (call : Nat) (now : ℚ)
    (system : IdempotencySystem ρ) : IdempotencySystem ρ :=
  match system.store.setInProgress (request.idempotencyKey.getD "") leaseSeconds request.userId
      now with
  | (true, store) => system.move call (.claimed now) store now
  | (false, store) => system.move call .conflict store now

/-- One step of a call; `none` when the call is not at that step. -/
def exec (requests : Nat → IdempotentRequest) (system : IdempotencySystem ρ) (now : ℚ) :
    CallAction ρ → Option (IdempotencySystem ρ)
  | .get call =>
      match system.calls call with
      | .idle => some (system.execGet (requests call) call now)
      | _ => none
  | .setInProgress call =>
      match system.calls call with
      | .claiming => some (system.execSetInProgress (requests call) call now)
      | _ => none
  | .start call =>
      match system.calls call with
      | .claimed since => some (system.move call (.running since) system.store now)
      | _ => none
  | .finish call (some result) =>
      match system.calls call with
      | .running since => some (system.move call (.succeeded since result) system.store now)
      | .unprotected => some (system.move call (.returned result) system.store now)
      | _ => none
  | .finish call none =>
      match system.calls call with
      | .running since => some (system.move call (.failed since) system.store now)
      | .unprotected => some (system.move call .raised system.store now)
      | _ => none
  | .settle call =>
      match system.calls call with
      | .succeeded _ result => some (system.move call (.returned result)
          (system.store.setCompleted ((requests call).idempotencyKey.getD "")
            (requests call).statusCode result (requests call).userId now) now)
      | .failed _ => some (system.move call .raised
          (system.store.clear ((requests call).idempotencyKey.getD "") (requests call).userId) now)
      | _ => none

end IdempotencySystem

structure TimedAction (ρ : Type) where
  action : CallAction ρ
  now : ℚ

/-- One step under a clock that never runs backwards. -/
def IdempotencyStep (requests : Nat → IdempotentRequest) (before : IdempotencySystem ρ)
    (label : TimedAction ρ) (after : IdempotencySystem ρ) : Prop :=
  before.clock ≤ label.now ∧ before.exec requests label.now label.action = some after

end LibraFlow.Api
