import LibraFlow.Library.Run
import LibraFlow.Storage.Outbox

/-! Any number of relay workers over one outbox store. Claiming a batch,
publishing an event and marking it are atomic steps that interleave freely; a
worker may crash between any two of them and then starts afresh. -/

set_option autoImplicit false

namespace LibraFlow.Storage.OutboxRelay

open LibraFlow.Core LibraFlow.Library Outbox

inductive Backend where
  | inMemory
  | postgres
  deriving DecidableEq, Repr

variable {π : Type}

def pendingEvents (store : List (OutboxEvent π)) : List (OutboxEvent π) :=
  store.filter fun event => event.status = .pending

def claimEvent (event : OutboxEvent π) : OutboxEvent π := { event with status := .inFlight }

/-- The outcomes of `fetch_pending(limit=50, claim=True)`: the batch handed to the
worker and the store afterwards. The in-memory store takes the oldest pending
events; the database query has no order, so it takes any pending rows, as many
as the limit allows. -/
inductive Claims : Backend → List (OutboxEvent π) → List (OutboxEvent π) →
    List (OutboxEvent π) → Prop where
  | inMemory (store : List (OutboxEvent π)) :
      Claims .inMemory store (fetchPending batchLimit store).1 (fetchPending batchLimit store).2
  | postgres {store rows : List (OutboxEvent π)} (distinct : rows.Nodup)
      (pending : ∀ row ∈ rows, row ∈ pendingEvents store)
      (size : rows.length = min batchLimit (pendingEvents store).length) :
      Claims .postgres store (rows.map claimEvent)
        (store.map fun event =>
          if event.eventId ∈ rows.map OutboxEvent.eventId then claimEvent event else event)

/-- Where a worker stands with the first event of its batch. -/
inductive Stage where
  | ready
  | delivered
  | raised
  deriving DecidableEq, Repr

/-- A worker and the part of its batch that it has not finished. -/
structure Worker (π : Type) where
  batch : List (OutboxEvent π)
  stage : Stage

def Worker.idle : Worker π := ⟨[], .ready⟩

/-- A call of `event_bus.publish`, which delivers or raises. -/
structure Attempt (π : Type) where
  eventId : String
  topic : String
  payload : π
  accepted : Bool

structure System (π : Type) where
  store : List (OutboxEvent π)
  workers : Nat → Worker π
  attempts : List (Attempt π)

def System.empty : System π := ⟨[], fun _ => .idle, []⟩

inductive Action (π : Type) where
  | save (eventId topic : String) (payload : π) (now : Datetime)
  | claim (worker : Nat)
  | publish (worker : Nat) (accepted : Bool)
  | markPublished (worker : Nat) (now : Datetime)
  | markFailed (worker : Nat)
  | crash (worker : Nat)

/-- One atomic step. Saved events get an unused identifier. -/
inductive Step (backend : Backend) : System π → Action π → System π → Prop where
  | save {system : System π} {eventId topic : String} {payload : π} {now : Datetime}
      (fresh : eventId ∉ system.store.map OutboxEvent.eventId) :
      Step backend system (.save eventId topic payload now)
        { system with store := saveEvent system.store eventId topic payload now }
  | claim {system : System π} {worker : Nat} {batch after : List (OutboxEvent π)}
      (free : (system.workers worker).batch = [])
      (claims : Claims backend system.store batch after) :
      Step backend system (.claim worker) { system with
        store := after
        workers := Function.update system.workers worker ⟨batch, .ready⟩ }
  | publish {system : System π} {worker : Nat} {event : OutboxEvent π}
      {rest : List (OutboxEvent π)} {accepted : Bool}
      (current : system.workers worker = ⟨event :: rest, .ready⟩) :
      Step backend system (.publish worker accepted) { system with
        workers := Function.update system.workers worker
          ⟨event :: rest, if accepted then .delivered else .raised⟩
        attempts := system.attempts ++ [⟨event.eventId, event.topic, event.payload, accepted⟩] }
  | markPublished {system : System π} {worker : Nat} {event : OutboxEvent π}
      {rest : List (OutboxEvent π)} {now : Datetime}
      (current : system.workers worker = ⟨event :: rest, .delivered⟩) :
      Step backend system (.markPublished worker now) { system with
        store := Outbox.markPublished event.eventId now system.store
        workers := Function.update system.workers worker ⟨rest, .ready⟩ }
  | markFailed {system : System π} {worker : Nat} {event : OutboxEvent π}
      {rest : List (OutboxEvent π)}
      (current : system.workers worker = ⟨event :: rest, .raised⟩) :
      Step backend system (.markFailed worker) { system with
        store := Outbox.markFailed event.eventId system.store
        workers := Function.update system.workers worker ⟨rest, .ready⟩ }
  | crash {system : System π} {worker : Nat} :
      Step backend system (.crash worker) { system with
        workers := Function.update system.workers worker .idle }

namespace System

/-- Publish attempts made for an event, by their outcome. -/
def count (system : System π) (eventId : String) (accepted : Bool) : Nat :=
  system.attempts.countP fun attempt =>
    decide (attempt.eventId = eventId ∧ attempt.accepted = accepted)

def deliveries (system : System π) (eventId : String) : Nat := system.count eventId true

def failures (system : System π) (eventId : String) : Nat := system.count eventId false

/-- The worker has the event in the unfinished part of its batch. -/
def Holds (system : System π) (worker : Nat) (eventId : String) : Prop :=
  eventId ∈ (system.workers worker).batch.map OutboxEvent.eventId

/-- The worker has published the event, or failed to, and has not marked it. -/
def Facing (system : System π) (worker : Nat) (stage : Stage) (eventId : String) : Prop :=
  ∃ event rest, system.workers worker = ⟨event :: rest, stage⟩ ∧ event.eventId = eventId

end System

end LibraFlow.Storage.OutboxRelay
