import LibraFlow.Core.Values

/-! The transactional outbox: events wait in the store until a relay claims,
publishes and marks them. -/

set_option autoImplicit false

namespace LibraFlow.Storage

open LibraFlow.Core

inductive OutboxStatus where
  | pending
  | inFlight
  | published
  | failed
  deriving DecidableEq, Repr

structure OutboxEvent (π : Type) where
  eventId : String
  topic : String
  payload : π
  status : OutboxStatus
  retryCount : Nat
  createdAt : Datetime
  publishedAt : Option Datetime
  deriving DecidableEq

namespace Outbox

variable {π : Type}

/-- Failed attempts after which an event is given up. -/
def maxAttempts : Nat := 5

/-- Events a relay claims at a time. -/
def batchLimit : Nat := 50

def newEvent (eventId topic : String) (payload : π) (now : Datetime) : OutboxEvent π where
  eventId := eventId
  topic := topic
  payload := payload
  status := .pending
  retryCount := 0
  createdAt := now
  publishedAt := none

def saveEvent (events : List (OutboxEvent π)) (eventId topic : String) (payload : π)
    (now : Datetime) : List (OutboxEvent π) :=
  events ++ [newEvent eventId topic payload now]

/-- Claim the first pending events, at most `limit` of them: they are marked in
place and copied into the batch. The second component is the store afterwards. -/
def fetchPending : Nat → List (OutboxEvent π) → List (OutboxEvent π) × List (OutboxEvent π)
  | 0, events => ([], events)
  | _ + 1, [] => ([], [])
  | limit + 1, event :: rest =>
      if event.status = .pending then
        let claimed := { event with status := .inFlight }
        let (batch, after) := fetchPending limit rest
        (claimed :: batch, claimed :: after)
      else
        let (batch, after) := fetchPending (limit + 1) rest
        (batch, event :: after)

/-- Change the first event with the given identifier. -/
def modifyFirst (eventId : String) (change : OutboxEvent π → OutboxEvent π) :
    List (OutboxEvent π) → List (OutboxEvent π)
  | [] => []
  | event :: rest =>
      if event.eventId = eventId then change event :: rest
      else event :: modifyFirst eventId change rest

def publish (now : Datetime) (event : OutboxEvent π) : OutboxEvent π :=
  { event with status := .published, publishedAt := some now }

def fail (event : OutboxEvent π) : OutboxEvent π :=
  { event with
    retryCount := event.retryCount + 1
    status := if maxAttempts ≤ event.retryCount + 1 then .failed else .pending }

def markPublished (eventId : String) (now : Datetime) (events : List (OutboxEvent π)) :
    List (OutboxEvent π) :=
  modifyFirst eventId (publish now) events

def markFailed (eventId : String) (events : List (OutboxEvent π)) : List (OutboxEvent π) :=
  modifyFirst eventId fail events

end Outbox

end LibraFlow.Storage
