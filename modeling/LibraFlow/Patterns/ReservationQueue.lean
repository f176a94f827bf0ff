import LibraFlow.Core.Errors
import LibraFlow.Library.Dict
import LibraFlow.Library.Heap

/-! First-come first-served reservation queues. A queue and the index by
reservation identifier share their entry objects, so an assignment made through
the queue is visible through the index. -/

set_option autoImplicit false

namespace LibraFlow.Patterns

open LibraFlow.Core LibraFlow.Library

inductive ReservationStatus where
  | pending
  | readyForPickup
  | fulfilled
  | expired
  | cancelled
  deriving DecidableEq, Repr

structure ReservationEntry where
  reservationId : String
  isbn : String
  userId : String
  priorityScore : ℚ
  status : ReservationStatus
  createdAt : Datetime
  assignedCopyId : Option String
  readyPickupExpiresAt : Option Datetime
  deriving DecidableEq

structure ReservationManager where
  entries : Heap ReservationEntry
  queues : Dict String (List Ref)
  reservations : Dict String Ref
  deriving DecidableEq

namespace ReservationManager

def empty : ReservationManager := ⟨.empty, .empty, .empty⟩

/-- The queue of a title; a title nobody asked for has an empty one. -/
def queue (manager : ReservationManager) (isbn : String) : List Ref :=
  (manager.queues.get? isbn).getD []

/-- An entry that still counts as a reservation of the user. -/
def activeFor (manager : ReservationManager) (userId : String) (ref : Ref) : Bool :=
  match manager.entries.read? ref with
  | some entry =>
      entry.userId = userId ∧ (entry.status = .pending ∨ entry.status = .readyForPickup)
  | none => false

/-- Join the queue of a title. A user already waiting there gets the entry made
earlier; otherwise a new entry with the given identifier goes to the end. -/
def reserveBook (manager : ReservationManager) (isbn userId : String) (priorityScore : ℚ)
    (reservationId : String) (now : Datetime) : Ref × ReservationManager :=
  match (manager.queue isbn).find? (manager.activeFor userId) with
  | some ref => (ref, { manager with queues := manager.queues.set isbn (manager.queue isbn) })
  | none =>
      let entry : ReservationEntry := {
        reservationId, isbn, userId, priorityScore
        status := .pending
        createdAt := now
        assignedCopyId := none
        readyPickupExpiresAt := none }
      let ref := manager.entries.next
      (ref, {
        entries := manager.entries.alloc entry
        queues := manager.queues.set isbn (manager.queue isbn ++ [ref])
        reservations := manager.reservations.set reservationId ref })

/-- Take entries off the front of a queue up to and including the first pending one. -/
def takePending (entries : Heap ReservationEntry) :
    List Ref → Option (Ref × ReservationEntry) × List Ref
  | [] => (none, [])
  | ref :: rest =>
      match entries.read? ref with
      | some entry =>
          if entry.status = .pending then (some (ref, entry), rest) else takePending entries rest
      | none => takePending entries rest

/-- Hours a returned copy is held for its reservation when the caller names none. -/
def pickupWindowHours : Int := 48

/-- Offer a returned copy to the first pending reservation of its title. The
entry leaves the queue and is marked before its expiry is computed, so an
overflow there loses the waiter's place. -/
def handleCopyReturned (manager : ReservationManager) (isbn copyId : String) (now : Datetime)
    (hours : Int := pickupWindowHours) :
    Except Error (Option ReservationEntry) × ReservationManager :=
  if manager.queue isbn = [] then (.ok none, manager)
  else
    match takePending manager.entries (manager.queue isbn) with
    | (none, rest) => (.ok none, { manager with queues := manager.queues.set isbn rest })
    | (some (ref, entry), rest) =>
        let marked := { entry with status := .readyForPickup, assignedCopyId := some copyId }
        match now.addHours? hours with
        | none =>
            (.error .overflowError, { manager with
              entries := manager.entries.write ref marked
              queues := manager.queues.set isbn rest })
        | some expiry =>
            let ready := { marked with readyPickupExpiresAt := some expiry }
            (.ok (some ready), { manager with
              entries := manager.entries.write ref ready
              queues := manager.queues.set isbn rest })

theorem handleCopyReturned_error {manager after : ReservationManager} {isbn copyId : String}
    {now : Datetime} {hours : Int} {error : Error}
    (raised : manager.handleCopyReturned isbn copyId now hours = (.error error, after)) :
    now.addHours? hours = none ∧
      ∃ chosen, (takePending manager.entries (manager.queue isbn)).1 = some chosen := by
  unfold handleCopyReturned at raised
  generalize now.addHours? hours = expiry at raised ⊢
  by_cases empty : manager.queue isbn = []
  · simp [empty] at raised
  · rw [if_neg empty] at raised
    rcases taken : takePending manager.entries (manager.queue isbn) with ⟨chosen, rest⟩
    cases chosen with
    | none => simp [taken] at raised
    | some chosen =>
        cases expiry with
        | none => exact ⟨rfl, chosen, rfl⟩
        | some deadline => simp [taken] at raised

/-- Number of users waiting for a title. -/
def getWaitingCount (manager : ReservationManager) (isbn : String) : Nat :=
  ((manager.queue isbn).filter fun ref =>
    match manager.entries.read? ref with
    | some entry => entry.status = .pending
    | none => false).length

end ReservationManager

end LibraFlow.Patterns
