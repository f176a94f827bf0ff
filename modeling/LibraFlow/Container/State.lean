import LibraFlow.Ai.Tracking
import LibraFlow.Core.User
import LibraFlow.Dsa.AllocationQueue
import LibraFlow.Library.Proc
import LibraFlow.Patterns.ReservationQueue
import LibraFlow.Patterns.Strategies
import LibraFlow.Storage.Cache
import LibraFlow.Storage.InMemory
import LibraFlow.Storage.Outbox

/-! The state of the in-memory container: the repositories, and everything the
services keep in process memory. -/

set_option autoImplicit false

namespace LibraFlow.Container

open LibraFlow.Core LibraFlow.Library LibraFlow.Storage LibraFlow.Patterns LibraFlow.Distributed
  LibraFlow.Ai LibraFlow.Dsa

/-- A borrowing, as the circulation repository records it. -/
structure CirculationRecord where
  transactionId : String
  copyId : String
  isbn : String
  userId : String
  borrowedAt : Datetime
  dueDate : Datetime
  deriving DecidableEq

/-- The payloads of `copy.issued` and `copy.returned` events. -/
inductive CopyEvent where
  | issued (copyId isbn userId : String) (dueDate : Datetime) (transactionId : String)
  | returned (copyId isbn userId : String) (isLate isDamaged : Bool)
      (assignedReservation : Option String)
  deriving DecidableEq

def CopyEvent.topic : CopyEvent → String
  | issued .. => "copy.issued"
  | returned .. => "copy.returned"

/-- Notifications, by type and payload; the message text is made from these. -/
inductive NotificationEvent where
  | bookIssued (recipientId copyId isbn : String) (dueDate : Datetime)
  | bookReservedAvailable (recipientId isbn copyId reservationId : String)
      (expiresAt : Option Datetime)
  | overdueFineAccrued (recipientId isbn : String) (amount balance : ℚ)
  deriving DecidableEq

inductive AuditDetails where
  | createBook (title format : String)
  | addBookCopy (isbn branchId : String)
  | issueBook (userId isbn : String)
  | returnBook (previousBorrower : String) (isLate isDamaged : Bool)
      (assignedReservation : Option String)
  | chargeFine (isbn : String) (fineAmount newBalance : ℚ)
  | payFine (amount : ℚ) (method : String) (remainingBalance : ℚ)
  deriving DecidableEq

structure AuditEntry where
  timestamp : Datetime
  actorId : String
  resourceId : String
  details : AuditDetails
  deriving DecidableEq

/-- Messages the rebalancer puts on the event bus. -/
inductive TransferMessage where
  | requested (transferId copyId isbn sourceBranchId destBranchId : String)
  | completed (transferId copyId destBranchId : String)
  deriving DecidableEq

structure State where
  bookRepo : BookRepository
  users : Dict String User
  branchRepo : Dict String LibraryBranch
  records : List CirculationRecord
  cache : InMemoryCache Book.Details
  reservationMgr : ReservationManager
  notifications : List NotificationEvent
  forecaster : DemandForecaster
  branchMgr : MultiBranchManager
  tracking : TransferTracking
  published : List TransferMessage
  outbox : List (OutboxEvent CopyEvent)
  allocationQueues : Dict String SmartAllocationQueue
  userWallets : Dict String ℚ
  audit : List AuditEntry

/-- Container procedures: service calls that may raise. -/
abbrev Call (α : Type) := Proc State Error α

namespace State

/-- A container with no titles, copies and users, over a given branch network. -/
def empty (branchRepo registered : Dict String LibraryBranch) : State where
  bookRepo := .empty
  users := .empty
  branchRepo := branchRepo
  records := []
  cache := .new 5000
  reservationMgr := .empty
  notifications := []
  forecaster := .empty
  branchMgr := ⟨registered, .empty⟩
  tracking := .empty
  published := []
  outbox := []
  allocationQueues := .empty
  userWallets := .empty
  audit := []

/-- Update a user object in place. -/
def putUser (state : State) (user : User) : State :=
  { state with users := state.users.set user.userId user }

def mutateCopy (state : State) (ref : Ref) (copy : BookCopy) : State :=
  { state with bookRepo := state.bookRepo.mutate ref copy }

def saveCopy (state : State) (ref : Ref) : State :=
  { state with bookRepo := state.bookRepo.saveCopy ref }

def invalidateBook (state : State) (isbn : String) : State :=
  { state with cache := state.cache.invalidate ("book:" ++ isbn) }

def dispatch (state : State) (event : NotificationEvent) : State :=
  { state with notifications := state.notifications ++ [event] }

def logEvent (state : State) (timestamp : Datetime) (actorId resourceId : String)
    (details : AuditDetails) : State :=
  { state with audit := state.audit ++ [⟨timestamp, actorId, resourceId, details⟩] }

def saveEvent (state : State) (eventId : String) (event : CopyEvent) (now : Datetime) : State :=
  { state with outbox := Outbox.saveEvent state.outbox eventId event.topic event now }

def publish (state : State) (message : TransferMessage) : State :=
  { state with published := state.published ++ [message] }

end State

end LibraFlow.Container
