import LibraFlow.Services.Catalog

/-! Checkouts, returns, reservations and smart allocation on the in-memory
container. Objects are live references: every change to a copy or a user is
visible at once, also when a later step raises. -/

set_option autoImplicit false

namespace LibraFlow.Services

open LibraFlow.Core LibraFlow.Library LibraFlow.Patterns LibraFlow.Dsa LibraFlow.Container

/-- A copy may be issued when it is on the shelf or held for this user. -/
def mayTake (copy : BookCopy) (userId : String) : Bool :=
  copy.status = .available ∨
    (copy.status = .reserved ∧ copy.currentReserverId = some userId)

/-- The arguments of a checkout; the identifiers drawn at random are inputs. -/
structure IssueRequest where
  copyId : String
  userId : String
  actorId : String := "LIBRARIAN"
  loanDays : Int := 14
  transactionId : String
  eventId : String

def issuePhysicalBook (request : IssueRequest) (now : Datetime) : Call CirculationRecord := do
  let foundUser ← Proc.read fun state => state.users.get? request.userId
  let user ← Proc.expect (.userNotFound request.userId) foundUser
  Proc.check user.canBorrow
    (.userNotEligible request.userId "borrow limit reached or unpaid fines")
  let foundCopy ← Proc.read fun state => state.bookRepo.getCopy request.copyId
  let (ref, copy) ← Proc.expect (.copyNotFound request.copyId) foundCopy
  Proc.check (mayTake copy request.userId) (.copyUnavailable request.copyId copy.status.value)
  let issued ← Proc.lift .invalidStateTransition (copy.checkOut request.userId)
  Proc.update fun state => state.mutateCopy ref issued
  let borrower := user.addBorrow request.copyId issued.bookIsbn now
  Proc.update fun state => state.putUser borrower
  -- an overflow here leaves the copy issued and the user charged with it
  let dueDate ← Proc.expect .overflowError (now.addDays? request.loanDays)
  let record : CirculationRecord := {
    transactionId := request.transactionId
    copyId := request.copyId
    isbn := issued.bookIsbn
    userId := request.userId
    borrowedAt := now
    dueDate := dueDate }
  Proc.update fun state => { state with records := state.records ++ [record] }
  Proc.update fun state => state.saveCopy ref
  Proc.update fun state => state.putUser borrower
  Proc.update fun state => state.saveEvent request.eventId
    (.issued request.copyId issued.bookIsbn request.userId dueDate request.transactionId) now
  Proc.update fun state => { state with
    forecaster := state.forecaster.recordCheckout issued.bookIsbn now.date issued.branchId }
  Proc.update fun state => { state with
    tracking := state.tracking.recordCheckoutHook request.copyId issued.branchId now }
  Proc.update fun state => state.invalidateBook issued.bookIsbn
  Proc.update fun state => state.dispatch
    (.bookIssued request.userId request.copyId issued.bookIsbn dueDate)
  Proc.update fun state => state.logEvent now request.actorId request.copyId
    (.issueBook request.userId issued.bookIsbn)
  return record

structure ReturnRequest where
  copyId : String
  actorId : String := "LIBRARIAN"
  isLate : Bool := false
  isDamaged : Bool := false
  eventId : String

structure ReturnReceipt where
  copyId : String
  status : BookStatus
  previousBorrower : String
  autoAssignedToReservation : Option ReservationEntry

/-- Offer a returned copy to the reservation queue and notify the chosen waiter. -/
def offerToQueue (isbn copyId : String) (now : Datetime) : Call (Option ReservationEntry) :=
  fun state =>
    match state.reservationMgr.handleCopyReturned isbn copyId now with
    | (.error error, manager) => (.error error, { state with reservationMgr := manager })
    | (.ok none, manager) => (.ok none, { state with reservationMgr := manager })
    | (.ok (some entry), manager) =>
        (.ok (some entry), { state with reservationMgr := manager }.dispatch
          (.bookReservedAvailable entry.userId isbn copyId entry.reservationId
            entry.readyPickupExpiresAt))

/-- Hold a returned copy for the reservation it was assigned to. -/
def holdFor (ref : Ref) (returned : BookCopy) : Option ReservationEntry → Call BookCopy
  | none => pure returned
  | some entry => do
      let held ← Proc.lift .valueError (returned.reserve entry.userId)
      Proc.update fun state => state.mutateCopy ref held
      Proc.update fun state => state.saveCopy ref
      return held

/-- Record a return with the borrower, when the borrower is known. -/
def closeLoan (request : ReturnRequest) (borrowerId : String) (now : Datetime)
    (users : Dict String User) : Dict String User :=
  match users.get? borrowerId with
  | some user =>
      users.set user.userId
        (user.recordReturn request.copyId request.isLate request.isDamaged now)
  | none => users

def returnPhysicalBook (request : ReturnRequest) (now : Datetime) : Call ReturnReceipt := do
  let foundCopy ← Proc.read fun state => state.bookRepo.getCopy request.copyId
  let (ref, copy) ← Proc.expect (.copyNotFound request.copyId) foundCopy
  Proc.check (truthy copy.currentBorrowerId) (.invalidStateTransition
    ("Copy '" ++ request.copyId ++ "' is not currently issued to any user."))
  let borrowerId := copy.currentBorrowerId.getD ""
  Proc.update fun state => { state with users := closeLoan request borrowerId now state.users }
  let returned ← Proc.lift .valueError copy.returnBook
  Proc.update fun state => state.mutateCopy ref returned
  Proc.update fun state => state.saveCopy ref
  let assigned ← offerToQueue returned.bookIsbn request.copyId now
  let final ← holdFor ref returned assigned
  let reservationId := assigned.map ReservationEntry.reservationId
  Proc.update fun state => state.saveEvent request.eventId
    (.returned request.copyId final.bookIsbn borrowerId request.isLate request.isDamaged
      reservationId) now
  Proc.update fun state => state.invalidateBook final.bookIsbn
  Proc.update fun state => state.logEvent now request.actorId request.copyId
    (.returnBook borrowerId request.isLate request.isDamaged reservationId)
  return {
    copyId := request.copyId
    status := final.status
    previousBorrower := borrowerId
    autoAssignedToReservation := assigned }

def reserveBook (isbn userId reservationId : String) (now : Datetime) : Call Ref := fun state =>
  let (ref, manager) := state.reservationMgr.reserveBook isbn userId 0 reservationId now
  (.ok ref, { state with reservationMgr := manager })

def requestSmartAllocation (isbn userId requestId : String) (now : Datetime) :
    Call BorrowRequest := do
  let found ← Proc.read fun state => state.users.get? userId
  let user ← Proc.expect (.userNotFound userId) found
  let existing ← Proc.read fun state => state.allocationQueues.get? isbn
  let queue := existing.getD (.new isbn)
  let queued := queue.enqueue requestId user "BRANCH-CENTRAL" none now
  Proc.update fun state => { state with
    allocationQueues := state.allocationQueues.set isbn queued.2 }
  return queued.1

structure AllocationResult where
  assignedUserId : String
  userName : String
  copyId : String
  priority : ℚ
  transaction : CirculationRecord

/-- The first copy of a title that is on the shelf. -/
def firstAvailable (state : State) (isbn : String) : Option BookCopy :=
  match (state.bookRepo.getBook isbn).bind Book.copies? with
  | some copies => (Book.getAvailableCopies state.bookRepo.objects copies).head?
  | none => none

/-- Issue a copy to the most urgent request. The request leaves the queue before
the checkout is attempted. -/
def processSmartAllocationDrop (isbn transactionId eventId : String) (now : Datetime) :
    Call (Option AllocationResult) := do
  let found ← Proc.read fun state => state.allocationQueues.get? isbn
  match found with
  | none => return none
  | some queue =>
      let available ← Proc.read fun state => firstAvailable state isbn
      match queue.popHighestPriority, available with
      | (some top, rest), some copy => do
          Proc.update fun state => { state with
            allocationQueues := state.allocationQueues.set isbn rest }
          let record ← issuePhysicalBook {
            copyId := copy.copyId
            userId := top.userId
            actorId := "SMART_ALLOCATOR"
            transactionId
            eventId } now
          return some {
            assignedUserId := top.userId
            userName := top.userName
            copyId := copy.copyId
            priority := top.actualPriority
            transaction := record }
      | _, _ => return none

/-- The body of a registration request; empty optional fields take defaults. -/
structure RegisterRequest where
  userId : String
  name : String
  email : String
  passwordHash : String
  role : String := "STUDENT"
  academicYear : Option Int := some 1
  major : Option String := some "Computer Science"
  branchId : Option String := some "BRANCH-DELHI"

def RegisterRequest.arguments (request : RegisterRequest) : UserArguments where
  userId := request.userId
  name := request.name
  email := request.email
  passwordHash := request.passwordHash
  branchId := if truthy request.branchId then request.branchId else some "BRANCH-DELHI"
  academicYear :=
    some (match request.academicYear with
      | none => 1
      | some year => if year = 0 then 1 else year)
  major := if truthy request.major then request.major else some "Computer Science"

def registerUser (request : RegisterRequest) : Call User := do
  let existing ← Proc.read fun state => state.users.contains request.userId
  Proc.check (!existing) (.duplicateUser request.userId)
  let user ← Proc.lift id (createUser request.role request.arguments)
  Proc.update fun state => state.putUser user
  return user

end LibraFlow.Services
