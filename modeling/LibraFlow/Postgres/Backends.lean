import LibraFlow.Library.Simulation
import LibraFlow.Postgres.Acquisition
import LibraFlow.Postgres.LoanHistory

/-! The calls of a circulation desk, served by the container in memory and by the one on
the database. The database accepts every statement but those that break a foreign key,
and calls come one at a time. -/

set_option autoImplicit false

namespace LibraFlow.Postgres

open LibraFlow.Core LibraFlow.Library LibraFlow.Storage LibraFlow.Patterns LibraFlow.Container
  LibraFlow.Services

namespace Station

def inTables (change : Tables → Tables) (station : Station) : Station :=
  { station with tables := change station.tables }

/-- The row of a user refers to the row of a branch. -/
def registerUser (request : RegisterRequest) : StationCall User := do
  let existing ← Proc.read fun station => station.tables.users.get? request.userId
  Proc.check existing.isNone (some (.duplicateUser request.userId))
  let user ← Proc.lift some (createUser request.role request.arguments)
  let branches ← Proc.read fun station => station.tables.branches
  Proc.check (branches.contains user.branchId) none
  Proc.update (inTables fun tables => { tables with users := tables.users.merge user })
  return user

def registerBook (formatType actorId : String) (arguments : BookArguments) (now : Datetime) :
    StationCall Book := do
  let book ← Proc.lift some (createBook formatType arguments)
  Proc.update (inTables fun tables => { tables with books := tables.books.merge book })
  Proc.update (invalidate book.isbn)
  Proc.update (inLocals (Locals.logEvent now actorId book.isbn
    (.createBook book.title book.getFormat.value)))
  return book

def storeCopy (isbn copyId branchId shelfLocation : String) (price : ℚ) : StationCall BookCopy :=
  fun station =>
    let (result, tables) := station.tables.addPhysicalCopy Tables.foreignKeys isbn copyId branchId
      shelfLocation price
    (result, { station with tables })

def addPhysicalCopy (isbn copyId branchId shelfLocation : String) (price : ℚ) (actorId : String)
    (now : Datetime) : StationCall BookCopy := do
  let copy ← storeCopy isbn copyId branchId shelfLocation price
  Proc.update (invalidate isbn)
  Proc.update (inLocals (Locals.logEvent now actorId copyId (.addBookCopy isbn branchId)))
  return copy

def reserveBook (isbn userId reservationId : String) (now : Datetime) : StationCall Ref :=
  fun station =>
    let (ref, manager) := station.locals.reservationMgr.reserveBook isbn userId 0 reservationId now
    (.ok ref, station.inLocals fun locals => { locals with reservationMgr := manager })

end Station

inductive DeskCall where
  | registerUser (request : RegisterRequest)
  | registerBook (formatType actorId : String) (arguments : BookArguments)
  | addPhysicalCopy (isbn copyId branchId shelfLocation : String) (price : ℚ) (actorId : String)
  | issuePhysicalBook (request : IssueRequest)
  | returnPhysicalBook (request : ReturnRequest)
  | reserveBook (isbn userId reservationId : String)

/-- A call together with the time at which it is made. -/
structure DeskRequest where
  call : DeskCall
  now : Datetime

inductive DeskAnswer where
  | user (user : User)
  | title (book : Book)
  | copy (copy : BookCopy)
  | loan (record : CirculationRecord)
  | receipt (receipt : ReturnReceipt)
  | place (entry : Ref)

def DeskCall.operation : DeskCall → Operation
  | registerUser request => .registerUser request
  | registerBook formatType actorId arguments => .registerBook formatType actorId arguments
  | addPhysicalCopy isbn copyId branchId shelfLocation price actorId =>
      .addPhysicalCopy isbn copyId branchId shelfLocation price actorId
  | issuePhysicalBook request => .issuePhysicalBook request
  | returnPhysicalBook request => .returnPhysicalBook request
  | reserveBook isbn userId reservationId => .reserveBook isbn userId reservationId

namespace DeskRequest

def timed (request : DeskRequest) : TimedOperation := ⟨request.call.operation, request.now⟩

def inMemory (request : DeskRequest) : Call DeskAnswer :=
  match request.call with
  | .registerUser registration => (Services.registerUser registration).returning .user
  | .registerBook formatType actorId arguments =>
      (Services.registerBook formatType actorId arguments request.now).returning .title
  | .addPhysicalCopy isbn copyId branchId shelfLocation price actorId =>
      (Services.addPhysicalCopy isbn copyId branchId shelfLocation price actorId
        request.now).returning .copy
  | .issuePhysicalBook loan => (Services.issuePhysicalBook loan request.now).returning .loan
  | .returnPhysicalBook back => (Services.returnPhysicalBook back request.now).returning .receipt
  | .reserveBook isbn userId reservationId =>
      (Services.reserveBook isbn userId reservationId request.now).returning .place

def onDatabase (request : DeskRequest) : StationCall DeskAnswer :=
  match request.call with
  | .registerUser registration => (Station.registerUser registration).returning .user
  | .registerBook formatType actorId arguments =>
      (Station.registerBook formatType actorId arguments request.now).returning .title
  | .addPhysicalCopy isbn copyId branchId shelfLocation price actorId =>
      (Station.addPhysicalCopy isbn copyId branchId shelfLocation price actorId
        request.now).returning .copy
  | .issuePhysicalBook loan =>
      (Station.issuePhysicalBook noFailure loan request.now).returning .loan
  | .returnPhysicalBook back =>
      (Station.returnPhysicalBook noFailure back request.now).returning .receipt
  | .reserveBook isbn userId reservationId =>
      (Station.reserveBook isbn userId reservationId request.now).returning .place

theorem inMemory_step (request : DeskRequest) (state : State) :
    Container.Step state request.timed (request.inMemory state).2 := by
  obtain ⟨call, now⟩ := request
  cases call <;> rfl

end DeskRequest

/-- The columns of a title as they are read, without its copies. -/
def filled (book : Book) : Book := { book with edition := loadEdition book.edition }

/-- What the services of the container in memory keep outside the repositories. -/
def localsOf (state : State) : Locals where
  reservationMgr := state.reservationMgr
  notifications := state.notifications
  forecaster := state.forecaster
  tracking := state.tracking
  audit := state.audit

/-- The container in memory and the one on the database hold the same library. -/
structure Corresponds (state : State) (station : Station) : Prop where
  branches : station.tables.branches = state.branchRepo
  titles : ∀ isbn, (station.tables.books.get? isbn).map filled =
    (state.bookRepo.getBook isbn).map filled
  copies : ∀ copyId, station.tables.copies.get? copyId = state.bookRepo.view copyId
  users : ∀ userId, station.tables.users.get? userId = state.users.get? userId
  loadable : ∀ userId row, station.tables.users.get? userId = some row → modelToUser row = row
  records : station.tables.records = state.records
  events : station.tables.events = state.outbox
  locals : station.locals = localsOf state

/-- The outcomes are the same, but for a checkout of an unknown copy: the database looks
for the copy first, the other container for the user. -/
inductive SameOutcome (state : State) (call : DeskCall) :
    Except Error DeskAnswer → Except Failure DeskAnswer → Prop where
  | returned (answer : DeskAnswer) : SameOutcome state call (.ok answer) (.ok answer)
  | raised (error : Error) : SameOutcome state call (.error error) (.error (some error))
  | unknownCopy {request : IssueRequest} {error : Error}
      (asked : call = .issuePhysicalBook request)
      (unknown : state.bookRepo.view request.copyId = none)
      (aboutUser : error = .userNotFound request.userId ∨ error =
        .userNotEligible request.userId "borrow limit reached or unpaid fines") :
      SameOutcome state call (.error error) (.error (some (.copyNotFound request.copyId)))

/-- What callers promise: identifiers are new and not empty, branches are known, and the
dates that a call computes exist. -/
def Granted (state : State) (request : DeskRequest) : Prop :=
  match request.call with
  | .registerUser registration => registration.userId ≠ "" ∧
      ∀ user, createUser registration.role registration.arguments = .ok user →
        state.branchRepo.contains user.branchId = true
  | .registerBook formatType _ arguments => ∀ book, createBook formatType arguments = .ok book →
      state.bookRepo.countCopiesForIsbn book.isbn = 0
  | .addPhysicalCopy _ copyId branchId _ _ _ => state.bookRepo.copies.get? copyId = none ∧
      state.branchRepo.contains branchId = true
  | .issuePhysicalBook loan => request.now.addDays? loan.loanDays ≠ none
  | .returnPhysicalBook _ =>
      request.now.addHours? ReservationManager.pickupWindowHours ≠ none
  | .reserveBook .. => True

end LibraFlow.Postgres
