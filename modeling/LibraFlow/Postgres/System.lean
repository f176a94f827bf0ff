import LibraFlow.Library.Run
import LibraFlow.Postgres.Tables

/-! Concurrent requests over the PostgreSQL backend. Requests run in application
processes that share the database and nothing else; the steps of all requests
interleave in any order. A locked section is one transaction: it holds the row
locks it takes until it commits or rolls back, and its writes become visible
together. A repository call without a session is a transaction of its own. Cached
details expire at any time. -/

set_option autoImplicit false

namespace LibraFlow.Postgres

open LibraFlow.Core LibraFlow.Library LibraFlow.Storage LibraFlow.Patterns LibraFlow.Distributed
  LibraFlow.Container LibraFlow.Services

inductive Request where
  | issue (request : IssueRequest)
  | giveBack (request : ReturnRequest)
  | charge (userId isbn : String) (overdueDays : Int)
  | pay (userId : String) (amount : ℚ) (paymentMethod : String) (metadata : PaymentMetadata)
      (transactionId : String)
  | transfer (copyId destBranchId requestedBy transferId : String)
  | rebalance (plan : List PlanItem)
  | complete (transferId : String)
  | reserve (isbn userId reservationId : String)
  | addCopy (isbn copyId branchId shelfLocation : String) (price : ℚ)
  | details (isbn : String)

/-- A request, the process that serves it, and the time it reads. -/
structure Ticket where
  process : Nat
  now : Datetime
  request : Request

/-- What the services keep in process memory. The payment processor is shared by
the requests of a process, its strategy included. -/
structure Process where
  reservationMgr : ReservationManager
  branchMgr : MultiBranchManager
  userWallets : Dict String ℚ
  strategy : PaymentMethod

/-- The answer to a request; a charge also keeps how many waiting users it saw. -/
inductive Receipt where
  | issued (record : CirculationRecord)
  | returned (receipt : ReturnReceipt)
  | charged (waiting : Nat) (receipt : FineReceipt)
  | paid (receipt : PaymentReceipt)
  | moved
  | reserved
  | stocked (copy : BookCopy)
  | details (details : Option Book.Details)

/-- What a transaction does when its writes so far are made. -/
inductive Next where
  | returnBook (borrowerId : String)
  | offer (borrowerId : String) (returned : BookCopy)
  | invalidate (isbn : String) (receipt : Receipt)
  | commit (receipt : Receipt)

/-- Where a request stands. In a locked section `row` is the copy row as it was
when its lock was taken. Outside, a request that is about to store a row keeps
the row it read beside the row it stores. -/
inductive Phase where
  | idle
  | locked (row : BookCopy)
  | writing (row : BookCopy) (written todo : List Write) (next : Next)
  | projected (waiting : Nat) (fine : ℚ)
  | paying (model : User)
  | processing (model : User)
  | storingUser (model row : User) (receipt : Receipt)
  | planning (rest : List PlanItem)
  | departing (copy : BookCopy) (item : PlanItem) (rest : List PlanItem)
  | arriving (copy : BookCopy)
  | storingCopy (copy row : BookCopy) (rest : List PlanItem)
  | stocking (copy : BookCopy) (loaded : List BookCopy)
  | merging (copy : BookCopy) (written todo : List BookCopy)
  | stocked (copy : BookCopy)
  | missed
  | computed (details : Book.Details)
  | done (receipt : Receipt)
  | failed (error : Option Error)

/-- The database, the shared cache of title details by title, and the requests. -/
structure System where
  tables : Tables
  cache : String → Option Book.Details
  copyLocks : Locks String
  userLocks : Locks String
  phases : Nat → Phase
  processes : Nat → Process

/-- The checks of a checkout, and the writes it makes when they pass. -/
def issueWrites (request : IssueRequest) (now : Datetime) (model : User) (copy : BookCopy) :
    Except Error (CirculationRecord × List Write) :=
  if (modelToUser model).canBorrow = false then
    .error (.userNotEligible request.userId "borrow limit reached or unpaid fines")
  else if mayTake copy request.userId = false then
    .error (.copyUnavailable request.copyId copy.status.value)
  else
    match copy.checkOut request.userId with
    | .error detail => .error (.invalidStateTransition detail)
    | .ok issued =>
        match now.addDays? request.loanDays with
        | none => .error .overflowError
        | some dueDate =>
            let record : CirculationRecord := {
              transactionId := request.transactionId
              copyId := request.copyId
              isbn := issued.bookIsbn
              userId := request.userId
              borrowedAt := now
              dueDate := dueDate }
            let event : CopyEvent := .issued request.copyId issued.bookIsbn request.userId dueDate
              request.transactionId
            .ok (record, [
              .record record,
              .copy issued,
              .user model ((modelToUser model).addBorrow request.copyId issued.bookIsbn now),
              .event (Outbox.newEvent request.eventId event.topic event now)])

/-- The write that records a return with the borrower, when the borrower is known. -/
def closingWrites (request : ReturnRequest) (now : Datetime) : Option User → List Write
  | some model => [.user model ((modelToUser model).recordReturn request.copyId request.isLate
      request.isDamaged now)]
  | none => []

/-- The last write of a return: its event. -/
def returnEvent (request : ReturnRequest) (now : Datetime) (borrowerId : String) (row : BookCopy)
    (assigned : Option ReservationEntry) : OutboxEvent CopyEvent :=
  let event : CopyEvent := .returned request.copyId row.bookIsbn borrowerId request.isLate
    request.isDamaged (assigned.map ReservationEntry.reservationId)
  Outbox.newEvent request.eventId event.topic event now

def returnReceipt (request : ReturnRequest) (borrowerId : String) (row : BookCopy)
    (assigned : Option ReservationEntry) : Receipt :=
  .returned {
    copyId := request.copyId
    status := row.status
    previousBorrower := borrowerId
    autoAssignedToReservation := assigned }

namespace System

variable (system : System) (id : Nat)

/-- Nothing has started: no request is in progress and no row is locked. -/
def start (tables : Tables) (processes : Nat → Process) : System where
  tables := tables
  cache := fun _ => none
  copyLocks := .none
  userLocks := .none
  phases := fun _ => .idle
  processes := processes

def enter (phase : Phase) : System :=
  { system with phases := Function.update system.phases id phase }

/-- End the transaction of a request: its locks are released. -/
def close (phase : Phase) : System :=
  { system with
    copyLocks := system.copyLocks.release id
    userLocks := system.userLocks.release id
    phases := Function.update system.phases id phase }

/-- Roll back, with the exception that is raised. -/
def raise (error : Error) : System := system.close id (.failed (some error))

def invalidate (isbn : String) : System :=
  { system with cache := Function.update system.cache isbn none }

def inProcess (process : Nat) (change : Process → Process) : System :=
  { system with
    processes := Function.update system.processes process (change (system.processes process)) }

/-- Open a locked section; the request waits while another one holds the copy. -/
def lockCopy (copyId : String) : Option System :=
  match system.copyLocks.acquire? id copyId with
  | none => none
  | some copyLocks =>
      match system.tables.copies.get? copyId with
      | none => some (system.raise id (.copyNotFound copyId))
      | some row => some { system.enter id (.locked row) with copyLocks := copyLocks }

/-- Lock and load the borrower, check everything, and prepare the writes. -/
def checkOut (request : IssueRequest) (now : Datetime) (row : BookCopy) : Option System :=
  match system.userLocks.acquire? id request.userId with
  | none => none
  | some userLocks =>
      match system.tables.users.get? request.userId with
      | none => some (system.raise id (.userNotFound request.userId))
      | some model =>
          match issueWrites request now model row with
          | .error error => some (system.raise id error)
          | .ok (record, writes) =>
              some { system.enter id
                (.writing row [] writes (.invalidate record.isbn (.issued record))) with
                userLocks := userLocks }

/-- Load the borrower, without a lock, and prepare to record the return. -/
def beginReturn (request : ReturnRequest) (now : Datetime) (row : BookCopy) : System :=
  if truthy row.currentBorrowerId then
    let borrowerId := row.currentBorrowerId.getD ""
    system.enter id (.writing row []
      (closingWrites request now (system.tables.users.get? borrowerId)) (.returnBook borrowerId))
  else
    system.raise id (.invalidStateTransition
      ("Copy '" ++ request.copyId ++ "' is not currently issued to any user."))

/-- Make one write. An update locks its row first. -/
def write (row : BookCopy) (written todo : List Write) (next : Next) (first : Write) :
    Option System :=
  let written := system.enter id (.writing row (written ++ [first]) todo next)
  match first with
  | .copy updated =>
      (system.copyLocks.acquire? id updated.copyId).map fun copyLocks =>
        { written with copyLocks := copyLocks }
  | .user _ updated =>
      (system.userLocks.acquire? id updated.userId).map fun userLocks =>
        { written with userLocks := userLocks }
  | .record _ | .event _ => some written

/-- Offer the returned copy to the reservation queue of the process and hold it
for the chosen waiter. -/
def offer (ticket : Ticket) (request : ReturnRequest) (row : BookCopy) (written : List Write)
    (borrowerId : String) (returned : BookCopy) : System :=
  let (result, manager) := (system.processes ticket.process).reservationMgr.handleCopyReturned
    returned.bookIsbn request.copyId ticket.now
  let offered := system.inProcess ticket.process fun process =>
    { process with reservationMgr := manager }
  match result with
  | .error error => offered.raise id error
  | .ok none =>
      offered.enter id (.writing row written
        [.event (returnEvent request ticket.now borrowerId returned none)]
        (.invalidate returned.bookIsbn (returnReceipt request borrowerId returned none)))
  | .ok (some entry) =>
      match returned.reserve entry.userId with
      | .error detail => offered.raise id (.valueError detail)
      | .ok held =>
          offered.enter id (.writing row written
            [.copy held, .event (returnEvent request ticket.now borrowerId held (some entry))]
            (.invalidate held.bookIsbn (returnReceipt request borrowerId held (some entry))))

/-- Go on after the writes of a transaction. -/
def resume (ticket : Ticket) (row : BookCopy) (written : List Write) : Next → Option System
  | .returnBook borrowerId =>
      match row.returnBook with
      | .error detail => some (system.raise id (.valueError detail))
      | .ok returned =>
          some (system.enter id (.writing row written [.copy returned]
            (.offer borrowerId returned)))
  | .offer borrowerId returned =>
      match ticket.request with
      | .giveBack request => some (system.offer id ticket request row written borrowerId returned)
      | _ => none
  | .invalidate isbn receipt =>
      some ((system.invalidate isbn).enter id (.writing row written [] (.commit receipt)))
  | .commit receipt =>
      some { system.close id (.done receipt) with tables := system.tables.commit written }

/-- Load a user in a session of its own and go on with the row. -/
def loadUser (userId : String) (next : User → Phase) : System :=
  match system.tables.users.get? userId with
  | none => system.raise id (.userNotFound userId)
  | some model => system.enter id (next model)

def storeCharge (userId : String) (waiting : Nat) (fine : ℚ) (model : User) : Phase :=
  let fined := (modelToUser model).addFine fine
  .storingUser model fined (.charged waiting ⟨userId, fine, fined.unpaidFinesBalance⟩)

def chooseStrategy (ticket : Ticket) (paymentMethod : String) (model : User) : System :=
  match PaymentMethod.ofName? paymentMethod with
  | none => system.raise id
      (.insufficientInput ("Unsupported payment method '" ++ paymentMethod ++ "'."))
  | some method =>
      (system.inProcess ticket.process fun process => { process with strategy := method }).enter id
        (.processing model)

def processPayment (ticket : Ticket) (userId : String) (amount : ℚ) (metadata : PaymentMetadata)
    (transactionId : String) (model : User) : System :=
  match executePayment (system.processes ticket.process).strategy
      (system.processes ticket.process).userWallets amount userId metadata transactionId with
  | .error error => system.raise id error
  | .ok (result, wallets) =>
      let debited := system.inProcess ticket.process fun process =>
        { process with userWallets := wallets }
      if result.status = .completed then
        let paid := (modelToUser model).payFine amount
        debited.enter id (.storingUser model paid (.paid ⟨result,
          some ((modelToUser model).applied amount), some paid.unpaidFinesBalance⟩))
      else debited.enter id (.done (.paid ⟨result, none, none⟩))

/-- Store a user row in a session of its own, once nobody holds its lock. -/
def storeUser (row : User) (receipt : Receipt) : Option System :=
  match system.userLocks row.userId with
  | some _ => none
  | none => some { system.enter id (.done receipt) with
      tables := { system.tables with users := system.tables.users.merge row } }

/-- Make the copy's own branch known to the manager when the table has it. -/
def registerSource (copy : BookCopy) (process : Process) : Process :=
  if process.branchMgr.branches.contains copy.branchId then process
  else
    match system.tables.branches.get? copy.branchId with
    | some source => { process with branchMgr := process.branchMgr.registerBranch source }
    | none => process

def beginTransfer (ticket : Ticket) (copyId destBranchId transferId : String) : System :=
  match system.tables.branches.get? destBranchId with
  | none => system.raise id (.branchNotFound destBranchId)
  | some dest =>
      let registered := system.inProcess ticket.process fun process =>
        { process with branchMgr := process.branchMgr.registerBranch dest }
      match system.tables.copies.get? copyId with
      | none => registered.raise id (.copyNotFound copyId)
      | some copy =>
          (registered.inProcess ticket.process (system.registerSource copy)).enter id
            (.departing copy ⟨copyId, destBranchId, transferId⟩ [])

/-- Take up the next item of a plan. -/
def nextItem : List PlanItem → System
  | [] => system.enter id (.done .moved)
  | item :: rest =>
      match system.tables.copies.get? item.copyId with
      | none => system.enter id (.planning rest)
      | some copy =>
          if copy.status ≠ .available then system.enter id (.planning rest)
          else system.enter id (.departing copy item rest)

def depart (ticket : Ticket) (requestedBy : String) (copy : BookCopy) (item : PlanItem)
    (rest : List PlanItem) : System :=
  match (system.processes ticket.process).branchMgr.requestTransfer copy item.destBranchId
      requestedBy item.transferId ticket.now with
  | .error detail => system.raise id (.valueError detail)
  | .ok (moved, _, manager) =>
      (system.inProcess ticket.process fun process => { process with branchMgr := manager }).enter
        id (.storingCopy copy moved rest)

def beginArrival (ticket : Ticket) (transferId : String) : System :=
  match (system.processes ticket.process).branchMgr.transfers.get? transferId with
  | none => system.enter id (.done .moved)
  | some transfer =>
      match system.tables.copies.get? transfer.copyId with
      | none => system.enter id (.done .moved)
      | some copy => system.enter id (.arriving copy)

def arrive (ticket : Ticket) (transferId : String) (copy : BookCopy) : System :=
  match (system.processes ticket.process).branchMgr.completeTransfer transferId copy
      ticket.now with
  | .error detail => system.raise id (.valueError detail)
  | .ok (arrived, _, manager) =>
      (system.inProcess ticket.process fun process => { process with branchMgr := manager }).enter
        id (.storingCopy copy arrived [])

/-- Store a copy row in a session of its own, once nobody holds its lock. -/
def storeCopy (row : BookCopy) (rest : List PlanItem) : Option System :=
  match system.copyLocks row.copyId with
  | some _ => none
  | none => some { system.enter id (.planning rest) with
      tables := { system.tables with copies := system.tables.copies.merge row } }

/-- Load a title with its copies and add the new copy to it. -/
def beginStocking (isbn : String) (copy : BookCopy) : System :=
  match (system.tables.books.get? isbn).bind Book.copies? with
  | none => system.raise id (.bookNotFound isbn)
  | some _ => system.enter id (.stocking copy (system.tables.copiesOf isbn))

/-- Store the new copy in a session of its own; the title is saved next, with
every copy that was loaded. -/
def storeNew (copy : BookCopy) (loaded : List BookCopy) : Option System :=
  match system.copyLocks copy.copyId with
  | some _ => none
  | none =>
      let copies := Dict.store copy.copyId copy (loaded.map fun row => (row.copyId, row))
      some { system.enter id (.merging copy [] (copies.map Prod.snd)) with
        tables := { system.tables with copies := system.tables.copies.merge copy } }

/-- Merge one copy of the title in the transaction that saves it. -/
def mergeCopy (copy : BookCopy) (written todo : List BookCopy) (first : BookCopy) :
    Option System :=
  (system.copyLocks.acquire? id first.copyId).map fun copyLocks =>
    { system.enter id (.merging copy (written ++ [first]) todo) with copyLocks := copyLocks }

def commitTitle (copy : BookCopy) (written : List BookCopy) : System :=
  { system.close id (.stocked copy) with tables := system.tables.commit (written.map .copy) }

/-- Look the details up in the cache. -/
def lookUp (isbn : String) : System :=
  match system.cache isbn with
  | some details => system.enter id (.done (.details (some details)))
  | none => system.enter id .missed

def readDetails (isbn : String) : System :=
  match system.tables.details isbn with
  | some details => system.enter id (.computed details)
  | none => system.enter id (.done (.details none))

def storeDetails (isbn : String) (details : Book.Details) : System :=
  { system.enter id (.done (.details (some details))) with
    cache := Function.update system.cache isbn (some details) }

/-- The first step of a request. -/
def begin (ticket : Ticket) : Option System :=
  match ticket.request with
  | .issue request => system.lockCopy id request.copyId
  | .giveBack request => system.lockCopy id request.copyId
  | .charge userId isbn overdueDays =>
      let waiting := (system.processes ticket.process).reservationMgr.getWaitingCount isbn
      some (system.enter id
        (.projected waiting (system.tables.projectedFine waiting isbn userId overdueDays)))
  | .pay userId .. => some (system.loadUser id userId .paying)
  | .transfer copyId destBranchId _ transferId =>
      some (system.beginTransfer id ticket copyId destBranchId transferId)
  | .rebalance plan => some (system.enter id (.planning plan))
  | .complete transferId => some (system.beginArrival id ticket transferId)
  | .reserve isbn userId reservationId =>
      some ((system.inProcess ticket.process fun process => { process with
        reservationMgr := (process.reservationMgr.reserveBook isbn userId 0 reservationId
          ticket.now).2 }).enter id (.done .reserved))
  | .addCopy isbn copyId branchId shelfLocation price =>
      some (system.beginStocking id isbn (.new copyId isbn branchId shelfLocation price))
  | .details isbn => some (system.lookUp id isbn)

/-- The next step of a request; `none` when it has ended or waits for a lock. -/
def advance (ticket : Ticket) : Option System :=
  match system.phases id, ticket.request with
  | .idle, _ => system.begin id ticket
  | .locked row, .issue request => system.checkOut id request ticket.now row
  | .locked row, .giveBack request => some (system.beginReturn id request ticket.now row)
  | .writing row written (first :: todo) next, _ =>
      system.write id row written todo next first
  | .writing row written [] next, _ => system.resume id ticket row written next
  | .projected waiting fine, .charge userId _ _ =>
      some (system.loadUser id userId (storeCharge userId waiting fine))
  | .paying model, .pay _ _ paymentMethod _ _ =>
      some (system.chooseStrategy id ticket paymentMethod model)
  | .processing model, .pay userId amount _ metadata transactionId =>
      some (system.processPayment id ticket userId amount metadata transactionId model)
  | .storingUser _ row receipt, _ => system.storeUser id row receipt
  | .planning rest, _ => some (system.nextItem id rest)
  | .departing copy item rest, .transfer _ _ requestedBy _ =>
      some (system.depart id ticket requestedBy copy item rest)
  | .departing copy item rest, .rebalance _ =>
      some (system.depart id ticket "AUTONOMOUS_REBALANCER" copy item rest)
  | .arriving copy, .complete transferId => some (system.arrive id ticket transferId copy)
  | .storingCopy _ row rest, _ => system.storeCopy id row rest
  | .stocking copy loaded, _ => system.storeNew id copy loaded
  | .merging copy written (first :: todo), _ => system.mergeCopy id copy written todo first
  | .merging copy written [], _ => some (system.commitTitle id copy written)
  | .stocked copy, _ =>
      some ((system.invalidate copy.bookIsbn).enter id (.done (.stocked copy)))
  | .missed, .details isbn => some (system.readDetails id isbn)
  | .computed details, .details isbn => some (system.storeDetails id isbn details)
  | _, _ => none

/-- A database failure: the request ends and its transaction is rolled back. -/
def fail : Option System :=
  match system.phases id with
  | .idle | .done _ | .failed _ => none
  | _ => some (system.close id (.failed none))

end System

inductive Action where
  | advance (id : Nat)
  | fail (id : Nat)
  | expire (isbn : String)
  deriving DecidableEq

def System.exec (tickets : Nat → Ticket) (system : System) : Action → Option System
  | .advance id => system.advance id (tickets id)
  | .fail id => system.fail id
  | .expire isbn => some (system.invalidate isbn)

/-- A title with two copies on the shelf of one of two branches, and a student. -/
def smallLibrary : Tables where
  books := .merge .empty {
    isbn := "B1", title := "Algorithms", authors := [], category := "CS",
    publicationYear := 2020, publisher := "P", description := "", rating := 4,
    difficultyLevel := "Beginner", keywords := [], borrowHistoryCount := 0,
    edition := .physical 500 400 .empty }
  branches := (Dict.empty.set "DELHI" ⟨"DELHI", "Delhi", "", "", "", 0, 0⟩).set "PUNE"
    ⟨"PUNE", "Pune", "", "", "", 1, 1⟩
  copies := (Table.empty.merge (.new "C1" "B1" "DELHI" "A1-01" 500)).merge
    (.new "C2" "B1" "DELHI" "A1-01" 500)
  users := .merge .empty
    (.new { userId := "U1", name := "N", email := "E", passwordHash := "H" } 4
      (.student 1 "Computer Science" none))
  records := []
  events := []

/-- A process that has just started. -/
def freshProcess : Process := ⟨.empty, ⟨.empty, .empty⟩, .empty, .upi⟩

def smallSystem : System := .start smallLibrary fun _ => freshProcess

def Step (tickets : Nat → Ticket) (before : System) (action : Action) (after : System) : Prop :=
  before.exec tickets action = some after

end LibraFlow.Postgres
