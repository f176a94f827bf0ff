import LibraFlow.Ai.Tracking
import LibraFlow.Library.Frame
import LibraFlow.Postgres.Session
import LibraFlow.Postgres.System

/-! Checkouts and returns over the PostgreSQL backend, one call at a time, with
database operations that may fail. A locked section is a transaction: when it
raises, or its commit does, the tables are as before. What is saved waits in the
session until a flush sends it: before a row is merged, and before the commit. What
the services keep in process memory is not part of the transaction. -/

set_option autoImplicit false

namespace LibraFlow.Postgres

open LibraFlow.Core LibraFlow.Library LibraFlow.Storage LibraFlow.Patterns LibraFlow.Container
  LibraFlow.Services LibraFlow.Ai

/-- What the services keep in process memory. -/
structure Locals where
  reservationMgr : ReservationManager
  notifications : List NotificationEvent
  forecaster : DemandForecaster
  tracking : TransferTracking
  audit : List AuditEntry

/-- The committed rows, and during a call the rows as its transaction sees them and
the changes that its session has not flushed. -/
structure Station where
  tables : Tables
  pending : Tables
  session : UserSession
  unflushed : List Write
  cache : String → Option Book.Details
  locals : Locals

/-- What is sent to the database, and to the cache. The locked copy row stays in the
session, so the copy is neither loaded nor reloaded. `saveUser`, `saveCopy` and
`saveHeld` flush what was saved before; `flush` is the one of the commit. -/
inductive DatabaseStep where
  | lockCopy
  | loadUser
  | reloadUser
  | saveUser
  | saveCopy
  | saveHeld
  | invalidate
  | flush
  | commit
  deriving DecidableEq

def noFailure (_ : DatabaseStep) : Bool := false

/-- A failed call has raised an error of the program or, as `none`, one of the
database or the cache. -/
abbrev Failure := Option Error

abbrev StationCall (α : Type) := Proc Station Failure α

namespace Station

/-- The session has changes to send. -/
def dirty (station : Station) : Bool :=
  !station.unflushed.isEmpty || station.session.changed.isSome

def flushed (station : Station) : Station :=
  let pending := station.pending.commit station.unflushed
  { station with
    pending := { pending with users := station.session.flush pending.users }
    session := { station.session with changed := none }
    unflushed := [] }

def add (write : Write) (station : Station) : Station :=
  { station with unflushed := station.unflushed ++ [write] }

def mergeUser (user : LiveUser) (station : Station) : Station :=
  { station with
    session := station.session.merge (station.pending.users.get? user.fields.userId) user }

def inLocals (change : Locals → Locals) (station : Station) : Station :=
  { station with locals := change station.locals }

def invalidate (isbn : String) (station : Station) : Station :=
  { station with cache := Function.update station.cache isbn none }

def opened (station : Station) : Station :=
  { station with pending := station.tables, session := .empty, unflushed := [] }

end Station

namespace Locals

def dispatch (event : NotificationEvent) (locals : Locals) : Locals :=
  { locals with notifications := locals.notifications ++ [event] }

def logEvent (timestamp : Datetime) (actorId resourceId : String) (details : AuditDetails)
    (locals : Locals) : Locals :=
  { locals with audit := locals.audit ++ [⟨timestamp, actorId, resourceId, details⟩] }

end Locals

section Calls

variable (fails : DatabaseStep → Bool)

def attempt (step : DatabaseStep) : StationCall Unit := Proc.check (!fails step) none

/-- Send the changes of the session, if it has any. -/
def flush (step : DatabaseStep) : StationCall Unit := do
  let dirty ← Proc.read Station.dirty
  if dirty then
    attempt fails step
    Proc.update Station.flushed
  else pure ()

def inSession {α : Type} (change : UserSession → UserSession × α) : StationCall α := fun station =>
  (.ok (change station.session).2, { station with session := (change station.session).1 })

def getUser (userId : String) : StationCall (Option LiveUser) := do
  attempt fails .loadUser
  let row ← Proc.read fun station => station.pending.users.get? userId
  inSession (UserSession.getUser row)

/-- Merge a copy into the locked row. -/
def saveCopy (step : DatabaseStep) (copy : BookCopy) : StationCall Unit := do
  flush fails step
  Proc.update (Station.add (.copy copy))

/-- Merge a user into the row, which has to be loaded again. -/
def saveUser (user : LiveUser) : StationCall Unit := do
  flush fails .saveUser
  attempt fails .reloadUser
  Proc.update (Station.mergeUser user)

/-- Take the row lock, run the body, flush and commit. -/
def inTransaction {α : Type} (copyId : String) (body : StationCall α) : StationCall α := do
  attempt fails .lockCopy
  let row ← Proc.read fun station => station.pending.copies.get? copyId
  let _ ← Proc.expect (some (.copyNotFound copyId)) row
  let value ← body
  flush fails .flush
  attempt fails .commit
  return value

/-- Whatever raises inside rolls the transaction back. -/
def lockingSection {α : Type} (copyId : String) (body : StationCall α) : StationCall α :=
  fun station =>
    match inTransaction fails copyId body station.opened with
    | (.ok value, after) => (.ok value, { after with tables := after.pending }.opened)
    | (.error failure, after) => (.error failure, after.opened)

/-- The part of a checkout that works on rows: the checks and what is saved. -/
def issueWritten (request : IssueRequest) (now : Datetime) :
    StationCall (CirculationRecord × BookCopy) := do
  let foundUser ← getUser fails request.userId
  let user ← Proc.expect (some (.userNotFound request.userId)) foundUser
  Proc.check user.fields.canBorrow
    (some (.userNotEligible request.userId "borrow limit reached or unpaid fines"))
  let foundCopy ← Proc.read fun station => station.pending.copies.get? request.copyId
  let copy ← Proc.expect (some (.copyNotFound request.copyId)) foundCopy
  Proc.check (mayTake copy request.userId)
    (some (.copyUnavailable request.copyId copy.status.value))
  let issued ← Proc.lift (fun detail => some (.invalidStateTransition detail))
    (copy.checkOut request.userId)
  let borrower ← inSession (UserSession.addBorrow user request.copyId issued.bookIsbn now)
  let dueDate ← Proc.expect (some .overflowError) (now.addDays? request.loanDays)
  let record : CirculationRecord := {
    transactionId := request.transactionId
    copyId := request.copyId
    isbn := issued.bookIsbn
    userId := request.userId
    borrowedAt := now
    dueDate := dueDate }
  Proc.update (Station.add (.record record))
  saveCopy fails .saveCopy issued
  saveUser fails borrower
  let event : CopyEvent := .issued request.copyId issued.bookIsbn request.userId dueDate
    request.transactionId
  Proc.update (Station.add (.event (Outbox.newEvent request.eventId event.topic event now)))
  return (record, issued)

/-- What a checkout tells the forecaster and the rebalancer, before it commits. -/
def recordCheckout (request : IssueRequest) (now : Datetime) (issued : BookCopy)
    (locals : Locals) : Locals :=
  { locals with
    forecaster := locals.forecaster.recordCheckout issued.bookIsbn now.date issued.branchId
    tracking := locals.tracking.recordCheckoutHook request.copyId issued.branchId now }

def issueSection (request : IssueRequest) (now : Datetime) :
    StationCall (CirculationRecord × BookCopy) := do
  let (record, issued) ← issueWritten fails request now
  Proc.update (Station.inLocals (recordCheckout request now issued))
  attempt fails .invalidate
  Proc.update (Station.invalidate issued.bookIsbn)
  return (record, issued)

def Station.issuePhysicalBook (request : IssueRequest) (now : Datetime) :
    StationCall CirculationRecord := do
  let (record, issued) ← lockingSection fails request.copyId (issueSection fails request now)
  Proc.update (Station.inLocals (Locals.dispatch
    (.bookIssued request.userId request.copyId issued.bookIsbn record.dueDate)))
  Proc.update (Station.inLocals (Locals.logEvent now request.actorId request.copyId
    (.issueBook request.userId issued.bookIsbn)))
  return record

/-- Record the return with the borrower, when the borrower is known. -/
def saveReturned (request : ReturnRequest) (now : Datetime) :
    Option LiveUser → StationCall Unit
  | none => pure ()
  | some user => do
      let closed ← inSession
        (UserSession.recordReturn user request.copyId request.isLate request.isDamaged now)
      saveUser fails closed

/-- The part of a return that works on rows: the borrower and the copy. -/
def returnWritten (request : ReturnRequest) (now : Datetime) : StationCall (String × BookCopy) := do
  let foundCopy ← Proc.read fun station => station.pending.copies.get? request.copyId
  let copy ← Proc.expect (some (.copyNotFound request.copyId)) foundCopy
  Proc.check (truthy copy.currentBorrowerId) (some (.invalidStateTransition
    ("Copy '" ++ request.copyId ++ "' is not currently issued to any user.")))
  let borrowerId := copy.currentBorrowerId.getD ""
  let user ← getUser fails borrowerId
  saveReturned fails request now user
  let returned ← Proc.lift (fun detail => some (.valueError detail)) copy.returnBook
  saveCopy fails .saveCopy returned
  return (borrowerId, returned)

/-- Offer the copy to the reservation queue and notify the chosen waiter. -/
def offerLocally (isbn copyId : String) (now : Datetime) : StationCall (Option ReservationEntry) :=
  fun station =>
    match station.locals.reservationMgr.handleCopyReturned isbn copyId now with
    | (.error error, manager) =>
        (.error (some error), station.inLocals fun locals =>
          { locals with reservationMgr := manager })
    | (.ok none, manager) =>
        (.ok none, station.inLocals fun locals => { locals with reservationMgr := manager })
    | (.ok (some entry), manager) =>
        (.ok (some entry), station.inLocals fun locals =>
          Locals.dispatch (.bookReservedAvailable entry.userId isbn copyId entry.reservationId
            entry.readyPickupExpiresAt) { locals with reservationMgr := manager })

def holdRow (returned : BookCopy) : Option ReservationEntry → StationCall BookCopy
  | none => pure returned
  | some entry => do
      let held ← Proc.lift (fun detail => some (.valueError detail)) (returned.reserve entry.userId)
      saveCopy fails .saveHeld held
      return held

/-- The rest of a return once the queue has been asked. -/
def returnSettled (request : ReturnRequest) (now : Datetime) (borrowerId : String)
    (returned : BookCopy) (assigned : Option ReservationEntry) : StationCall ReturnReceipt := do
  let final ← holdRow fails returned assigned
  Proc.update (Station.add (.event (returnEvent request now borrowerId final assigned)))
  attempt fails .invalidate
  Proc.update (Station.invalidate final.bookIsbn)
  Proc.update (Station.inLocals (Locals.logEvent now request.actorId request.copyId
    (.returnBook borrowerId request.isLate request.isDamaged
      (assigned.map ReservationEntry.reservationId))))
  return {
    copyId := request.copyId
    status := final.status
    previousBorrower := borrowerId
    autoAssignedToReservation := assigned }

def returnSection (request : ReturnRequest) (now : Datetime) : StationCall ReturnReceipt := do
  let (borrowerId, returned) ← returnWritten fails request now
  let assigned ← offerLocally returned.bookIsbn request.copyId now
  returnSettled fails request now borrowerId returned assigned

def Station.returnPhysicalBook (request : ReturnRequest) (now : Datetime) :
    StationCall ReturnReceipt :=
  lockingSection fails request.copyId (returnSection fails request now)

end Calls

section Flushing

variable {fails : DatabaseStep → Bool} {step : DatabaseStep} {station : Station}

@[simp] theorem inSession_bind_apply {α β : Type} (change : UserSession → UserSession × α)
    (next : α → StationCall β) (station : Station) :
    (inSession change >>= next) station =
      next (change station.session).2 { station with session := (change station.session).1 } := rfl

theorem Station.clean_iff :
    station.dirty = false ↔ station.unflushed = [] ∧ station.session.changed = none := by
  simp [dirty]

theorem Station.dirty_add (write : Write) : (station.add write).dirty = true := by
  simp [dirty, add]

theorem Station.dirty_mergeUser (user : LiveUser) : (station.mergeUser user).dirty = true := by
  have changed := UserSession.changed_merge station.session
    (station.pending.users.get? user.fields.userId) user
  simp [dirty, mergeUser, changed]

theorem Station.flushed_of_clean (clean : station.dirty = false) : station.flushed = station := by
  obtain ⟨tables, pending, ⟨objects, changed⟩, unflushed, cache, locals⟩ := station
  obtain ⟨rfl, rfl⟩ := clean_iff.mp clean
  rfl

@[simp] theorem Station.flushed_flushed : station.flushed.flushed = station.flushed :=
  flushed_of_clean rfl

theorem flush_apply : flush fails step station =
    if station.dirty && fails step then (.error none, station)
    else (.ok (), station.flushed) := by
  unfold flush attempt
  rw [Proc.read_bind_apply]
  cases clean : station.dirty with
  | false =>
      rw [Station.flushed_of_clean clean]
      rfl
  | true => cases fails step <;> rfl

theorem saveCopy_apply (copy : BookCopy) : saveCopy fails step copy station =
    if station.dirty && fails step then (.error none, station)
    else (.ok (), station.flushed.add (.copy copy)) := by
  unfold saveCopy
  rw [Proc.bind_apply, flush_apply]
  cases station.dirty && fails step <;> rfl

theorem saveUser_apply (user : LiveUser) : saveUser fails user station =
    if station.dirty && fails .saveUser then (.error none, station)
    else if fails .reloadUser then (.error none, station.flushed)
    else (.ok (), station.flushed.mergeUser user) := by
  unfold saveUser attempt
  rw [Proc.bind_apply, flush_apply]
  cases station.dirty && fails .saveUser with
  | true => rfl
  | false => cases fails .reloadUser <;> rfl

theorem saveCopy_bind_apply {α : Type} (sends : fails step = false) (copy : BookCopy)
    (next : Unit → StationCall α) :
    (saveCopy fails step copy >>= next) station =
      next () (station.flushed.add (.copy copy)) := by
  rw [Proc.bind_apply, saveCopy_apply, sends, Bool.and_false]
  rfl

theorem saveUser_bind_apply {α : Type} (sends : fails .saveUser = false)
    (reloads : fails .reloadUser = false) (user : LiveUser) (next : Unit → StationCall α) :
    (saveUser fails user >>= next) station = next () (station.flushed.mergeUser user) := by
  rw [Proc.bind_apply, saveUser_apply, sends, Bool.and_false, reloads]
  rfl

theorem getUser_apply (userId : String) : getUser fails userId station =
    if fails .loadUser then (.error none, station)
    else inSession (UserSession.getUser (station.pending.users.get? userId)) station := by
  unfold getUser attempt
  cases fails .loadUser <;> rfl

theorem saveReturned_some_apply (request : ReturnRequest) (now : Datetime) (user : LiveUser) :
    saveReturned fails request now (some user) station =
      let closing := station.session.recordReturn user request.copyId request.isLate
        request.isDamaged now
      saveUser fails closing.2 { station with session := closing.1 } := rfl

end Flushing

end LibraFlow.Postgres
