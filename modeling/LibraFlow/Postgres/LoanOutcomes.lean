import LibraFlow.Container.Stock
import LibraFlow.Container.Trails
import LibraFlow.Postgres.Backends
import LibraFlow.Postgres.Mapping

/-! A checkout and a return on each backend: the answer, and what is left in the tables,
in the repositories and in process memory. -/

set_option autoImplicit false

namespace LibraFlow.Postgres

open LibraFlow.Core LibraFlow.Library LibraFlow.Storage LibraFlow.Patterns LibraFlow.Container
  LibraFlow.Services

section Titles

variable {repository : BookRepository}

private theorem filled_addCopy (book : Book) (copyId : String) (ref : Ref) :
    filled (book.addCopy copyId ref) = filled book := by
  cases edition : book.edition <;> simp [Book.addCopy, filled, edition, loadEdition]

/-- The titles of a repository, without their copies. -/
def titlesOf (repository : BookRepository) (isbn : String) : Option Book :=
  (repository.getBook isbn).map filled

/-- Listing a copy under its title changes the title only. -/
theorem filled_set {books : Dict String Book} {isbn : String} {parent : Book}
    (found : books.get? isbn = some parent) (copyId : String) (ref : Ref) (other : String) :
    ((books.set isbn (parent.addCopy copyId ref)).get? other).map filled =
      (books.get? other).map filled := by
  rw [Dict.get?_set]
  split
  · next same =>
      rw [← same, found, Option.map_some, filled_addCopy, Option.map_some]
  · rfl

theorem titlesOf_saveCopy (ref : Ref) :
    titlesOf (repository.saveCopy ref) = titlesOf repository := by
  funext isbn
  unfold BookRepository.saveCopy
  cases repository.objects.read? ref with
  | none => rfl
  | some copy =>
      dsimp only
      cases found : repository.books.get? copy.bookIsbn with
      | none => rfl
      | some parent => exact filled_set found copy.copyId ref isbn

theorem titlesOf_attach {isbn : String} {book : Book} (copy : BookCopy)
    (found : repository.getBook isbn = some book) :
    titlesOf (repository.attach isbn book copy) = titlesOf repository := by
  funext other
  exact filled_set found copy.copyId _ other

theorem titlesOf_saveBook (book : Book) :
    titlesOf (repository.saveBook book) =
      Function.update (titlesOf repository) book.isbn (some (filled book)) := by
  funext isbn
  unfold titlesOf BookRepository.saveBook BookRepository.getBook
  rw [Function.update_apply, Dict.get?_set]
  by_cases same : book.isbn = isbn
  · rw [if_pos same, if_pos same.symm]
    rfl
  · rw [if_neg same, if_neg (Ne.symm same)]

theorem titlesOf_resaveBook (valid : repository.WellFormed) (isbn : String) :
    titlesOf (repository.resaveBook isbn) = titlesOf repository := by
  unfold BookRepository.resaveBook
  cases found : repository.getBook isbn with
  | none => rfl
  | some live =>
      dsimp only
      rw [titlesOf_saveBook, valid.bookKeys isbn live found]
      refine Function.update_eq_self_iff.mpr ?_
      rw [titlesOf, found, Option.map_some]

end Titles

section Locking

variable {α : Type} {copyId : String} {body : StationCall α} {station done : Station}

theorem lockingSection_unknown (absent : station.tables.copies.get? copyId = none) :
    lockingSection noFailure copyId body station =
      (.error (some (.copyNotFound copyId)), station.opened) := by
  have missing : station.opened.pending.copies.get? copyId = none := absent
  unfold lockingSection inTransaction attempt
  simp only [noFailure, Bool.not_false, Proc.check_true_bind_apply, Proc.read_bind_apply, missing,
    Proc.expect_none_bind_apply]
  rfl

private theorem inTransaction_runs {row : BookCopy}
    (held : station.tables.copies.get? copyId = some row) :
    inTransaction noFailure copyId body station.opened =
      match body station.opened with
      | (.ok value, after) => (.ok value, after.flushed)
      | (.error failure, after) => (.error failure, after) := by
  have present : station.opened.pending.copies.get? copyId = some row := held
  unfold inTransaction attempt
  simp only [noFailure, Bool.not_false, Proc.check_true_bind_apply, Proc.read_bind_apply, present,
    Proc.expect_some_bind_apply]
  rw [Proc.bind_apply]
  rcases body station.opened with ⟨outcome, after⟩
  cases outcome with
  | error failure => rfl
  | ok value =>
      dsimp only
      rw [Proc.bind_apply, flush_apply, if_neg (by simp [noFailure])]
      rfl

private theorem lockingSection_commits {row : BookCopy} {value : α}
    (held : station.tables.copies.get? copyId = some row)
    (ran : body station.opened = (.ok value, done)) :
    lockingSection noFailure copyId body station =
      (.ok value, { done.flushed with tables := done.flushed.pending }.opened) := by
  rw [lockingSection, inTransaction_runs held, ran]

theorem lockingSection_rollsBack {row : BookCopy} {failure : Failure}
    (held : station.tables.copies.get? copyId = some row)
    (ran : body station.opened = (.error failure, done)) :
    lockingSection noFailure copyId body station = (.error failure, done.opened) := by
  rw [lockingSection, inTransaction_runs held, ran]

end Locking

section Saving

variable {station : Station} {live : LiveUser} {user : User}

private theorem add_flushed (clean : station.dirty = false) (write : Write) :
    (station.add write).flushed = { station with pending := station.pending.apply write } := by
  obtain ⟨tables, pending, ⟨objects, changed⟩, unflushed, cache, locals⟩ := station
  obtain ⟨rfl, rfl⟩ := Station.clean_iff.mp clean
  rfl

private theorem mergeUser_flushed (clean : station.dirty = false)
    (stands : StandsFor station.session.objects live user) :
    ∃ objects, (station.mergeUser live).flushed = { station with
      pending := { station.pending with users := station.pending.users.merge user }
      session := ⟨objects, none⟩ } := by
  obtain ⟨sent, unchanged⟩ := Station.clean_iff.mp clean
  have rows := stands.flush_merge unchanged station.pending.users
  refine ⟨(station.mergeUser live).session.objects, ?_⟩
  simp only [Station.flushed, Station.mergeUser, sent, Tables.commit, List.foldl_nil, rows]

private theorem mergeUser_add_flushed (clean : station.dirty = false)
    (stands : StandsFor station.session.objects live user) (event : OutboxEvent CopyEvent) :
    ((station.mergeUser live).add (.event event)).flushed.pending =
      { station.pending with
        users := station.pending.users.merge user
        events := station.pending.events ++ [event] } := by
  obtain ⟨sent, unchanged⟩ := Station.clean_iff.mp clean
  have rows := stands.flush_merge unchanged station.pending.users
  simp only [Station.flushed, Station.add, Station.mergeUser, sent, List.nil_append,
    Tables.commit, List.foldl_cons, List.foldl_nil, Tables.apply, rows]

end Saving

section Issue

variable {request : IssueRequest} {now dueDate : Datetime} {issued : BookCopy}

def loanRecord (request : IssueRequest) (now dueDate : Datetime) (isbn : String) :
    CirculationRecord where
  transactionId := request.transactionId
  copyId := request.copyId
  isbn := isbn
  userId := request.userId
  borrowedAt := now
  dueDate := dueDate

def loanEvent (request : IssueRequest) (now dueDate : Datetime) (isbn : String) :
    OutboxEvent CopyEvent :=
  Outbox.newEvent request.eventId "copy.issued" (.issued request.copyId isbn request.userId dueDate
    request.transactionId) now

/-- What a checkout leaves in process memory. -/
def tellLoan (request : IssueRequest) (now dueDate : Datetime) (issued : BookCopy)
    (locals : Locals) : Locals :=
  ((recordCheckout request now issued locals).dispatch
    (.bookIssued request.userId request.copyId issued.bookIsbn dueDate)).logEvent now
      request.actorId request.copyId (.issueBook request.userId issued.bookIsbn)

/-- The rows after a checkout. -/
def lendTo (request : IssueRequest) (now dueDate : Datetime) (model : User) (issued : BookCopy)
    (tables : Tables) : Tables :=
  { tables with
    records := tables.records ++ [loanRecord request now dueDate issued.bookIsbn]
    copies := tables.copies.merge issued
    users := tables.users.merge
      ((modelToUser model).addBorrow request.copyId issued.bookIsbn now)
    events := tables.events ++ [loanEvent request now dueDate issued.bookIsbn] }

section Accepted

variable {station : Station} {model : User} {copy : BookCopy}
  (eligible : (modelToUser model).canBorrow = true)
  (allowed : mayTake copy request.userId = true)
  (accepted : copy.checkOut request.userId = .ok issued)
  (due : now.addDays? request.loanDays = some dueDate)

include eligible allowed accepted due

private theorem issueWritten_runs (clean : station.dirty = false)
    (known : station.pending.users.get? request.userId = some model)
    (held : station.pending.copies.get? request.copyId = some copy) :
    ∃ done, issueWritten noFailure request now station =
        (.ok (loanRecord request now dueDate issued.bookIsbn, issued), done) ∧
      done.flushed.pending = lendTo request now dueDate model issued station.pending ∧
      done.locals = station.locals := by
  obtain ⟨session, live, loads, unchanged, stands⟩ := getUser_known noFailure clean known
  have sent := (Station.clean_iff.mp clean).1
  have lent := stands.addBorrow request.copyId issued.bookIsbn now
  rw [← stands.canBorrow] at eligible
  let start : Station := { station with
    session := (session.addBorrow live request.copyId issued.bookIsbn now).1 }
  let record := loanRecord request now dueDate issued.bookIsbn
  let recorded : Station := { start with pending := start.pending.apply (.record record) }
  let moved : Station := { recorded with pending := recorded.pending.apply (.copy issued) }
  have opened : start.dirty = false := Station.clean_iff.mpr ⟨sent, unchanged⟩
  have first : (start.add (.record record)).flushed = recorded := add_flushed opened _
  have second : (recorded.add (.copy issued)).flushed = moved := @add_flushed recorded opened _
  unfold issueWritten
  rw [Proc.bind_apply, loads]
  simp only [noFailure, Bool.false_eq_true, ↓reduceIte, Proc.expect_some_bind_apply, eligible,
    Proc.check_true_bind_apply, Proc.read_bind_apply, held, allowed, accepted,
    Proc.lift_ok_bind_apply, inSession_bind_apply, due, Proc.update_bind_apply]
  rw [saveCopy_bind_apply rfl, saveUser_bind_apply rfl rfl]
  refine ⟨_, rfl, ?_, rfl⟩
  change ((Station.mergeUser _ ((start.add (.record record)).flushed.add
    (.copy issued)).flushed).add _).flushed.pending = _
  rw [first, second]
  exact @mergeUser_add_flushed moved _ _ opened lent _

theorem issue_onDatabase (known : station.tables.users.get? request.userId = some model)
    (held : station.tables.copies.get? request.copyId = some copy) :
    ∃ after, Station.issuePhysicalBook noFailure request now station =
        (.ok (loanRecord request now dueDate issued.bookIsbn), after) ∧
      after.tables = lendTo request now dueDate model issued station.tables ∧
      after.locals = tellLoan request now dueDate issued station.locals := by
  obtain ⟨done, written, rows, locals⟩ := @issueWritten_runs _ _ _ _ station.opened _ _ eligible
    allowed accepted due rfl known held
  have ran : issueSection noFailure request now station.opened =
      (.ok (loanRecord request now dueDate issued.bookIsbn, issued),
        (done.inLocals (recordCheckout request now issued)).invalidate issued.bookIsbn) := by
    unfold issueSection
    rw [Proc.bind_apply, written]
    rfl
  unfold Station.issuePhysicalBook
  rw [Proc.bind_apply, lockingSection_commits held ran]
  exact ⟨_, rfl, rows, congrArg (tellLoan request now dueDate issued) locals⟩

end Accepted

section Refused

variable {station : Station}

theorem issueWritten_unknown (nobody : station.pending.users.get? request.userId = none) :
    issueWritten noFailure request now station =
      (.error (some (.userNotFound request.userId)), station) := by
  rw [issueWritten, Proc.bind_apply, getUser_unknown noFailure nobody]
  rfl

/-- The checks of a checkout, made on the loaded user and the locked row. -/
theorem issueWritten_refused {model : User} {copy : BookCopy} {error : Error}
    (clean : station.dirty = false)
    (known : station.pending.users.get? request.userId = some model)
    (held : station.pending.copies.get? request.copyId = some copy)
    (refused : issueWrites request now model copy = .error error) :
    ∃ session, issueWritten noFailure request now station =
      (.error (some error), { station with session := session }) := by
  obtain ⟨session, live, loading, _, stands⟩ := getUser_known noFailure clean known
  have loaded : ∀ next : Option LiveUser → StationCall (CirculationRecord × BookCopy),
      (getUser noFailure request.userId >>= next) station =
        next (some live) { station with session := session } := by
    intro next
    rw [Proc.bind_apply, loading]
    rfl
  have eligible := stands.canBorrow
  unfold issueWrites at refused
  split at refused
  · next ineligible =>
      cases refused
      rw [ineligible] at eligible
      exact ⟨session, by simp [issueWritten, loaded, eligible]⟩
  next may =>
  rw [Bool.not_eq_false] at may
  rw [may] at eligible
  split at refused
  · next taken =>
      cases refused
      exact ⟨session, by simp [issueWritten, loaded, eligible, held, taken]⟩
  next free =>
  rw [Bool.not_eq_false] at free
  cases accepted : copy.checkOut request.userId with
  | error detail =>
      simp only [accepted] at refused
      cases refused
      exact ⟨session, by simp [issueWritten, loaded, eligible, held, free, accepted]⟩
  | ok issued =>
      cases due : now.addDays? request.loanDays with
      | none =>
          simp only [accepted, due] at refused
          cases refused
          exact ⟨_, by simp [issueWritten, loaded, eligible, held, free, accepted, due]; rfl⟩
      | some dueDate =>
          simp only [accepted, due] at refused
          cases refused

end Refused

theorem issue_refused {station : Station} {copy : BookCopy} {failure : Failure}
    {session : UserSession} (held : station.tables.copies.get? request.copyId = some copy)
    (refused : issueWritten noFailure request now station.opened =
      (.error failure, { station.opened with session := session })) :
    Station.issuePhysicalBook noFailure request now station =
      (.error failure, station.opened) := by
  have ran : issueSection noFailure request now station.opened =
      (.error failure, { station.opened with session := session }) := by
    unfold issueSection
    rw [Proc.bind_apply, refused]
  unfold Station.issuePhysicalBook
  rw [Proc.bind_apply, lockingSection_rollsBack held ran]
  rfl

/-- What a checkout changes in the container in memory. -/
structure Lent (request : IssueRequest) (now dueDate : Datetime) (user : User) (ref : Ref)
    (issued : BookCopy) (before after : State) : Prop where
  branchRepo : after.branchRepo = before.branchRepo
  bookRepo : after.bookRepo = (before.bookRepo.mutate ref issued).saveCopy ref
  users : ∀ userId, after.users.get? userId = (before.users.set user.userId
    (user.addBorrow request.copyId issued.bookIsbn now)).get? userId
  records : after.records = before.records ++ [loanRecord request now dueDate issued.bookIsbn]
  outbox : after.outbox = before.outbox ++ [loanEvent request now dueDate issued.bookIsbn]
  locals : localsOf after = tellLoan request now dueDate issued (localsOf before)

theorem issue_inMemory {before : State} {user : User} {ref : Ref} {copy : BookCopy}
    (taken : Taken request before user ref copy issued)
    (due : now.addDays? request.loanDays = some dueDate) :
    ∃ after, Services.issuePhysicalBook request now before =
        (.ok (loanRecord request now dueDate issued.bookIsbn), after) ∧
      Lent request now dueDate user ref issued before after := by
  unfold Services.issuePhysicalBook
  simp only [Proc.read_bind_apply, taken.known, Proc.expect_some_bind_apply, taken.eligible,
    Proc.check_true_bind_apply, taken.held, taken.allowed, taken.accepted, Proc.lift_ok_bind_apply,
    Proc.update_bind_apply, due]
  refine ⟨_, rfl, rfl, rfl, ?_, rfl, rfl, rfl⟩
  intro userId
  simp [State.putUser, State.mutateCopy, State.saveCopy, State.saveEvent, State.invalidateBook,
    State.dispatch, State.logEvent, User.addBorrow, Dict.get?_set]
  intro same different
  exact absurd same different

end Issue

section Return

variable {request : ReturnRequest} {now : Datetime} {borrowerId : String} {returned : BookCopy}

/-- Where a returned copy goes once the queue has answered. -/
def settled (returned : BookCopy) : Option ReservationEntry → BookCopy
  | none => returned
  | some entry => { returned with
      status := .reserved
      currentReserverId := some entry.userId }

def receiptFor (request : ReturnRequest) (borrowerId : String) (final : BookCopy)
    (assigned : Option ReservationEntry) : ReturnReceipt where
  copyId := request.copyId
  status := final.status
  previousBorrower := borrowerId
  autoAssignedToReservation := assigned

/-- What a return leaves in process memory. -/
def tellReturn (request : ReturnRequest) (now : Datetime) (borrowerId isbn : String)
    (assigned : Option ReservationEntry) (manager : ReservationManager) (locals : Locals) : Locals :=
  let offered := { locals with reservationMgr := manager }
  (match assigned with
    | none => offered
    | some entry => offered.dispatch (.bookReservedAvailable entry.userId isbn request.copyId
        entry.reservationId entry.readyPickupExpiresAt)).logEvent now request.actorId request.copyId
      (.returnBook borrowerId request.isLate request.isDamaged
        (assigned.map ReservationEntry.reservationId))

/-- The borrower with the loan closed. -/
def closedRow (request : ReturnRequest) (now : Datetime) (row : User) : User :=
  (modelToUser row).recordReturn request.copyId request.isLate request.isDamaged now

/-- What a return writes, in the order in which it is saved. -/
def backWrites (request : ReturnRequest) (now : Datetime) (borrowerId : String)
    (found : Option User) (returned : BookCopy) (assigned : Option ReservationEntry) : List Write :=
  let final := settled returned assigned
  closingWrites request now found ++ .copy returned ::
    ((assigned.map fun _ => .copy final).toList ++
      [.event (returnEvent request now borrowerId final assigned)])

/-- The rows after a return. -/
structure GivenBack (request : ReturnRequest) (now : Datetime) (borrowerId : String) (row : User)
    (final : BookCopy) (assigned : Option ReservationEntry) (before after : Tables) : Prop where
  books : after.books = before.books
  branches : after.branches = before.branches
  copies : ∀ copyId, after.copies.get? copyId = (before.copies.merge final).get? copyId
  users : after.users = before.users.merge (closedRow request now row)
  records : after.records = before.records
  events : after.events = before.events ++ [returnEvent request now borrowerId final assigned]

theorem givenBack_commit (row : User) (returned : BookCopy) (assigned : Option ReservationEntry)
    (tables : Tables) :
    GivenBack request now borrowerId row (settled returned assigned) assigned tables
      (tables.commit (backWrites request now borrowerId (some row) returned assigned)) := by
  cases assigned with
  | none => exact ⟨rfl, rfl, fun _ => rfl, rfl, rfl, rfl⟩
  | some entry =>
      refine ⟨rfl, rfl, fun copyId => ?_, rfl, rfl, rfl⟩
      exact congrArg (Table.get? · copyId) (Table.merge_merge _ rfl)

section Accepted

variable {station : Station} {found : Option User} {copy : BookCopy}

/-- Loading the borrower and saving the closed loan, when the borrower is known. -/
theorem saveReturned_bind (clean : station.dirty = false)
    (known : station.pending.users.get? borrowerId = found) :
    ∃ saved objects,
      (∀ {α : Type} (next : Unit → StationCall α), (getUser noFailure borrowerId >>= fun user =>
        saveReturned noFailure request now user >>= next) station = next () saved) ∧
      saved.tables = station.tables ∧ saved.locals = station.locals ∧
      saved.flushed = { station with
        pending := station.pending.commit (closingWrites request now found)
        session := ⟨objects, none⟩ } := by
  obtain ⟨sent, unchanged⟩ := Station.clean_iff.mp clean
  cases found with
  | none =>
      refine ⟨station, station.session.objects, ?_, rfl, rfl, ?_⟩
      · intro α next
        rw [Proc.bind_apply, getUser_unknown noFailure known]
        rfl
      · rw [Station.flushed_of_clean clean, ← unchanged]
        rfl
  | some row =>
      obtain ⟨session, live, loads, loaded, stands⟩ := getUser_known noFailure clean known
      have start : Station.dirty { station with session := session } = false :=
        Station.clean_iff.mpr ⟨sent, loaded⟩
      have closed := stands.recordReturn request.copyId request.isLate request.isDamaged now
      have nothing := @dirty_recordReturn now { station with session := session } start live
        request.copyId request.isLate request.isDamaged
      obtain ⟨objects, flushed⟩ := mergeUser_flushed nothing closed
      refine ⟨_, objects, ?_, ?_, ?_, flushed⟩
      · intro α next
        rw [Proc.bind_apply, loads, if_neg (by simp [noFailure])]
        dsimp only
        rw [Proc.bind_apply, saveReturned_runs start rfl]
      · rfl
      · rfl

/-- A transaction when a return has saved its rows: the one of the borrower is flushed. -/
def Station.writeReturn (request : ReturnRequest) (now : Datetime) (found : Option User)
    (returned : BookCopy) (objects : Heap HistoryEntry) (station : Station) : Station :=
  { station with
    pending := station.pending.commit (closingWrites request now found)
    session := ⟨objects, none⟩
    unflushed := [.copy returned] }

theorem returnWritten_runs (clean : station.dirty = false)
    (held : station.pending.copies.get? request.copyId = some copy)
    (borrower : copy.currentBorrowerId = some borrowerId)
    (named : truthy copy.currentBorrowerId = true)
    (known : station.pending.users.get? borrowerId = found)
    (accepted : copy.returnBook = .ok returned) :
    ∃ objects, returnWritten noFailure request now station =
      (.ok (borrowerId, returned), station.writeReturn request now found returned objects) := by
  obtain ⟨saved, objects, runs, _, _, flushed⟩ := @saveReturned_bind request now borrowerId station
    found clean known
  have sent := (Station.clean_iff.mp clean).1
  refine ⟨objects, ?_⟩
  rw [borrower] at named
  unfold returnWritten
  simp only [Proc.read_bind_apply, held, Proc.expect_some_bind_apply, borrower, named,
    Proc.check_true_bind_apply, Option.getD_some]
  rw [runs, accepted, Proc.lift_ok_bind_apply, saveCopy_bind_apply rfl, flushed]
  simp only [Station.add, sent, List.nil_append]
  rfl

private theorem holdRow_runs (shelved : returned.status = .available)
    (assigned : Option ReservationEntry) :
    holdRow noFailure returned assigned station = (.ok (settled returned assigned),
      match assigned with
      | none => station
      | some _ => station.flushed.add (.copy (settled returned assigned))) := by
  cases assigned with
  | none => rfl
  | some entry =>
      have kept : returned.reserve entry.userId = .ok (settled returned (some entry)) := by
        simp [BookCopy.reserve, shelved, settled]
      simp only [holdRow, kept, Proc.lift_ok_bind_apply]
      rw [saveCopy_bind_apply rfl]
      rfl

/-- What the reservation queue's answer leaves in process memory. -/
def heed (isbn copyId : String) (assigned : Option ReservationEntry) (manager : ReservationManager)
    (locals : Locals) : Locals :=
  match assigned with
  | none => { locals with reservationMgr := manager }
  | some entry => ({ locals with reservationMgr := manager }).dispatch
      (.bookReservedAvailable entry.userId isbn copyId entry.reservationId
        entry.readyPickupExpiresAt)

private theorem offerLocally_runs {isbn copyId : String} {assigned : Option ReservationEntry}
    {manager : ReservationManager}
    (offered : station.locals.reservationMgr.handleCopyReturned isbn copyId now =
      (.ok assigned, manager)) :
    offerLocally isbn copyId now station =
      (.ok assigned, station.inLocals (heed isbn copyId assigned manager)) := by
  unfold offerLocally
  rw [offered]
  cases assigned <;> rfl

private theorem return_commits {receipt : ReturnReceipt} {writes : List Write}
    {told : Locals → Locals} {done : Station}
    (held : station.tables.copies.get? request.copyId = some copy)
    (ran : returnSection noFailure request now station.opened = (.ok receipt, done))
    (tables : done.flushed.pending = station.tables.commit writes)
    (locals : done.locals = told station.locals) :
    ∃ after, Station.returnPhysicalBook noFailure request now station = (.ok receipt, after) ∧
      after.tables = station.tables.commit writes ∧ after.locals = told station.locals := by
  unfold Station.returnPhysicalBook
  rw [lockingSection_commits held ran]
  exact ⟨_, rfl, tables, locals⟩

theorem return_onDatabase {assigned : Option ReservationEntry} {manager : ReservationManager}
    (held : station.tables.copies.get? request.copyId = some copy)
    (borrower : copy.currentBorrowerId = some borrowerId)
    (named : truthy copy.currentBorrowerId = true)
    (known : station.tables.users.get? borrowerId = found)
    (accepted : copy.returnBook = .ok returned) (shelved : returned.status = .available)
    (offered : station.locals.reservationMgr.handleCopyReturned returned.bookIsbn request.copyId
      now = (.ok assigned, manager)) :
    ∃ after, Station.returnPhysicalBook noFailure request now station =
        (.ok (receiptFor request borrowerId (settled returned assigned) assigned), after) ∧
      after.tables = station.tables.commit
        (backWrites request now borrowerId found returned assigned) ∧
      after.locals = tellReturn request now borrowerId returned.bookIsbn assigned manager
        station.locals := by
  obtain ⟨objects, written⟩ := @returnWritten_runs request now borrowerId returned station.opened
    found copy rfl held borrower named known accepted
  let saved := station.opened.writeReturn request now found returned objects
  have rows : station.tables.commit (backWrites request now borrowerId found returned assigned) =
      (station.tables.commit (closingWrites request now found)).commit _ := List.foldl_append
  have asked := @offerLocally_runs now saved _ _ _ _ offered
  cases assigned with
  | none =>
      have ran : returnSection noFailure request now station.opened =
          (.ok (receiptFor request borrowerId returned none),
            (((saved.inLocals (heed returned.bookIsbn request.copyId none manager)).add
              (.event (returnEvent request now borrowerId returned none))).invalidate
                returned.bookIsbn).inLocals (Locals.logEvent now request.actorId request.copyId
                  (.returnBook borrowerId request.isLate request.isDamaged none))) := by
        unfold returnSection
        rw [Proc.bind_apply, written]
        dsimp only
        rw [Proc.bind_apply, asked]
        rfl
      exact return_commits held ran (Eq.trans rfl rows.symm) rfl
  | some entry =>
      have ran : returnSection noFailure request now station.opened =
          (.ok (receiptFor request borrowerId (settled returned (some entry)) (some entry)),
            ((((saved.inLocals (heed returned.bookIsbn request.copyId (some entry)
              manager)).flushed.add (.copy (settled returned (some entry)))).add
                (.event (returnEvent request now borrowerId (settled returned (some entry))
                  (some entry)))).invalidate returned.bookIsbn).inLocals
                    (Locals.logEvent now request.actorId request.copyId
                      (.returnBook borrowerId request.isLate request.isDamaged
                        (some entry.reservationId)))) := by
        unfold returnSection
        rw [Proc.bind_apply, written]
        dsimp only
        rw [Proc.bind_apply, asked]
        dsimp only
        unfold returnSettled
        rw [Proc.bind_apply, holdRow_runs shelved]
        rfl
      exact return_commits held ran (Eq.trans rfl rows.symm) rfl

end Accepted

/-- What a return changes in the container in memory. -/
structure BroughtBack (request : ReturnRequest) (now : Datetime) (borrowerId isbn : String)
    (final : BookCopy) (assigned : Option ReservationEntry) (manager : ReservationManager)
    (before after : State) : Prop where
  branchRepo : after.branchRepo = before.branchRepo
  titles : titlesOf after.bookRepo = titlesOf before.bookRepo
  copies : after.bookRepo.view =
    Function.update before.bookRepo.view request.copyId (some final)
  users : after.users = closeLoan request borrowerId now before.users
  records : after.records = before.records
  outbox : after.outbox = before.outbox ++ [returnEvent request now borrowerId final assigned]
  locals : localsOf after =
    tellReturn request now borrowerId isbn assigned manager (localsOf before)

theorem return_inMemory {before : State} {ref : Ref} {copy : BookCopy}
    {assigned : Option ReservationEntry} {manager : ReservationManager}
    (valid : before.bookRepo.WellFormed) (presented : Presented request before borrowerId ref copy)
    (accepted : copy.returnBook = .ok returned) (shelved : returned.status = .available)
    (offered : before.reservationMgr.handleCopyReturned returned.bookIsbn request.copyId now =
      (.ok assigned, manager)) :
    ∃ after, Services.returnPhysicalBook request now before =
        (.ok (receiptFor request borrowerId (settled returned assigned) assigned), after) ∧
      BroughtBack request now borrowerId returned.bookIsbn (settled returned assigned) assigned
        manager before after := by
  have first := valid.mutate_saveCopy presented.held (BookCopy.sameCopy_returnBook accepted)
  have listed : titlesOf ((before.bookRepo.mutate ref returned).saveCopy ref) =
      titlesOf before.bookRepo := titlesOf_saveCopy ref
  rw [return_presented presented accepted]
  cases assigned with
  | none =>
      rw [@offerToQueue_none_bind _ _ _ _ (offering request now before ref returned borrowerId) _ _
        offered]
      exact ⟨_, rfl, rfl, listed, first.2.1, rfl, rfl, rfl, rfl⟩
  | some entry =>
      have kept : returned.reserve entry.userId = .ok (settled returned (some entry)) := by
        simp [BookCopy.reserve, shelved, settled]
      have second := first.1.mutate_saveCopy first.2.2 (BookCopy.sameCopy_reserve kept)
      have relisted : titlesOf (((((before.bookRepo.mutate ref returned).saveCopy ref).mutate ref
          (settled returned (some entry))).saveCopy ref)) = titlesOf before.bookRepo :=
        (titlesOf_saveCopy ref).trans listed
      have view := second.2.1
      rw [first.2.1, Function.update_idem] at view
      rw [@offerToQueue_some_bind _ _ _ _ (offering request now before ref returned borrowerId) _ _ _
        offered]
      simp only [finishReturn, holdFor, kept]
      exact ⟨_, rfl, rfl, relisted, view, rfl, rfl, rfl, rfl⟩

end Return

end LibraFlow.Postgres
