import LibraFlow.Postgres.Commits

/-! Exactly-once checkout. The committed events about a copy alternate between a
checkout and the return of that loan, and the circulation records, the loan
counter and the status of the row agree with them at every moment. -/

set_option autoImplicit false

namespace LibraFlow.Postgres

open LibraFlow.Core LibraFlow.Library LibraFlow.Storage LibraFlow.Container LibraFlow.Services

def eventCopyId : CopyEvent → String
  | .issued copyId .. => copyId
  | .returned copyId .. => copyId

def isIssued : CopyEvent → Bool
  | .issued .. => true
  | .returned .. => false

/-- The events about a copy, in commit order. -/
def eventsAbout (copyId : String) (events : List (OutboxEvent CopyEvent)) : List CopyEvent :=
  (events.map OutboxEvent.payload).filter fun event => eventCopyId event = copyId

def recordsAbout (copyId : String) (records : List CirculationRecord) : List CirculationRecord :=
  records.filter fun record => record.copyId = copyId

def issuedCount (events : List CopyEvent) : Nat := events.countP isIssued

def returnedCount (events : List CopyEvent) : Nat := events.countP fun event => !isIssued event

/-- Checkouts and returns alternate, each return by the user of the checkout
before it; the last argument is the user whose loan is open. -/
inductive Alternates : List CopyEvent → Option String → Prop where
  | nil : Alternates [] none
  | issued {events : List CopyEvent} {copyId isbn userId transactionId : String}
      {dueDate : Datetime} (earlier : Alternates events none) :
      Alternates (events ++ [.issued copyId isbn userId dueDate transactionId]) (some userId)
  | returned {events : List CopyEvent} {copyId isbn userId : String} {isLate isDamaged : Bool}
      {assigned : Option String} (earlier : Alternates events (some userId)) :
      Alternates (events ++ [.returned copyId isbn userId isLate isDamaged assigned]) none

theorem Alternates.count {events : List CopyEvent} {holder : Option String}
    (alternates : Alternates events holder) :
    issuedCount events = returnedCount events + if holder.isSome then 1 else 0 := by
  induction alternates with
  | nil => rfl
  | issued earlier ih =>
      simp only [issuedCount, returnedCount, List.countP_append] at ih ⊢
      simp [isIssued] at ih ⊢
      omega
  | returned earlier ih =>
      simp only [issuedCount, returnedCount, List.countP_append] at ih ⊢
      simp [isIssued] at ih ⊢
      omega

/-- Who has a copy, by its row. A copy that went to the shelf or to a waiter by a
return has no borrower left. -/
inductive Holding (row : BookCopy) : Option String → Prop where
  | available (status : row.status = .available) : Holding row none
  | reserved (status : row.status = .reserved) (free : row.currentBorrowerId = none) :
      Holding row none
  | issued {userId : String} (status : row.status = .issued)
      (borrower : row.currentBorrowerId = some userId) : Holding row (some userId)

theorem Holding.status_iff {row : BookCopy} {holder : Option String}
    (holding : Holding row holder) : row.status = .issued ↔ holder.isSome = true := by
  cases holding with
  | available status => simp [status]
  | reserved status _ => simp [status]
  | issued status _ => simp [status]

/-- A copy that may be taken is in nobody's hands, and afterwards in the borrower's. -/
theorem Holding.checkOut {row issued : BookCopy} {holder : Option String} {userId : String}
    (holding : Holding row holder) (accepted : row.checkOut userId = .ok issued) :
    holder = none ∧ Holding issued (some userId) := by
  obtain ⟨shelved, rfl⟩ := BookCopy.checkOut_ok accepted
  refine ⟨?_, .issued rfl rfl⟩
  cases holding with
  | available | reserved => rfl
  | issued status _ => simp [status] at shelved

/-- Only a copy that is out can be returned. -/
theorem Holding.returnBook {row returned final : BookCopy} {holder : Option String}
    {borrowerId : String} (holding : Holding row holder)
    (borrower : row.currentBorrowerId = some borrowerId)
    (gaveBack : row.returnBook = .ok returned)
    (ending : final = returned ∨ ∃ reserverId, returned.reserve reserverId = .ok final) :
    holder = some borrowerId ∧ Holding final none := by
  obtain ⟨status, rfl⟩ | ⟨status, rfl⟩ := BookCopy.returnBook_ok gaveBack
  · constructor
    · cases holding with
      | available other | reserved other => simp [status] at other
      | issued _ known => rw [← known, borrower]
    · obtain rfl | ⟨reserverId, held⟩ := ending
      · exact .available rfl
      · obtain ⟨_, rfl⟩ := BookCopy.reserve_ok held
        exact .reserved rfl rfl
  · cases holding with
    | available other | issued other => simp [status] at other
    | reserved _ free =>
        rw [borrower] at free
        cases free

/-- The state of a copy since the start: what was committed about it, and its row. -/
structure Tally (start : Tables) (first : BookCopy) (system : System)
    (events : List (OutboxEvent CopyEvent)) (records : List CirculationRecord)
    (row : BookCopy) (holder : Option String) : Prop where
  events_eq : system.tables.events = start.events ++ events
  records_eq : system.tables.records = start.records ++ records
  row_eq : system.tables.copies.get? first.copyId = some row
  holding : Holding row holder
  alternates : Alternates (eventsAbout first.copyId events) holder
  records_count : (recordsAbout first.copyId records).length =
    issuedCount (eventsAbout first.copyId events)
  borrow_count : row.borrowCount =
    first.borrowCount + issuedCount (eventsAbout first.copyId events)

def Tallied (start : Tables) (first : BookCopy) (system : System) : Prop :=
  ∃ events records row holder, Tally start first system events records row holder

section Steps

variable {start : Tables} {first : BookCopy} {before after : System}

theorem Tallied.congr (tallied : Tallied start first before)
    (events : after.tables.events = before.tables.events)
    (records : after.tables.records = before.tables.records)
    (copies : after.tables.copies = before.tables.copies) : Tallied start first after := by
  obtain ⟨newEvents, newRecords, row, holder, tally⟩ := tallied
  exact ⟨newEvents, newRecords, row, holder, events.trans tally.events_eq,
    records.trans tally.records_eq, (by rw [copies]; exact tally.row_eq), tally.holding,
    tally.alternates, tally.records_count, tally.borrow_count⟩

private theorem eventsAbout_own {copyId : String} {event : OutboxEvent CopyEvent}
    (own : eventCopyId event.payload = copyId) (events : List (OutboxEvent CopyEvent)) :
    eventsAbout copyId (events ++ [event]) = eventsAbout copyId events ++ [event.payload] := by
  simp [eventsAbout, List.map_append, List.filter_append, own]

private theorem eventsAbout_other {copyId : String} {event : OutboxEvent CopyEvent}
    (other : eventCopyId event.payload ≠ copyId) (events : List (OutboxEvent CopyEvent)) :
    eventsAbout copyId (events ++ [event]) = eventsAbout copyId events := by
  simp [eventsAbout, List.map_append, List.filter_append, other]

private theorem recordsAbout_own {copyId : String} {record : CirculationRecord}
    (own : record.copyId = copyId) (records : List CirculationRecord) :
    recordsAbout copyId (records ++ [record]) = recordsAbout copyId records ++ [record] := by
  simp [recordsAbout, List.filter_append, own]

/-- What is committed about other copies changes nothing here. -/
theorem Tallied.other {event : OutboxEvent CopyEvent} {records : List CirculationRecord}
    (tallied : Tallied start first before)
    (events : after.tables.events = before.tables.events ++ [event])
    (foreign : eventCopyId event.payload ≠ first.copyId)
    (recorded : after.tables.records = before.tables.records ++ records)
    (foreignRecords : recordsAbout first.copyId records = [])
    (copies : after.tables.copies.get? first.copyId = before.tables.copies.get? first.copyId) :
    Tallied start first after := by
  obtain ⟨oldEvents, oldRecords, row, holder, tally⟩ := tallied
  have noRecords : recordsAbout first.copyId (oldRecords ++ records) =
      recordsAbout first.copyId oldRecords := by
    unfold recordsAbout at foreignRecords ⊢
    rw [List.filter_append, foreignRecords, List.append_nil]
  refine ⟨oldEvents ++ [event], oldRecords ++ records, row, holder,
    by rw [events, tally.events_eq, List.append_assoc],
    by rw [recorded, tally.records_eq, List.append_assoc],
    copies.trans tally.row_eq, tally.holding, ?_, ?_, ?_⟩
  · rw [eventsAbout_other foreign]
    exact tally.alternates
  · rw [eventsAbout_other foreign, noRecords]
    exact tally.records_count
  · rw [eventsAbout_other foreign]
    exact tally.borrow_count

theorem Tallied.issue {request : IssueRequest} {now : Datetime} {row issued : BookCopy}
    {model : User} {record : CirculationRecord} (tallied : Tallied start first before)
    (current : before.tables.copies.get? row.copyId = some row)
    (commit : IssueCommit request now row issued model record before.tables after.tables) :
    Tallied start first after := by
  have issuedId : issued.copyId = request.copyId :=
    (BookCopy.sameCopy_checkOut commit.accepted).copyId.trans commit.copyId
  obtain ⟨event, payload, appended⟩ : ∃ event : OutboxEvent CopyEvent,
      event.payload = .issued request.copyId issued.bookIsbn request.userId record.dueDate
        request.transactionId ∧ after.tables.events = before.tables.events ++ [event] :=
    ⟨_, rfl, commit.events⟩
  have about : eventCopyId event.payload = request.copyId := by
    rw [payload]
    rfl
  by_cases same : request.copyId = first.copyId
  · obtain ⟨events, records, known, holder, tally⟩ := tallied
    have knownRow : known = row := by
      have found := tally.row_eq
      rw [← same, ← commit.copyId, current] at found
      exact (Option.some.inj found).symm
    subst known
    obtain ⟨rfl, holding⟩ := tally.holding.checkOut commit.accepted
    have counted : issuedCount (eventsAbout first.copyId (events ++ [event])) =
        issuedCount (eventsAbout first.copyId events) + 1 := by
      rw [eventsAbout_own (about.trans same), payload]
      simp [issuedCount, isIssued]
    refine ⟨events ++ [event], records ++ [record], issued, _,
      by rw [appended, tally.events_eq, List.append_assoc],
      by rw [commit.records, tally.records_eq, List.append_assoc],
      by rw [commit.copies, ← same, ← issuedId, Table.get?_merge_self], holding, ?_, ?_, ?_⟩
    · rw [eventsAbout_own (about.trans same), payload]
      exact .issued tally.alternates
    · rw [counted, recordsAbout_own (commit.recordCopy.trans same), List.length_append,
        tally.records_count]
      rfl
    · obtain ⟨_, rfl⟩ := BookCopy.checkOut_ok commit.accepted
      rw [counted, ← Nat.add_assoc, ← tally.borrow_count]
  · apply tallied.other appended (by rw [about]; exact same) commit.records
    · simp [recordsAbout, commit.recordCopy, same]
    · rw [commit.copies, Table.get?_merge_of_ne _ (by rw [issuedId]; exact same)]

theorem Tallied.giveBack {request : ReturnRequest} {now : Datetime} {row final : BookCopy}
    {borrowerId : String} {found : Option User}
    {assigned : Option Patterns.ReservationEntry} (tallied : Tallied start first before)
    (current : before.tables.copies.get? row.copyId = some row)
    (commit : ReturnCommit request now row final borrowerId found assigned before.tables
      after.tables) : Tallied start first after := by
  obtain ⟨returned, _, gaveBack, held⟩ := commit.returned
  have ending := held.cases
  obtain ⟨event, payload, appended⟩ : ∃ event : OutboxEvent CopyEvent,
      event.payload = .returned request.copyId final.bookIsbn borrowerId request.isLate
        request.isDamaged (assigned.map Patterns.ReservationEntry.reservationId) ∧
      after.tables.events = before.tables.events ++ [event] :=
    ⟨_, rfl, commit.events⟩
  have about : eventCopyId event.payload = request.copyId := by
    rw [payload]
    rfl
  have finalId : final.copyId = request.copyId := commit.sameCopy.copyId.trans commit.copyId
  by_cases same : request.copyId = first.copyId
  · obtain ⟨events, records, known, holder, tally⟩ := tallied
    have knownRow : known = row := by
      have found := tally.row_eq
      rw [← same, ← commit.copyId, current] at found
      exact (Option.some.inj found).symm
    subst known
    obtain ⟨rfl, holding⟩ := tally.holding.returnBook commit.borrower gaveBack ending
    have counted : issuedCount (eventsAbout first.copyId (events ++ [event])) =
        issuedCount (eventsAbout first.copyId events) := by
      rw [eventsAbout_own (about.trans same), payload]
      simp [issuedCount, isIssued]
    have loans : final.borrowCount = row.borrowCount := by
      obtain rfl | ⟨reserverId, held⟩ := ending
      · obtain ⟨_, rfl⟩ | ⟨_, rfl⟩ := BookCopy.returnBook_ok gaveBack <;> rfl
      · obtain ⟨_, rfl⟩ := BookCopy.reserve_ok held
        obtain ⟨_, rfl⟩ | ⟨_, rfl⟩ := BookCopy.returnBook_ok gaveBack <;> rfl
    refine ⟨events ++ [event], records, final, _,
      by rw [appended, tally.events_eq, List.append_assoc],
      by rw [commit.records, tally.records_eq],
      by rw [commit.copies, ← same, ← finalId, Table.get?_merge_self], holding, ?_, ?_, ?_⟩
    · rw [eventsAbout_own (about.trans same), payload]
      exact .returned tally.alternates
    · rw [counted]
      exact tally.records_count
    · rw [counted, loans]
      exact tally.borrow_count
  · apply tallied.other appended (by rw [about]; exact same)
      (by rw [commit.records, List.append_nil]) rfl
    rw [commit.copies, Table.get?_merge_of_ne _ (by rw [finalId]; exact same)]

/-- One step keeps the tally, when no request writes copy rows outside a locked
section. -/
theorem Moves.tallied {ticket : Ticket} {id : Nat} (moves : Moves ticket before id after)
    (stands : Stands ticket before id (before.phases id))
    (settled : ticket.request.movesCopies = false) (stockless : ticket.request.stocks? = none)
    (tallied : Tallied start first before) : Tallied start first after := by
  cases moves with
  | lockedCopy | checkedOut | beganReturn | inserted | updatedCopy | updatedUser | returned
  | offered | invalidated | aborted | mergedCopy | cleared | readDetails | storedDetails
  | proceeded => exact tallied.congr rfl rfl rfl
  | storedUser => exact tallied.congr rfl rfl rfl
  | committed phase =>
      rw [phase] at stands
      cases stands.outcome with
      | issued _ _ commit => exact tallied.issue stands.owns.current commit
      | returned _ _ _ commit => exact tallied.giveBack stands.owns.current commit
  | storedCopy phase _ =>
      rw [phase] at stands
      have moving := stands.2.2
      rw [settled] at moving
      cases moving
  | storedNew phase _ =>
      rw [phase] at stands
      have stocking : ticket.request.stocks? = some _ := stands
      rw [stockless] at stocking
      cases stocking
  | committedTitle phase =>
      rw [phase] at stands
      have stocking := stands.1
      rw [stockless] at stocking
      cases stocking

end Steps

/-- The lock discipline together with the tally of one copy. -/
structure Accounted (tickets : Nat → Ticket) (start : Tables) (first : BookCopy)
    (system : System) : Prop where
  disciplined : Disciplined tickets system
  tallied : Tallied start first system

/-- In every state of every run of requests that write copy rows in locked
sections only: the events committed about a copy that was on the shelf alternate
between a checkout and the return of that loan; there are as many circulation
records of the copy as checkouts, and as many as its loan counter has grown; and
one checkout more than returns exactly when the copy is out. -/
theorem run_exactlyOnce (tickets : Nat → Ticket)
    (settled : ∀ id, (tickets id).request.movesCopies = false ∧
      (tickets id).request.stocks? = none)
    (tables : Tables) (processes : Nat → Process) {trace : List (Transition System Action)}
    {final : System} (run : Run (Step tickets) (.start tables processes) trace final)
    (copyId : String) (first : BookCopy) (found : tables.copies.get? copyId = some first)
    (available : first.status = .available) :
    ∃ events records row holder,
      final.tables.events = tables.events ++ events ∧
      final.tables.records = tables.records ++ records ∧
      final.tables.copies.get? copyId = some row ∧
      Alternates (eventsAbout copyId events) holder ∧
      (recordsAbout copyId records).length = issuedCount (eventsAbout copyId events) ∧
      row.borrowCount = first.borrowCount + issuedCount (eventsAbout copyId events) ∧
      issuedCount (eventsAbout copyId events) = returnedCount (eventsAbout copyId events) +
        (if row.status = .issued then 1 else 0) ∧
      (row.status = .issued → row.currentBorrowerId = holder) := by
  obtain rfl := Table.key_of_get? found
  have accounted : Accounted tickets tables first final := by
    refine run.always
      ⟨disciplined_start tickets tables processes, [], [], first, none, ?_⟩ ?_
    · exact ⟨by simp [System.start], by simp [System.start], found, .available available, .nil,
        rfl, rfl⟩
    · intro before action after invariant taken
      refine ⟨taken.disciplined invariant.disciplined, ?_⟩
      obtain ⟨id, moves, _⟩ | ⟨isbn, rfl⟩ := taken.moves
      · exact moves.tallied (invariant.disciplined id) (settled id).1 (settled id).2
          invariant.tallied
      · exact invariant.tallied.congr rfl rfl rfl
  obtain ⟨events, records, row, holder, tally⟩ := accounted.tallied
  refine ⟨events, records, row, holder, tally.events_eq, tally.records_eq, tally.row_eq,
    tally.alternates, tally.records_count, tally.borrow_count, ?_, ?_⟩
  · rw [tally.alternates.count]
    simp only [tally.holding.status_iff]
  · intro status
    cases tally.holding with
    | available other | reserved other => simp [status] at other
    | issued _ borrower => exact borrower

/-- A checkout of one copy and its return. -/
def loanAndReturn : Nat → Ticket
  | 0 => ⟨0, .min, .issue
      { copyId := "C1", userId := "U1", transactionId := "TX", eventId := "E1" }⟩
  | _ => ⟨0, .min, .giveBack { copyId := "C1", eventId := "E2" }⟩

theorem run_exactlyOnce_returned_loan :
    ∃ trace final, Run (Step loanAndReturn) smallSystem trace final ∧
      final.tables.events.length = 2 ∧
      ∃ events holder, final.tables.events = [] ++ events ∧
        Alternates (eventsAbout "C1" events) holder := by
  have replayed : (Run.replay (System.exec loanAndReturn) (fun _ _ => true) smallSystem
      (List.replicate 8 (.advance 0) ++ List.replicate 9 (.advance 1))).map
        (fun final => final.tables.events.length) = some 2 := by decide +kernel
  obtain ⟨final, ran, two⟩ := Option.map_eq_some_iff.mp replayed
  obtain ⟨trace, run, _, _⟩ := Run.of_replay ran
  obtain ⟨events, _, _, holder, committed, _, _, alternates, _⟩ :=
    run_exactlyOnce loanAndReturn (fun id => by cases id <;> exact ⟨rfl, rfl⟩) smallLibrary _ run
      "C1" (.new "C1" "B1" "DELHI" "A1-01" 500) (by decide +kernel) rfl
  exact ⟨trace, final, run, two, events, holder, committed, alternates⟩

end LibraFlow.Postgres
