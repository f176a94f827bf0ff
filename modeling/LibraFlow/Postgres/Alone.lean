import LibraFlow.Postgres.LoanOutcomes

/-! A checkout or a return that runs while every other request waits. It ends as the call of
one desk does, and leaves the same tables and the same reservation queues. -/

set_option autoImplicit false

namespace LibraFlow.Postgres

open LibraFlow.Core LibraFlow.Library LibraFlow.Storage LibraFlow.Patterns LibraFlow.Container
  LibraFlow.Services

/-- No other request holds a lock. -/
structure Unhindered (system : System) (id : Nat) : Prop where
  copies : ∀ key, system.copyLocks key = none ∨ system.copyLocks key = some id
  users : ∀ key, system.userLocks key = none ∨ system.userLocks key = some id

/-- The phase in which a request ends. -/
def ended {α : Type} (receipt : α → Receipt) : Except Failure α → Phase
  | .ok value => .done (receipt value)
  | .error failure => .failed failure

/-- The steps of one request lead to this phase, these tables and these queues of its
process. -/
def EndsAs (tickets : Nat → Ticket) (id process : Nat) (system : System) (phase : Phase)
    (tables : Tables) (manager : ReservationManager) : Prop :=
  ∃ final, Run.Only (Step tickets) (.advance id) system final ∧ final.phases id = phase ∧
    final.tables = tables ∧ (final.processes process).reservationMgr = manager

section Steps

variable {tickets : Nat → Ticket} {id process : Nat} {system middle : System} {phase : Phase}
  {tables : Tables} {manager : ReservationManager}

theorem EndsAs.after (ends : EndsAs tickets id process middle phase tables manager)
    (only : Run.Only (Step tickets) (.advance id) system middle) :
    EndsAs tickets id process system phase tables manager := by
  obtain ⟨final, last, reached⟩ := ends
  exact ⟨final, only.trans last, reached⟩

theorem EndsAs.first (ends : EndsAs tickets id process middle phase tables manager)
    (taken : Step tickets system (.advance id) middle) :
    EndsAs tickets id process system phase tables manager :=
  ends.after (.first taken (.refl _ _))

private theorem endsAs_raise {error : Error} (raised : Step tickets system (.advance id)
    (middle.raise id error)) :
    EndsAs tickets id process system (.failed (some error)) middle.tables
      (middle.processes process).reservationMgr :=
  ⟨_, .first raised (.refl _ _), by simp [System.raise, System.close], rfl, rfl⟩

variable {row : BookCopy} {written todo : List Write} {next : Next}

private theorem write_alone {first : Write} (alone : Unhindered system id)
    (writing : system.phases id = .writing row written (first :: todo) next) :
    ∃ after, Step tickets system (.advance id) after ∧ Unhindered after id ∧
      after.phases id = .writing row (written ++ [first]) todo next ∧
      after.tables = system.tables ∧ after.processes = system.processes := by
  cases first with
  | record record =>
      refine ⟨system.enter id (.writing row (written ++ [.record record]) todo next), ?_,
        ⟨alone.copies, alone.users⟩, by simp [System.enter], rfl, rfl⟩
      simp only [Step, System.exec, System.advance, writing, System.write]
  | event event =>
      refine ⟨system.enter id (.writing row (written ++ [.event event]) todo next), ?_,
        ⟨alone.copies, alone.users⟩, by simp [System.enter], rfl, rfl⟩
      simp only [Step, System.exec, System.advance, writing, System.write]
  | copy updated =>
      obtain ⟨locks, acquired, own⟩ := Locks.acquire?_alone alone.copies updated.copyId
      refine ⟨{ system.enter id (.writing row (written ++ [.copy updated]) todo next) with
        copyLocks := locks }, ?_, ⟨own, alone.users⟩, by simp [System.enter], rfl, rfl⟩
      simp only [Step, System.exec, System.advance, writing, System.write, acquired,
        Option.map_some]
  | user model updated =>
      obtain ⟨locks, acquired, own⟩ := Locks.acquire?_alone alone.users updated.userId
      refine ⟨{ system.enter id (.writing row (written ++ [.user model updated]) todo next) with
        userLocks := locks }, ?_, ⟨alone.copies, own⟩, by simp [System.enter], rfl, rfl⟩
      simp only [Step, System.exec, System.advance, writing, System.write, acquired,
        Option.map_some]

private theorem writes_alone (alone : Unhindered system id)
    (writing : system.phases id = .writing row written todo next) :
    ∃ after, Run.Only (Step tickets) (.advance id) system after ∧ Unhindered after id ∧
      after.phases id = .writing row (written ++ todo) [] next ∧
      after.tables = system.tables ∧ after.processes = system.processes := by
  induction todo generalizing system written with
  | nil => exact ⟨system, .refl _ _, alone, by rw [writing, List.append_nil], rfl, rfl⟩
  | cons first rest ih =>
      obtain ⟨middle, step, still, now, tables, processes⟩ :=
        @write_alone tickets id system row written rest next first alone writing
      obtain ⟨after, only, last, ended, same, kept⟩ := ih still now
      exact ⟨after, .first step only, last, by simpa using ended, same.trans tables,
        kept.trans processes⟩

private theorem commits_alone {isbn : String} {receipt : Receipt} (alone : Unhindered system id)
    (writing : system.phases id = .writing row written todo (.invalidate isbn receipt)) :
    EndsAs tickets id process system (.done receipt) (system.tables.commit (written ++ todo))
      (system.processes process).reservationMgr := by
  obtain ⟨middle, only, _, wrote, tables, processes⟩ :=
    @writes_alone tickets id system row written todo _ alone writing
  let cleared := (middle.invalidate isbn).enter id
    (.writing row (written ++ todo) [] (.commit receipt))
  let final : System := { cleared.close id (.done receipt) with
    tables := cleared.tables.commit (written ++ todo) }
  have clearing : Step tickets middle (.advance id) cleared := by
    simp only [Step, System.exec, System.advance, wrote, System.resume]
    rfl
  have writes : cleared.phases id = .writing row (written ++ todo) [] (.commit receipt) := by
    simp [cleared, System.enter]
  have committing : Step tickets cleared (.advance id) final := by
    simp only [Step, System.exec, System.advance, writes, System.resume]
    rfl
  refine ⟨final, only.trans (.first clearing (.first committing (.refl _ _))), ?_, ?_, ?_⟩
  · simp [final, System.close]
  · rw [← tables]
    rfl
  · rw [← processes]
    rfl

/-- Opening the locked section when nobody else holds the row. -/
theorem lockCopy_alone {copyId : String} (alone : Unhindered system id)
    (held : system.tables.copies.get? copyId = some row) :
    ∃ locked, system.lockCopy id copyId = some locked ∧ Unhindered locked id ∧
      locked.phases id = .locked row ∧ locked.tables = system.tables ∧
      locked.processes = system.processes := by
  obtain ⟨locks, acquired, own⟩ := Locks.acquire?_alone alone.copies copyId
  refine ⟨{ system.enter id (.locked row) with copyLocks := locks }, ?_, ⟨own, alone.users⟩,
    by simp [System.enter], rfl, rfl⟩
  simp only [System.lockCopy, acquired, held]

private theorem lockCopy_unknown {copyId : String} (alone : Unhindered system id)
    (absent : system.tables.copies.get? copyId = none) :
    system.lockCopy id copyId = some (system.raise id (.copyNotFound copyId)) := by
  obtain ⟨locks, acquired, _⟩ := Locks.acquire?_alone alone.copies copyId
  simp only [System.lockCopy, acquired, absent]

end Steps

/-- One desk has the tables of the system and the queues of one of its processes. -/
structure DeskOf (station : Station) (system : System) (process : Nat) : Prop where
  tables : station.tables = system.tables
  manager : station.locals.reservationMgr = (system.processes process).reservationMgr

section Issue

variable {tickets : Nat → Ticket} {id process : Nat} {now : Datetime} {system : System}
  {station : Station} {request : IssueRequest}

private theorem issueWrites_granted {model : User} {copy : BookCopy} {record : CirculationRecord}
    {writes : List Write} (checked : issueWrites request now model copy = .ok (record, writes)) :
    (modelToUser model).canBorrow = true ∧
      now.addDays? request.loanDays = some record.dueDate := by
  unfold issueWrites at checked
  split at checked
  · cases checked
  next eligible =>
  split at checked
  · cases checked
  cases accepted : copy.checkOut request.userId with
  | error detail => simp [accepted] at checked
  | ok issued =>
      cases due : now.addDays? request.loanDays with
      | none => simp [accepted, due] at checked
      | some dueDate =>
          simp only [accepted, due] at checked
          cases checked
          exact ⟨by simpa using eligible, rfl⟩

/-- From the locked section on, a checkout that passes its checks commits its writes. -/
private theorem granted_alone {locked : System} {row : BookCopy} {model : User}
    {record : CirculationRecord} {writes : List Write}
    (asked : tickets id = ⟨process, now, .issue request⟩) (alone : Unhindered locked id)
    (phase : locked.phases id = .locked row)
    (known : locked.tables.users.get? request.userId = some model)
    (checked : issueWrites request now model row = .ok (record, writes)) :
    EndsAs tickets id process locked (.done (.issued record)) (locked.tables.commit writes)
      (locked.processes process).reservationMgr := by
  obtain ⟨userLocks, taken, own⟩ := Locks.acquire?_alone alone.users request.userId
  let writing : System := { locked.enter id
    (.writing row [] writes (.invalidate record.isbn (.issued record))) with
    userLocks := userLocks }
  have prepared : Step tickets locked (.advance id) writing := by
    simp only [Step, System.exec, System.advance, phase, asked, System.checkOut, taken, known,
      checked]
    rfl
  have starts : writing.phases id =
      .writing row [] writes (.invalidate record.isbn (.issued record)) := by
    simp [writing, System.enter]
  have commits := @commits_alone tickets id process writing row [] writes record.isbn
    (.issued record) ⟨alone.copies, own⟩ starts
  exact commits.first prepared

/-- A checkout that runs alone ends as the call of one desk. -/
theorem issue_alone (asked : tickets id = ⟨process, now, .issue request⟩)
    (idle : system.phases id = .idle) (alone : Unhindered system id)
    (desk : DeskOf station system process) :
    let call := Station.issuePhysicalBook noFailure request now station
    EndsAs tickets id process system (ended .issued call.1) call.2.tables
      call.2.locals.reservationMgr := by
  obtain ⟨same, manager⟩ := desk
  dsimp only
  cases held : system.tables.copies.get? request.copyId with
  | none =>
      have raised : Step tickets system (.advance id)
          (system.raise id (.copyNotFound request.copyId)) := by
        simp only [Step, System.exec, System.advance, idle, System.begin, asked]
        exact lockCopy_unknown alone held
      have call : Station.issuePhysicalBook noFailure request now station =
          (.error (some (.copyNotFound request.copyId)), station.opened) := by
        rw [← same] at held
        unfold Station.issuePhysicalBook
        rw [Proc.bind_apply, lockingSection_unknown held]
      rw [call]
      dsimp only [Station.opened]
      rw [same, manager]
      exact endsAs_raise raised
  | some row =>
      obtain ⟨locked, opens, still, phase, tables, processes⟩ := lockCopy_alone alone held
      have opened : Step tickets system (.advance id) locked := by
        simp only [Step, System.exec, System.advance, idle, System.begin, asked]
        exact opens
      have copy : station.tables.copies.get? request.copyId = some row := by rw [same, held]
      obtain ⟨userLocks, taken, own⟩ := Locks.acquire?_alone still.users request.userId
      -- the session finds nobody, or a check fails: both roll back
      have refused : ∀ error session,
          Step tickets locked (.advance id) (locked.raise id error) →
          issueWritten noFailure request now station.opened =
            (.error (some error), { station.opened with session := session }) →
          EndsAs tickets id process system
            (ended .issued (Station.issuePhysicalBook noFailure request now station).1)
            (Station.issuePhysicalBook noFailure request now station).2.tables
            (Station.issuePhysicalBook noFailure request now station).2.locals.reservationMgr := by
        intro error session raised written
        rw [issue_refused copy written]
        dsimp only [Station.opened]
        rw [same, manager, ← tables, ← processes]
        exact (endsAs_raise raised).first opened
      cases known : system.tables.users.get? request.userId with
      | none =>
          apply refused (.userNotFound request.userId) .empty
          · simp only [Step, System.exec, System.advance, phase, asked, System.checkOut, taken,
              tables, known]
          · apply issueWritten_unknown
            change station.tables.users.get? request.userId = none
            rw [same, known]
      | some model =>
          have stored : station.tables.users.get? request.userId = some model := by
            rw [same, known]
          cases checked : issueWrites request now model row with
          | error error =>
              obtain ⟨session, written⟩ := @issueWritten_refused request now station.opened model
                row error rfl stored copy checked
              apply refused error session ?_ written
              simp only [Step, System.exec, System.advance, phase, asked, System.checkOut, taken,
                tables, known, checked]
          | ok result =>
              obtain ⟨record, writes⟩ := result
              rw [← tables] at known
              have commits := @granted_alone tickets id process now request locked row model record
                writes asked still phase known checked
              obtain ⟨eligible, due⟩ := issueWrites_granted checked
              obtain ⟨allowed, issued, dueDate, accepted, rfl, rfl⟩ := issueWrites_ok checked
              obtain ⟨after, call, rows, locals⟩ :=
                issue_onDatabase eligible allowed accepted due stored copy
              rw [call]
              dsimp only
              rw [rows, locals, same]
              have queues : (tellLoan request now dueDate issued station.locals).reservationMgr =
                  (locked.processes process).reservationMgr :=
                manager.trans (congrArg (fun processes : Nat → Process =>
                  (processes process).reservationMgr) processes.symm)
              rw [queues, ← tables]
              exact commits.first opened

end Issue

section Return

variable {tickets : Nat → Ticket} {id process : Nat} {now : Datetime} {system : System}
  {station : Station} {request : ReturnRequest} {row returned : BookCopy} {written : List Write}
  {borrowerId : String} {manager : ReservationManager}

private theorem returnWritten_notLent (held : station.pending.copies.get? request.copyId = some row)
    (nobody : truthy row.currentBorrowerId = false) :
    returnWritten noFailure request now station =
      (.error (some (.invalidStateTransition
        ("Copy '" ++ request.copyId ++ "' is not currently issued to any user."))), station) := by
  unfold returnWritten
  simp only [Proc.read_bind_apply, held, Proc.expect_some_bind_apply, nobody,
    Proc.check_false_bind_apply]

private theorem returnWritten_refused {detail : String} (clean : station.dirty = false)
    (held : station.pending.copies.get? request.copyId = some row)
    (named : truthy row.currentBorrowerId = true) (refused : row.returnBook = .error detail) :
    ∃ saved, returnWritten noFailure request now station =
        (.error (some (.valueError detail)), saved) ∧ saved.tables = station.tables ∧
      saved.locals = station.locals := by
  obtain ⟨saved, objects, runs, tables, locals, _⟩ := @saveReturned_bind request now
    (row.currentBorrowerId.getD "") station _ clean rfl
  refine ⟨saved, ?_, tables, locals⟩
  unfold returnWritten
  simp only [Proc.read_bind_apply, held, Proc.expect_some_bind_apply, named,
    Proc.check_true_bind_apply]
  rw [runs, refused, Proc.lift_error_bind_apply]

private theorem shelved_of_returnBook (accepted : row.returnBook = .ok returned) :
    returned.status = .available := by
  rcases BookCopy.returnBook_ok accepted with ⟨_, rfl⟩ | ⟨_, rfl⟩ <;> rfl

private theorem offerFails_alone {error : Error}
    (asked : tickets id = ⟨process, now, .giveBack request⟩) (alone : Unhindered system id)
    (writing : system.phases id = .writing row written [.copy returned]
      (.offer borrowerId returned))
    (offered : (system.processes process).reservationMgr.handleCopyReturned returned.bookIsbn
      request.copyId now = (.error error, manager)) :
    EndsAs tickets id process system (.failed (some error)) system.tables manager := by
  obtain ⟨middle, only, _, wrote, tables, processes⟩ :=
    @writes_alone tickets id system row written _ _ alone writing
  let told := middle.inProcess process fun process => { process with reservationMgr := manager }
  have raised : Step tickets middle (.advance id) (told.raise id error) := by
    simp only [Step, System.exec, System.advance, wrote, System.resume, asked, System.offer,
      processes, offered]
    rfl
  have ends := @endsAs_raise tickets id process middle told error raised
  have queues : (told.processes process).reservationMgr = manager := by
    simp [told, System.inProcess]
  rw [queues, show told.tables = system.tables from tables] at ends
  exact ends.after only

private theorem offerSettles_alone {assigned : Option ReservationEntry}
    (asked : tickets id = ⟨process, now, .giveBack request⟩) (alone : Unhindered system id)
    (writing : system.phases id = .writing row written [.copy returned]
      (.offer borrowerId returned)) (shelved : returned.status = .available)
    (offered : (system.processes process).reservationMgr.handleCopyReturned returned.bookIsbn
      request.copyId now = (.ok assigned, manager)) :
    EndsAs tickets id process system
      (.done (.returned (receiptFor request borrowerId (settled returned assigned) assigned)))
      (system.tables.commit (written ++ .copy returned ::
        ((assigned.map fun _ => .copy (settled returned assigned)).toList ++
          [.event (returnEvent request now borrowerId (settled returned assigned) assigned)])))
      manager := by
  obtain ⟨middle, only, free, wrote, tables, processes⟩ :=
    @writes_alone tickets id system row written _ _ alone writing
  let todo : List Write := (assigned.map fun _ => .copy (settled returned assigned)).toList ++
    [.event (returnEvent request now borrowerId (settled returned assigned) assigned)]
  let settling := (middle.inProcess process fun process =>
    { process with reservationMgr := manager }).enter id
      (.writing row (written ++ [.copy returned]) todo (.invalidate returned.bookIsbn
        (.returned (receiptFor request borrowerId (settled returned assigned) assigned))))
  have settles : Step tickets middle (.advance id) settling := by
    cases assigned with
    | none =>
        simp only [Step, System.exec, System.advance, wrote, System.resume, asked, System.offer,
          processes, offered]
        rfl
    | some entry =>
        have held : returned.reserve entry.userId = .ok (settled returned (some entry)) := by
          simp [BookCopy.reserve, shelved, settled]
        simp only [Step, System.exec, System.advance, wrote, System.resume, asked, System.offer,
          processes, offered, held]
        rfl
  have commits := @commits_alone tickets id process settling row (written ++ [.copy returned]) todo
    returned.bookIsbn
    (.returned (receiptFor request borrowerId (settled returned assigned) assigned))
    ⟨free.copies, free.users⟩ (by simp [settling, System.enter])
  have queues : (settling.processes process).reservationMgr = manager := by
    simp [settling, System.enter, System.inProcess]
  rw [queues, List.append_assoc, show settling.tables = system.tables from tables] at commits
  exact (commits.first settles).after only

private theorem borrowerOf_truthy (named : truthy row.currentBorrowerId = true) :
    row.currentBorrowerId = some (row.currentBorrowerId.getD "") := by
  cases borrower : row.currentBorrowerId with
  | none => simp [borrower] at named
  | some userId => rfl

private theorem returnSection_offerFails {error : Error} {next : Station}
    (saved : returnWritten noFailure request now station = (.ok (borrowerId, returned), next))
    (offered : next.locals.reservationMgr.handleCopyReturned returned.bookIsbn request.copyId now =
      (.error error, manager)) :
    returnSection noFailure request now station =
      (.error (some error), next.inLocals fun locals =>
        { locals with reservationMgr := manager }) := by
  unfold returnSection
  rw [Proc.bind_apply, saved]
  dsimp only
  rw [Proc.bind_apply, offerLocally, offered]

/-- The rest of a return once the copy is known to be lent. -/
theorem lent_alone {closed : System}
    (asked : tickets id = ⟨process, now, .giveBack request⟩) (alone : Unhindered closed id)
    (wrote : closed.phases id = .writing row
      (closingWrites request now (station.tables.users.get? (row.currentBorrowerId.getD ""))) []
        (.returnBook (row.currentBorrowerId.getD "")))
    (desk : DeskOf station closed process)
    (held : station.tables.copies.get? request.copyId = some row)
    (named : truthy row.currentBorrowerId = true) :
    let call := Station.returnPhysicalBook noFailure request now station
    EndsAs tickets id process closed (ended .returned call.1) call.2.tables
      call.2.locals.reservationMgr := by
  obtain ⟨same, manager⟩ := desk
  dsimp only
  cases accepted : row.returnBook with
  | error detail =>
      have raised : Step tickets closed (.advance id) (closed.raise id (.valueError detail)) := by
        simp only [Step, System.exec, System.advance, wrote, System.resume, accepted]
      obtain ⟨saved, ran, tables, locals⟩ := @returnWritten_refused now station.opened request row
        detail rfl held named accepted
      have failing : returnSection noFailure request now station.opened =
          (.error (some (.valueError detail)), saved) := by
        rw [returnSection, Proc.bind_apply, ran]
      rw [Station.returnPhysicalBook, lockingSection_rollsBack held failing]
      dsimp only [Station.opened] at tables locals ⊢
      rw [tables, locals, same, manager]
      exact endsAs_raise raised
  | ok returned =>
      let borrowerId := row.currentBorrowerId.getD ""
      let found := station.tables.users.get? borrowerId
      let returning := closed.enter id (.writing row (closingWrites request now found)
        [.copy returned] (.offer borrowerId returned))
      have step : Step tickets closed (.advance id) returning := by
        simp only [Step, System.exec, System.advance, wrote, System.resume, accepted]
        rfl
      have free : Unhindered returning id := ⟨alone.copies, alone.users⟩
      have writing : returning.phases id = .writing row (closingWrites request now found)
          [.copy returned] (.offer borrowerId returned) := by
        simp [returning, System.enter]
      have borrower := borrowerOf_truthy named
      rcases answer : (closed.processes process).reservationMgr.handleCopyReturned
        returned.bookIsbn request.copyId now with ⟨outcome, queues⟩
      have offered : station.locals.reservationMgr.handleCopyReturned returned.bookIsbn
          request.copyId now = (outcome, queues) := manager ▸ answer
      cases outcome with
      | error error =>
          obtain ⟨objects, saved⟩ := @returnWritten_runs request now borrowerId returned
            station.opened found row rfl held borrower named rfl accepted
          rw [Station.returnPhysicalBook,
            lockingSection_rollsBack held (returnSection_offerFails saved offered)]
          have ends := offerFails_alone asked free writing answer
          rw [show returning.tables = station.tables from same.symm] at ends
          exact ends.first step
      | ok assigned =>
          obtain ⟨after, call, rows, locals⟩ := @return_onDatabase request now borrowerId returned
            station found row assigned queues held borrower named rfl accepted
            (shelved_of_returnBook accepted) offered
          have ends := offerSettles_alone asked free writing (shelved_of_returnBook accepted) answer
          rw [show returning.tables = station.tables from same.symm] at ends
          rw [call]
          dsimp only
          rw [rows, locals]
          have kept : (tellReturn request now borrowerId returned.bookIsbn assigned queues
              station.locals).reservationMgr = queues := by
            cases assigned <;> rfl
          rw [kept]
          exact ends.first step

/-- A return that runs alone ends as the call of one desk. -/
theorem return_alone (asked : tickets id = ⟨process, now, .giveBack request⟩)
    (idle : system.phases id = .idle) (alone : Unhindered system id)
    (desk : DeskOf station system process) :
    let call := Station.returnPhysicalBook noFailure request now station
    EndsAs tickets id process system (ended .returned call.1) call.2.tables
      call.2.locals.reservationMgr := by
  obtain ⟨same, manager⟩ := desk
  dsimp only
  cases held : system.tables.copies.get? request.copyId with
  | none =>
      have raised : Step tickets system (.advance id)
          (system.raise id (.copyNotFound request.copyId)) := by
        simp only [Step, System.exec, System.advance, idle, System.begin, asked]
        exact lockCopy_unknown alone held
      rw [Station.returnPhysicalBook, lockingSection_unknown (same ▸ held)]
      dsimp only [Station.opened]
      rw [same, manager]
      exact endsAs_raise raised
  | some row =>
      obtain ⟨locked, opens, still, phase, tables, processes⟩ := lockCopy_alone alone held
      have opened : Step tickets system (.advance id) locked := by
        simp only [Step, System.exec, System.advance, idle, System.begin, asked]
        exact opens
      have copy : station.tables.copies.get? request.copyId = some row := by rw [same, held]
      cases named : truthy row.currentBorrowerId with
      | false =>
          have raised : Step tickets locked (.advance id) (locked.raise id
              (.invalidStateTransition ("Copy '" ++ request.copyId ++
                "' is not currently issued to any user."))) := by
            simp only [Step, System.exec, System.advance, phase, asked, System.beginReturn, named,
              Bool.false_eq_true, ↓reduceIte]
          have ran : returnSection noFailure request now station.opened =
              (.error (some (.invalidStateTransition ("Copy '" ++ request.copyId ++
                "' is not currently issued to any user."))), station.opened) := by
            rw [returnSection, Proc.bind_apply, returnWritten_notLent copy named]
          rw [Station.returnPhysicalBook, lockingSection_rollsBack copy ran]
          dsimp only [Station.opened]
          rw [same, manager, ← tables, ← processes]
          exact (endsAs_raise raised).first opened
      | true =>
          let borrowerId := row.currentBorrowerId.getD ""
          let writes := closingWrites request now (station.tables.users.get? borrowerId)
          let closing := locked.enter id (.writing row [] writes (.returnBook borrowerId))
          have begun : Step tickets locked (.advance id) closing := by
            simp only [Step, System.exec, System.advance, phase, asked, System.beginReturn, named,
              ↓reduceIte, tables, ← same]
            rfl
          have starts : closing.phases id =
              .writing row [] writes (.returnBook borrowerId) := by
            simp [closing, System.enter]
          obtain ⟨closed, closes, free, wrote, rows, kept⟩ :=
            @writes_alone tickets id closing row [] _ _ ⟨still.copies, still.users⟩ starts
          have desk : DeskOf station closed process := by
            constructor
            · rw [rows, same]
              exact tables.symm
            · rw [kept, manager, ← processes]
              rfl
          exact (((lent_alone asked free wrote desk copy named).after closes).first begun).first
            opened

end Return

end LibraFlow.Postgres
