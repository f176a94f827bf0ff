import LibraFlow.Postgres.Moves

/-! The lock discipline. A locked section owns the row of its copy from the first
read to the commit, so the row it works on is the committed one all the time;
what one request does never touches a row that another request has locked. -/

set_option autoImplicit false

namespace LibraFlow.Postgres

open LibraFlow.Core LibraFlow.Library LibraFlow.Storage LibraFlow.Patterns LibraFlow.Container
  LibraFlow.Services

theorem issueWrites_ok {request : IssueRequest} {now : Datetime} {model : User} {copy : BookCopy}
    {record : CirculationRecord} {writes : List Write}
    (checked : issueWrites request now model copy = .ok (record, writes)) :
    mayTake copy request.userId = true ∧ ∃ issued dueDate,
      copy.checkOut request.userId = .ok issued ∧
      record = ⟨request.transactionId, request.copyId, issued.bookIsbn, request.userId, now,
        dueDate⟩ ∧
      writes = [
        .record record,
        .copy issued,
        .user model ((modelToUser model).addBorrow request.copyId issued.bookIsbn now),
        .event (Outbox.newEvent request.eventId "copy.issued" (.issued request.copyId
          issued.bookIsbn request.userId dueDate request.transactionId) now)] := by
  unfold issueWrites at checked
  generalize now.addDays? request.loanDays = due at checked
  split at checked
  · cases checked
  · split at checked
    · cases checked
    · next allowed =>
        cases accepted : copy.checkOut request.userId with
        | error detail => simp [accepted] at checked
        | ok issued =>
            cases due with
            | none => simp [accepted] at checked
            | some dueDate =>
                simp only [accepted, Except.ok.injEq, Prod.mk.injEq] at checked
                obtain ⟨rfl, rfl⟩ := checked
                exact ⟨by simpa using allowed, issued, dueDate, rfl, rfl, rfl⟩

/-- The writes of a locked section up to a point, those still to be made included. -/
inductive Planned (ticket : Ticket) (row : BookCopy) : List Write → Next → Prop where
  | issuing {request : IssueRequest} {model : User} {record : CirculationRecord}
      {writes : List Write} {next : Next} (asked : ticket.request = .issue request)
      (named : model.userId = request.userId)
      (checked : issueWrites request ticket.now model row = .ok (record, writes))
      (ending : next = .invalidate record.isbn (.issued record) ∨ next = .commit (.issued record)) :
      Planned ticket row writes next
  | closing {request : ReturnRequest} {found : Option User} {borrowerId : String}
      (asked : ticket.request = .giveBack request)
      (borrower : row.currentBorrowerId = some borrowerId)
      (named : ∀ model, found = some model → model.userId = borrowerId) :
      Planned ticket row (closingWrites request ticket.now found) (.returnBook borrowerId)
  | returned {request : ReturnRequest} {found : Option User} {borrowerId : String}
      {returned : BookCopy} (asked : ticket.request = .giveBack request)
      (borrower : row.currentBorrowerId = some borrowerId)
      (named : ∀ model, found = some model → model.userId = borrowerId)
      (gaveBack : row.returnBook = .ok returned) :
      Planned ticket row (closingWrites request ticket.now found ++ [.copy returned])
        (.offer borrowerId returned)
  | finished {request : ReturnRequest} {found : Option User} {borrowerId : String}
      {returned final : BookCopy} {holds : List Write} {assigned : Option ReservationEntry}
      {next : Next} (asked : ticket.request = .giveBack request)
      (borrower : row.currentBorrowerId = some borrowerId)
      (named : ∀ model, found = some model → model.userId = borrowerId)
      (gaveBack : row.returnBook = .ok returned) (held : Held returned assigned final holds)
      (ending : next = .invalidate final.bookIsbn
          (returnReceipt request borrowerId final assigned) ∨
        next = .commit (returnReceipt request borrowerId final assigned)) :
      Planned ticket row (closingWrites request ticket.now found ++ [.copy returned] ++
        (holds ++ [.event (returnEvent request ticket.now borrowerId final assigned)])) next

/-- A locked section owns the row of its copy, and the row is as it was read. -/
structure Owns (ticket : Ticket) (system : System) (id : Nat) (row : BookCopy) : Prop where
  asked : ticket.request.lockedCopy? = some row.copyId
  held : system.copyLocks row.copyId = some id
  current : system.tables.copies.get? row.copyId = some row

/-- A transaction in progress. A checkout owns the borrower's row as well, from
the read on; a return locks the borrower's row only when it writes it. -/
structure InTransaction (ticket : Ticket) (system : System) (id : Nat) (row : BookCopy)
    (written todo : List Write) (next : Next) : Prop where
  owns : Owns ticket system id row
  planned : Planned ticket row (written ++ todo) next
  locked : ∀ model updated, Write.user model updated ∈ written →
    system.userLocks updated.userId = some id
  borrower : ∀ request, ticket.request = .issue request → ∀ model updated,
    Write.user model updated ∈ written ++ todo →
      system.userLocks updated.userId = some id ∧
      system.tables.users.get? updated.userId = some model

/-- What holds of a request in a given phase. -/
def Stands (ticket : Ticket) (system : System) (id : Nat) : Phase → Prop
  | .locked row => Owns ticket system id row
  | .writing row written todo next => InTransaction ticket system id row written todo next
  | .merging copy written _ => ticket.request.stocks? = some copy.copyId ∧
      ∀ row ∈ written, system.copyLocks row.copyId = some id
  | phase => Prepared ticket.request phase

def Disciplined (tickets : Nat → Ticket) (system : System) : Prop :=
  ∀ id, Stands (tickets id) system id (system.phases id)

/-- What a step of one request leaves to the others: their phases, their locks
and the rows they have locked. -/
structure Frame (before after : System) (id : Nat) : Prop where
  phases : ∀ other, other ≠ id → after.phases other = before.phases other
  copies : ∀ other key, other ≠ id → before.copyLocks key = some other →
    after.copyLocks key = some other ∧
    after.tables.copies.get? key = before.tables.copies.get? key
  users : ∀ other key, other ≠ id → before.userLocks key = some other →
    after.userLocks key = some other ∧
    after.tables.users.get? key = before.tables.users.get? key

section Commit

variable {tables : Tables} {writes : List Write} {key : String}

private theorem commit_copies_of_ne (others : ∀ row, Write.copy row ∈ writes → row.copyId ≠ key) :
    (tables.commit writes).copies.get? key = tables.copies.get? key := by
  induction writes generalizing tables with
  | nil => rfl
  | cons first rest ih =>
      have later : ((tables.apply first).commit rest).copies.get? key = _ :=
        ih fun row member => others row (List.mem_cons_of_mem _ member)
      refine later.trans ?_
      cases first with
      | record | user | event => rfl
      | copy row => exact Table.get?_merge_of_ne _ (others row List.mem_cons_self)

theorem commit_users_of_ne
    (others : ∀ model row, Write.user model row ∈ writes → row.userId ≠ key) :
    (tables.commit writes).users.get? key = tables.users.get? key := by
  induction writes generalizing tables with
  | nil => rfl
  | cons first rest ih =>
      have later : ((tables.apply first).commit rest).users.get? key = _ :=
        ih fun model row member => others model row (List.mem_cons_of_mem _ member)
      refine later.trans ?_
      cases first with
      | record | copy | event => rfl
      | user model row => exact Table.get?_merge_of_ne _ (others model row List.mem_cons_self)

end Commit

theorem mem_closingWrites {request : ReturnRequest} {now : Datetime} {found : Option User}
    {write : Write} (member : write ∈ closingWrites request now found) :
    ∃ model, found = some model ∧ write = .user model ((modelToUser model).recordReturn
      request.copyId request.isLate request.isDamaged now) := by
  cases found with
  | none => cases member
  | some model => exact ⟨model, rfl, List.mem_singleton.mp member⟩

theorem Held.sameCopy {returned final row : BookCopy} {holds : List Write}
    {assigned : Option ReservationEntry} (held : Held returned assigned final holds)
    (member : Write.copy row ∈ holds) : BookCopy.SameCopy returned row := by
  cases held with
  | shelved => cases member
  | reserved entry accepted =>
      cases List.mem_singleton.mp member
      exact BookCopy.sameCopy_reserve accepted

/-- A transaction writes no other copy than the one it has locked. -/
theorem Planned.sameCopy {ticket : Ticket} {row updated : BookCopy} {writes : List Write}
    {next : Next} (planned : Planned ticket row writes next)
    (member : Write.copy updated ∈ writes) : BookCopy.SameCopy row updated := by
  cases planned with
  | issuing _ _ checked _ =>
      obtain ⟨_, issued, dueDate, accepted, _, rfl⟩ := issueWrites_ok checked
      simp only [List.mem_cons, reduceCtorEq, Write.copy.injEq, List.not_mem_nil, or_false,
        false_or] at member
      subst updated
      exact BookCopy.sameCopy_checkOut accepted
  | closing =>
      obtain ⟨_, _, impossible⟩ := mem_closingWrites member
      cases impossible
  | returned _ _ _ gaveBack =>
      obtain earlier | last := List.mem_append.mp member
      · obtain ⟨_, _, impossible⟩ := mem_closingWrites earlier
        cases impossible
      · cases List.mem_singleton.mp last
        exact BookCopy.sameCopy_returnBook gaveBack
  | finished _ _ _ gaveBack held _ =>
      have same := BookCopy.sameCopy_returnBook gaveBack
      obtain first | rest := List.mem_append.mp member
      · obtain earlier | last := List.mem_append.mp first
        · obtain ⟨_, _, impossible⟩ := mem_closingWrites earlier
          cases impossible
        · cases List.mem_singleton.mp last
          exact same
      · obtain holding | event := List.mem_append.mp rest
        · exact same.trans (held.sameCopy holding)
        · cases List.mem_singleton.mp event

theorem Planned.copyId {ticket : Ticket} {row updated : BookCopy} {writes : List Write}
    {next : Next} (planned : Planned ticket row writes next)
    (member : Write.copy updated ∈ writes) : updated.copyId = row.copyId :=
  (planned.sameCopy member).copyId

section Discipline

variable {ticket : Ticket} {before after : System} {id : Nat}

/-- A commit changes no row that another request has locked. -/
theorem frame_commit {row : BookCopy} {written todo : List Write} {next : Next}
    (inside : InTransaction ticket before id row written todo next) (phase : Phase) :
    Frame before { before.close id phase with tables := before.tables.commit written } id := by
  refine ⟨fun _ different => Function.update_of_ne different _ _, ?_, ?_⟩
  · intro other key different held
    refine ⟨(Locks.release_other different).mpr held, commit_copies_of_ne ?_⟩
    intro updated member same
    have owned := inside.owns.held
    rw [← inside.planned.copyId (List.mem_append_left _ member), same, held] at owned
    cases owned
    exact different rfl
  · intro other key different held
    refine ⟨(Locks.release_other different).mpr held, commit_users_of_ne ?_⟩
    intro model updated member same
    have owned := inside.locked model updated member
    rw [same, held] at owned
    cases owned
    exact different rfl

private theorem frame_commitTitle {copy : BookCopy} {written : List BookCopy}
    (locked : ∀ row ∈ written, before.copyLocks row.copyId = some id) :
    Frame before (before.commitTitle id copy written) id := by
  refine ⟨fun _ different => Function.update_of_ne different _ _, ?_, ?_⟩
  · intro other key different held
    refine ⟨(Locks.release_other different).mpr held, commit_copies_of_ne ?_⟩
    intro updated member same
    obtain ⟨row, present, equal⟩ := List.mem_map.mp member
    cases equal
    have owned := locked updated present
    rw [same, held] at owned
    cases owned
    exact different rfl
  · intro other key different held
    refine ⟨(Locks.release_other different).mpr held, commit_users_of_ne ?_⟩
    intro model updated member
    obtain ⟨_, _, equal⟩ := List.mem_map.mp member
    cases equal

/-- A step that neither commits nor stores a row, by the locks it leaves. -/
theorem frame_private {locked : System} (phases : ∀ other, other ≠ id →
      locked.phases other = before.phases other) (tables : locked.tables = before.tables)
    (copyLocks : ∀ other key, other ≠ id → before.copyLocks key = some other →
      locked.copyLocks key = some other)
    (userLocks : ∀ other key, other ≠ id → before.userLocks key = some other →
      locked.userLocks key = some other) : Frame before locked id := by
  refine ⟨phases, ?_, ?_⟩
  · intro other key different held
    exact ⟨copyLocks other key different held, by rw [tables]⟩
  · intro other key different held
    exact ⟨userLocks other key different held, by rw [tables]⟩

private theorem frame_invalidate (isbn : String) (id : Nat) :
    Frame before (before.invalidate isbn) id :=
  frame_private (fun _ _ => rfl) rfl (fun _ _ _ held => held) fun _ _ _ held => held

/-- A row stored without a session had no owner. -/
theorem frame_store {phase : Phase} {row : BookCopy} (free : before.copyLocks row.copyId = none) :
    Frame before { before.enter id phase with
      tables := { before.tables with copies := before.tables.copies.merge row } } id := by
  refine ⟨fun _ different => Function.update_of_ne different _ _, ?_, fun _ _ _ held =>
    ⟨held, rfl⟩⟩
  intro other key different held
  refine ⟨held, Table.get?_merge_of_ne _ ?_⟩
  intro same
  rw [same, held] at free
  cases free

theorem Moves.frame (moves : Moves ticket before id after)
    (stands : Stands ticket before id (before.phases id)) : Frame before after id := by
  have entered : ∀ (phase : Phase) (other : Nat), other ≠ id →
      Function.update before.phases id phase other = before.phases other :=
    fun phase _ different => Function.update_of_ne different phase before.phases
  cases moves with
  | lockedCopy _ _ acquired _ =>
      exact frame_private (entered _) rfl
        (fun _ _ different => (Locks.acquire?_other acquired different).mpr) fun _ _ _ held => held
  | checkedOut _ _ acquired _ _ =>
      exact frame_private (entered _) rfl (fun _ _ _ held => held)
        fun _ _ different => (Locks.acquire?_other acquired different).mpr
  | updatedCopy _ acquired =>
      exact frame_private (entered _) rfl
        (fun _ _ different => (Locks.acquire?_other acquired different).mpr) fun _ _ _ held => held
  | updatedUser _ acquired =>
      exact frame_private (entered _) rfl (fun _ _ _ held => held)
        fun _ _ different => (Locks.acquire?_other acquired different).mpr
  | mergedCopy _ acquired =>
      exact frame_private (entered _) rfl
        (fun _ _ different => (Locks.acquire?_other acquired different).mpr) fun _ _ _ held => held
  | beganReturn | inserted | returned | offered | invalidated | cleared | readDetails
  | storedDetails | proceeded =>
      exact frame_private (entered _) rfl (fun _ _ _ held => held) fun _ _ _ held => held
  | aborted =>
      exact frame_private (entered _) rfl
        (fun _ _ different => (Locks.release_other different).mpr)
        fun _ _ different => (Locks.release_other different).mpr
  | committed phase =>
      rw [phase] at stands
      exact frame_commit stands _
  | committedTitle phase =>
      rw [phase] at stands
      exact frame_commitTitle stands.2
  | storedCopy _ free => exact frame_store free
  | storedNew _ free => exact frame_store free
  | storedUser _ free =>
      refine ⟨entered _, fun _ _ _ held => ⟨held, rfl⟩, ?_⟩
      intro other key different held
      refine ⟨held, Table.get?_merge_of_ne _ ?_⟩
      intro same
      rw [same, held] at free
      cases free

theorem Stands.prepared {phase : Phase} (stands : Stands ticket before id phase)
    (outside : phase.Outside) : Prepared ticket.request phase := by
  cases phase with
  | locked | writing | merging | done => exact outside.elim
  | idle | projected | paying | processing | storingUser | planning | departing | arriving
  | storingCopy | stocking | stocked | missed | computed | failed => exact stands

/-- A step of another request changes nothing for this one. -/
theorem Stands.frame {other : Nat} {phase : Phase} (frame : Frame before after other)
    (different : id ≠ other) (stands : Stands ticket before id phase) :
    Stands ticket after id phase := by
  have kept : ∀ row, Owns ticket before id row → Owns ticket after id row := by
    intro row owns
    obtain ⟨held, same⟩ := frame.copies id row.copyId different owns.held
    exact ⟨owns.asked, held, same.trans owns.current⟩
  cases phase with
  | locked row => exact kept row stands
  | writing row written todo next =>
      refine ⟨kept row stands.owns, stands.planned, ?_, ?_⟩
      · intro model updated member
        exact (frame.users id updated.userId different (stands.locked model updated member)).1
      · intro request asked model updated member
        obtain ⟨held, current⟩ := stands.borrower request asked model updated member
        obtain ⟨stillHeld, same⟩ := frame.users id updated.userId different held
        exact ⟨stillHeld, same.trans current⟩
  | merging copy written todo =>
      refine ⟨stands.1, ?_⟩
      intro row member
      exact (frame.copies id row.copyId different (stands.2 row member)).1
  | idle | projected | paying | processing | storingUser | planning | departing | arriving
  | storingCopy | stocking | stocked | missed | computed | done | failed => exact stands

/-- Making one of the planned writes, with the locks that takes. -/
theorem InTransaction.write {row : BookCopy} {written todo : List Write} {next : Next}
    {first : Write} {copyLocks userLocks : Locks String}
    (inside : InTransaction ticket before id row written (first :: todo) next)
    (copiesKept : before.copyLocks row.copyId = some id → copyLocks row.copyId = some id)
    (usersKept : ∀ key, before.userLocks key = some id → userLocks key = some id)
    (locks : ∀ model updated, first = .user model updated →
      userLocks updated.userId = some id) :
    InTransaction ticket { before.enter id (.writing row (written ++ [first]) todo next) with
      copyLocks := copyLocks, userLocks := userLocks } id row (written ++ [first]) todo next := by
  have same : written ++ [first] ++ todo = written ++ first :: todo := by simp
  refine ⟨⟨inside.owns.asked, copiesKept inside.owns.held, inside.owns.current⟩, ?_, ?_, ?_⟩
  · rw [same]
    exact inside.planned
  · intro model updated member
    obtain earlier | last := List.mem_append.mp member
    · exact usersKept _ (inside.locked model updated earlier)
    · exact locks model updated (List.mem_singleton.mp last).symm
  · intro request asked model updated member
    rw [same] at member
    obtain ⟨held, current⟩ := inside.borrower request asked model updated member
    exact ⟨usersKept _ held, current⟩

/-- A return goes on with further writes. -/
theorem InTransaction.extend {request : ReturnRequest} {row : BookCopy}
    {written todo : List Write} {next following : Next} {cache : String → Option Book.Details}
    {processes : Nat → Process} {phases : Nat → Phase}
    (inside : InTransaction ticket before id row written [] next)
    (asked : ticket.request = .giveBack request)
    (planned : Planned ticket row (written ++ todo) following) :
    InTransaction ticket { before with cache, processes, phases } id row written todo following := by
  refine ⟨⟨inside.owns.asked, inside.owns.held, inside.owns.current⟩, planned, inside.locked, ?_⟩
  intro issue impossible
  rw [asked] at impossible
  cases impossible

theorem Moves.stands (moves : Moves ticket before id after)
    (stands : Stands ticket before id (before.phases id)) :
    Stands ticket after id (after.phases id) := by
  have entered : ∀ phase, Function.update before.phases id phase id = phase :=
    fun phase => Function.update_self id phase before.phases
  cases moves with
  | lockedCopy phase asked acquired found =>
      simp only [System.enter, entered]
      have same := Table.key_of_get? found
      subst same
      exact ⟨asked, Locks.acquire?_self acquired, found⟩
  | @checkedOut request row model record writes userLocks phase asked acquired found checked =>
      simp only [System.enter, entered]
      rw [phase] at stands
      have named := Table.key_of_get? found
      refine ⟨⟨stands.asked, stands.held, stands.current⟩,
        .issuing asked named checked (.inl rfl), by simp, ?_⟩
      intro _ _ other updated member
      obtain ⟨_, issued, dueDate, _, _, rfl⟩ := issueWrites_ok checked
      simp only [List.nil_append, List.mem_cons, reduceCtorEq, Write.user.injEq,
        List.not_mem_nil, or_false, false_or] at member
      obtain ⟨rfl, rfl⟩ := member
      have key : ((modelToUser other).addBorrow request.copyId issued.bookIsbn
        ticket.now).userId = request.userId := named
      rw [key]
      exact ⟨Locks.acquire?_self acquired, found⟩
  | beganReturn phase asked borrower =>
      simp only [System.enter, entered]
      rw [phase] at stands
      refine ⟨⟨stands.asked, stands.held, stands.current⟩,
        .closing asked borrower (fun _ found => Table.key_of_get? found), by simp, ?_⟩
      intro request impossible
      rw [asked] at impossible
      cases impossible
  | inserted phase inserts =>
      simp only [System.enter, entered]
      rw [phase] at stands
      refine stands.write (fun held => held) (fun _ held => held) ?_
      rintro model updated rfl
      cases inserts
  | updatedCopy phase acquired =>
      simp only [System.enter, entered]
      rw [phase] at stands
      refine stands.write (Locks.acquire?_keeps acquired) (fun _ held => held) ?_
      intro model updated impossible
      cases impossible
  | updatedUser phase acquired =>
      simp only [System.enter, entered]
      rw [phase] at stands
      refine stands.write (fun held => held) (fun _ => Locks.acquire?_keeps acquired) ?_
      intro model updated same
      cases same
      exact Locks.acquire?_self acquired
  | @returned row returned written borrowerId phase gaveBack =>
      simp only [System.enter, entered]
      rw [phase] at stands
      have planned := stands.planned
      rw [List.append_nil] at planned
      cases planned with
      | issuing _ _ _ ending => simp at ending
      | finished _ _ _ _ _ ending => simp at ending
      | closing asked borrower named =>
          exact stands.extend asked (.returned asked borrower named gaveBack)
  | offered phase asked held =>
      simp only [System.enter, entered]
      rw [phase] at stands
      have planned := stands.planned
      rw [List.append_nil] at planned
      cases planned with
      | issuing _ _ _ ending => simp at ending
      | finished _ _ _ _ _ ending => simp at ending
      | returned again borrower named gaveBack =>
          rw [asked] at again
          cases again
          exact stands.extend asked (.finished asked borrower named gaveBack held (.inl rfl))
  | invalidated phase =>
      simp only [System.enter, System.invalidate, entered]
      rw [phase] at stands
      have planned := stands.planned
      rw [List.append_nil] at planned
      refine ⟨⟨stands.owns.asked, stands.owns.held, stands.owns.current⟩, ?_, stands.locked,
        stands.borrower⟩
      rw [List.append_nil]
      cases planned with
      | issuing asked named checked ending =>
          simp only [Next.invalidate.injEq, reduceCtorEq, or_false] at ending
          exact .issuing asked named checked (.inr (by rw [ending.2]))
      | finished asked borrower named gaveBack held ending =>
          simp only [Next.invalidate.injEq, reduceCtorEq, or_false] at ending
          exact .finished asked borrower named gaveBack held (.inr (by rw [ending.2]))
  | mergedCopy phase acquired =>
      simp only [System.enter, entered]
      rw [phase] at stands
      refine ⟨stands.1, ?_⟩
      intro row member
      obtain earlier | last := List.mem_append.mp member
      · exact Locks.acquire?_keeps acquired (stands.2 row earlier)
      · cases List.mem_singleton.mp last
        exact Locks.acquire?_self acquired
  | storedNew phase _ =>
      simp only [System.enter, entered]
      rw [phase] at stands
      exact ⟨stands, by simp⟩
  | committed => simp only [System.close, entered, Stands, Prepared]
  | aborted => simp only [System.close, entered, Stands, Prepared]
  | committedTitle => simp only [System.commitTitle, System.close, entered, Stands, Prepared]
  | storedUser => simp only [System.enter, entered, Stands, Prepared]
  | storedCopy => simp only [System.enter, entered, Stands, Prepared]
  | cleared => simp only [System.enter, System.invalidate, entered, Stands, Prepared]
  | readDetails => simp only [System.enter, entered, Stands, Prepared]
  | storedDetails => simp only [System.storeDetails, System.enter, entered, Stands, Prepared]
  | @proceeded phase processes outside prepared _ _ =>
      simp only [System.enter, entered]
      have later := prepared (stands.prepared outside)
      cases phase with
      | locked | writing | merging => exact later.elim
      | idle | projected | paying | processing | storingUser | planning | departing
      | arriving | storingCopy | stocking | stocked | missed | computed | done | failed =>
          exact later

end Discipline

theorem disciplined_start (tickets : Nat → Ticket) (tables : Tables)
    (processes : Nat → Process) : Disciplined tickets (.start tables processes) :=
  fun _ => trivial

theorem Step.disciplined {tickets : Nat → Ticket} {before after : System} {action : Action}
    (taken : Step tickets before action after) (disciplined : Disciplined tickets before) :
    Disciplined tickets after := by
  obtain ⟨id, moves, _⟩ | ⟨isbn, rfl⟩ := taken.moves
  · intro other
    by_cases same : other = id
    · subst other
      exact moves.stands (disciplined id)
    · have frame := moves.frame (disciplined id)
      rw [frame.phases other same]
      exact (disciplined other).frame frame same
  · intro other
    exact (disciplined other).frame (frame_invalidate isbn (other + 1)) (by omega)

end LibraFlow.Postgres
