import LibraFlow.Postgres.Locking

/-! What the commit of a checkout or of a return makes visible: every table is
described after the transaction in terms of the tables before it. -/

set_option autoImplicit false

namespace LibraFlow.Postgres

open LibraFlow.Core LibraFlow.Library LibraFlow.Storage LibraFlow.Patterns LibraFlow.Container
  LibraFlow.Services

/-- The visible effect of a committed checkout. -/
structure IssueCommit (request : IssueRequest) (now : Datetime) (row issued : BookCopy)
    (model : User) (record : CirculationRecord) (before after : Tables) : Prop where
  allowed : mayTake row request.userId = true
  accepted : row.checkOut request.userId = .ok issued
  copyId : row.copyId = request.copyId
  named : model.userId = request.userId
  recordCopy : record.copyId = request.copyId
  recordUser : record.userId = request.userId
  recordIsbn : record.isbn = issued.bookIsbn
  recordTime : record.borrowedAt = now
  books : after.books = before.books
  copies : after.copies = before.copies.merge issued
  users : after.users = before.users.merge
    ((modelToUser model).addBorrow request.copyId issued.bookIsbn now)
  records : after.records = before.records ++ [record]
  events : after.events = before.events ++ [Outbox.newEvent request.eventId "copy.issued"
    (.issued request.copyId issued.bookIsbn request.userId record.dueDate request.transactionId)
    now]

/-- The user rows once a return is recorded with the borrower, when known. -/
def closeLoanRow (request : ReturnRequest) (now : Datetime) (users : Table User.userId) :
    Option User → Table User.userId
  | some model => users.merge ((modelToUser model).recordReturn request.copyId request.isLate
      request.isDamaged now)
  | none => users

/-- The visible effect of a committed return. -/
structure ReturnCommit (request : ReturnRequest) (now : Datetime) (row final : BookCopy)
    (borrowerId : String) (found : Option User) (assigned : Option ReservationEntry)
    (before after : Tables) : Prop where
  borrower : row.currentBorrowerId = some borrowerId
  named : ∀ model, found = some model → model.userId = borrowerId
  copyId : row.copyId = request.copyId
  returned : ∃ returned holds, row.returnBook = .ok returned ∧
    Held returned assigned final holds
  books : after.books = before.books
  copies : after.copies = before.copies.merge final
  users : after.users = closeLoanRow request now before.users found
  records : after.records = before.records
  events : after.events = before.events ++ [returnEvent request now borrowerId final assigned]

/-- The returned copy goes to the shelf or to a waiter. -/
theorem Held.cases {returned final : BookCopy} {holds : List Write}
    {assigned : Option ReservationEntry} (held : Held returned assigned final holds) :
    final = returned ∨ ∃ reserverId, returned.reserve reserverId = .ok final := by
  cases held with
  | shelved => exact .inl rfl
  | reserved entry accepted => exact .inr ⟨entry.userId, accepted⟩

theorem ReturnCommit.sameCopy {request : ReturnRequest} {now : Datetime} {row final : BookCopy}
    {borrowerId : String} {found : Option User} {assigned : Option ReservationEntry}
    {before after : Tables}
    (commit : ReturnCommit request now row final borrowerId found assigned before after) :
    BookCopy.SameCopy row final := by
  obtain ⟨returned, _, gaveBack, held⟩ := commit.returned
  have same := BookCopy.sameCopy_returnBook gaveBack
  obtain rfl | ⟨reserverId, held⟩ := held.cases
  · exact same
  · exact same.trans (BookCopy.sameCopy_reserve held)

/-- What a transaction can commit. -/
inductive Outcome (ticket : Ticket) (row : BookCopy) (written : List Write)
    (before after : Tables) : Receipt → Prop where
  | issued {request : IssueRequest} {issued : BookCopy} {model : User}
      {record : CirculationRecord} (asked : ticket.request = .issue request)
      (member : Write.user model ((modelToUser model).addBorrow request.copyId issued.bookIsbn
        ticket.now) ∈ written)
      (commit : IssueCommit request ticket.now row issued model record before after) :
      Outcome ticket row written before after (.issued record)
  | returned {request : ReturnRequest} {final : BookCopy} {borrowerId : String}
      {found : Option User} {assigned : Option ReservationEntry}
      (asked : ticket.request = .giveBack request)
      (members : ∀ write ∈ closingWrites request ticket.now found, write ∈ written)
      (onlyThese : ∀ model updated, Write.user model updated ∈ written → found = some model)
      (commit : ReturnCommit request ticket.now row final borrowerId found assigned before after) :
      Outcome ticket row written before after (returnReceipt request borrowerId final assigned)

private theorem lockedCopy?_issue {ticket : Ticket} {request : IssueRequest} {copyId : String}
    (asked : ticket.request = .issue request)
    (locks : ticket.request.lockedCopy? = some copyId) : copyId = request.copyId := by
  rw [asked] at locks
  cases locks
  rfl

private theorem lockedCopy?_giveBack {ticket : Ticket} {request : ReturnRequest} {copyId : String}
    (asked : ticket.request = .giveBack request)
    (locks : ticket.request.lockedCopy? = some copyId) : copyId = request.copyId := by
  rw [asked] at locks
  cases locks
  rfl

private theorem user_mem_return {request : ReturnRequest} {now : Datetime} {found : Option User}
    {returned final : BookCopy} {holds : List Write} {event : OutboxEvent CopyEvent}
    {model updated : User} {assigned : Option ReservationEntry}
    (held : Held returned assigned final holds)
    (member : Write.user model updated ∈
      closingWrites request now found ++ [.copy returned] ++ (holds ++ [.event event])) :
    found = some model := by
  obtain first | rest := List.mem_append.mp member
  · obtain closing | copy := List.mem_append.mp first
    · obtain ⟨known, same, equal⟩ := mem_closingWrites closing
      cases equal
      exact same
    · cases List.mem_singleton.mp copy
  · obtain holding | last := List.mem_append.mp rest
    · cases held with
      | shelved => cases holding
      | reserved => cases List.mem_singleton.mp holding
    · cases List.mem_singleton.mp last

private theorem commit_append (tables : Tables) (first second : List Write) :
    tables.commit (first ++ second) = (tables.commit first).commit second :=
  List.foldl_append

/-- After a return the row of the copy is the one that was written last. -/
theorem commit_return_copies {tables : Tables} {request : ReturnRequest} {now : Datetime}
    {found : Option User} {returned final : BookCopy} {holds : List Write}
    {event : OutboxEvent CopyEvent} {assigned : Option ReservationEntry}
    (held : Held returned assigned final holds) :
    (tables.commit (closingWrites request now found ++ [.copy returned] ++
        (holds ++ [.event event]))).copies = tables.copies.merge final := by
  have closing : (tables.commit (closingWrites request now found)).copies = tables.copies := by
    cases found <;> rfl
  rw [commit_append, commit_append tables (closingWrites request now found), ← closing]
  cases held with
  | shelved => rfl
  | reserved entry accepted =>
      exact Table.merge_merge _ (BookCopy.sameCopy_reserve accepted).copyId.symm

theorem InTransaction.outcome {ticket : Ticket} {system : System} {id : Nat} {row : BookCopy}
    {written : List Write} {receipt : Receipt}
    (inside : InTransaction ticket system id row written [] (.commit receipt)) :
    Outcome ticket row written system.tables (system.tables.commit written) receipt := by
  have locks := inside.owns.asked
  have planned := inside.planned
  rw [List.append_nil] at planned
  cases planned with
  | issuing asked named checked ending =>
      obtain ⟨allowed, issued, dueDate, accepted, rfl, rfl⟩ := issueWrites_ok checked
      simp only [reduceCtorEq, Next.commit.injEq, false_or] at ending
      subst receipt
      refine .issued asked (by simp) ⟨allowed, accepted, lockedCopy?_issue asked locks, named, rfl,
        rfl, rfl, rfl, rfl, rfl, rfl, rfl, rfl⟩
  | @finished request found borrowerId returned final holds assigned _ asked borrower named
      gaveBack held ending =>
      simp only [reduceCtorEq, Next.commit.injEq, false_or] at ending
      subst receipt
      refine .returned asked (fun write member => by simp [member])
        (fun model updated member => user_mem_return held member)
        ⟨borrower, named, lockedCopy?_giveBack asked locks, ⟨returned, holds, gaveBack, held⟩, ?_,
          ?_, ?_, ?_, ?_⟩
      · cases found <;> cases held <;> rfl
      · exact commit_return_copies held
      · cases found <;> cases held <;> rfl
      · cases found <;> cases held <;> rfl
      · cases found <;> cases held <;> rfl

/-- No transaction writes a title row. -/
theorem Tables.commit_books (tables : Tables) (writes : List Write) :
    (tables.commit writes).books = tables.books := by
  induction writes generalizing tables with
  | nil => rfl
  | cons first rest ih =>
      have kept : (tables.apply first).books = tables.books := by cases first <;> rfl
      exact (ih (tables.apply first)).trans kept

theorem Moves.books_kept {ticket : Ticket} {before after : System} {id : Nat}
    (moves : Moves ticket before id after) : after.tables.books = before.tables.books := by
  cases moves with
  | lockedCopy | checkedOut | beganReturn | inserted | updatedCopy | updatedUser | returned
  | offered | invalidated | aborted | mergedCopy | cleared | readDetails | storedDetails
  | storedUser | storedCopy | storedNew | proceeded => rfl
  | committed | committedTitle => exact Tables.commit_books _ _

theorem Step.books_kept {tickets : Nat → Ticket} {before after : System} {action : Action}
    (taken : Step tickets before action after) : after.tables.books = before.tables.books := by
  obtain ⟨id, moves, _⟩ | ⟨isbn, same⟩ := taken.moves
  · exact moves.books_kept
  · rw [same]
    rfl

end LibraFlow.Postgres
