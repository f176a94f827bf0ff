import LibraFlow.Container.ReturnSpec
import LibraFlow.Library.Frame

/-! The logs of the container. A checkout is written down in five places, a return in
three; whatever is called and whatever raises, the logs tell the same loans in the same
order, and the events of the outbox alone tell who has which copy. -/

set_option autoImplicit false

namespace LibraFlow.Container

open LibraFlow.Core LibraFlow.Library LibraFlow.Storage LibraFlow.Patterns LibraFlow.Services
  LibraFlow.Ai

/-- What the services have written down. -/
structure Logs where
  records : List CirculationRecord
  outbox : List (OutboxEvent CopyEvent)
  notifications : List NotificationEvent
  forecaster : DemandForecaster
  audit : List AuditEntry

def State.logs (state : State) : Logs :=
  ⟨state.records, state.outbox, state.notifications, state.forecaster, state.audit⟩

namespace Logs

def issuedEvent (record : CirculationRecord) : CopyEvent :=
  .issued record.copyId record.isbn record.userId record.dueDate record.transactionId

def issuedNotice (record : CirculationRecord) : NotificationEvent :=
  .bookIssued record.userId record.copyId record.isbn record.dueDate

/-- A checkout is recorded, announced, counted and audited. -/
def checkOut (logs : Logs) (eventId actorId branchId : String) (record : CirculationRecord) :
    Logs where
  records := logs.records ++ [record]
  outbox := logs.outbox ++
    [Outbox.newEvent eventId "copy.issued" (issuedEvent record) record.borrowedAt]
  notifications := logs.notifications ++ [issuedNotice record]
  forecaster := logs.forecaster.recordCheckout record.isbn record.borrowedAt.date branchId
  audit := logs.audit ++ [⟨record.borrowedAt, actorId, record.copyId,
    .issueBook record.userId record.isbn⟩]

/-- The notification of the waiter a returned copy is held for. -/
def heldNotice (isbn copyId : String) (entry : ReservationEntry) : NotificationEvent :=
  .bookReservedAvailable entry.userId isbn copyId entry.reservationId entry.readyPickupExpiresAt

/-- A return is announced and audited, and the next waiter is told. -/
def takeBack (logs : Logs) (request : ReturnRequest) (isbn borrowerId : String) (now : Datetime)
    (assigned : Option ReservationEntry) : Logs :=
  let reservationId := assigned.map ReservationEntry.reservationId
  { logs with
    outbox := logs.outbox ++ [returnEvent request isbn borrowerId reservationId now]
    notifications := logs.notifications ++ (assigned.map (heldNotice isbn request.copyId)).toList
    audit := logs.audit ++ [⟨now, request.actorId, request.copyId,
      .returnBook borrowerId request.isLate request.isDamaged reservationId⟩] }

/-- An audit entry for something else than a loan, with the notifications it comes with. -/
def note (logs : Logs) (notices : List NotificationEvent) (entries : List AuditEntry) : Logs :=
  { logs with
    notifications := logs.notifications ++ notices
    audit := logs.audit ++ entries }

end Logs

def NotificationEvent.isFine : NotificationEvent → Bool
  | .overdueFineAccrued .. => true
  | _ => false

def AuditDetails.isLoan : AuditDetails → Bool
  | .issueBook .. | .returnBook .. => true
  | _ => false

/-- What a call can write down. -/
inductive Logged (before : Logs) : Logs → Prop where
  | noted {notices : List NotificationEvent} {entries : List AuditEntry}
      (fines : ∀ notice ∈ notices, notice.isFine = true)
      (others : ∀ entry ∈ entries, entry.details.isLoan = false) :
      Logged before (before.note notices entries)
  | checkedOut (eventId actorId branchId : String) (record : CirculationRecord) :
      Logged before (before.checkOut eventId actorId branchId record)
  | takenBack (request : ReturnRequest) (isbn borrowerId : String) (now : Datetime)
      (assigned : Option ReservationEntry) :
      Logged before (before.takeBack request isbn borrowerId now assigned)

theorem Logged.of_eq {before after : Logs} (same : after = before) : Logged before after := by
  have nothing : Logged before (before.note [] []) := .noted (by simp) (by simp)
  simpa [Logs.note, same] using nothing

/-- A checkout that goes through writes everything down, any other nothing. -/
inductive IssueLogged (request : IssueRequest) (now : Datetime) (before after : State) : Prop where
  | refused (logs : after.logs = before.logs) (bookRepo : after.bookRepo = before.bookRepo)
  | overflowed (logs : after.logs = before.logs) (overflow : now.addDays? request.loanDays = none)
  | issued (record : CirculationRecord) {user : User} {ref : Ref} {copy issued : BookCopy}
      (taken : Taken request before user ref copy issued)
      (about : record.copyId = request.copyId ∧ record.userId = request.userId)
      (logs : after.logs = before.logs.checkOut request.eventId request.actorId issued.branchId
        record)
      (bookRepo : after.bookRepo = (before.bookRepo.mutate ref issued).saveCopy ref)

theorem issue_logged (request : IssueRequest) (now : Datetime) (before : State) :
    IssueLogged request now before (issuePhysicalBook request now before).2 := by
  unfold issuePhysicalBook
  simp only [Proc.read_bind_apply]
  cases foundUser : before.users.get? request.userId with
  | none => exact .refused rfl rfl
  | some user =>
      cases eligible : user.canBorrow with
      | false => exact .refused (by simp [eligible]) (by simp [eligible])
      | true =>
          cases foundCopy : before.bookRepo.getCopy request.copyId with
          | none => exact .refused (by simp [eligible, foundCopy]) (by simp [eligible, foundCopy])
          | some found =>
              obtain ⟨ref, copy⟩ := found
              cases allowed : mayTake copy request.userId with
              | false =>
                  exact .refused (by simp [eligible, foundCopy, allowed])
                    (by simp [eligible, foundCopy, allowed])
              | true =>
                  cases accepted : copy.checkOut request.userId with
                  | error detail =>
                      exact .refused (by simp [eligible, foundCopy, allowed, accepted])
                        (by simp [eligible, foundCopy, allowed, accepted])
                  | ok issued =>
                      cases due : now.addDays? request.loanDays with
                      | none =>
                          exact .overflowed (by simp [eligible, foundCopy, allowed, accepted,
                            State.mutateCopy, State.putUser, State.logs]) due
                      | some dueDate =>
                          refine .issued ⟨request.transactionId, request.copyId, issued.bookIsbn,
                            request.userId, now, dueDate⟩
                            ⟨foundUser, eligible, foundCopy, allowed, accepted⟩ ⟨rfl, rfl⟩ ?_ ?_ <;>
                            simp [eligible, foundCopy, allowed, accepted, State.mutateCopy,
                              State.putUser, State.saveCopy, State.saveEvent, State.dispatch,
                              State.logEvent, State.invalidateBook, State.logs, Logs.checkOut,
                              Logs.issuedEvent, Logs.issuedNotice, Outbox.saveEvent,
                              CopyEvent.topic]

theorem IssueLogged.logged {request : IssueRequest} {now : Datetime} {before after : State}
    (outcome : IssueLogged request now before after) : Logged before.logs after.logs := by
  cases outcome with
  | refused logs => exact .of_eq logs
  | overflowed logs => exact .of_eq logs
  | issued record taken about logs bookRepo => exact logs ▸ .checkedOut _ _ _ record

private theorem return_logged (request : ReturnRequest) (now : Datetime) (before : State) :
    Logged before.logs (returnPhysicalBook request now before).2.logs := by
  cases foundCopy : before.bookRepo.getCopy request.copyId with
  | none =>
      have same : (returnPhysicalBook request now before).2 = before := by
        simp [returnPhysicalBook, foundCopy]
      exact .of_eq (by rw [same])
  | some found =>
      obtain ⟨ref, copy⟩ := found
      by_cases named : truthy copy.currentBorrowerId = true
      · obtain ⟨borrowerId, borrower⟩ : ∃ borrowerId, copy.currentBorrowerId = some borrowerId := by
          cases borrower : copy.currentBorrowerId with
          | none =>
              rw [borrower] at named
              cases named
          | some borrowerId => exact ⟨borrowerId, rfl⟩
        have presented : Presented request before borrowerId ref copy :=
          ⟨foundCopy, borrower, named⟩
        cases accepted : copy.returnBook with
        | error detail =>
            have same : (returnPhysicalBook request now before).2.logs = before.logs := by
              simp [returnPhysicalBook, foundCopy, named, accepted, State.logs]
            exact .of_eq same
        | ok returned =>
            rcases offered : before.reservationMgr.handleCopyReturned returned.bookIsbn
              request.copyId now with ⟨_ | _ | entry, manager⟩
            · rw [return_overflows presented accepted offered]
              exact .of_eq rfl
            · obtain ⟨receipt, ran⟩ := return_shelves presented accepted offered
              have taken : (returnPhysicalBook request now before).2.logs =
                  before.logs.takeBack request returned.bookIsbn borrowerId now none := by
                rw [ran]
                simp [recorded, offering, returnEvent, State.logs, Logs.takeBack, State.saveEvent,
                  State.logEvent, State.invalidateBook, State.saveCopy, State.mutateCopy,
                  Outbox.saveEvent, CopyEvent.topic]
              exact taken ▸ .takenBack _ _ _ _ _
            · have kept : returned.reserve entry.userId = .ok { returned with
                  status := .reserved, currentReserverId := some entry.userId } := by
                rcases BookCopy.returnBook_ok accepted with ⟨_, rfl⟩ | ⟨_, rfl⟩ <;> rfl
              obtain ⟨receipt, ran⟩ := return_holds presented accepted offered kept
              have taken : (returnPhysicalBook request now before).2.logs =
                  before.logs.takeBack request returned.bookIsbn borrowerId now (some entry) := by
                rw [ran]
                simp [recorded, offering, returnEvent, State.logs, Logs.takeBack, Logs.heldNotice,
                  State.saveEvent, State.logEvent, State.invalidateBook, State.saveCopy,
                  State.mutateCopy, State.dispatch, Outbox.saveEvent, CopyEvent.topic]
              exact taken ▸ .takenBack _ _ _ _ _
      · have same : (returnPhysicalBook request now before).2 = before := by
          simp [returnPhysicalBook, foundCopy, named]
        exact .of_eq (by rw [same])

/-- Only entries about something else than loans have been added. -/
def Noted (base : Logs) (state : State) : Prop :=
  ∃ notices entries, (∀ notice ∈ notices, NotificationEvent.isFine notice = true) ∧
    (∀ entry ∈ entries, (AuditEntry.details entry).isLoan = false) ∧
    state.logs = base.note notices entries

section Others

open Proc

variable {base : Logs}

theorem noted_start (state : State) : Noted state.logs state :=
  ⟨[], [], by simp, by simp, by simp [Logs.note]⟩

theorem Noted.logged {state : State} (noted : Noted base state) : Logged base state.logs := by
  obtain ⟨notices, entries, fines, others, same⟩ := noted
  exact same ▸ .noted fines others

private theorem preserves_silent {change : State → State}
    (same : ∀ state, (change state).logs = state.logs) :
    Preserves (Noted base) (update change : Call Unit) := by
  rintro state ⟨notices, entries, fines, others, written⟩
  exact ⟨notices, entries, fines, others, (same state).trans written⟩

private theorem preserves_dispatch {notice : NotificationEvent} (fine : notice.isFine = true) :
    Preserves (Noted base) (update fun state => state.dispatch notice : Call Unit) := by
  rintro state ⟨notices, entries, fines, others, written⟩
  refine ⟨notices ++ [notice], entries, ?_, others, ?_⟩
  · intro other member
    rcases List.mem_append.mp member with earlier | new
    · exact fines other earlier
    · rw [List.mem_singleton] at new
      exact new ▸ fine
  · simp only [State.logs, Logs.note, Logs.mk.injEq] at written
    simp [State.logs, State.dispatch, Logs.note, written]

private theorem preserves_logEvent {timestamp : Datetime} {actorId resourceId : String}
    {details : AuditDetails} (other : details.isLoan = false) :
    Preserves (Noted base)
      (update fun state => state.logEvent timestamp actorId resourceId details : Call Unit) := by
  rintro state ⟨notices, entries, fines, others, written⟩
  refine ⟨notices, entries ++ [⟨timestamp, actorId, resourceId, details⟩], fines, ?_, ?_⟩
  · intro entry member
    rcases List.mem_append.mp member with earlier | new
    · exact others entry earlier
    · rw [List.mem_singleton] at new
      exact new ▸ other
  · simp only [State.logs, Logs.note, Logs.mk.injEq] at written
    simp [State.logs, State.logEvent, Logs.note, written]

theorem registerBook_noted (formatType actorId : String) (arguments : BookArguments)
    (now : Datetime) :
    Preserves (Noted base) (registerBook formatType actorId arguments now) := by
  unfold registerBook
  refine .bind (stateless_lift _ _).preserves fun book => ?_
  refine .bind (preserves_silent fun _ => rfl) fun _ => ?_
  refine .bind (preserves_silent fun _ => rfl) fun _ => ?_
  refine .bind (preserves_silent fun _ => rfl) fun _ => ?_
  refine .bind (preserves_logEvent rfl) fun _ => ?_
  exact (stateless_pure _).preserves

theorem acquisition_noted (isbn copyId branchId shelfLocation : String) (price : ℚ)
    (actorId : String) (now : Datetime) :
    Preserves (Noted base)
      (addPhysicalCopy isbn copyId branchId shelfLocation price actorId now) := by
  unfold addPhysicalCopy
  refine .bind (preserves_read _) fun found => ?_
  refine .bind (stateless_expect _ _).preserves fun book => ?_
  refine .bind (preserves_read _) fun ref => ?_
  refine .bind (preserves_silent fun _ => rfl) fun _ => ?_
  refine .bind (preserves_silent fun _ => rfl) fun _ => ?_
  refine .bind (preserves_silent fun _ => rfl) fun _ => ?_
  refine .bind (preserves_silent fun _ => rfl) fun _ => ?_
  refine .bind (preserves_logEvent rfl) fun _ => ?_
  exact (stateless_pure _).preserves

theorem registration_noted (request : RegisterRequest) :
    Preserves (Noted base) (registerUser request) := by
  unfold registerUser
  refine .bind (preserves_read _) fun existing => ?_
  refine .bind (stateless_check _ _).preserves fun _ => ?_
  refine .bind (stateless_lift _ _).preserves fun user => ?_
  refine .bind (preserves_silent fun _ => rfl) fun _ => ?_
  exact (stateless_pure _).preserves

theorem request_noted (isbn userId requestId : String) (now : Datetime) :
    Preserves (Noted base) (requestSmartAllocation isbn userId requestId now) := by
  unfold requestSmartAllocation
  refine .bind (preserves_read _) fun found => ?_
  refine .bind (stateless_expect _ _).preserves fun user => ?_
  refine .bind (preserves_read _) fun existing => ?_
  refine .bind (preserves_silent fun _ => rfl) fun _ => ?_
  exact (stateless_pure _).preserves

private theorem requestTransfer_noted (ref : Ref) (copy : BookCopy)
    (destBranchId requestedBy transferId : String) (now : Datetime) :
    Preserves (Noted base) (requestTransfer ref copy destBranchId requestedBy transferId now) := by
  rintro state ⟨notices, entries, fines, others, written⟩
  refine ⟨notices, entries, fines, others, ?_⟩
  rw [← written]
  unfold requestTransfer
  split <;> rfl

theorem transfer_noted (copyId destBranchId requestedBy transferId : String) (now : Datetime) :
    Preserves (Noted base) (transferCopy copyId destBranchId requestedBy transferId now) := by
  unfold transferCopy
  refine .bind (preserves_read _) fun found => ?_
  refine .bind (stateless_expect _ _).preserves fun dest => ?_
  refine .bind (preserves_silent fun _ => rfl) fun _ => ?_
  refine .bind (preserves_read _) fun foundCopy => ?_
  refine .bind (stateless_expect _ _).preserves fun held => ?_
  refine .bind (preserves_silent ?_) fun _ => ?_
  · intro state
    unfold registerSource
    split
    · rfl
    · split <;> rfl
  · refine .bind (requestTransfer_noted _ _ _ _ _ _) fun request => ?_
    refine .bind (preserves_silent fun _ => rfl) fun _ => ?_
    exact (stateless_pure _).preserves

private theorem executeItem_noted (item : PlanItem) (now : Datetime) :
    Preserves (Noted base) (executeItem item now) := by
  unfold executeItem
  refine .bind (preserves_read _) fun found => ?_
  split
  · exact (stateless_pure _).preserves
  · split
    · exact (stateless_pure _).preserves
    · refine .bind (requestTransfer_noted _ _ _ _ _ _) fun request => ?_
      refine .bind (preserves_silent fun _ => rfl) fun _ => ?_
      refine .bind (preserves_silent fun _ => rfl) fun _ => ?_
      refine .bind (preserves_silent fun _ => rfl) fun _ => ?_
      exact (stateless_pure _).preserves

theorem plan_noted (now : Datetime) (plan : List PlanItem) :
    Preserves (Noted base) (executeRebalancingPlan now plan) := by
  induction plan with
  | nil => exact (stateless_pure _).preserves
  | cons item rest ih =>
      refine .bind (executeItem_noted item now) fun executed => ?_
      refine .bind ih fun others => ?_
      exact (stateless_pure _).preserves

theorem arrival_noted (transferId : String) (now : Datetime) :
    Preserves (Noted base) (completeTransfer transferId now) := by
  unfold completeTransfer
  refine .bind (preserves_read _) fun found => ?_
  split
  · exact (stateless_pure _).preserves
  · refine .bind (preserves_read _) fun foundCopy => ?_
    split
    · exact (stateless_pure _).preserves
    · refine .bind (preserves_read _) fun manager => ?_
      refine .bind (stateless_lift _ _).preserves fun arrived => ?_
      refine .bind (preserves_silent fun _ => rfl) fun _ => ?_
      refine .bind (preserves_silent fun _ => rfl) fun _ => ?_
      refine .bind (preserves_silent fun _ => rfl) fun _ => ?_
      refine .bind (preserves_silent fun _ => rfl) fun _ => ?_
      exact (stateless_pure _).preserves

theorem charge_noted (userId isbn : String) (overdueDays : Int) (actorId : String)
    (now : Datetime) :
    Preserves (Noted base) (chargeFine userId isbn overdueDays actorId now) := by
  unfold chargeFine
  refine .bind (preserves_read _) fun fineAmount => ?_
  refine .bind (preserves_read _) fun found => ?_
  refine .bind (stateless_expect _ _).preserves fun user => ?_
  refine .bind (preserves_silent fun _ => rfl) fun _ => ?_
  refine .bind (preserves_dispatch rfl) fun _ => ?_
  refine .bind (preserves_logEvent rfl) fun _ => ?_
  exact (stateless_pure _).preserves

theorem pay_noted (userId : String) (amount : ℚ) (paymentMethod : String)
    (metadata : PaymentMetadata) (transactionId : String) (now : Datetime) :
    Preserves (Noted base)
      (payFine userId amount paymentMethod metadata transactionId now) := by
  unfold payFine
  refine .bind (preserves_read _) fun found => ?_
  refine .bind (stateless_expect _ _).preserves fun user => ?_
  refine .bind (stateless_expect _ _).preserves fun method => ?_
  refine .bind (preserves_read _) fun wallets => ?_
  refine .bind (stateless_lift _ _).preserves fun outcome => ?_
  refine .bind (preserves_silent fun _ => rfl) fun _ => ?_
  split
  · refine .bind (preserves_silent fun _ => rfl) fun _ => ?_
    refine .bind (preserves_logEvent rfl) fun _ => ?_
    exact (stateless_pure _).preserves
  · exact (stateless_pure _).preserves

end Others

/-- An allocation drop is a checkout once the request has left its queue, or nothing. -/
theorem drop_logged (isbn transactionId eventId : String) (now : Datetime) (before : State) :
    (processSmartAllocationDrop isbn transactionId eventId now before).2 = before ∨
      ∃ request middle, request.loanDays = 14 ∧ middle.logs = before.logs ∧
        middle.bookRepo = before.bookRepo ∧ IssueLogged request now middle
          (processSmartAllocationDrop isbn transactionId eventId now before).2 := by
  unfold processSmartAllocationDrop
  simp only [Proc.read_bind_apply]
  cases queued : before.allocationQueues.get? isbn with
  | none => exact .inl rfl
  | some queue =>
      simp only [Proc.read_bind_apply]
      rcases popped : queue.popHighestPriority with ⟨_ | top, rest⟩
      · exact .inl rfl
      · cases shelved : firstAvailable before isbn with
        | none => exact .inl rfl
        | some copy =>
            simp only [Proc.update_bind_apply]
            rw [Proc.bind_apply]
            refine .inr ⟨⟨copy.copyId, top.userId, "SMART_ALLOCATOR", 14, transactionId, eventId⟩,
              { before with allocationQueues := before.allocationQueues.set isbn rest },
              rfl, rfl, rfl, ?_⟩
            generalize IssueRequest.mk copy.copyId top.userId "SMART_ALLOCATOR" 14 transactionId
              eventId = request
            generalize State.mk _ _ _ _ _ _ _ _ _ _ _ _ _ _ _ = middle
            have outcome := issue_logged request now middle
            rcases ran : issuePhysicalBook request now middle with ⟨_ | record, after⟩ <;>
            · rw [ran] at outcome
              exact outcome

private theorem exec_logged (operation : Operation) (now : Datetime) (before : State) :
    Logged before.logs (operation.exec now before).logs := by
  have start := noted_start before
  cases operation with
  | registerBook formatType actorId arguments =>
      exact (registerBook_noted formatType actorId arguments now before start).logged
  | addPhysicalCopy isbn copyId branchId shelfLocation price actorId =>
      exact (acquisition_noted isbn copyId branchId shelfLocation price actorId now before
        start).logged
  | registerUser request => exact (registration_noted request before start).logged
  | issuePhysicalBook request => exact (issue_logged request now before).logged
  | returnPhysicalBook request => exact return_logged request now before
  | reserveBook isbn userId reservationId => exact .of_eq rfl
  | requestSmartAllocation isbn userId requestId =>
      exact (request_noted isbn userId requestId now before start).logged
  | processSmartAllocationDrop isbn transactionId eventId =>
      obtain same | ⟨request, middle, _, logs, _, outcome⟩ :=
        drop_logged isbn transactionId eventId now before
      · exact .of_eq (congrArg State.logs same)
      · exact logs ▸ outcome.logged
  | transferCopy copyId destBranchId requestedBy transferId =>
      exact (transfer_noted copyId destBranchId requestedBy transferId now before start).logged
  | executeRebalancingPlan plan => exact (plan_noted now plan before start).logged
  | completeTransfer transferId => exact (arrival_noted transferId now before start).logged
  | chargeFine userId isbn overdueDays actorId =>
      exact (charge_noted userId isbn overdueDays actorId now before start).logged
  | payFine userId amount paymentMethod metadata transactionId =>
      exact (pay_noted userId amount paymentMethod metadata transactionId now before start).logged
  | getBookDetails isbn => exact .of_eq rfl

/-- A checkout or a return, as the outbox and the audit log both tell it. -/
inductive LoanEntry where
  | issued (moment : Datetime) (copyId isbn userId : String)
  | returned (moment : Datetime) (copyId borrowerId : String) (isLate isDamaged : Bool)
      (assignedReservation : Option String)
  deriving DecidableEq

namespace Logs

def entryOfEvent (event : OutboxEvent CopyEvent) : LoanEntry :=
  match event.payload with
  | .issued copyId isbn userId _ _ => .issued event.createdAt copyId isbn userId
  | .returned copyId _ userId isLate isDamaged assigned =>
      .returned event.createdAt copyId userId isLate isDamaged assigned

def entryOfAudit? (entry : AuditEntry) : Option LoanEntry :=
  match entry.details with
  | .issueBook userId isbn => some (.issued entry.timestamp entry.resourceId isbn userId)
  | .returnBook borrowerId isLate isDamaged assigned =>
      some (.returned entry.timestamp entry.resourceId borrowerId isLate isDamaged assigned)
  | _ => none

/-- The circulation record that an event of a checkout stands for. -/
def recordOfEvent? (event : OutboxEvent CopyEvent) : Option CirculationRecord :=
  match event.payload with
  | .issued copyId isbn userId dueDate transactionId =>
      some ⟨transactionId, copyId, isbn, userId, event.createdAt, dueDate⟩
  | .returned .. => none

/-- Copy, title and reservation of a return that served a waiter. -/
def heldOfEvent? (event : OutboxEvent CopyEvent) : Option (String × String × String) :=
  match event.payload with
  | .returned copyId isbn _ _ _ (some reservationId) => some (copyId, isbn, reservationId)
  | _ => none

def heldOfNotice? : NotificationEvent → Option (String × String × String)
  | .bookReservedAvailable _ isbn copyId reservationId _ => some (copyId, isbn, reservationId)
  | _ => none

def isIssuedNotice : NotificationEvent → Bool
  | .bookIssued .. => true
  | _ => false

def datesOf (logs : Logs) (isbn : String) : List Nat :=
  (logs.forecaster.borrowHistoryDates.get? isbn).getD []

def branchDatesOf (logs : Logs) (isbn branchId : String) : List Nat :=
  (logs.forecaster.branchBorrowDates.get? (isbn, branchId)).getD []

end Logs

open Logs

/-- The logs tell the same loans, each in the order in which they happened. -/
structure Trails (logs : Logs) : Prop where
  audited : logs.audit.filterMap entryOfAudit? = logs.outbox.map entryOfEvent
  recorded : logs.outbox.filterMap recordOfEvent? = logs.records
  announced : logs.notifications.filter isIssuedNotice = logs.records.map issuedNotice
  waiters : logs.notifications.filterMap heldOfNotice? = logs.outbox.filterMap heldOfEvent?
  counted : ∀ isbn, logs.datesOf isbn =
    (logs.records.filter fun record => record.isbn = isbn).map fun record => record.borrowedAt.date
  branches : ∀ isbn branchId, (logs.branchDatesOf isbn branchId).Sublist (logs.datesOf isbn)
  topics : ∀ event ∈ logs.outbox, event.topic = event.payload.topic

private theorem trails_empty (branchRepo registered : Dict String Distributed.LibraryBranch) :
    Trails (State.empty branchRepo registered).logs where
  audited := rfl
  recorded := rfl
  announced := rfl
  waiters := rfl
  counted isbn := rfl
  branches isbn branchId := List.Sublist.refl _
  topics event member := by cases member

section Steps

variable {before after : Logs}

theorem Trails.note (trails : Trails before) {notices : List NotificationEvent}
    {entries : List AuditEntry} (fines : ∀ notice ∈ notices, notice.isFine = true)
    (others : ∀ entry ∈ entries, entry.details.isLoan = false) :
    Trails (before.note notices entries) := by
  have unaudited : entries.filterMap entryOfAudit? = [] := by
    rw [List.filterMap_eq_nil_iff]
    intro entry member
    have other := others entry member
    unfold entryOfAudit?
    cases details : entry.details <;> simp_all [AuditDetails.isLoan]
  have unissued : notices.filter isIssuedNotice = [] := by
    rw [List.filter_eq_nil_iff]
    intro notice member
    have fine := fines notice member
    cases notice <;> simp_all [NotificationEvent.isFine, isIssuedNotice]
  have unheld : notices.filterMap heldOfNotice? = [] := by
    rw [List.filterMap_eq_nil_iff]
    intro notice member
    have fine := fines notice member
    cases notice <;> simp_all [NotificationEvent.isFine, heldOfNotice?]
  refine ⟨?_, trails.recorded, ?_, ?_, trails.counted, trails.branches, trails.topics⟩
  · simpa [Logs.note, unaudited] using trails.audited
  · simpa [Logs.note, unissued] using trails.announced
  · simpa [Logs.note, unheld] using trails.waiters

/-- The dates of a title after a checkout. -/
theorem datesOf_checkOut (eventId actorId branchId : String) (record : CirculationRecord)
    (isbn : String) : (before.checkOut eventId actorId branchId record).datesOf isbn =
      before.datesOf isbn ++ if record.isbn = isbn then [record.borrowedAt.date] else [] := by
  simp only [datesOf, checkOut, DemandForecaster.recordCheckout, appendDate, Dict.get?_set]
  split
  · next same =>
      subst same
      rfl
  · simp

private theorem branchDatesOf_checkOut (eventId actorId home : String) (record : CirculationRecord)
    (isbn branchId : String) :
    (before.checkOut eventId actorId home record).branchDatesOf isbn branchId =
      before.branchDatesOf isbn branchId ++
        if home ≠ "" ∧ record.isbn = isbn ∧ home = branchId then [record.borrowedAt.date]
        else [] := by
  simp only [branchDatesOf, checkOut, DemandForecaster.recordCheckout]
  by_cases unnamed : home = ""
  · simp [unnamed]
  · simp only [unnamed, if_false, appendDate, Dict.get?_set, Prod.mk.injEq, ne_eq,
      not_false_eq_true, true_and]
    split
    · next same =>
        obtain ⟨rfl, rfl⟩ := same
        rfl
    · simp

theorem Trails.checkOut (trails : Trails before) (eventId actorId branchId : String)
    (record : CirculationRecord) : Trails (before.checkOut eventId actorId branchId record) := by
  refine ⟨?_, ?_, ?_, ?_, ?_, ?_, ?_⟩
  · simp [Logs.checkOut, trails.audited, entryOfAudit?, entryOfEvent, issuedEvent,
      Outbox.newEvent]
  · simp [Logs.checkOut, trails.recorded, recordOfEvent?, issuedEvent, Outbox.newEvent]
  · simp [Logs.checkOut, trails.announced, isIssuedNotice, issuedNotice]
  · simp only [Logs.checkOut, List.filterMap_append, trails.waiters]
    rfl
  · intro isbn
    rw [datesOf_checkOut, trails.counted]
    by_cases same : record.isbn = isbn <;> simp [Logs.checkOut, same]
  · intro isbn home
    rw [datesOf_checkOut, branchDatesOf_checkOut]
    refine (trails.branches isbn home).append ?_
    split
    · next counted =>
        rw [if_pos counted.2.1]
    · exact List.nil_sublist _
  · intro event member
    rcases List.mem_append.mp member with earlier | new
    · exact trails.topics event earlier
    · rw [List.mem_singleton] at new
      subst event
      rfl

theorem Trails.takeBack (trails : Trails before) (request : ReturnRequest)
    (isbn borrowerId : String) (now : Datetime) (assigned : Option ReservationEntry) :
    Trails (before.takeBack request isbn borrowerId now assigned) := by
  refine ⟨?_, ?_, ?_, ?_, trails.counted, trails.branches, ?_⟩
  · simp [Logs.takeBack, trails.audited, entryOfAudit?, entryOfEvent, returnEvent,
      Outbox.newEvent]
  · simp [Logs.takeBack, trails.recorded, recordOfEvent?, returnEvent, Outbox.newEvent]
  · cases assigned <;> simp [Logs.takeBack, trails.announced, isIssuedNotice, heldNotice]
  · cases assigned <;> simp [Logs.takeBack, trails.waiters, heldOfNotice?, heldOfEvent?,
      heldNotice, returnEvent, Outbox.newEvent]
  · intro event member
    rcases List.mem_append.mp member with earlier | new
    · exact trails.topics event earlier
    · rw [List.mem_singleton] at new
      subst event
      rfl

theorem Trails.logged (trails : Trails before) (logged : Logged before after) : Trails after := by
  cases logged with
  | noted fines others => exact trails.note fines others
  | checkedOut eventId actorId branchId record => exact trails.checkOut eventId actorId branchId record
  | takenBack request isbn borrowerId now assigned =>
      exact trails.takeBack request isbn borrowerId now assigned

end Steps

/-- After any calls, those that raise included, the circulation records, the outbox, the
notifications, the audit log and the forecaster tell the same checkouts and returns in the
same order. -/
theorem run_trails (branchRepo registered : Dict String Distributed.LibraryBranch)
    {trace : List (Transition State TimedOperation)} {final : State}
    (run : Run Step (State.empty branchRepo registered) trace final) : Trails final.logs := by
  apply run.always
  · exact trails_empty branchRepo registered
  · intro before call after trails step
    cases step
    exact trails.logged (exec_logged call.operation call.now before)

/-- The awaited copy is returned and held for the waiter. -/
def returnedLoan : List TimedOperation :=
  awaitedLoan ++ [⟨.returnPhysicalBook { copyId := "C1", eventId := "E2" }, .min⟩]

theorem run_trails_returnedLoan :
    let final := returnedLoan.foldl serve (State.empty .empty .empty)
    final.records.length = 1 ∧ final.outbox.length = 2 ∧ final.notifications.length = 2 ∧
      Trails final.logs := by
  intro final
  have run : Run Step (State.empty .empty .empty) (Run.trail serve _ returnedLoan) final :=
    Run.of_exec (fun _ _ => rfl) _ returnedLoan
  exact ⟨by decide +kernel, by decide +kernel, by decide +kernel, run_trails .empty .empty run⟩

end LibraFlow.Container
