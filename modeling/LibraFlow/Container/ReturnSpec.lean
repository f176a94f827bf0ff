import LibraFlow.Container.Desk

/-! What a return does on a reachable container, in full. The only way a return
fails after it has started is a pickup deadline past the last representable date,
which is computed after the loan is closed and the waiter has left the queue. -/

set_option autoImplicit false

namespace LibraFlow.Core.User

/-- Close one loan of a copy and change nothing else in the history. -/
structure ClosesLoan (copyId : String) (isLate isDamaged : Bool) (now : Datetime)
    (before after : List HistoryEntry) : Prop where
  split : ∃ earlier entry later, before = earlier ++ entry :: later ∧
    entry.isOpenFor copyId = true ∧
    (∀ other ∈ earlier ++ later, other.isOpenFor copyId = false) ∧
    after = earlier ++ { entry with
      returnedAt := some now, isLate := isLate, isDamaged := isDamaged } :: later

private theorem closesLoan_closeLatest {copyId : String} (isLate isDamaged : Bool) (now : Datetime)
    {history : List HistoryEntry} (single : openLoans copyId history = 1) :
    ClosesLoan copyId isLate isDamaged now history
      (closeLatest copyId isLate isDamaged now history) := by
  cases closesLatest_closeLatest copyId isLate isDamaged now history with
  | @closed earlier later entry split isOpen latest changed =>
      refine ⟨earlier, entry, later, split, isOpen, ?_, changed⟩
      have noneEarlier : earlier.countP (HistoryEntry.isOpenFor copyId) = 0 := by
        rw [split, openLoans, List.countP_append, List.countP_cons_of_pos isOpen] at single
        omega
      intro other member
      rcases List.mem_append.mp member with before | after
      · simpa using List.countP_eq_zero.mp noneEarlier other before
      · exact latest other after
  | unrecorded closed _ =>
      have none : openLoans copyId history = 0 :=
        List.countP_eq_zero.mpr fun entry member => by simp [closed entry member]
      omega

end LibraFlow.Core.User

namespace LibraFlow.Patterns.ReservationManager

open LibraFlow.Core LibraFlow.Library

/-- Queues are in the order in which their entries were made. -/
def Ordered (manager : ReservationManager) : Prop :=
  ∀ isbn, (manager.queue isbn).Pairwise (· < ·)

/-- The pending entry of a title that was made first. -/
structure OldestPending (manager : ReservationManager) (isbn : String) (ref : Ref)
    (entry : ReservationEntry) : Prop where
  read : manager.entries.read? ref = some entry
  title : entry.isbn = isbn
  pending : entry.status = .pending
  oldest : ∀ other later, manager.entries.read? other = some later → later.isbn = isbn →
    later.status = .pending → ref ≤ other

/-- Somebody waits for a title. -/
def HasPending (manager : ReservationManager) (isbn : String) : Prop :=
  ∃ ref entry, manager.entries.read? ref = some entry ∧ entry.isbn = isbn ∧
    entry.status = .pending

variable {manager : ReservationManager} {isbn copyId : String}

private theorem ordered_empty : Ordered empty := by
  intro isbn
  simp [empty, queue]

theorem Ordered.reserved (ordered : manager.Ordered) (queued : manager.Queued)
    {userId reservationId : String} {priorityScore : ℚ} {now : Datetime}
    {result : Ref × ReservationManager}
    (reserves : Reserves manager isbn userId priorityScore reservationId now result) :
    result.2.Ordered := by
  intro other
  cases reserves with
  | found =>
      rw [queue_set]
      split
      · exact ordered isbn
      · exact ordered other
  | joined =>
      rw [queue_set]
      split
      · refine List.pairwise_append.mpr ⟨ordered isbn, List.pairwise_singleton _ _, ?_⟩
        intro ref member last new
        obtain ⟨entry, read, _⟩ := queued.waiting isbn ref member
        rw [List.mem_singleton.mp new]
        exact Heap.lt_next_of_read? read
      · exact ordered other

theorem Ordered.assigned (ordered : manager.Ordered)
    {result : Except Error (Option ReservationEntry) × ReservationManager}
    (assigns : Assigns manager isbn copyId result) : result.2.Ordered := by
  intro other
  cases assigns with
  | nobody => exact ordered other
  | front front =>
      have line := ordered isbn
      rw [front] at line
      rw [queue_set]
      split
      · exact (List.pairwise_cons.mp line).2
      · exact ordered other

theorem Queued.hasPending_iff (queued : manager.Queued) :
    manager.HasPending isbn ↔ manager.queue isbn ≠ [] := by
  constructor
  · rintro ⟨ref, entry, read, title, pending⟩
    rcases queued.settled ref entry read with ⟨_, _, member⟩ | ⟨ready, _⟩
    · rw [title] at member
      exact List.ne_nil_of_mem member
    · rw [pending] at ready
      cases ready
  · intro waiting
    obtain ⟨ref, member⟩ := List.exists_mem_of_ne_nil _ waiting
    obtain ⟨entry, read, title, pending⟩ := queued.waiting isbn ref member
    exact ⟨ref, entry, read, title, pending⟩

theorem Queued.oldestPending (queued : manager.Queued) (ordered : manager.Ordered) {ref : Ref}
    {rest : List Ref} {entry : ReservationEntry} (front : manager.queue isbn = ref :: rest)
    (read : manager.entries.read? ref = some entry) : manager.OldestPending isbn ref entry := by
  obtain ⟨held, heldRead, title, pending⟩ := queued.waiting isbn ref (by simp [front])
  rw [read, Option.some.injEq] at heldRead
  subst held
  refine ⟨read, title, pending, ?_⟩
  intro other later laterRead laterTitle laterPending
  rcases queued.settled other later laterRead with ⟨_, _, member⟩ | ⟨ready, _⟩
  · rw [laterTitle, front] at member
    have line := ordered isbn
    rw [front, List.pairwise_cons] at line
    rcases List.mem_cons.mp member with same | behind
    · exact Nat.le_of_eq same.symm
    · exact Nat.le_of_lt (line.1 other behind)
  · rw [laterPending] at ready
    cases ready

/-- An entry that was handed a copy. -/
def handed (entry : ReservationEntry) (copyId : String) (expiry : Option Datetime) :
    ReservationEntry :=
  { entry with
    status := .readyForPickup
    assignedCopyId := some copyId
    readyPickupExpiresAt := expiry }

private theorem handleCopyReturned_front (copyId : String) {ref : Ref} {rest : List Ref}
    {entry : ReservationEntry} {now expiry : Datetime} (front : manager.queue isbn = ref :: rest)
    (read : manager.entries.read? ref = some entry) (pending : entry.status = .pending)
    (deadline : now.addHours? pickupWindowHours = some expiry) :
    manager.handleCopyReturned isbn copyId now =
      (.ok (some (handed entry copyId (some expiry))), { manager with
        entries := manager.entries.write ref (handed entry copyId (some expiry))
        queues := manager.queues.set isbn rest }) := by
  unfold handleCopyReturned
  generalize now.addHours? pickupWindowHours = limit at deadline ⊢
  subst limit
  simp only [front, reduceCtorEq, ↓reduceIte, takePending, read, pending, handed]

private theorem handleCopyReturned_overflow (copyId : String) {ref : Ref} {rest : List Ref}
    {entry : ReservationEntry} {now : Datetime} (front : manager.queue isbn = ref :: rest)
    (read : manager.entries.read? ref = some entry) (pending : entry.status = .pending)
    (deadline : now.addHours? pickupWindowHours = none) :
    ∃ after, manager.handleCopyReturned isbn copyId now = (.error .overflowError, after) := by
  unfold handleCopyReturned
  generalize now.addHours? pickupWindowHours = limit at deadline ⊢
  subst limit
  simp only [front, reduceCtorEq, ↓reduceIte, takePending, read, pending]
  exact ⟨_, rfl⟩

end LibraFlow.Patterns.ReservationManager

namespace LibraFlow.Container

open LibraFlow.Core LibraFlow.Library LibraFlow.Storage LibraFlow.Patterns LibraFlow.Services

section Users

variable {before after : State}

/-- A call that makes no user known. -/
def NoNewUsers (before after : State) : Prop :=
  ∀ userId user, after.users.get? userId = some user →
    ∃ earlier, before.users.get? userId = some earlier

private theorem noNewUsers_of_eq (same : after.users = before.users) : NoNewUsers before after := by
  intro userId user known
  rw [same] at known
  exact ⟨user, known⟩

private theorem noNewUsers_of_set {userId : String} {known changed : User}
    (stored : before.users.get? userId = some known) (identity : known.userId = userId)
    (users : ∀ other, after.users.get? other =
      (before.users.set known.userId changed).get? other) : NoNewUsers before after := by
  intro other user found
  rw [users, Dict.get?_set] at found
  split at found
  · next same => exact ⟨known, same ▸ identity ▸ stored⟩
  · exact ⟨user, found⟩

theorem IssueOutcome.noNewUsers {request : IssueRequest} {now : Datetime}
    (outcome : IssueOutcome request now before after) (sound : Sound before) :
    NoNewUsers before after := by
  cases outcome with
  | refused untouched => exact noNewUsers_of_eq untouched.users
  | overflowed taken _ _ users _ | issued taken _ users _ =>
      exact noNewUsers_of_set taken.known
        (sound.consistent.userIds request.userId _ taken.known) users

private theorem closeLoan_users (request : ReturnRequest) (borrowerId : String) (now : Datetime)
    (sound : Sound before) (users : after.users = closeLoan request borrowerId now before.users) :
    NoNewUsers before after := by
  cases known : before.users.get? borrowerId with
  | none =>
      refine noNewUsers_of_eq (users.trans ?_)
      simp [closeLoan, known]
  | some user =>
      have stored : ∀ other, after.users.get? other = (before.users.set user.userId
          (user.recordReturn request.copyId request.isLate request.isDamaged now)).get? other := by
        intro other
        rw [users, closeLoan, known]
      exact noNewUsers_of_set known (sound.consistent.userIds borrowerId user known) stored

theorem ReturnOutcome.noNewUsers {request : ReturnRequest} {now : Datetime}
    (outcome : ReturnOutcome request now before after) (sound : Sound before) :
    NoNewUsers before after := by
  cases outcome with
  | refused untouched => exact noNewUsers_of_eq untouched.users
  | notOnLoan _ _ _ users _ | overflowed _ _ _ _ _ users _ | returned _ _ _ users _
  | held _ _ _ _ users _ => exact closeLoan_users request _ now sound users

theorem FineOutcome.noNewUsers {userId : String} (outcome : FineOutcome userId before after)
    (sound : Sound before) : NoNewUsers before after := by
  cases outcome with
  | refused untouched => exact noNewUsers_of_eq untouched.users
  | changed known users _ _ =>
      exact noNewUsers_of_set known (sound.consistent.userIds userId _ known)
        fun other => by rw [users]

theorem TransferOutcome.users {branches : Dict String Distributed.LibraryBranch}
    {copyId destBranchId : String}
    (outcome : TransferOutcome branches copyId destBranchId before after) :
    after.users = before.users := by
  cases outcome with
  | refused untouched => exact untouched.users
  | departed moved _ _ _ => exact moved.users

private theorem executeRebalancingPlan_users (now : Datetime) (plan : List PlanItem)
    (before : State) :
    (executeRebalancingPlan now plan before).2.users = before.users := by
  induction plan generalizing before with
  | nil => rfl
  | cons item rest ih =>
      rw [executeRebalancingPlan, Proc.bind_apply]
      have first := (executeItem_outcome item now before).users
      rcases ran : executeItem item now before with ⟨_ | executed, middle⟩ <;> rw [ran] at first
      · exact first
      · have later := ih middle
        simp only [Proc.bind_apply]
        rcases finished : executeRebalancingPlan now rest middle with ⟨_ | others, after⟩ <;>
          rw [finished] at later <;> exact later.trans first

/-- Only a registration makes a user known. -/
theorem exec_noNewUsers (operation : Operation) (now : Datetime) (sound : Sound before)
    (other : ∀ request, operation ≠ .registerUser request) :
    NoNewUsers before (operation.exec now before) := by
  cases operation with
  | registerBook formatType actorId arguments =>
      cases registerBook_outcome formatType actorId arguments now before with
      | refused untouched => exact noNewUsers_of_eq untouched.users
      | listed _ _ users _ => exact noNewUsers_of_eq users
  | addPhysicalCopy isbn copyId branchId shelfLocation price actorId =>
      cases acquisition_outcome isbn copyId branchId shelfLocation price actorId now before with
      | refused untouched => exact noNewUsers_of_eq untouched.users
      | added _ _ _ _ _ _ users _ => exact noNewUsers_of_eq users
  | registerUser request => exact absurd rfl (other request)
  | issuePhysicalBook request => exact (issue_outcome request now before).noNewUsers sound
  | returnPhysicalBook request => exact (return_outcome request now before).noNewUsers sound
  | reserveBook isbn userId reservationId => exact noNewUsers_of_eq rfl
  | requestSmartAllocation isbn userId requestId =>
      exact noNewUsers_of_eq
        (requestSmartAllocation_untouched isbn userId requestId now before).users
  | processSmartAllocationDrop isbn transactionId eventId =>
      rcases allocationDrop_outcome isbn transactionId eventId now before with
        untouched | ⟨request, _, outcome⟩
      · exact noNewUsers_of_eq untouched.users
      · exact outcome.noNewUsers sound
  | transferCopy copyId destBranchId requestedBy transferId =>
      exact noNewUsers_of_eq
        (transfer_outcome copyId destBranchId requestedBy transferId now before).users
  | executeRebalancingPlan plan =>
      exact noNewUsers_of_eq (executeRebalancingPlan_users now plan before)
  | completeTransfer transferId =>
      cases arrival_outcome transferId now before with
      | refused untouched => exact noNewUsers_of_eq untouched.users
      | arrived _ _ moved _ => exact noNewUsers_of_eq moved.users
  | chargeFine userId isbn overdueDays actorId =>
      exact (charge_outcome userId isbn overdueDays actorId now before).noNewUsers sound
  | payFine userId amount paymentMethod metadata transactionId =>
      exact (pay_outcome userId amount paymentMethod metadata transactionId now
        before).noNewUsers sound
  | getBookDetails isbn => exact noNewUsers_of_eq rfl

private theorem registerUser_users {request : RegisterRequest} {userId : String} {user : User}
    (known : (registerUser request before).2.users.get? userId = some user) :
    userId = request.userId ∨ ∃ earlier, before.users.get? userId = some earlier := by
  unfold registerUser at known
  simp only [Proc.read_bind_apply] at known
  cases existing : before.users.contains request.userId with
  | true =>
      rw [existing] at known
      exact .inr ⟨user, known⟩
  | false =>
      rw [existing] at known
      cases accepted : createUser request.role request.arguments with
      | error error =>
          rw [accepted] at known
          exact .inr ⟨user, known⟩
      | ok created =>
          rw [accepted] at known
          simp only [Bool.not_false, Proc.check_true_bind_apply, Proc.lift_ok_bind_apply,
            Proc.update_bind_apply, Proc.pure_apply, State.putUser, Dict.get?_set] at known
          split at known
          · next same =>
              rw [← same, (createUser_ok accepted).1]
              exact .inl rfl
          · exact .inr ⟨user, known⟩

end Users

section Queues

variable {now : Datetime} {before after : Desk}

/-- Every queue holds the pending entries of its title in the order they were made. -/
def InLine (manager : ReservationManager) : Prop := manager.Queued ∧ manager.Ordered

theorem InLine.offered {manager changed : ReservationManager} {isbn copyId : String}
    {result : Except Error (Option ReservationEntry)} (inLine : InLine manager)
    (offered : manager.handleCopyReturned isbn copyId now = (result, changed)) :
    InLine changed := by
  have assigns : ReservationManager.Assigns manager isbn copyId (result, changed) := by
    rw [← offered]
    exact inLine.1.assigns
  exact ⟨inLine.1.assigned assigns, inLine.2.assigned assigns⟩

theorem Executes.reservationMgr {plan : List PlanItem} (executes : Executes now plan before after) :
    after.reservationMgr = before.reservationMgr := by
  induction executes with
  | ended => rfl
  | skipped _ ih => exact ih
  | moved departs _ ih =>
      cases departs
      exact ih

theorem Handles.inLine {operation : Operation} (handles : Handles now operation before after)
    (inLine : InLine before.reservationMgr) : InLine after.reservationMgr := by
  cases handles with
  | quiet | acquire => exact inLine
  | issue lends | allot _ lends => cases lends <;> exact inLine
  | giveBack takesBack => cases takesBack <;> exact inLine.offered (by assumption)
  | @reserve isbn userId reservationId =>
      have reserves := @ReservationManager.Queued.reserves before.reservationMgr isbn userId
        reservationId 0 now inLine.1
      exact ⟨inLine.1.reserved reserves, inLine.2.reserved inLine.1 reserves⟩
  | transfer departs =>
      cases departs
      exact inLine
  | rebalance executes =>
      rw [executes.reservationMgr]
      exact inLine
  | arrive arrives =>
      cases arrives
      exact inLine

end Queues

/-- What callers promise, with users of non-empty identifiers. -/
structure Promised (call : Transition State TimedOperation) : Prop where
  admissible : Admissible call
  named : ∀ request, call.label.operation = .registerUser request → request.userId ≠ ""

/-- What every reachable state has. -/
structure InOrder (state : State) : Prop where
  sound : Sound state
  inLine : InLine state.reservationMgr
  named : ∀ userId user, state.users.get? userId = some user → userId ≠ ""

theorem inOrder_empty (branchRepo registered : Dict String Distributed.LibraryBranch) :
    InOrder (State.empty branchRepo registered) :=
  ⟨sound_empty branchRepo registered,
    ⟨ReservationManager.queued_empty, ReservationManager.ordered_empty⟩, by simp [State.empty]⟩

theorem InOrder.step {before after : State} {call : TimedOperation} (inOrder : InOrder before)
    (step : Step before call after) (promised : Promised ⟨before, call, after⟩) :
    InOrder after := by
  refine ⟨(step_explained step promised.admissible inOrder.sound).sound inOrder.sound,
    (step_handles step promised.admissible inOrder.sound).inLine inOrder.inLine, ?_⟩
  intro userId user known
  have reached : call.operation.exec call.now before = after := step
  rw [← reached] at known
  by_cases registers : ∃ request, call.operation = .registerUser request
  · obtain ⟨request, operation⟩ := registers
    rw [operation] at known
    rcases registerUser_users known with new | ⟨earlier, old⟩
    · rw [new]
      exact promised.named request operation
    · exact inOrder.named userId earlier old
  · obtain ⟨earlier, old⟩ := exec_noNewUsers call.operation call.now inOrder.sound
      (fun request operation => registers ⟨request, operation⟩) userId user known
    exact inOrder.named userId earlier old

theorem run_inOrder (branchRepo registered : Dict String Distributed.LibraryBranch)
    {trace : List (Transition State TimedOperation)} {final : State}
    (run : Run Step (State.empty branchRepo registered) trace final)
    (promised : ∀ call ∈ trace, Promised call) : InOrder final :=
  run.invariant promised (inOrder_empty branchRepo registered)
    fun _ _ _ earlier taken permitted => earlier.step taken permitted

/-- The outbox event of a return. -/
def returnEvent (request : ReturnRequest) (isbn borrowerId : String) (reservationId : Option String)
    (now : Datetime) : OutboxEvent CopyEvent :=
  Outbox.newEvent request.eventId "copy.returned" (.returned request.copyId isbn borrowerId
    request.isLate request.isDamaged reservationId) now

/-- Where a returned copy goes: to the oldest pending reservation of its title, or
to the shelf when there is none. -/
inductive Disposes (request : ReturnRequest) (now : Datetime) (copy : BookCopy)
    (borrowerId : String) (before after : State) : Prop where
  | shelved (nobody : ¬ before.reservationMgr.HasPending copy.bookIsbn)
      (copies : after.bookRepo.view = Function.update before.bookRepo.view request.copyId
        (some { copy with status := .available, currentBorrowerId := none }))
      (reservations : after.reservationMgr = before.reservationMgr)
      (outbox : after.outbox =
        before.outbox ++ [returnEvent request copy.bookIsbn borrowerId none now])
  | held {ref : Ref} {entry : ReservationEntry} {expiry : Datetime}
      (oldest : before.reservationMgr.OldestPending copy.bookIsbn ref entry)
      (copies : after.bookRepo.view = Function.update before.bookRepo.view request.copyId
        (some { copy with
          status := .reserved
          currentBorrowerId := none
          currentReserverId := some entry.userId }))
      (entries : after.reservationMgr.entries = before.reservationMgr.entries.write ref
        { entry with
          status := .readyForPickup
          assignedCopyId := some request.copyId
          readyPickupExpiresAt := some expiry })
      (front : before.reservationMgr.queue copy.bookIsbn =
        ref :: after.reservationMgr.queue copy.bookIsbn)
      (queues : ∀ isbn, isbn ≠ copy.bookIsbn →
        after.reservationMgr.queue isbn = before.reservationMgr.queue isbn)
      (index : after.reservationMgr.reservations = before.reservationMgr.reservations)
      (outbox : after.outbox = before.outbox ++
        [returnEvent request copy.bookIsbn borrowerId (some entry.reservationId) now])

/-- A completed return: one open loan of the borrower is closed, the copy goes on,
and nothing else changes. -/
structure TakenBack (request : ReturnRequest) (now : Datetime) (copy : BookCopy)
    (borrowerId : String) (before after : State) : Prop where
  borrower : ∃ user history, before.users.get? borrowerId = some user ∧
    User.ClosesLoan request.copyId request.isLate request.isDamaged now user.borrowHistory
      history ∧
    request.copyId ∈ user.activeBorrowedCopyIds ∧
    after.users.get? borrowerId = some { user with
      activeBorrowedCopyIds := user.activeBorrowedCopyIds.erase request.copyId
      borrowHistory := history }
  users : ∀ userId, userId ≠ borrowerId → after.users.get? userId = before.users.get? userId
  records : after.records = before.records
  disposes : Disposes request now copy borrowerId before after

/-- What a return may do. -/
inductive ReturnSpec (request : ReturnRequest) (now : Datetime) (before : State) :
    Except Error ReturnReceipt × State → Prop where
  | unknown (absent : before.bookRepo.getCopy request.copyId = none) :
      ReturnSpec request now before (.error (.copyNotFound request.copyId), before)
  | notIssued {ref : Ref} {copy : BookCopy} {detail : String}
      (found : before.bookRepo.getCopy request.copyId = some (ref, copy))
      (status : copy.status ≠ .issued) :
      ReturnSpec request now before (.error (.invalidStateTransition detail), before)
  | returned {ref : Ref} {copy : BookCopy} {borrowerId : String} {receipt : ReturnReceipt}
      {after : State} (found : before.bookRepo.getCopy request.copyId = some (ref, copy))
      (status : copy.status = .issued) (borrower : copy.currentBorrowerId = some borrowerId)
      (takenBack : TakenBack request now copy borrowerId before after) :
      ReturnSpec request now before (.ok receipt, after)

/-- A copy on loan comes back to a waiter whose pickup deadline is not a date. -/
def Overdated (request : ReturnRequest) (now : Datetime) (before : State) : Prop :=
  ∃ ref copy, before.bookRepo.getCopy request.copyId = some (ref, copy) ∧
    copy.status = .issued ∧ before.reservationMgr.HasPending copy.bookIsbn ∧
    now.addHours? ReservationManager.pickupWindowHours = none

section Return

variable {request : ReturnRequest} {now : Datetime} {before : State} {ref : Ref}
  {copy returned : BookCopy} {borrowerId : String} {manager : ReservationManager}

/-- The state in which a returned copy is offered to the queue. -/
def offering (request : ReturnRequest) (now : Datetime) (before : State) (ref : Ref)
    (returned : BookCopy) (borrowerId : String) : State :=
  (({ before with users := closeLoan request borrowerId now before.users }).mutateCopy ref
    returned).saveCopy ref

/-- The last entries a return makes. -/
def recorded (request : ReturnRequest) (now : Datetime) (isbn borrowerId : String)
    (reservationId : Option String) (state : State) : State :=
  ((state.saveEvent request.eventId (.returned request.copyId isbn borrowerId request.isLate
    request.isDamaged reservationId) now).invalidateBook isbn).logEvent now request.actorId
      request.copyId (.returnBook borrowerId request.isLate request.isDamaged reservationId)

/-- What a return does once the queue has answered. -/
def finishReturn (request : ReturnRequest) (now : Datetime) (ref : Ref) (returned : BookCopy)
    (borrowerId : String) (assigned : Option ReservationEntry) : Call ReturnReceipt := do
  let final ← holdFor ref returned assigned
  Proc.update (recorded request now final.bookIsbn borrowerId
    (assigned.map ReservationEntry.reservationId))
  return {
    copyId := request.copyId
    status := final.status
    previousBorrower := borrowerId
    autoAssignedToReservation := assigned }

theorem return_presented (presented : Presented request before borrowerId ref copy)
    (accepted : copy.returnBook = .ok returned) :
    returnPhysicalBook request now before =
      (offerToQueue returned.bookIsbn request.copyId now >>=
        finishReturn request now ref returned borrowerId)
        (offering request now before ref returned borrowerId) := by
  have named := presented.named
  rw [presented.borrower] at named
  unfold returnPhysicalBook
  simp only [Proc.read_bind_apply, presented.held, Proc.expect_some_bind_apply, presented.borrower,
    named, Proc.check_true_bind_apply, Proc.update_bind_apply, accepted, Proc.lift_ok_bind_apply,
    Option.getD_some]
  rfl

theorem return_overflows (presented : Presented request before borrowerId ref copy)
    (accepted : copy.returnBook = .ok returned) {error : Error}
    (offered : before.reservationMgr.handleCopyReturned returned.bookIsbn request.copyId now =
      (.error error, manager)) :
    returnPhysicalBook request now before = (.error error,
      { offering request now before ref returned borrowerId with reservationMgr := manager }) := by
  have asked : (offering request now before ref returned borrowerId).reservationMgr.handleCopyReturned
      returned.bookIsbn request.copyId now = (.error error, manager) := offered
  rw [return_presented presented accepted, offerToQueue_error_bind asked]

theorem return_shelves (presented : Presented request before borrowerId ref copy)
    (accepted : copy.returnBook = .ok returned)
    (offered : before.reservationMgr.handleCopyReturned returned.bookIsbn request.copyId now =
      (.ok none, manager)) :
    ∃ receipt, returnPhysicalBook request now before = (.ok receipt,
      recorded request now returned.bookIsbn borrowerId none
        { offering request now before ref returned borrowerId with
          reservationMgr := manager }) := by
  have asked : (offering request now before ref returned borrowerId).reservationMgr.handleCopyReturned
      returned.bookIsbn request.copyId now = (.ok none, manager) := offered
  rw [return_presented presented accepted, offerToQueue_none_bind asked]
  exact ⟨_, rfl⟩

theorem return_holds (presented : Presented request before borrowerId ref copy)
    (accepted : copy.returnBook = .ok returned) {entry : ReservationEntry} {held : BookCopy}
    (offered : before.reservationMgr.handleCopyReturned returned.bookIsbn request.copyId now =
      (.ok (some entry), manager)) (reserved : returned.reserve entry.userId = .ok held) :
    ∃ receipt, returnPhysicalBook request now before = (.ok receipt,
      recorded request now held.bookIsbn borrowerId (some entry.reservationId)
        (((({ offering request now before ref returned borrowerId with
          reservationMgr := manager }).dispatch (.bookReservedAvailable entry.userId
            returned.bookIsbn request.copyId entry.reservationId
            entry.readyPickupExpiresAt)).mutateCopy ref held).saveCopy ref)) := by
  have asked : (offering request now before ref returned borrowerId).reservationMgr.handleCopyReturned
      returned.bookIsbn request.copyId now = (.ok (some entry), manager) := offered
  rw [return_presented presented accepted, offerToQueue_some_bind asked]
  simp only [finishReturn, holdFor, reserved]
  exact ⟨_, rfl⟩

/-- On a copy that is lent out a return passes its checks. -/
theorem InOrder.presented (inOrder : InOrder before)
    (found : before.bookRepo.getCopy request.copyId = some (ref, copy))
    (status : copy.status = .issued) :
    ∃ borrowerId user, Presented request before borrowerId ref copy ∧
      before.users.get? borrowerId = some user ∧
      before.ledger.OnLoan request.copyId borrowerId := by
  have present := view_of_getCopy found
  have coherent := inOrder.sound.consistent.coherent request.copyId copy present
  obtain ⟨borrowerId, borrower⟩ := Option.isSome_iff_exists.mp (coherent.borrower.mpr status)
  have onLoan : before.ledger.OnLoan request.copyId borrowerId := ⟨copy, present, status, borrower⟩
  obtain ⟨user, known⟩ := inOrder.sound.consistent.borrowers request.copyId borrowerId onLoan
  have named : truthy copy.currentBorrowerId = true := by
    rw [borrower]
    simpa [truthy] using inOrder.named borrowerId user known
  exact ⟨borrowerId, user, ⟨found, borrower, named⟩, known, onLoan⟩

theorem InOrder.takenBack {after : State} {user : User} (inOrder : InOrder before)
    (known : before.users.get? borrowerId = some user)
    (onLoan : before.ledger.OnLoan request.copyId borrowerId)
    (users : after.users = closeLoan request borrowerId now before.users)
    (records : after.records = before.records)
    (disposes : Disposes request now copy borrowerId before after) :
    TakenBack request now copy borrowerId before after := by
  have identity := inOrder.sound.consistent.userIds borrowerId user known
  have shows := inOrder.sound.consistent.records borrowerId user known
  have stored : after.users = before.users.set borrowerId
      (user.recordReturn request.copyId request.isLate request.isDamaged now) := by
    rw [users, closeLoan, known]
    simp only [identity]
  refine ⟨⟨user, User.closeLatest request.copyId request.isLate request.isDamaged now
    user.borrowHistory, known, ?_, ?_, ?_⟩, ?_, records, disposes⟩
  · exact User.closesLoan_closeLatest request.isLate request.isDamaged now
      (shows.openLoan request.copyId onLoan)
  · exact (shows.active request.copyId).mpr onLoan
  · rw [stored, Dict.get?_set_self]
    rfl
  · intro userId different
    rw [stored, Dict.get?_set_of_ne _ _ (Ne.symm different)]

theorem InOrder.shelves {after : State} (inOrder : InOrder before)
    (found : before.bookRepo.getCopy request.copyId = some (ref, copy))
    (accepted : copy.returnBook = .ok returned)
    (status : copy.status = .issued)
    (nobody : before.reservationMgr.queue copy.bookIsbn = [])
    (reached : after = recorded request now returned.bookIsbn borrowerId none
      { offering request now before ref returned borrowerId with
        reservationMgr := before.reservationMgr }) :
    Disposes request now copy borrowerId before after := by
  have same := BookCopy.sameCopy_returnBook accepted
  have view := (inOrder.sound.repository.mutate_saveCopy found same).2.1
  obtain ⟨_, rfl⟩ | ⟨reserved, _⟩ := BookCopy.returnBook_ok accepted
  · subst reached
    refine .shelved ?_ view rfl rfl
    rw [inOrder.inLine.1.hasPending_iff]
    exact not_not.mpr nobody
  · rw [status] at reserved
    cases reserved

theorem InOrder.holds {after : State} {entry : ReservationEntry} {waiting : Ref}
    {rest : List Ref} {expiry : Datetime} {notified : NotificationEvent} {held : BookCopy}
    (inOrder : InOrder before)
    (found : before.bookRepo.getCopy request.copyId = some (ref, copy))
    (accepted : copy.returnBook = .ok returned) (status : copy.status = .issued)
    (front : before.reservationMgr.queue copy.bookIsbn = waiting :: rest)
    (read : before.reservationMgr.entries.read? waiting = some entry)
    (reserved : returned.reserve entry.userId = .ok held)
    (reached : after = recorded request now held.bookIsbn borrowerId (some entry.reservationId)
      (((({ offering request now before ref returned borrowerId with
        reservationMgr := { before.reservationMgr with
          entries := before.reservationMgr.entries.write waiting
            (ReservationManager.handed entry request.copyId (some expiry))
          queues := before.reservationMgr.queues.set copy.bookIsbn rest } }).dispatch
            notified).mutateCopy ref held).saveCopy ref)) :
    Disposes request now copy borrowerId before after := by
  have first := inOrder.sound.repository.mutate_saveCopy found (BookCopy.sameCopy_returnBook accepted)
  have second := first.1.mutate_saveCopy first.2.2 (BookCopy.sameCopy_reserve reserved)
  have view := second.2.1
  rw [first.2.1, Function.update_idem] at view
  have oldest := inOrder.inLine.1.oldestPending inOrder.inLine.2 front read
  obtain ⟨_, rfl⟩ | ⟨onHold, _⟩ := BookCopy.returnBook_ok accepted
  · obtain ⟨_, rfl⟩ := BookCopy.reserve_ok reserved
    subst reached
    refine .held oldest view rfl ?_ ?_ rfl rfl
    · exact front.trans (by simp [recorded, State.logEvent, State.invalidateBook, State.saveEvent,
        State.saveCopy, State.mutateCopy, State.dispatch])
    · intro isbn different
      simp [recorded, State.logEvent, State.invalidateBook, State.saveEvent, State.saveCopy,
        State.mutateCopy, State.dispatch, Ne.symm different]
  · rw [status] at onHold
    cases onHold

/-- A return on a state in order does what it may do, unless it hands the copy to a
waiter whose deadline is not a date. -/
theorem InOrder.returnSpec_iff (inOrder : InOrder before) (request : ReturnRequest)
    (now : Datetime) :
    ReturnSpec request now before (returnPhysicalBook request now before) ↔
      ¬ Overdated request now before := by
  cases found : before.bookRepo.getCopy request.copyId with
  | none =>
      have raised : returnPhysicalBook request now before =
          (.error (.copyNotFound request.copyId), before) := by
        simp [returnPhysicalBook, found]
      rw [raised]
      refine iff_of_true (.unknown found) ?_
      rintro ⟨ref, copy, present, _⟩
      rw [found] at present
      cases present
  | some pair =>
      obtain ⟨ref, copy⟩ := pair
      by_cases status : copy.status = .issued
      · obtain ⟨borrowerId, user, presented, known, onLoan⟩ := inOrder.presented found status
        have accepted : copy.returnBook =
            .ok { copy with currentBorrowerId := none, status := .available } := by
          rw [BookCopy.returnBook, status]
        cases line : before.reservationMgr.queue copy.bookIsbn with
        | nil =>
            have offered : before.reservationMgr.handleCopyReturned copy.bookIsbn request.copyId
                now = (.ok none, before.reservationMgr) := by
              rw [ReservationManager.handleCopyReturned, if_pos line]
            obtain ⟨receipt, ran⟩ := return_shelves presented accepted offered
            rw [ran]
            refine iff_of_true (.returned found status presented.borrower (inOrder.takenBack known
              onLoan rfl rfl (inOrder.shelves found accepted status line rfl))) ?_
            rintro ⟨_, other, present, _, waiting, _⟩
            rw [found, Option.some.injEq, Prod.mk.injEq] at present
            rw [← present.2] at waiting
            exact inOrder.inLine.1.hasPending_iff.mp waiting line
        | cons waiting rest =>
            obtain ⟨entry, read, _, pending⟩ :=
              inOrder.inLine.1.waiting copy.bookIsbn waiting (by simp [line])
            have hasPending : before.reservationMgr.HasPending copy.bookIsbn :=
              inOrder.inLine.1.hasPending_iff.mpr (by simp [line])
            cases deadline : now.addHours? ReservationManager.pickupWindowHours with
            | none =>
                obtain ⟨manager, offered⟩ := ReservationManager.handleCopyReturned_overflow
                  request.copyId line read pending deadline
                rw [return_overflows presented accepted offered]
                refine iff_of_false ?_ (not_not.mpr ⟨ref, copy, found, status, hasPending, deadline⟩)
                intro spec
                cases spec
            | some expiry =>
                have offered := ReservationManager.handleCopyReturned_front request.copyId line
                  read pending deadline
                obtain ⟨receipt, ran⟩ := return_holds presented accepted offered rfl
                rw [ran]
                refine iff_of_true (.returned found status presented.borrower (inOrder.takenBack
                  known onLoan rfl rfl
                  (inOrder.holds found accepted status line read rfl rfl))) ?_
                rintro ⟨_, _, _, _, _, undated⟩
                rw [deadline] at undated
                cases undated
      · have coherent := inOrder.sound.consistent.coherent request.copyId copy
          (view_of_getCopy found)
        have nobody : copy.currentBorrowerId = none := by
          rw [← Option.not_isSome_iff_eq_none, coherent.borrower]
          exact status
        have raised : ∃ detail, returnPhysicalBook request now before =
            (.error (.invalidStateTransition detail), before) := by
          exact ⟨_, by simp [returnPhysicalBook, found, nobody]; rfl⟩
        obtain ⟨detail, raised⟩ := raised
        rw [raised]
        refine iff_of_true (.notIssued found status) ?_
        rintro ⟨_, other, present, issued, _⟩
        rw [found, Option.some.injEq, Prod.mk.injEq] at present
        rw [← present.2] at issued
        exact status issued

end Return

/-- On every reachable state a return is refused without a trace, or closes the
loan and passes the copy on, exactly when no waiter's deadline is past the last
date. -/
theorem run_returnSpec_iff (branchRepo registered : Dict String Distributed.LibraryBranch)
    {trace : List (Transition State TimedOperation)} {final : State}
    (run : Run Step (State.empty branchRepo registered) trace final)
    (promised : ∀ call ∈ trace, Promised call) (request : ReturnRequest) (now : Datetime) :
    ReturnSpec request now final (returnPhysicalBook request now final) ↔
      ¬ Overdated request now final :=
  (run_inOrder branchRepo registered run promised).returnSpec_iff request now

/-- A reader waits for a copy that is out on loan. -/
def awaitedLoan : List TimedOperation :=
  ([.registerBook "physical" "ADMIN" { isbn := some "B1", title := some "Lean" },
    .addPhysicalCopy "B1" "C1" "BRANCH-DELHI" "A1" 100 "ADMIN",
    .registerUser { userId := "U1", name := "Asha", email := "asha@example", passwordHash := "h" },
    .registerUser { userId := "U2", name := "Ravi", email := "ravi@example", passwordHash := "h" },
    .issuePhysicalBook { copyId := "C1", userId := "U1", transactionId := "T1", eventId := "E1" },
    .reserveBook "B1" "U2" "R1"] : List Operation).map fun operation => ⟨operation, .min⟩

def awaited : State := awaitedLoan.foldl serve (State.empty .empty .empty)

theorem awaitedLoan_run : Run Step (State.empty .empty .empty)
    (Run.trail serve (State.empty .empty .empty) awaitedLoan) awaited :=
  Run.of_exec (fun _ _ => rfl) _ awaitedLoan

theorem awaitedLoan_promised : ∀ call ∈ Run.trail serve (State.empty .empty .empty) awaitedLoan,
    Promised call := by
  have checked : ∀ call ∈ Run.trail serve (State.empty .empty .empty) awaitedLoan,
      admissible call.before call.label = true := by decide +kernel
  have named : ∀ call ∈ Run.trail serve (State.empty .empty .empty) awaitedLoan,
      (match call.label.operation with
        | .registerUser request => decide (request.userId ≠ "")
        | _ => true) = true := by decide +kernel
  intro call member
  refine ⟨admissible_sound (checked call member), ?_⟩
  intro request operation
  have shown := named call member
  rw [operation] at shown
  simpa using shown

/-- The copy goes to the waiting reader. -/
theorem run_returnSpec_iff_awaited :
    ¬ Overdated { copyId := "C1", eventId := "E2" } .min awaited ∧
      ReturnSpec { copyId := "C1", eventId := "E2" } .min awaited
        (returnPhysicalBook { copyId := "C1", eventId := "E2" } .min awaited) := by
  have timely : ¬ Overdated { copyId := "C1", eventId := "E2" } .min awaited := by
    rintro ⟨_, _, _, _, _, undated⟩
    have dated : (Datetime.min.addHours? ReservationManager.pickupWindowHours).isSome = true := by
      decide +kernel
    rw [undated] at dated
    cases dated
  exact ⟨timely, (run_returnSpec_iff .empty .empty awaitedLoan_run awaitedLoan_promised
    { copyId := "C1", eventId := "E2" } .min).mpr timely⟩

/-- The last minute of the year 9999. -/
def lastMinute : Datetime := ⟨datetimeRange - 60000000, by decide⟩

/-- A return in the last minute of the calendar raises after the loan is closed. -/
theorem last_minute_return_raises :
    ∃ trace final, Run Step (State.empty .empty .empty) trace final ∧
      (∀ call ∈ trace, Promised call) ∧
      ¬ ReturnSpec { copyId := "C1", eventId := "E2" } lastMinute final
        (returnPhysicalBook { copyId := "C1", eventId := "E2" } lastMinute final) := by
  refine ⟨_, awaited, awaitedLoan_run, awaitedLoan_promised, ?_⟩
  have raised : (match (returnPhysicalBook { copyId := "C1", eventId := "E2" } lastMinute
      awaited).1 with
        | .error error => decide (error = .overflowError)
        | .ok _ => false) = true := by decide +kernel
  rcases ran : returnPhysicalBook { copyId := "C1", eventId := "E2" } lastMinute awaited with
    ⟨result, after⟩
  rw [ran] at raised
  intro spec
  cases spec <;> cases raised

end LibraFlow.Container
