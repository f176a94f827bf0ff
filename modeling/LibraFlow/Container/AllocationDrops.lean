import LibraFlow.Container.Acquisition
import LibraFlow.Container.IssueAtomicity
import LibraFlow.Dsa.AllocationOrder
import LibraFlow.Library.Frame

/-! Allocation drops. The most urgent request leaves the queue before its user is
asked whether they may borrow, and is not put back when the checkout raises. -/

set_option autoImplicit false

namespace LibraFlow.Container

open LibraFlow.Core LibraFlow.Library LibraFlow.Storage LibraFlow.Dsa LibraFlow.Services

/-- Users are stored under their identifiers, and the queues are arranged. -/
structure Reception (state : State) : Prop where
  users : ∀ userId user, state.users.get? userId = some user → user.userId = userId
  queues : ∀ isbn queue, state.allocationQueues.get? isbn = some queue → Arranged queue

section Preserved

open Proc

private theorem reception_empty (branchRepo registered : Dict String Distributed.LibraryBranch) :
    Reception (State.empty branchRepo registered) where
  users _ _ found := by cases found
  queues _ _ found := by cases found

/-- A change of other parts of the state. -/
theorem preserves_elsewhere {change : State → State}
    (users : ∀ state, (change state).users = state.users)
    (queues : ∀ state, (change state).allocationQueues = state.allocationQueues) :
    Preserves Reception (update change : Call Unit) := by
  intro state held
  refine ⟨?_, ?_⟩
  · rw [update_apply, users]
    exact held.users
  · rw [update_apply, queues]
    exact held.queues

private theorem preserves_putUser (user : User) :
    Preserves Reception (update fun state => state.putUser user : Call Unit) := by
  intro state held
  refine ⟨?_, held.queues⟩
  intro userId stored found
  simp only [update_apply, State.putUser, Dict.get?_set] at found
  split at found
  · next same =>
      cases found
      exact same
  · exact held.users userId stored found

private theorem issue_preserves (request : IssueRequest) (now : Datetime) :
    Preserves Reception (issuePhysicalBook request now) := by
  unfold issuePhysicalBook
  refine .bind (preserves_read _) fun foundUser => ?_
  refine .bind (stateless_expect _ _).preserves fun user => ?_
  refine .bind (stateless_check _ _).preserves fun _ => ?_
  refine .bind (preserves_read _) fun foundCopy => ?_
  refine .bind (stateless_expect _ _).preserves fun found => ?_
  refine .bind (stateless_check _ _).preserves fun _ => ?_
  refine .bind (stateless_lift _ _).preserves fun issued => ?_
  refine .bind (preserves_elsewhere (fun _ => rfl) fun _ => rfl) fun _ => ?_
  refine .bind (preserves_putUser _) fun _ => ?_
  refine .bind (stateless_expect _ _).preserves fun dueDate => ?_
  refine .bind (preserves_elsewhere (fun _ => rfl) fun _ => rfl) fun _ => ?_
  refine .bind (preserves_elsewhere (fun _ => rfl) fun _ => rfl) fun _ => ?_
  refine .bind (preserves_putUser _) fun _ => ?_
  repeat refine .bind (preserves_elsewhere (fun _ => rfl) fun _ => rfl) fun _ => ?_
  exact (stateless_pure _).preserves

private theorem return_preserves (request : ReturnRequest) (now : Datetime) :
    Preserves Reception (returnPhysicalBook request now) := by
  have closes : ∀ borrowerId, Preserves Reception (update fun state =>
      { state with users := closeLoan request borrowerId now state.users } : Call Unit) := by
    intro borrowerId state held
    refine ⟨?_, held.queues⟩
    intro userId user found
    simp only [update_apply, closeLoan] at found
    split at found
    · rw [Dict.get?_set] at found
      split at found
      · next same =>
          cases found
          exact same
      · exact held.users userId user found
    · exact held.users userId user found
  have offers : ∀ isbn, Preserves Reception (offerToQueue isbn request.copyId now) := by
    intro isbn state held
    unfold offerToQueue
    split
    · exact ⟨held.users, held.queues⟩
    · exact ⟨held.users, held.queues⟩
    · exact ⟨held.users, held.queues⟩
  have holds : ∀ ref returned assigned, Preserves Reception (holdFor ref returned assigned) := by
    intro ref returned assigned
    cases assigned with
    | none => exact (stateless_pure _).preserves
    | some entry =>
        refine .bind (stateless_lift _ _).preserves fun held => ?_
        repeat refine .bind (preserves_elsewhere (fun _ => rfl) fun _ => rfl) fun _ => ?_
        exact (stateless_pure _).preserves
  unfold returnPhysicalBook
  refine .bind (preserves_read _) fun foundCopy => ?_
  refine .bind (stateless_expect _ _).preserves fun found => ?_
  refine .bind (stateless_check _ _).preserves fun _ => ?_
  refine .bind (closes _) fun _ => ?_
  refine .bind (stateless_lift _ _).preserves fun returned => ?_
  refine .bind (preserves_elsewhere (fun _ => rfl) fun _ => rfl) fun _ => ?_
  refine .bind (preserves_elsewhere (fun _ => rfl) fun _ => rfl) fun _ => ?_
  refine .bind (offers _) fun assigned => ?_
  refine .bind (holds _ _ _) fun final => ?_
  repeat refine .bind (preserves_elsewhere (fun _ => rfl) fun _ => rfl) fun _ => ?_
  exact (stateless_pure _).preserves

private theorem request_preserves (isbn userId requestId : String) (now : Datetime) :
    Preserves Reception (requestSmartAllocation isbn userId requestId now) := by
  intro state held
  unfold requestSmartAllocation
  simp only [read_bind_apply]
  cases known : state.users.get? userId with
  | none => exact held
  | some user =>
      refine ⟨held.users, ?_⟩
      intro other queue found
      have arranged : Arranged ((state.allocationQueues.get? isbn).getD (.new isbn)) := by
        cases existing : state.allocationQueues.get? isbn with
        | none => exact arranged_new isbn
        | some queue => exact held.queues isbn queue existing
      simp only [expect_some_bind_apply, read_bind_apply, update_bind_apply, pure_apply,
        Dict.get?_set] at found
      split at found
      · cases found
        exact arranged.enqueue requestId user "BRANCH-CENTRAL" none now
      · exact held.queues other queue found

/-- A drop is the checkout of the first request, once it has left the queue. -/
theorem drop_eq {isbn transactionId eventId : String} {now : Datetime} {state : State}
    {queue rest : SmartAllocationQueue} {top : BorrowRequest} {copy : BookCopy}
    (queued : state.allocationQueues.get? isbn = some queue)
    (popped : queue.popHighestPriority = (some top, rest))
    (shelved : firstAvailable state isbn = some copy) :
    processSmartAllocationDrop isbn transactionId eventId now state =
      (issuePhysicalBook ⟨copy.copyId, top.userId, "SMART_ALLOCATOR", 14, transactionId, eventId⟩ now
        >>= fun record => Pure.pure (some (AllocationResult.mk top.userId top.userName copy.copyId
          top.actualPriority record)))
      { state with allocationQueues := state.allocationQueues.set isbn rest } := by
  simp only [processSmartAllocationDrop, read_bind_apply, queued, popped, shelved,
    update_bind_apply]

private theorem drop_nothing {isbn transactionId eventId : String} {now : Datetime} {state : State}
    (nothing : dropRequest state isbn transactionId eventId = none) :
    processSmartAllocationDrop isbn transactionId eventId now state = (.ok none, state) := by
  simp only [processSmartAllocationDrop, read_bind_apply]
  cases queued : state.allocationQueues.get? isbn with
  | none => rfl
  | some queue =>
      simp only [dropRequest, queued] at nothing
      simp only [read_bind_apply]
      rcases popped : queue.popHighestPriority with ⟨_ | top, rest⟩
      · rfl
      · cases shelved : firstAvailable state isbn with
        | none => rfl
        | some copy => simp [popped, shelved] at nothing

private theorem dropRequest_eq_some {isbn transactionId eventId : String} {state : State}
    {request : IssueRequest} (found : dropRequest state isbn transactionId eventId = some request) :
    ∃ queue top rest copy, state.allocationQueues.get? isbn = some queue ∧
      queue.popHighestPriority = (some top, rest) ∧ firstAvailable state isbn = some copy ∧
      request = ⟨copy.copyId, top.userId, "SMART_ALLOCATOR", 14, transactionId, eventId⟩ := by
  unfold dropRequest at found
  split at found
  · cases found
  · next queue queued =>
      split at found
      · next top rest copy popped shelved =>
          cases found
          exact ⟨queue, top, rest, copy, queued, popped, shelved, rfl⟩
      · cases found

theorem Reception.dequeued {isbn : String} {state : State} (held : Reception state)
    {queue rest : SmartAllocationQueue} {top : BorrowRequest}
    (queued : state.allocationQueues.get? isbn = some queue)
    (popped : queue.popHighestPriority = (some top, rest)) :
    Reception { state with allocationQueues := state.allocationQueues.set isbn rest } := by
  refine ⟨held.users, ?_⟩
  intro other stored found
  simp only [Dict.get?_set] at found
  split at found
  · cases found
    have arranged := (held.queues isbn queue queued).pop
    rw [popped] at arranged
    exact arranged
  · exact held.queues other stored found

private theorem drop_preserves (isbn transactionId eventId : String) (now : Datetime) :
    Preserves Reception (processSmartAllocationDrop isbn transactionId eventId now) := by
  intro state held
  cases found : dropRequest state isbn transactionId eventId with
  | none =>
      rw [drop_nothing found]
      exact held
  | some request =>
      obtain ⟨queue, top, rest, copy, queued, popped, shelved, _⟩ := dropRequest_eq_some found
      rw [drop_eq queued popped shelved]
      have checkout := (issue_preserves ⟨copy.copyId, top.userId, "SMART_ALLOCATOR", 14,
        transactionId, eventId⟩ now).bind fun record => @Stateless.preserves _ _ _ Reception _
          (stateless_pure (some (AllocationResult.mk top.userId top.userName copy.copyId
            top.actualPriority record)))
      exact checkout _ (held.dequeued queued popped)

private theorem requestTransfer_preserves (ref : Ref) (copy : BookCopy)
    (destBranchId requestedBy transferId : String) (now : Datetime) :
    Preserves Reception (requestTransfer ref copy destBranchId requestedBy transferId now) := by
  intro state held
  unfold requestTransfer
  split
  · exact held
  · exact ⟨held.users, held.queues⟩

private theorem transfer_preserves (copyId destBranchId requestedBy transferId : String)
    (now : Datetime) :
    Preserves Reception (transferCopy copyId destBranchId requestedBy transferId now) := by
  unfold transferCopy
  refine .bind (preserves_read _) fun found => ?_
  refine .bind (stateless_expect _ _).preserves fun dest => ?_
  refine .bind (preserves_elsewhere (fun _ => rfl) fun _ => rfl) fun _ => ?_
  refine .bind (preserves_read _) fun foundCopy => ?_
  refine .bind (stateless_expect _ _).preserves fun held => ?_
  refine .bind (preserves_elsewhere ?_ ?_) fun _ => ?_
  · intro state
    exact (registerSource_untouched held.2 state).users
  · intro state
    unfold registerSource
    split
    · rfl
    · split <;> rfl
  · refine .bind (requestTransfer_preserves _ _ _ _ _ _) fun request => ?_
    refine .bind (preserves_elsewhere (fun _ => rfl) fun _ => rfl) fun _ => ?_
    exact (stateless_pure _).preserves

private theorem executeItem_preserves (item : PlanItem) (now : Datetime) :
    Preserves Reception (executeItem item now) := by
  unfold executeItem
  refine .bind (preserves_read _) fun found => ?_
  split
  · exact (stateless_pure _).preserves
  · split
    · exact (stateless_pure _).preserves
    · refine .bind (requestTransfer_preserves _ _ _ _ _ _) fun request => ?_
      repeat refine .bind (preserves_elsewhere (fun _ => rfl) fun _ => rfl) fun _ => ?_
      exact (stateless_pure _).preserves

private theorem plan_preserves (now : Datetime) (plan : List PlanItem) :
    Preserves Reception (executeRebalancingPlan now plan) := by
  induction plan with
  | nil => exact (stateless_pure _).preserves
  | cons item rest ih =>
      refine .bind (executeItem_preserves item now) fun executed => ?_
      refine .bind ih fun others => ?_
      exact (stateless_pure _).preserves

private theorem arrival_preserves (transferId : String) (now : Datetime) :
    Preserves Reception (completeTransfer transferId now) := by
  unfold completeTransfer
  refine .bind (preserves_read _) fun found => ?_
  split
  · exact (stateless_pure _).preserves
  · refine .bind (preserves_read _) fun foundCopy => ?_
    split
    · exact (stateless_pure _).preserves
    · refine .bind (preserves_read _) fun manager => ?_
      refine .bind (stateless_lift _ _).preserves fun arrived => ?_
      repeat refine .bind (preserves_elsewhere (fun _ => rfl) fun _ => rfl) fun _ => ?_
      exact (stateless_pure _).preserves

private theorem charge_preserves (userId isbn : String) (overdueDays : Int) (actorId : String)
    (now : Datetime) : Preserves Reception (chargeFine userId isbn overdueDays actorId now) := by
  unfold chargeFine
  refine .bind (preserves_read _) fun fineAmount => ?_
  refine .bind (preserves_read _) fun found => ?_
  refine .bind (stateless_expect _ _).preserves fun user => ?_
  refine .bind (preserves_putUser _) fun _ => ?_
  repeat refine .bind (preserves_elsewhere (fun _ => rfl) fun _ => rfl) fun _ => ?_
  exact (stateless_pure _).preserves

private theorem pay_preserves (userId : String) (amount : ℚ) (paymentMethod : String)
    (metadata : Patterns.PaymentMetadata) (transactionId : String) (now : Datetime) :
    Preserves Reception (payFine userId amount paymentMethod metadata transactionId now) := by
  unfold payFine
  refine .bind (preserves_read _) fun found => ?_
  refine .bind (stateless_expect _ _).preserves fun user => ?_
  refine .bind (stateless_expect _ _).preserves fun method => ?_
  refine .bind (preserves_read _) fun wallets => ?_
  refine .bind (stateless_lift _ _).preserves fun outcome => ?_
  refine .bind (preserves_elsewhere (fun _ => rfl) fun _ => rfl) fun _ => ?_
  split
  · refine .bind (preserves_putUser _) fun _ => ?_
    refine .bind (preserves_elsewhere (fun _ => rfl) fun _ => rfl) fun _ => ?_
    exact (stateless_pure _).preserves
  · exact (stateless_pure _).preserves

private theorem registration_preserves (request : RegisterRequest) :
    Preserves Reception (registerUser request) := by
  unfold registerUser
  refine .bind (preserves_read _) fun existing => ?_
  refine .bind (stateless_check _ _).preserves fun _ => ?_
  refine .bind (stateless_lift _ _).preserves fun user => ?_
  refine .bind (preserves_putUser _) fun _ => ?_
  exact (stateless_pure _).preserves

private theorem registerBook_preserves (formatType actorId : String) (arguments : BookArguments)
    (now : Datetime) : Preserves Reception (registerBook formatType actorId arguments now) := by
  unfold registerBook
  refine .bind (stateless_lift _ _).preserves fun book => ?_
  repeat refine .bind (preserves_elsewhere (fun _ => rfl) fun _ => rfl) fun _ => ?_
  exact (stateless_pure _).preserves

private theorem acquisition_preserves (isbn copyId branchId shelfLocation : String) (price : ℚ)
    (actorId : String) (now : Datetime) :
    Preserves Reception (addPhysicalCopy isbn copyId branchId shelfLocation price actorId now) := by
  unfold addPhysicalCopy
  refine .bind (preserves_read _) fun found => ?_
  refine .bind (stateless_expect _ _).preserves fun book => ?_
  refine .bind (preserves_read _) fun ref => ?_
  repeat refine .bind (preserves_elsewhere (fun _ => rfl) fun _ => rfl) fun _ => ?_
  exact (stateless_pure _).preserves

private theorem exec_reception (operation : Operation) (now : Datetime) {state : State}
    (held : Reception state) : Reception (operation.exec now state) := by
  cases operation with
  | registerBook formatType actorId arguments =>
      exact registerBook_preserves formatType actorId arguments now state held
  | addPhysicalCopy isbn copyId branchId shelfLocation price actorId =>
      exact acquisition_preserves isbn copyId branchId shelfLocation price actorId now state held
  | registerUser request => exact registration_preserves request state held
  | issuePhysicalBook request => exact issue_preserves request now state held
  | returnPhysicalBook request => exact return_preserves request now state held
  | reserveBook isbn userId reservationId => exact ⟨held.users, held.queues⟩
  | requestSmartAllocation isbn userId requestId =>
      exact request_preserves isbn userId requestId now state held
  | processSmartAllocationDrop isbn transactionId eventId =>
      exact drop_preserves isbn transactionId eventId now state held
  | transferCopy copyId destBranchId requestedBy transferId =>
      exact transfer_preserves copyId destBranchId requestedBy transferId now state held
  | executeRebalancingPlan plan => exact plan_preserves now plan state held
  | completeTransfer transferId => exact arrival_preserves transferId now state held
  | chargeFine userId isbn overdueDays actorId =>
      exact charge_preserves userId isbn overdueDays actorId now state held
  | payFine userId amount paymentMethod metadata transactionId =>
      exact pay_preserves userId amount paymentMethod metadata transactionId now state held
  | getBookDetails isbn => exact ⟨held.users, held.queues⟩

end Preserved

theorem run_reception {branchRepo registered : Dict String Distributed.LibraryBranch}
    {trace : List (Transition State TimedOperation)} {final : State}
    (run : Run Step (State.empty branchRepo registered) trace final) : Reception final := by
  refine run.always (reception_empty branchRepo registered) ?_
  intro before call after held step
  cases step
  exact exec_reception call.operation call.now held

section Checkouts

open Proc

variable {request : IssueRequest} {now : Datetime} {state : State}

private theorem issue_keeps_queues (request : IssueRequest) (now : Datetime) :
    Keeps State.allocationQueues (issuePhysicalBook request now) := by
  unfold issuePhysicalBook
  refine .bind (keeps_read _) fun foundUser => ?_
  refine .bind (stateless_expect _ _).keeps fun user => ?_
  refine .bind (stateless_check _ _).keeps fun _ => ?_
  refine .bind (keeps_read _) fun foundCopy => ?_
  refine .bind (stateless_expect _ _).keeps fun found => ?_
  refine .bind (stateless_check _ _).keeps fun _ => ?_
  refine .bind (stateless_lift _ _).keeps fun issued => ?_
  refine .bind (keeps_update fun _ => rfl) fun _ => ?_
  refine .bind (keeps_update fun _ => rfl) fun _ => ?_
  refine .bind (stateless_expect _ _).keeps fun dueDate => ?_
  repeat refine .bind (keeps_update fun _ => rfl) fun _ => ?_
  exact (stateless_pure _).keeps

/-- A checkout goes through when it is accepted and its due date can be represented. -/
theorem issue_ok_iff : (∃ record, (issuePhysicalBook request now state).1 = .ok record) ↔
    acceptsIssue request state = true ∧ (now.addDays? request.loanDays).isSome = true := by
  unfold issuePhysicalBook acceptsIssue
  cases known : state.users.get? request.userId with
  | none => simp [known]
  | some user =>
      cases eligible : user.canBorrow with
      | false => simp [known, eligible]
      | true =>
          cases held : state.bookRepo.getCopy request.copyId with
          | none => simp [known, eligible, held]
          | some found =>
              cases allowed : mayTake found.2 request.userId with
              | false => simp [known, eligible, held, allowed]
              | true =>
                  obtain ⟨issued, accepted⟩ := checkOut_of_mayTake allowed
                  cases now.addDays? request.loanDays <;>
                    simp [known, eligible, held, allowed, accepted]

/-- The copy is on loan to the user, in the store and on the user's own list. -/
def Holds (state : State) (userId copyId : String) : Prop :=
  (∃ copy, state.bookRepo.view copyId = some copy ∧ copy.status = .issued ∧
    copy.currentBorrowerId = some userId) ∧
  ∃ user, state.users.get? userId = some user ∧ copyId ∈ user.activeBorrowedCopyIds

private theorem issue_accepted {user : User} {ref : Ref} {copy issued : BookCopy}
    {dueDate : Datetime} (taken : Taken request state user ref copy issued)
    (due : now.addDays? request.loanDays = some dueDate) :
    (issuePhysicalBook request now state).2.bookRepo =
        (state.bookRepo.mutate ref issued).saveCopy ref ∧
      (issuePhysicalBook request now state).2.users.get? user.userId =
        some (user.addBorrow request.copyId issued.bookIsbn now) := by
  unfold issuePhysicalBook
  simp [taken.known, taken.eligible, taken.held, taken.allowed, taken.accepted, due,
    State.mutateCopy, State.putUser, State.saveCopy, State.saveEvent, State.dispatch,
    State.logEvent, State.invalidateBook, User.addBorrow]

private theorem issue_holds (held : Reception state) (keyed : StockKeyed state)
    (accepts : acceptsIssue request state = true)
    (representable : (now.addDays? request.loanDays).isSome = true) :
    Holds (issuePhysicalBook request now state).2 request.userId request.copyId := by
  obtain ⟨user, ref, copy, issued, taken⟩ := taken_of_acceptsIssue accepts
  obtain ⟨dueDate, due⟩ := Option.isSome_iff_exists.mp representable
  obtain ⟨bookRepo, users⟩ := issue_accepted taken due
  have identity := held.users request.userId user taken.known
  obtain ⟨_, loan⟩ := BookCopy.checkOut_ok taken.accepted
  refine ⟨⟨issued, ?_, by rw [loan], by rw [loan]⟩, _, identity ▸ users, ?_⟩
  · rw [bookRepo, keyed.view_mutate_saveCopy taken.held (BookCopy.sameCopy_checkOut taken.accepted)]
    exact Function.update_self ..
  · exact Finset.mem_insert_self _ _

end Checkouts

/-- The requests that wait for a title, in the order in which they will be served. -/
def waiting (state : State) (isbn : String) : List BorrowRequest :=
  match state.allocationQueues.get? isbn with
  | none => []
  | some queue => queue.drain queue.size

/-- A drop that raises or returns nothing leaves the queue as it was; a drop that returns
a result has taken the first request, and its user holds the copy. -/
def LosesNobody (isbn transactionId eventId : String) (now : Datetime) (state : State) : Prop :=
  match processSmartAllocationDrop isbn transactionId eventId now state with
  | (.error _, after) => waiting after isbn = waiting state isbn
  | (.ok none, after) => waiting after isbn = waiting state isbn
  | (.ok (some result), after) => ∃ top, waiting state isbn = top :: waiting after isbn ∧
      FirstOf (waiting state isbn) top ∧ result.assignedUserId = top.userId ∧
      Holds after top.userId result.copyId

/-- If there is a request and a copy on the shelf, then the user of the first request may
borrow, the copy is in the store to be taken, and the due date can be represented. -/
def Grantable (isbn transactionId eventId : String) (now : Datetime) (state : State) : Prop :=
  ∀ request, dropRequest state isbn transactionId eventId = some request →
    acceptsIssue request state = true ∧ (now.addDays? request.loanDays).isSome = true

section Drops

variable {isbn transactionId eventId : String} {now : Datetime} {state : State}

private theorem waiting_dequeued {queue rest : SmartAllocationQueue} {top : BorrowRequest}
    (arranged : Arranged queue) (queued : state.allocationQueues.get? isbn = some queue)
    (popped : queue.popHighestPriority = (some top, rest)) {after : State}
    (same : after.allocationQueues = state.allocationQueues.set isbn rest) :
    waiting state isbn = top :: waiting after isbn := by
  rw [waiting, waiting, queued, same, Dict.get?_set_self]
  exact drain_of_pop arranged.ordered popped

private theorem firstOf_waiting {queue rest : SmartAllocationQueue} {top : BorrowRequest}
    (arranged : Arranged queue) (queued : state.allocationQueues.get? isbn = some queue)
    (popped : queue.popHighestPriority = (some top, rest)) : FirstOf (waiting state isbn) top := by
  have members := (drain_spec queue.size arranged.ordered (Nat.le_refl _)).1
  rw [waiting, queued]
  obtain ⟨listed, first⟩ := arranged.firstOf popped
  exact ⟨members.mem_iff.mpr listed, fun other member => first other (members.mem_iff.mp member)⟩

private theorem losesNobody_iff_grantable (held : Reception state) (keyed : StockKeyed state) :
    LosesNobody isbn transactionId eventId now state ↔
      Grantable isbn transactionId eventId now state := by
  unfold LosesNobody Grantable
  cases found : dropRequest state isbn transactionId eventId with
  | none =>
      rw [drop_nothing found]
      refine ⟨fun _ request none => ?_, fun _ => rfl⟩
      cases none
  | some request =>
      obtain ⟨queue, top, rest, copy, queued, popped, shelved, rfl⟩ := dropRequest_eq_some found
      have arranged := held.queues isbn queue queued
      rw [drop_eq queued popped shelved, Proc.bind_apply]
      generalize attempted : IssueRequest.mk copy.copyId top.userId "SMART_ALLOCATOR" 14
        transactionId eventId = request
      generalize dequeued : State.mk _ _ _ _ _ _ _ _ _ _ _ _ _ _ _ = middle
      have kept := issue_keeps_queues request now middle
      have left : middle.allocationQueues = state.allocationQueues.set isbn rest := by
        rw [← dequeued]
      have decided := @issue_ok_iff request now middle
      have same : acceptsIssue request middle = acceptsIssue request state := by
        rw [← dequeued]
        rfl
      have shorter := waiting_dequeued arranged queued popped (kept.trans left)
      rw [same] at decided
      rcases ran : issuePhysicalBook request now middle with ⟨error | record, after⟩
      · rw [ran] at decided shorter
        simp only at decided shorter ⊢
        constructor
        · intro unchanged
          rw [unchanged] at shorter
          exact absurd shorter (List.cons_ne_self top _).symm
        · intro accepted
          obtain ⟨_, impossible⟩ := decided.mpr (accepted request rfl)
          cases impossible
      · have middleHeld : Reception middle := dequeued ▸ held.dequeued queued popped
        have middleKeyed : StockKeyed middle := dequeued ▸ keyed
        obtain ⟨accepts, representable⟩ := decided.mp ⟨record, by rw [ran]⟩
        have holds := issue_holds middleHeld middleKeyed (same.trans accepts) representable
        rw [ran] at shorter holds
        rw [← attempted] at holds
        constructor
        · intro _ other first
          cases first
          exact ⟨accepts, representable⟩
        · intro _
          exact ⟨top, shorter, firstOf_waiting arranged queued popped, rfl, holds⟩

/-- In every state reached, an allocation drop loses nobody exactly when it has nothing to
give, or the checkout of the first request is accepted. -/
theorem run_losesNobody_iff {branchRepo registered : Dict String Distributed.LibraryBranch}
    {trace : List (Transition State TimedOperation)}
    (run : Run Step (State.empty branchRepo registered) trace state) :
    LosesNobody isbn transactionId eventId now state ↔
      Grantable isbn transactionId eventId now state :=
  losesNobody_iff_grantable (run_reception run) (run_keyed run)

end Drops

/-- A title with one copy on the shelf, and a student who has asked for it. -/
def oneRequest : List TimedOperation :=
  ([.registerBook "physical" "ADMIN" { isbn := some "B1", title := some "Lean" },
    .addPhysicalCopy "B1" "C1" "BRANCH-DELHI" "A1" 100 "ADMIN",
    .registerUser { userId := "U1", name := "Asha", email := "asha@example", passwordHash := "h" },
    .requestSmartAllocation "B1" "U1" "R1"] : List Operation).map fun operation => ⟨operation, .min⟩

theorem run_losesNobody_iff_oneRequest :
    let state := oneRequest.foldl (fun state call => call.operation.exec call.now state)
      (State.empty .empty .empty)
    (waiting state "B1").map BorrowRequest.userId = ["U1"] ∧
      LosesNobody "B1" "T1" "E1" .min state := by
  intro state
  have accepted : ((dropRequest state "B1" "T1" "E1").all fun request =>
      acceptsIssue request state && (Datetime.min.addDays? request.loanDays).isSome) = true := by
    decide +kernel
  refine ⟨by decide +kernel, (run_losesNobody_iff (Run.of_exec (fun _ _ => rfl) _ oneRequest)).mpr ?_⟩
  intro request found
  rw [found, Option.all_some, Bool.and_eq_true] at accepted
  exact accepted

/-- The student has run up fines in the meantime. The drop raises and the request is gone. -/
theorem refused_request_is_lost :
    let calls := oneRequest ++ [⟨.chargeFine "U1" "B1" 30 "ADMIN", .min⟩]
    let state := calls.foldl (fun state call => call.operation.exec call.now state)
      (State.empty .empty .empty)
    (∃ trace, Run Step (State.empty .empty .empty) trace state) ∧
      ¬ LosesNobody "B1" "T1" "E1" .min state := by
  intro calls state
  refine ⟨⟨_, Run.of_exec (fun _ _ => rfl) _ calls⟩, ?_⟩
  have raised : (processSmartAllocationDrop "B1" "T1" "E1" .min state).1.toOption.isSome = false := by
    decide +kernel
  have before : (waiting state "B1").length = 1 := by decide +kernel
  have after : (waiting (processSmartAllocationDrop "B1" "T1" "E1" .min state).2 "B1").length = 0 := by
    decide +kernel
  unfold LosesNobody
  rcases ran : processSmartAllocationDrop "B1" "T1" "E1" .min state with ⟨error | result, left⟩
  · intro same
    rw [ran] at after
    simp only at same after
    rw [same, before] at after
    cases after
  · rw [ran] at raised
    cases raised

end LibraFlow.Container
