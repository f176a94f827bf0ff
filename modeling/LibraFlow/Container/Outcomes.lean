import LibraFlow.Container.Operations
import LibraFlow.Storage.InMemoryProperties

/-! What each call can do to the repositories and to the cache. Every service is
opened once, here; the invariants of the container are read off the outcomes. -/

set_option autoImplicit false

namespace LibraFlow.Container

open LibraFlow.Core LibraFlow.Library LibraFlow.Storage LibraFlow.Patterns LibraFlow.Services

/-- A call that touches neither titles, copies, users nor the cache. -/
structure Untouched (before after : State) : Prop where
  bookRepo : after.bookRepo = before.bookRepo
  users : after.users = before.users
  cache : after.cache = before.cache

theorem Untouched.refl (state : State) : Untouched state state := ⟨rfl, rfl, rfl⟩

/-- The checks a checkout has passed when it changes anything. -/
structure Taken (request : IssueRequest) (before : State) (user : User) (ref : Ref)
    (copy issued : BookCopy) : Prop where
  known : before.users.get? request.userId = some user
  eligible : user.canBorrow = true
  held : before.bookRepo.getCopy request.copyId = some (ref, copy)
  allowed : mayTake copy request.userId = true
  accepted : copy.checkOut request.userId = .ok issued

inductive IssueOutcome (request : IssueRequest) (now : Datetime) (before after : State) : Prop where
  | refused (untouched : Untouched before after)
  | overflowed {user : User} {ref : Ref} {copy issued : BookCopy}
      (taken : Taken request before user ref copy issued)
      (overflow : now.addDays? request.loanDays = none)
      (bookRepo : after.bookRepo = before.bookRepo.mutate ref issued)
      (users : ∀ userId, after.users.get? userId =
        (before.users.set user.userId
          (user.addBorrow request.copyId issued.bookIsbn now)).get? userId)
      (cache : after.cache = before.cache)
  | issued {user : User} {ref : Ref} {copy issued : BookCopy}
      (taken : Taken request before user ref copy issued)
      (bookRepo : after.bookRepo = (before.bookRepo.mutate ref issued).saveCopy ref)
      (users : ∀ userId, after.users.get? userId =
        (before.users.set user.userId
          (user.addBorrow request.copyId issued.bookIsbn now)).get? userId)
      (cache : after.cache = before.cache.invalidate ("book:" ++ issued.bookIsbn))

theorem issue_outcome (request : IssueRequest) (now : Datetime) (before : State) :
    IssueOutcome request now before (issuePhysicalBook request now before).2 := by
  unfold issuePhysicalBook
  simp only [Proc.read_bind_apply]
  cases foundUser : before.users.get? request.userId with
  | none => exact .refused ⟨rfl, rfl, rfl⟩
  | some user =>
      cases eligible : user.canBorrow with
      | false => exact .refused (by simp [eligible, Untouched.refl])
      | true =>
          cases foundCopy : before.bookRepo.getCopy request.copyId with
          | none => exact .refused (by simp [eligible, foundCopy, Untouched.refl])
          | some found =>
              obtain ⟨ref, copy⟩ := found
              cases allowed : mayTake copy request.userId with
              | false => exact .refused (by simp [eligible, foundCopy, allowed, Untouched.refl])
              | true =>
                  cases accepted : copy.checkOut request.userId with
                  | error detail =>
                      exact .refused
                        (by simp [eligible, foundCopy, allowed, accepted, Untouched.refl])
                  | ok issued =>
                      have taken : Taken request before user ref copy issued :=
                        ⟨foundUser, eligible, foundCopy, allowed, accepted⟩
                      cases due : now.addDays? request.loanDays with
                      | none =>
                          refine .overflowed taken due ?_ ?_ ?_ <;>
                            simp [eligible, foundCopy, allowed, accepted, State.mutateCopy,
                              State.putUser, User.addBorrow]
                      | some dueDate =>
                          refine .issued taken ?_ ?_ ?_ <;>
                            simp [eligible, foundCopy, allowed, accepted, State.mutateCopy,
                              State.putUser, State.saveCopy, State.saveEvent, State.dispatch,
                              State.logEvent, State.invalidateBook, User.addBorrow, Dict.get?_set]

/-- The checkout an allocation drop attempts. -/
def dropRequest (state : State) (isbn transactionId eventId : String) : Option IssueRequest :=
  match state.allocationQueues.get? isbn with
  | none => none
  | some queue =>
      match queue.popHighestPriority, firstAvailable state isbn with
      | (some top, _), some copy => some {
          copyId := copy.copyId
          userId := top.userId
          actorId := "SMART_ALLOCATOR"
          transactionId
          eventId }
      | _, _ => none

theorem allocationDrop_outcome (isbn transactionId eventId : String) (now : Datetime)
    (before : State) :
    Untouched before (processSmartAllocationDrop isbn transactionId eventId now before).2 ∨
      ∃ request, dropRequest before isbn transactionId eventId = some request ∧
        IssueOutcome request now before
          (processSmartAllocationDrop isbn transactionId eventId now before).2 := by
  unfold processSmartAllocationDrop dropRequest
  simp only [Proc.read_bind_apply]
  cases queued : before.allocationQueues.get? isbn with
  | none => exact .inl (.refl before)
  | some queue =>
      simp only [Proc.read_bind_apply]
      rcases popped : queue.popHighestPriority with ⟨_ | top, rest⟩
      · exact .inl (.refl before)
      · cases shelved : firstAvailable before isbn with
        | none => exact .inl (.refl before)
        | some copy =>
            refine .inr ⟨_, rfl, ?_⟩
            simp only [Proc.update_bind_apply]
            rw [Proc.bind_apply]
            generalize called : IssueRequest.mk copy.copyId top.userId "SMART_ALLOCATOR" 14
              transactionId eventId = request
            generalize dequeued : State.mk _ _ _ _ _ _ _ _ _ _ _ _ _ _ _ = middle
            have outcome := issue_outcome request now middle
            have sameState : ∀ after, IssueOutcome request now middle after →
                IssueOutcome request now before after := by
              rw [← dequeued]
              rintro after (⟨⟨bookRepo, users, cache⟩⟩ | ⟨taken, overflow, bookRepo, users, cache⟩ |
                ⟨taken, bookRepo, users, cache⟩)
              · exact .refused ⟨bookRepo, users, cache⟩
              · exact .overflowed ⟨taken.1, taken.2, taken.3, taken.4, taken.5⟩ overflow bookRepo
                  users cache
              · exact .issued ⟨taken.1, taken.2, taken.3, taken.4, taken.5⟩ bookRepo users cache
            rcases ran : issuePhysicalBook request now middle with ⟨_ | record, after⟩ <;>
            · rw [ran] at outcome
              exact sameState _ outcome

/-- The checks a return has passed when it changes anything. -/
structure Presented (request : ReturnRequest) (before : State) (borrowerId : String) (ref : Ref)
    (copy : BookCopy) : Prop where
  held : before.bookRepo.getCopy request.copyId = some (ref, copy)
  borrower : copy.currentBorrowerId = some borrowerId
  named : truthy copy.currentBorrowerId = true

inductive ReturnOutcome (request : ReturnRequest) (now : Datetime) (before after : State) :
    Prop where
  | refused (untouched : Untouched before after)
  | notOnLoan {borrowerId : String} {ref : Ref} {copy : BookCopy}
      (presented : Presented request before borrowerId ref copy)
      (status : copy.status ≠ .issued)
      (bookRepo : after.bookRepo = before.bookRepo)
      (users : after.users = closeLoan request borrowerId now before.users)
      (cache : after.cache = before.cache)
  | overflowed {borrowerId : String} {ref : Ref} {copy returned : BookCopy}
      (presented : Presented request before borrowerId ref copy)
      (accepted : copy.returnBook = .ok returned)
      (overflow : now.addHours? ReservationManager.pickupWindowHours = none)
      (waiting : ∃ chosen, (ReservationManager.takePending before.reservationMgr.entries
        (before.reservationMgr.queue returned.bookIsbn)).1 = some chosen)
      (bookRepo : after.bookRepo = (before.bookRepo.mutate ref returned).saveCopy ref)
      (users : after.users = closeLoan request borrowerId now before.users)
      (cache : after.cache = before.cache)
  | returned {borrowerId : String} {ref : Ref} {copy returned : BookCopy}
      (presented : Presented request before borrowerId ref copy)
      (accepted : copy.returnBook = .ok returned)
      (bookRepo : after.bookRepo = (before.bookRepo.mutate ref returned).saveCopy ref)
      (users : after.users = closeLoan request borrowerId now before.users)
      (cache : after.cache = before.cache.invalidate ("book:" ++ returned.bookIsbn))
  | held {borrowerId reserverId : String} {ref : Ref} {copy returned held : BookCopy}
      (presented : Presented request before borrowerId ref copy)
      (accepted : copy.returnBook = .ok returned)
      (reserved : returned.reserve reserverId = .ok held)
      (bookRepo : after.bookRepo =
        (((before.bookRepo.mutate ref returned).saveCopy ref).mutate ref held).saveCopy ref)
      (users : after.users = closeLoan request borrowerId now before.users)
      (cache : after.cache = before.cache.invalidate ("book:" ++ held.bookIsbn))

section Queue

variable {α : Type} {isbn copyId : String} {now : Datetime} {state : State}
  {manager : ReservationManager} {next : Option ReservationEntry → Call α}

theorem offerToQueue_error_bind {error : Error}
    (offered : state.reservationMgr.handleCopyReturned isbn copyId now = (.error error, manager)) :
    (offerToQueue isbn copyId now >>= next) state =
      (.error error, { state with reservationMgr := manager }) := by
  simp [Proc.bind_apply, offerToQueue, offered]

theorem offerToQueue_none_bind
    (offered : state.reservationMgr.handleCopyReturned isbn copyId now = (.ok none, manager)) :
    (offerToQueue isbn copyId now >>= next) state =
      next none { state with reservationMgr := manager } := by
  simp [Proc.bind_apply, offerToQueue, offered]

theorem offerToQueue_some_bind {entry : ReservationEntry}
    (offered : state.reservationMgr.handleCopyReturned isbn copyId now =
      (.ok (some entry), manager)) :
    (offerToQueue isbn copyId now >>= next) state =
      next (some entry) ({ state with reservationMgr := manager }.dispatch
        (.bookReservedAvailable entry.userId isbn copyId entry.reservationId
          entry.readyPickupExpiresAt)) := by
  simp [Proc.bind_apply, offerToQueue, offered]

end Queue
theorem return_outcome (request : ReturnRequest) (now : Datetime) (before : State) :
    ReturnOutcome request now before (returnPhysicalBook request now before).2 := by
  unfold returnPhysicalBook
  simp only [Proc.read_bind_apply]
  cases foundCopy : before.bookRepo.getCopy request.copyId with
  | none => exact .refused ⟨rfl, rfl, rfl⟩
  | some found =>
      obtain ⟨ref, copy⟩ := found
      cases borrower : copy.currentBorrowerId with
      | none => exact .refused (by simp [borrower, Untouched.refl])
      | some borrowerId =>
          cases named : truthy (some borrowerId) with
          | false => exact .refused (by simp [borrower, named, Untouched.refl])
          | true =>
              have presented : Presented request before borrowerId ref copy :=
                ⟨foundCopy, borrower, borrower ▸ named⟩
              cases accepted : copy.returnBook with
              | error detail =>
                  refine .notOnLoan presented ?_ ?_ ?_ ?_
                  · intro status
                    simp [BookCopy.returnBook, status] at accepted
                  all_goals simp [borrower, named, accepted]
              | ok returned =>
                  simp only [Proc.expect_some_bind_apply, borrower, named,
                    Proc.check_true_bind_apply, Proc.update_bind_apply, accepted,
                    Proc.lift_ok_bind_apply, Option.getD_some]
                  generalize shelved : State.saveCopy (State.mutateCopy { before with
                    users := closeLoan request borrowerId now before.users } ref returned) ref =
                    middle
                  have bookRepo : middle.bookRepo =
                      (before.bookRepo.mutate ref returned).saveCopy ref := by rw [← shelved]; rfl
                  have users : middle.users = closeLoan request borrowerId now before.users := by
                    rw [← shelved]; rfl
                  have cache : middle.cache = before.cache := by rw [← shelved]; rfl
                  have manager : middle.reservationMgr = before.reservationMgr := by
                    rw [← shelved]; rfl
                  rcases offered : middle.reservationMgr.handleCopyReturned returned.bookIsbn
                    request.copyId now with ⟨_ | _ | entry, _⟩
                  · rw [offerToQueue_error_bind offered]
                    obtain ⟨overflow, chosen⟩ := ReservationManager.handleCopyReturned_error offered
                    rw [manager] at chosen
                    exact .overflowed presented accepted overflow chosen bookRepo users cache
                  · rw [offerToQueue_none_bind offered]
                    exact .returned presented accepted bookRepo users (cache ▸ rfl)
                  · rw [offerToQueue_some_bind offered]
                    cases reserved : returned.reserve entry.userId with
                    | error detail =>
                        rcases BookCopy.returnBook_ok accepted with ⟨_, rfl⟩ | ⟨_, rfl⟩ <;>
                          cases reserved
                    | ok held =>
                        simp only [holdFor, reserved]
                        exact .held presented accepted reserved (bookRepo ▸ rfl) users (cache ▸ rfl)
/-- A copy that changes without anything else in the repositories or the cache. -/
structure Moved (copyId : String) (before after : State) (ref : Ref) (copy moved : BookCopy) :
    Prop where
  held : before.bookRepo.getCopy copyId = some (ref, copy)
  bookRepo : after.bookRepo = (before.bookRepo.mutate ref moved).saveCopy ref
  users : after.users = before.users
  cache : after.cache = before.cache

inductive TransferOutcome (branches : Dict String Distributed.LibraryBranch)
    (copyId destBranchId : String) (before after : State) : Prop where
  | refused (untouched : Untouched before after)
  | departed {ref : Ref} {copy sent : BookCopy} (moved : Moved copyId before after ref copy sent)
      (known : branches.contains destBranchId = true) (elsewhere : copy.branchId ≠ destBranchId)
      (accepted : copy.startTransfer destBranchId = .ok sent)

private theorem requestTransfer_apply (ref : Ref) (copy : BookCopy)
    (destBranchId requestedBy transferId : String) (now : Datetime) (before : State) :
    (∃ detail, requestTransfer ref copy destBranchId requestedBy transferId now before =
      (.error (.valueError detail), before)) ∨
    ∃ moved request manager, before.branchMgr.branches.contains destBranchId = true ∧
      copy.branchId ≠ destBranchId ∧ copy.startTransfer destBranchId = .ok moved ∧
      requestTransfer ref copy destBranchId requestedBy transferId now before =
        (.ok request, { before.mutateCopy ref moved with branchMgr := manager }) := by
  unfold requestTransfer Distributed.MultiBranchManager.requestTransfer
  by_cases known : before.branchMgr.branches.contains destBranchId = true
  · by_cases here : copy.branchId = destBranchId
    · exact .inl ⟨_, by simp [known, here]; rfl⟩
    · cases accepted : copy.startTransfer destBranchId with
      | error detail => exact .inl ⟨detail, by simp [known, here]⟩
      | ok moved =>
          simp only [known, here, not_true_eq_false, ↓reduceIte]
          exact .inr ⟨moved, _, _, trivial, here, rfl, rfl⟩
  · exact .inl ⟨_, by simp [known]; rfl⟩

theorem registerSource_untouched (copy : BookCopy) (state : State) :
    Untouched state (registerSource copy state) := by
  unfold registerSource
  split
  · exact .refl state
  · split <;> exact ⟨rfl, rfl, rfl⟩

theorem transfer_outcome (copyId destBranchId requestedBy transferId : String) (now : Datetime)
    (before : State) :
    TransferOutcome before.branchRepo copyId destBranchId before
      (transferCopy copyId destBranchId requestedBy transferId now before).2 := by
  unfold transferCopy
  simp only [Proc.read_bind_apply]
  cases foundBranch : before.branchRepo.get? destBranchId with
  | none => exact .refused ⟨rfl, rfl, rfl⟩
  | some dest =>
      cases foundCopy : before.bookRepo.getCopy copyId with
      | none => exact .refused (by simp [foundCopy]; exact ⟨rfl, rfl, rfl⟩)
      | some found =>
          obtain ⟨ref, copy⟩ := found
          simp only [Proc.expect_some_bind_apply, Proc.update_bind_apply, Proc.read_bind_apply,
            foundCopy]
          generalize prepared : registerSource copy { before with
            branchMgr := before.branchMgr.registerBranch dest } = middle
          have untouched : Untouched { before with
              branchMgr := before.branchMgr.registerBranch dest } middle := by
            rw [← prepared]
            exact registerSource_untouched _ _
          obtain ⟨bookRepo, users, cache⟩ := untouched
          rw [Proc.bind_apply]
          rcases requestTransfer_apply ref copy destBranchId requestedBy transferId now middle with
            ⟨detail, raised⟩ | ⟨moved, request, manager, known, elsewhere, accepted, ran⟩
          · rw [raised]
            exact .refused ⟨bookRepo, users, cache⟩
          · rw [ran]
            exact .departed ⟨foundCopy, bookRepo ▸ rfl, users, cache⟩
              (by simp [Dict.contains, foundBranch]) elsewhere accepted

theorem executeItem_outcome (item : PlanItem) (now : Datetime) (before : State) :
    TransferOutcome before.branchMgr.branches item.copyId item.destBranchId before
      (executeItem item now before).2 := by
  unfold executeItem
  simp only [Proc.read_bind_apply]
  cases foundCopy : before.bookRepo.getCopy item.copyId with
  | none => exact .refused (.refl before)
  | some found =>
      obtain ⟨ref, copy⟩ := found
      by_cases shelved : copy.status = .available
      · simp only [shelved, ne_eq, not_true_eq_false, ↓reduceIte]
        rw [Proc.bind_apply]
        rcases requestTransfer_apply ref copy item.destBranchId "AUTONOMOUS_REBALANCER"
          item.transferId now before with
          ⟨detail, raised⟩ | ⟨moved, request, manager, known, elsewhere, accepted, ran⟩
        · rw [raised]
          exact .refused (.refl before)
        · rw [ran]
          exact .departed ⟨foundCopy, rfl, rfl, rfl⟩ known elsewhere accepted
      · simp only [shelved, ne_eq, not_false_eq_true, ↓reduceIte]
        exact .refused (.refl before)

inductive ArrivalOutcome (transferId : String) (before after : State) : Prop where
  | refused (untouched : Untouched before after)
  | arrived {ref : Ref} {copy arrived : BookCopy} {transfer : Distributed.TransferRequest}
      (listed : before.branchMgr.transfers.get? transferId = some transfer)
      (moving : transfer.status = .inTransit)
      (moved : Moved transfer.copyId before after ref copy arrived)
      (accepted : copy.completeTransfer = .ok arrived)

theorem arrival_outcome (transferId : String) (now : Datetime) (before : State) :
    ArrivalOutcome transferId before (completeTransfer transferId now before).2 := by
  unfold completeTransfer
  simp only [Proc.read_bind_apply]
  cases listed : before.branchMgr.transfers.get? transferId with
  | none => exact .refused (.refl before)
  | some transfer =>
      simp only [Proc.read_bind_apply]
      cases foundCopy : before.bookRepo.getCopy transfer.copyId with
      | none => exact .refused (.refl before)
      | some found =>
          obtain ⟨ref, copy⟩ := found
          simp only [Proc.read_bind_apply, Distributed.MultiBranchManager.completeTransfer, listed]
          by_cases moving : transfer.status = .inTransit
          · cases accepted : copy.completeTransfer with
            | error detail => exact .refused (by simp [moving]; exact .refl before)
            | ok arrived =>
                refine .arrived listed moving ⟨foundCopy, ?_, ?_, ?_⟩ accepted <;> simp [moving] <;> rfl
          · exact .refused (by simp [moving]; exact .refl before)

inductive FineOutcome (userId : String) (before after : State) : Prop where
  | refused (untouched : Untouched before after)
  | changed {user : User} {balance : ℚ} (known : before.users.get? userId = some user)
      (users : after.users =
        before.users.set user.userId { user with unpaidFinesBalance := balance })
      (bookRepo : after.bookRepo = before.bookRepo)
      (cache : after.cache = before.cache)

theorem charge_outcome (userId isbn : String) (overdueDays : Int) (actorId : String)
    (now : Datetime) (before : State) :
    FineOutcome userId before (chargeFine userId isbn overdueDays actorId now before).2 := by
  unfold chargeFine
  simp only [Proc.read_bind_apply]
  cases known : before.users.get? userId with
  | none => exact .refused (.refl before)
  | some user => exact .changed known rfl rfl rfl

theorem pay_outcome (userId : String) (amount : ℚ) (paymentMethod : String)
    (metadata : PaymentMetadata) (transactionId : String) (now : Datetime) (before : State) :
    FineOutcome userId before
      (payFine userId amount paymentMethod metadata transactionId now before).2 := by
  unfold payFine
  simp only [Proc.read_bind_apply]
  cases known : before.users.get? userId with
  | none => exact .refused (.refl before)
  | some user =>
      cases chosen : PaymentMethod.ofName? paymentMethod with
      | none => exact .refused (.refl before)
      | some method =>
          simp only [Proc.expect_some_bind_apply, Proc.read_bind_apply]
          cases attempted : executePayment method before.userWallets amount userId metadata
            transactionId with
          | error error => exact .refused (.refl before)
          | ok outcome =>
              obtain ⟨result, wallets⟩ := outcome
              simp only [Proc.lift_ok_bind_apply, Proc.update_bind_apply]
              by_cases completed : result.status = .completed
              · simp only [completed, ↓reduceIte]
                exact .changed known rfl rfl rfl
              · simp only [completed, ↓reduceIte]
                exact .refused ⟨rfl, rfl, rfl⟩

inductive RegistrationOutcome (before after : State) : Prop where
  | refused (untouched : Untouched before after)
  | registered {user : User} (fresh : before.users.get? user.userId = none)
      (active : user.activeBorrowedCopyIds = ∅) (history : user.borrowHistory = [])
      (users : after.users = before.users.set user.userId user)
      (bookRepo : after.bookRepo = before.bookRepo)
      (cache : after.cache = before.cache)

theorem createUser_ok {role : String} {arguments : UserArguments} {user : User}
    (accepted : createUser role arguments = .ok user) :
    user.userId = arguments.userId ∧ user.activeBorrowedCopyIds = ∅ ∧ user.borrowHistory = [] := by
  unfold createUser at accepted
  split at accepted <;> cases accepted <;> exact ⟨rfl, rfl, rfl⟩

theorem registration_outcome (request : RegisterRequest) (before : State) :
    RegistrationOutcome before (registerUser request before).2 := by
  unfold registerUser
  simp only [Proc.read_bind_apply]
  cases existing : before.users.contains request.userId with
  | true => exact .refused (.refl before)
  | false =>
      cases accepted : createUser request.role request.arguments with
      | error error => exact .refused (.refl before)
      | ok user =>
          obtain ⟨identity, active, history⟩ := createUser_ok accepted
          have fresh : before.users.get? user.userId = none := by
            rw [identity]
            simpa [Dict.contains, RegisterRequest.arguments] using existing
          exact .registered fresh active history rfl rfl rfl

inductive CatalogOutcome (before after : State) : Prop where
  | refused (untouched : Untouched before after)
  | listed {book : Book} (blank : ∀ copies, book.copies? = some copies → copies = .empty)
      (bookRepo : after.bookRepo = before.bookRepo.saveBook book)
      (users : after.users = before.users)
      (cache : after.cache =
        (before.cache.invalidatePrefix "search:").invalidate ("book:" ++ book.isbn))

theorem createBook_ok {formatType : String} {arguments : BookArguments} {book : Book}
    (accepted : createBook formatType arguments = .ok book) :
    ∀ copies, book.copies? = some copies → copies = .empty := by
  unfold createBook at accepted
  split at accepted
  · cases accepted
  · next format _ =>
      split at accepted
      · cases accepted
      · split at accepted
        · cases accepted
        · cases accepted
          intro copies listed
          cases format <;> simp_all [Book.copies?, BookArguments.edition]

theorem registerBook_outcome (formatType actorId : String) (arguments : BookArguments)
    (now : Datetime) (before : State) :
    CatalogOutcome before (registerBook formatType actorId arguments now before).2 := by
  unfold registerBook
  cases accepted : createBook formatType arguments with
  | error error => exact .refused (.refl before)
  | ok book => exact .listed (createBook_ok accepted) rfl rfl rfl

inductive AcquisitionOutcome (isbn copyId : String) (before after : State) : Prop where
  | refused (untouched : Untouched before after)
  | added {book : Book} {copy : BookCopy} (found : before.bookRepo.getBook isbn = some book)
      (identity : copy.copyId = copyId) (title : copy.bookIsbn = isbn) (coherent : copy.Coherent)
      (shelved : copy.status = .available)
      (bookRepo : after.bookRepo = ((before.bookRepo.attach isbn book copy).saveCopy
        before.bookRepo.objects.next).resaveBook isbn)
      (users : after.users = before.users)
      (cache : after.cache = before.cache.invalidate ("book:" ++ isbn))

theorem acquisition_outcome (isbn copyId branchId shelfLocation : String) (price : ℚ)
    (actorId : String) (now : Datetime) (before : State) :
    AcquisitionOutcome isbn copyId before
      (addPhysicalCopy isbn copyId branchId shelfLocation price actorId now before).2 := by
  unfold addPhysicalCopy
  simp only [Proc.read_bind_apply]
  cases found : physicalOnly (before.bookRepo.getBook isbn) with
  | none => exact .refused (.refl before)
  | some book =>
      have known : before.bookRepo.getBook isbn = some book := (Option.filter_eq_some_iff.mp found).1
      exact .added known rfl rfl (BookCopy.coherent_new copyId isbn branchId shelfLocation price)
        rfl rfl rfl rfl

theorem requestSmartAllocation_untouched (isbn userId requestId : String) (now : Datetime)
    (before : State) :
    Untouched before (requestSmartAllocation isbn userId requestId now before).2 := by
  unfold requestSmartAllocation
  simp only [Proc.read_bind_apply]
  cases before.users.get? userId with
  | none => exact .refl before
  | some user => exact ⟨rfl, rfl, rfl⟩

end LibraFlow.Container
