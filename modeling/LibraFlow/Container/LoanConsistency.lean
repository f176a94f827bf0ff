import LibraFlow.Container.Ledger
import LibraFlow.Container.Outcomes

/-! The in-memory container refines the loan ledger: every complete call, also
one that raises, amounts to a sequence of ledger events. -/

set_option autoImplicit false

namespace LibraFlow.Container

open LibraFlow.Core LibraFlow.Library LibraFlow.Storage LibraFlow.Services Relation

def State.ledger (state : State) : Ledger := ⟨state.bookRepo.view, state.users.get?⟩

structure Sound (state : State) : Prop where
  repository : state.bookRepo.WellFormed
  consistent : state.ledger.Consistent

/-- A call that keeps the repository in order and is explained by ledger events. -/
structure Explained (before after : State) : Prop where
  repository : after.bookRepo.WellFormed
  events : ReflTransGen Ledger.Event before.ledger after.ledger

theorem Explained.sound {before after : State} (explained : Explained before after)
    (sound : Sound before) : Sound after :=
  ⟨explained.repository, Ledger.events_consistent explained.events sound.consistent⟩

theorem Untouched.ledger {before after : State} (untouched : Untouched before after) :
    after.ledger = before.ledger := by
  simp [State.ledger, untouched.bookRepo, untouched.users]

theorem Untouched.explained {before after : State} (untouched : Untouched before after)
    (sound : Sound before) : Explained before after := by
  constructor
  · rw [untouched.bookRepo]
    exact sound.repository
  · rw [untouched.ledger]

private theorem users_set (users : Dict String User) (userId : String) (user : User) :
    (users.set userId user).get? = Function.update users.get? userId (some user) := by
  funext other
  rw [Dict.get?_set, Function.update_apply]
  by_cases same : other = userId
  · simp [same]
  · simp [same, Ne.symm same]

theorem view_of_getCopy {repository : BookRepository} {copyId : String} {ref : Ref}
    {copy : BookCopy} (found : repository.getCopy copyId = some (ref, copy)) :
    repository.view copyId = some copy :=
  BookRepository.view_eq_some_iff.mpr ⟨ref, found⟩

/-- A checkout that went through, up to the user's and the copy's records. -/
theorem Taken.event {request : IssueRequest} {now : Datetime} {before after : State} {user : User}
    {ref : Ref} {copy issued : BookCopy} (taken : Taken request before user ref copy issued)
    (sound : Sound before)
    (view : after.bookRepo.view =
      Function.update before.bookRepo.view request.copyId (some issued))
    (users : ∀ userId, after.users.get? userId =
      (before.users.set user.userId
        (user.addBorrow request.copyId issued.bookIsbn now)).get? userId) :
    Ledger.Event before.ledger after.ledger := by
  have identity := sound.consistent.userIds request.userId user taken.known
  have reached : after.ledger = (before.ledger.putCopy request.copyId issued).putUser
      request.userId (user.addBorrow request.copyId issued.bookIsbn now) := by
    simp only [State.ledger, Ledger.putCopy, Ledger.putUser, view, Ledger.mk.injEq, true_and]
    rw [funext users, users_set, identity]
  rw [reached]
  exact .lend taken.known taken.eligible (view_of_getCopy taken.held) taken.accepted

theorem IssueOutcome.explained {request : IssueRequest} {now : Datetime} {before after : State}
    (outcome : IssueOutcome request now before after) (sound : Sound before) :
    Explained before after := by
  cases outcome with
  | refused untouched => exact untouched.explained sound
  | overflowed taken overflow bookRepo users cache =>
      have same := BookCopy.sameCopy_checkOut taken.accepted
      constructor
      · rw [bookRepo]
        exact sound.repository.mutate taken.held same
      · refine .single (taken.event sound ?_ users)
        rw [bookRepo]
        exact sound.repository.view_mutate _ taken.held
  | issued taken bookRepo users cache =>
      have same := BookCopy.sameCopy_checkOut taken.accepted
      obtain ⟨repository, view, _⟩ := sound.repository.mutate_saveCopy taken.held same
      constructor
      · rw [bookRepo]
        exact repository
      · refine .single (taken.event sound ?_ users)
        rw [bookRepo]
        exact view

theorem Presented.status {request : ReturnRequest} {before : State} {borrowerId : String}
    {ref : Ref} {copy : BookCopy} (presented : Presented request before borrowerId ref copy)
    (sound : Sound before) : copy.status = .issued := by
  have coherent := sound.consistent.coherent request.copyId copy (view_of_getCopy presented.held)
  exact coherent.borrower.mp (by rw [presented.borrower]; rfl)

/-- A return that went through, up to the shelving of the copy. -/
theorem Presented.event {request : ReturnRequest} {now : Datetime} {before after : State}
    {borrowerId : String} {ref : Ref} {copy returned : BookCopy}
    (presented : Presented request before borrowerId ref copy)
    (accepted : copy.returnBook = .ok returned) (sound : Sound before)
    (view : after.bookRepo.view =
      Function.update before.bookRepo.view request.copyId (some returned))
    (users : after.users = closeLoan request borrowerId now before.users) :
    Ledger.Event before.ledger after.ledger := by
  have held : before.ledger.copies request.copyId = some copy := view_of_getCopy presented.held
  have status := presented.status sound
  obtain ⟨user, known⟩ := sound.consistent.borrowers request.copyId borrowerId
    ((Ledger.onLoan_iff held).mpr ⟨status, presented.borrower⟩)
  have identity := sound.consistent.userIds borrowerId user known
  have reached : after.ledger = (before.ledger.putCopy request.copyId returned).putUser borrowerId
      (user.recordReturn request.copyId request.isLate request.isDamaged now) := by
    have found : before.users.get? borrowerId = some user := known
    simp only [State.ledger, Ledger.putCopy, Ledger.putUser, view, users, closeLoan, found,
      users_set, identity]
  rw [reached]
  exact .giveBack known held status presented.borrower accepted

theorem ReturnOutcome.explained {request : ReturnRequest} {now : Datetime} {before after : State}
    (outcome : ReturnOutcome request now before after) (sound : Sound before) :
    Explained before after := by
  cases outcome with
  | refused untouched => exact untouched.explained sound
  | notOnLoan presented status => exact absurd (presented.status sound) status
  | overflowed presented accepted overflow waiting bookRepo users cache =>
      obtain ⟨repository, view, _⟩ := sound.repository.mutate_saveCopy presented.held
        (BookCopy.sameCopy_returnBook accepted)
      rw [← bookRepo] at repository view
      exact ⟨repository, .single (presented.event accepted sound view users)⟩
  | returned presented accepted bookRepo users cache =>
      obtain ⟨repository, view, _⟩ := sound.repository.mutate_saveCopy presented.held
        (BookCopy.sameCopy_returnBook accepted)
      rw [← bookRepo] at repository view
      exact ⟨repository, .single (presented.event accepted sound view users)⟩
  | @held borrowerId reserverId ref copy returned final presented accepted reserved bookRepo
      users cache =>
      obtain ⟨shelvedRepository, shelvedView, shelvedHeld⟩ :=
        sound.repository.mutate_saveCopy presented.held (BookCopy.sameCopy_returnBook accepted)
      obtain ⟨repository, view, _⟩ := shelvedRepository.mutate_saveCopy shelvedHeld
        (BookCopy.sameCopy_reserve reserved)
      rw [← bookRepo] at repository view
      -- the state between the return and the hold
      let middle : State := { after with
        bookRepo := (before.bookRepo.mutate ref returned).saveCopy ref }
      have shelved : Ledger.Event before.ledger middle.ledger :=
        presented.event accepted sound shelvedView users
      have holding : Ledger.Event middle.ledger after.ledger := by
        have reached : after.ledger = middle.ledger.putCopy request.copyId final := by
          simp only [State.ledger, Ledger.putCopy, view, middle]
        rw [reached]
        exact .hold (view_of_getCopy shelvedHeld) reserved
      exact ⟨repository, .tail (.single shelved) holding⟩

theorem Moved.explained {copyId : String} {before after : State} {ref : Ref}
    {copy changed : BookCopy} (moved : Moved copyId before after ref copy changed)
    (sound : Sound before) (same : BookCopy.SameCopy copy changed)
    (event : Ledger.Event before.ledger (before.ledger.putCopy copyId changed)) :
    Explained before after := by
  obtain ⟨repository, view, _⟩ := sound.repository.mutate_saveCopy moved.held same
  rw [← moved.bookRepo] at repository view
  have reached : after.ledger = before.ledger.putCopy copyId changed := by
    simp only [State.ledger, Ledger.putCopy, view, moved.users]
  exact ⟨repository, .single (reached ▸ event)⟩

theorem TransferOutcome.explained {branches : Dict String Distributed.LibraryBranch}
    {copyId destBranchId : String} {before after : State}
    (outcome : TransferOutcome branches copyId destBranchId before after) (named : destBranchId ≠ "")
    (sound : Sound before) : Explained before after := by
  cases outcome with
  | refused untouched => exact untouched.explained sound
  | departed moved known elsewhere accepted =>
      exact moved.explained sound (BookCopy.sameCopy_startTransfer accepted)
        (.depart (view_of_getCopy moved.held) named accepted)

theorem ArrivalOutcome.explained {transferId : String} {before after : State}
    (outcome : ArrivalOutcome transferId before after) (sound : Sound before) :
    Explained before after := by
  cases outcome with
  | refused untouched => exact untouched.explained sound
  | arrived listed moving moved accepted =>
      exact moved.explained sound (BookCopy.sameCopy_completeTransfer accepted)
        (.arrive (view_of_getCopy moved.held) accepted)

/-- A plan is explained item by item, also when an item raises. -/
theorem executeRebalancingPlan_explained (now : Datetime) (plan : List PlanItem) (before : State)
    (named : ∀ item ∈ plan, item.destBranchId ≠ "") (sound : Sound before) :
    Explained before (executeRebalancingPlan now plan before).2 := by
  induction plan generalizing before with
  | nil => exact (Untouched.refl before).explained sound
  | cons item rest ih =>
      have first := (executeItem_outcome item now before).explained (named item (by simp)) sound
      rw [executeRebalancingPlan, Proc.bind_apply]
      rcases ran : executeItem item now before with ⟨_ | executed, middle⟩
      · rw [ran] at first
        exact first
      · rw [ran] at first
        have later := ih middle (fun other member => named other (by simp [member]))
          (first.sound sound)
        have whole : Explained before (executeRebalancingPlan now rest middle).2 :=
          ⟨later.repository, first.events.trans later.events⟩
        simp only [Proc.bind_apply]
        rcases finished : executeRebalancingPlan now rest middle with ⟨_ | others, after⟩ <;>
        · rw [finished] at whole
          exact whole

theorem FineOutcome.explained {userId : String} {before after : State}
    (outcome : FineOutcome userId before after) (sound : Sound before) :
    Explained before after := by
  cases outcome with
  | refused untouched => exact untouched.explained sound
  | @changed user balance known users bookRepo cache =>
      have identity := sound.consistent.userIds userId user known
      constructor
      · rw [bookRepo]
        exact sound.repository
      · have reached : after.ledger =
            before.ledger.putUser userId { user with unpaidFinesBalance := balance } := by
          simp only [State.ledger, Ledger.putUser, bookRepo, users, users_set, identity]
        rw [reached]
        exact .single (.fine balance known)

theorem RegistrationOutcome.explained {before after : State}
    (outcome : RegistrationOutcome before after) (sound : Sound before) :
    Explained before after := by
  cases outcome with
  | refused untouched => exact untouched.explained sound
  | @registered user fresh active history users bookRepo cache =>
      constructor
      · rw [bookRepo]
        exact sound.repository
      · have reached : after.ledger = before.ledger.putUser user.userId user := by
          simp only [State.ledger, Ledger.putUser, bookRepo, users, users_set]
        rw [reached]
        exact .single (.enrol fresh active history)

theorem CatalogOutcome.explained {before after : State} (outcome : CatalogOutcome before after)
    (sound : Sound before) : Explained before after := by
  cases outcome with
  | refused untouched => exact untouched.explained sound
  | @listed book blank bookRepo users cache =>
      have held : ∀ copies copyId ref, book.copies? = some copies →
          copies.get? copyId = some ref → before.bookRepo.copies.get? copyId = some ref := by
        intro copies copyId ref edition found
        rw [blank copies edition] at found
        cases found
      constructor
      · rw [bookRepo]
        exact sound.repository.saveBook held
      · have reached : after.ledger = before.ledger := by
          simp only [State.ledger, bookRepo, users,
            (BookRepository.sameCopies_saveBook sound.repository held).view]
        rw [reached]

theorem AcquisitionOutcome.explained {isbn copyId : String} {before after : State}
    (outcome : AcquisitionOutcome isbn copyId before after)
    (fresh : before.bookRepo.copies.get? copyId = none) (sound : Sound before) :
    Explained before after := by
  cases outcome with
  | refused untouched => exact untouched.explained sound
  | @added book copy found identity title coherent shelved bookRepo users cache =>
      subst copyId
      have attached := sound.repository.attach_saveCopy found title fresh
      obtain ⟨same, repository⟩ := BookRepository.resaveBook_spec attached isbn
      constructor
      · rw [bookRepo]
        exact repository
      · have reached : after.ledger = before.ledger.putCopy copy.copyId copy := by
          simp only [State.ledger, Ledger.putCopy, bookRepo, users, same.view,
            sound.repository.view_attach_saveCopy title]
        have unknown : before.ledger.copies copy.copyId = none := by
          simp [State.ledger, BookRepository.view, BookRepository.getCopy, fresh]
        rw [reached]
        exact .single (.acquire unknown coherent shelved)

/-- What callers promise: a new copy has an unused identifier, and branches have
non-empty identifiers. -/
def Admissible (call : Transition State TimedOperation) : Prop :=
  match call.label.operation with
  | .addPhysicalCopy _ copyId _ _ _ _ => call.before.bookRepo.copies.get? copyId = none
  | .transferCopy _ destBranchId _ _ => destBranchId ≠ ""
  | .executeRebalancingPlan plan => ∀ item ∈ plan, item.destBranchId ≠ ""
  | _ => True

/-- Every admissible call is explained by ledger events. -/
theorem step_explained {before after : State} {call : TimedOperation}
    (step : Step before call after) (admissible : Admissible ⟨before, call, after⟩)
    (sound : Sound before) : Explained before after := by
  obtain ⟨operation, now⟩ := call
  cases step
  cases operation with
  | registerBook formatType actorId arguments =>
      exact (registerBook_outcome formatType actorId arguments now before).explained sound
  | addPhysicalCopy isbn copyId branchId shelfLocation price actorId =>
      exact (acquisition_outcome isbn copyId branchId shelfLocation price actorId now
        before).explained admissible sound
  | registerUser request => exact (registration_outcome request before).explained sound
  | issuePhysicalBook request => exact (issue_outcome request now before).explained sound
  | returnPhysicalBook request => exact (return_outcome request now before).explained sound
  | reserveBook isbn userId reservationId =>
      exact Untouched.explained ⟨rfl, rfl, rfl⟩ sound
  | requestSmartAllocation isbn userId requestId =>
      exact (requestSmartAllocation_untouched isbn userId requestId now before).explained sound
  | processSmartAllocationDrop isbn transactionId eventId =>
      rcases allocationDrop_outcome isbn transactionId eventId now before with
        untouched | ⟨request, _, outcome⟩
      · exact untouched.explained sound
      · exact outcome.explained sound
  | transferCopy copyId destBranchId requestedBy transferId =>
      exact (transfer_outcome copyId destBranchId requestedBy transferId now before).explained
        admissible sound
  | executeRebalancingPlan plan =>
      exact executeRebalancingPlan_explained now plan before admissible sound
  | completeTransfer transferId =>
      exact (arrival_outcome transferId now before).explained sound
  | chargeFine userId isbn overdueDays actorId =>
      exact (charge_outcome userId isbn overdueDays actorId now before).explained sound
  | payFine userId amount paymentMethod metadata transactionId =>
      exact (pay_outcome userId amount paymentMethod metadata transactionId now before).explained
        sound
  | getBookDetails isbn => exact ⟨sound.repository, .refl⟩

theorem sound_empty (branchRepo registered : Dict String Distributed.LibraryBranch) :
    Sound (State.empty branchRepo registered) :=
  ⟨BookRepository.wellFormed_empty, Ledger.consistent_empty⟩

/-- The loans of a container state, as clients read them. -/
structure LoanConsistent (state : State) : Prop where
  active : ∀ copyId ref copy userId user, state.bookRepo.getCopy copyId = some (ref, copy) →
    state.users.get? userId = some user →
    (copy.status = .issued ∧ copy.currentBorrowerId = some userId ↔
      copy.copyId ∈ user.activeBorrowedCopyIds)
  history : ∀ copyId ref copy userId user, state.bookRepo.getCopy copyId = some (ref, copy) →
    state.users.get? userId = some user →
    (copy.status = .issued ∧ copy.currentBorrowerId = some userId ↔
      User.openLoans copy.copyId user.borrowHistory = 1)
  closed : ∀ copyId ref copy userId user, state.bookRepo.getCopy copyId = some (ref, copy) →
    state.users.get? userId = some user →
    ¬ (copy.status = .issued ∧ copy.currentBorrowerId = some userId) →
    User.openLoans copy.copyId user.borrowHistory = 0
  borrower : ∀ copyId ref copy, state.bookRepo.getCopy copyId = some (ref, copy) →
    (copy.currentBorrowerId ≠ none ↔ copy.status = .issued)
  reserver : ∀ copyId ref copy, state.bookRepo.getCopy copyId = some (ref, copy) →
    (copy.currentReserverId ≠ none ↔ copy.status = .reserved)
  target : ∀ copyId ref copy, state.bookRepo.getCopy copyId = some (ref, copy) →
    (copy.targetBranchId ≠ none ↔ copy.status = .inTransit)
  limit : ∀ userId user, state.users.get? userId = some user →
    user.activeBorrowedCopyIds.card ≤ user.maxBorrowLimit
  listed : ∀ isbn book copies copyId ref, state.bookRepo.getBook isbn = some book →
    book.copies? = some copies → copies.get? copyId = some ref →
    ∃ copy, state.bookRepo.getCopy copyId = some (ref, copy)

theorem Sound.loanConsistent {state : State} (sound : Sound state) : LoanConsistent state := by
  obtain ⟨repository, consistent⟩ := sound
  have shows : ∀ copyId ref copy userId user, state.bookRepo.getCopy copyId = some (ref, copy) →
      state.users.get? userId = some user →
      copy.copyId = copyId ∧ (state.ledger.OnLoan copyId userId ↔
        copy.status = .issued ∧ copy.currentBorrowerId = some userId) ∧
      user.Shows fun other => state.ledger.OnLoan other userId := by
    intro copyId ref copy userId user held known
    exact ⟨repository.copyId_eq held, Ledger.onLoan_iff (view_of_getCopy held),
      consistent.records userId user known⟩
  have coherent : ∀ copyId ref copy, state.bookRepo.getCopy copyId = some (ref, copy) →
      copy.Coherent := fun copyId ref copy held =>
    consistent.coherent copyId copy (view_of_getCopy held)
  refine ⟨?_, ?_, ?_, ?_, ?_, ?_, ?_, ?_⟩
  · intro copyId ref copy userId user held known
    obtain ⟨rfl, onLoan, records⟩ := shows copyId ref copy userId user held known
    rw [← onLoan, records.active]
  · intro copyId ref copy userId user held known
    obtain ⟨rfl, onLoan, records⟩ := shows copyId ref copy userId user held known
    rw [← onLoan]
    constructor
    · exact records.openLoan copy.copyId
    · intro single
      by_contra free
      rw [records.noLoan copy.copyId free] at single
      cases single
  · intro copyId ref copy userId user held known free
    obtain ⟨rfl, onLoan, records⟩ := shows copyId ref copy userId user held known
    exact records.noLoan copy.copyId (mt onLoan.mp free)
  · intro copyId ref copy held
    rw [← Option.isSome_iff_ne_none, (coherent copyId ref copy held).borrower]
  · intro copyId ref copy held
    rw [← Option.isSome_iff_ne_none, (coherent copyId ref copy held).reserver]
  · intro copyId ref copy held
    rw [← Option.isSome_iff_ne_none, (coherent copyId ref copy held).target]
  · intro userId user known
    exact (consistent.records userId user known).limit
  · intro isbn book copies copyId ref found edition member
    have held := repository.shared isbn book copies copyId ref found edition member
    obtain ⟨copy, read, _⟩ := repository.copyIds copyId ref held
    exact ⟨copy, BookRepository.getCopy_eq_some_iff.mpr ⟨held, read⟩⟩

/-- After any sequence of admissible calls the copies, the users' active sets and
the users' histories tell the same loans. -/
theorem run_loanConsistent (branchRepo registered : Dict String Distributed.LibraryBranch)
    {trace : List (Transition State TimedOperation)} {final : State}
    (run : Run Step (State.empty branchRepo registered) trace final)
    (admissible : ∀ call ∈ trace, Admissible call) : LoanConsistent final := by
  have sound : Sound final := run.invariant admissible (sound_empty branchRepo registered)
    fun before label after earlier taken permitted =>
      (step_explained taken permitted earlier).sound earlier
  exact sound.loanConsistent

def firstLoan : List TimedOperation :=
  ([.registerBook "physical" "ADMIN" { isbn := some "B1", title := some "Lean" },
    .addPhysicalCopy "B1" "C1" "BRANCH-DELHI" "A1" 100 "ADMIN",
    .registerUser { userId := "U1", name := "Asha", email := "asha@example", passwordHash := "h" },
    .issuePhysicalBook { copyId := "C1", userId := "U1", transactionId := "T1", eventId := "E1" },
    .chargeFine "U1" "B1" 3 "ADMIN"] : List Operation).map fun operation => ⟨operation, .min⟩

def afterFirstLoan : State :=
  firstLoan.foldl (fun state call => call.operation.exec call.now state) (State.empty .empty .empty)

theorem run_loanConsistent_firstLoan :
    ((afterFirstLoan.bookRepo.getCopy "C1").map fun found =>
        (found.2.status, found.2.currentBorrowerId)) = some (.issued, some "U1") ∧
      LoanConsistent afterFirstLoan := by
  refine ⟨by decide +kernel, ?_⟩
  refine run_loanConsistent .empty .empty (Run.of_exec (fun _ _ => rfl) _ firstLoan) ?_
  intro call member
  simp only [firstLoan, List.map_cons, List.map_nil, Run.trail, List.mem_cons, List.not_mem_nil,
    or_false] at member
  rcases member with rfl | rfl | rfl | rfl | rfl
  · trivial
  · have unused : ((Operation.registerBook "physical" "ADMIN"
        { isbn := some "B1", title := some "Lean" }).exec .min
        (State.empty .empty .empty)).bookRepo.copies.get? "C1" = none := by decide +kernel
    exact unused
  all_goals trivial

end LibraFlow.Container
