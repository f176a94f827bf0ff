import LibraFlow.Container.Outcomes
import LibraFlow.Storage.TitleDetails

/-! Reading title details through the cache. A call that changes a copy and does
not invalidate the title's entry makes later reads outdated while an entry of
that title is still live; in every other run reads are transparent. -/

set_option autoImplicit false

namespace LibraFlow.Container

open LibraFlow.Core LibraFlow.Library LibraFlow.Storage LibraFlow.Patterns LibraFlow.Services

/-- The container together with the time of its last call. -/
structure ClockedState where
  state : State
  clock : Datetime

/-- One complete call; time never runs backwards. -/
structure ClockedStep (before : ClockedState) (call : TimedOperation) (after : ClockedState) :
    Prop where
  ordered : before.clock.micros ≤ call.now.micros
  clock : after.clock = call.now
  step : Step before.state call after.state

/-- The title of a copy, as a list that is empty when there is none. -/
def titleWhen (condition : BookCopy → Bool) (found : Option (Ref × BookCopy)) : List String :=
  match found with
  | some (_, copy) => if condition copy then [copy.bookIsbn] else []
  | none => []

/-- A checkout whose due date overflows has changed the copy already. -/
def unannouncedByIssue (request : IssueRequest) (now : Datetime) (state : State) : List String :=
  match state.users.get? request.userId with
  | some user =>
      titleWhen (fun copy => user.canBorrow && mayTake copy request.userId &&
          (now.addDays? request.loanDays).isNone)
        (state.bookRepo.getCopy request.copyId)
  | none => []

/-- A return whose pickup deadline overflows has changed the copy already. -/
def unannouncedByReturn (request : ReturnRequest) (now : Datetime) (state : State) :
    List String :=
  titleWhen (fun copy => truthy copy.currentBorrowerId && copy.returnBook.toBool &&
      (now.addHours? ReservationManager.pickupWindowHours).isNone &&
      (ReservationManager.takePending state.reservationMgr.entries
        (state.reservationMgr.queue copy.bookIsbn)).1.isSome)
    (state.bookRepo.getCopy request.copyId)

/-- A transfer that starts never invalidates. -/
def unannouncedByTransfer (branches : Dict String Distributed.LibraryBranch)
    (copyId destBranchId : String) (state : State) : List String :=
  titleWhen (fun copy => branches.contains destBranchId && (copy.status = .available : Bool) &&
      (copy.branchId ≠ destBranchId : Bool))
    (state.bookRepo.getCopy copyId)

def unannouncedByPlan (now : Datetime) : List PlanItem → State → List String
  | [], _ => []
  | item :: rest, state =>
      unannouncedByTransfer state.branchMgr.branches item.copyId item.destBranchId state ++
        match executeItem item now state with
        | (.ok _, after) => unannouncedByPlan now rest after
        | (.error _, _) => []

/-- An arrival never invalidates. -/
def unannouncedByArrival (transferId : String) (state : State) : List String :=
  match state.branchMgr.transfers.get? transferId with
  | some transfer =>
      titleWhen (fun copy => (transfer.status = .inTransit : Bool) &&
          (copy.status = .inTransit : Bool))
        (state.bookRepo.getCopy transfer.copyId)
  | none => []

/-- The titles with a copy that a call changes without invalidating their cached
details, read off the state before the call. -/
def unannounced (call : TimedOperation) (state : State) : List String :=
  match call.operation with
  | .issuePhysicalBook request => unannouncedByIssue request call.now state
  | .processSmartAllocationDrop isbn transactionId eventId =>
      match dropRequest state isbn transactionId eventId with
      | some request => unannouncedByIssue request call.now state
      | none => []
  | .returnPhysicalBook request => unannouncedByReturn request call.now state
  | .transferCopy copyId destBranchId _ _ =>
      unannouncedByTransfer state.branchRepo copyId destBranchId state
  | .executeRebalancingPlan plan => unannouncedByPlan call.now plan state
  | .completeTransfer transferId => unannouncedByArrival transferId state
  | _ => []

/-- No title the call changes silently is served from the cache at that time. -/
def Quiet (call : Transition ClockedState TimedOperation) : Prop :=
  ∀ isbn ∈ unannounced call.label call.before.state,
    call.before.state.cache.live? ("book:" ++ isbn) call.label.now.timestamp = none

/-- Every live entry holds the current details of its title. -/
structure Transparent (now : ℚ) (state : State) : Prop where
  owned : state.bookRepo.Owned
  current : ∀ isbn details, state.cache.live? ("book:" ++ isbn) now = some details →
    state.bookRepo.details isbn = some details

theorem Transparent.later {now later : ℚ} {state : State} (transparent : Transparent now state)
    (ordered : now ≤ later) : Transparent later state :=
  ⟨transparent.owned, fun isbn details served =>
    transparent.current isbn details (InMemoryCache.live?_mono ordered served)⟩

private theorem key_injective {left right : String} (same : "book:" ++ left = "book:" ++ right) :
    left = right := by
  simpa using same

section Steps

variable {now : ℚ} {before after : State}

theorem Untouched.transparent (untouched : Untouched before after)
    (valid : Transparent now before) : Transparent now after := by
  obtain ⟨bookRepo, _, cache⟩ := untouched
  constructor
  · rw [bookRepo]
    exact valid.owned
  · rw [bookRepo, cache]
    exact valid.current

/-- A change to one title that invalidates its entry. -/
theorem Transparent.announced (valid : Transparent now before) {isbn : String}
    (concerns : BookRepository.Concerns isbn before.bookRepo after.bookRepo)
    (cache : after.cache = before.cache.invalidate ("book:" ++ isbn)) :
    Transparent now after := by
  refine ⟨concerns.owned, ?_⟩
  intro other details served
  rw [cache, InMemoryCache.live?_invalidate] at served
  split at served
  · cases served
  · next different =>
      rw [concerns.others other fun same => different (same ▸ rfl)]
      exact valid.current other details served

/-- A change to one title whose entry is not live. -/
theorem Transparent.unserved (valid : Transparent now before) {isbn : String}
    (concerns : BookRepository.Concerns isbn before.bookRepo after.bookRepo)
    (cache : after.cache = before.cache)
    (quiet : before.cache.live? ("book:" ++ isbn) now = none) : Transparent now after := by
  refine ⟨concerns.owned, ?_⟩
  intro other details served
  rw [cache] at served
  by_cases same : other = isbn
  · subst other
    rw [quiet] at served
    cases served
  · rw [concerns.others other same]
    exact valid.current other details served

end Steps

/-- A changed copy object, saved again, concerns its title only. -/
theorem mutate_concerns {repository : BookRepository} (owned : repository.Owned) {copyId : String}
    {ref : Ref} {copy changed : BookCopy}
    (found : repository.getCopy copyId = some (ref, copy)) (same : BookCopy.SameCopy copy changed) :
    BookRepository.Concerns copy.bookIsbn repository (repository.mutate ref changed) ∧
      BookRepository.Concerns copy.bookIsbn repository
        ((repository.mutate ref changed).saveCopy ref) := by
  obtain ⟨_, read⟩ := BookRepository.getCopy_eq_some_iff.mp found
  have changes := owned.mutate read same.bookIsbn
  have written : (repository.mutate ref changed).objects.read? ref = some changed :=
    Heap.read?_write_self changed read
  have saves := changes.owned.saveCopy written
  rw [same.bookIsbn] at saves
  exact ⟨changes, changes.trans saves⟩

private theorem mem_titleWhen {condition : BookCopy → Bool} {found : Option (Ref × BookCopy)}
    {ref : Ref}
    {copy : BookCopy} (held : found = some (ref, copy)) (holds : condition copy = true) :
    copy.bookIsbn ∈ titleWhen condition found := by
  subst held
  simp [titleWhen, holds]

theorem IssueOutcome.transparent {request : IssueRequest} {now : Datetime} {before after : State}
    (outcome : IssueOutcome request now before after)
    (quiet : ∀ isbn ∈ unannouncedByIssue request now before,
      before.cache.live? ("book:" ++ isbn) now.timestamp = none)
    (valid : Transparent now.timestamp before) : Transparent now.timestamp after := by
  cases outcome with
  | refused untouched => exact untouched.transparent valid
  | @overflowed user ref copy issued taken overflow bookRepo users cache =>
      have same := BookCopy.sameCopy_checkOut taken.accepted
      have concerns := (mutate_concerns valid.owned taken.held same).1
      rw [← bookRepo] at concerns
      refine valid.unserved concerns cache (quiet copy.bookIsbn ?_)
      simp only [unannouncedByIssue, taken.known]
      exact mem_titleWhen taken.held (by simp [taken.eligible, taken.allowed, overflow])
  | @issued user ref copy issued taken bookRepo users cache =>
      have same := BookCopy.sameCopy_checkOut taken.accepted
      have concerns := (mutate_concerns valid.owned taken.held same).2
      rw [← bookRepo] at concerns
      rw [same.bookIsbn] at cache
      exact valid.announced concerns cache

theorem ReturnOutcome.transparent {request : ReturnRequest} {now : Datetime} {before after : State}
    (outcome : ReturnOutcome request now before after)
    (quiet : ∀ isbn ∈ unannouncedByReturn request now before,
      before.cache.live? ("book:" ++ isbn) now.timestamp = none)
    (valid : Transparent now.timestamp before) : Transparent now.timestamp after := by
  cases outcome with
  | refused untouched => exact untouched.transparent valid
  | notOnLoan presented status bookRepo users cache =>
      constructor
      · rw [bookRepo]
        exact valid.owned
      · rw [bookRepo, cache]
        exact valid.current
  | @overflowed borrowerId ref copy returned presented accepted overflow waiting bookRepo users
      cache =>
      have same := BookCopy.sameCopy_returnBook accepted
      have concerns := (mutate_concerns valid.owned presented.held same).2
      rw [← bookRepo] at concerns
      refine valid.unserved concerns cache (quiet copy.bookIsbn ?_)
      obtain ⟨chosen, taken⟩ := waiting
      rw [same.bookIsbn] at taken
      exact mem_titleWhen presented.held
        (by simp [presented.named, accepted, overflow, taken, Except.toBool])
  | returned presented accepted bookRepo users cache =>
      have same := BookCopy.sameCopy_returnBook accepted
      have concerns := (mutate_concerns valid.owned presented.held same).2
      rw [← bookRepo] at concerns
      rw [same.bookIsbn] at cache
      exact valid.announced concerns cache
  | @held borrowerId reserverId ref copy returned final presented accepted reserved bookRepo users
      cache =>
      have shelving := BookCopy.sameCopy_returnBook accepted
      have holding := BookCopy.sameCopy_reserve reserved
      obtain ⟨_, read⟩ := BookRepository.getCopy_eq_some_iff.mp presented.held
      have shelved := (mutate_concerns valid.owned presented.held shelving).2
      have reread : ((before.bookRepo.mutate ref returned).saveCopy ref).objects.read? ref =
          some returned := by
        have written : (before.bookRepo.mutate ref returned).objects.read? ref = some returned :=
          Heap.read?_write_self returned read
        simp only [BookRepository.saveCopy, written]
      have holds := shelved.owned.mutate reread holding.bookIsbn
      have rewritten : (((before.bookRepo.mutate ref returned).saveCopy ref).mutate ref
          final).objects.read? ref = some final := Heap.read?_write_self final reread
      have saves := holds.owned.saveCopy rewritten
      rw [holding.bookIsbn, shelving.bookIsbn] at saves cache
      rw [shelving.bookIsbn] at holds
      have concerns := (shelved.trans holds).trans saves
      rw [← bookRepo] at concerns
      exact valid.announced concerns cache

theorem Moved.transparent {now : ℚ} {copyId : String} {before after : State} {ref : Ref}
    {copy changed : BookCopy} (moved : Moved copyId before after ref copy changed)
    (same : BookCopy.SameCopy copy changed)
    (quiet : before.cache.live? ("book:" ++ copy.bookIsbn) now = none)
    (valid : Transparent now before) : Transparent now after := by
  have concerns := (mutate_concerns valid.owned moved.held same).2
  rw [← moved.bookRepo] at concerns
  exact valid.unserved concerns moved.cache quiet

theorem TransferOutcome.transparent {now : ℚ} {branches : Dict String Distributed.LibraryBranch}
    {copyId destBranchId : String} {before after : State}
    (outcome : TransferOutcome branches copyId destBranchId before after)
    (quiet : ∀ isbn ∈ unannouncedByTransfer branches copyId destBranchId before,
      before.cache.live? ("book:" ++ isbn) now = none)
    (valid : Transparent now before) : Transparent now after ∧ after.cache = before.cache := by
  cases outcome with
  | refused untouched => exact ⟨untouched.transparent valid, untouched.cache⟩
  | departed moved known elsewhere accepted =>
      obtain ⟨status, _⟩ := BookCopy.startTransfer_ok accepted
      refine ⟨moved.transparent (BookCopy.sameCopy_startTransfer accepted) (quiet _ ?_) valid,
        moved.cache⟩
      exact mem_titleWhen moved.held (by simp [known, elsewhere, status])

theorem ArrivalOutcome.transparent {now : ℚ} {transferId : String} {before after : State}
    (outcome : ArrivalOutcome transferId before after)
    (quiet : ∀ isbn ∈ unannouncedByArrival transferId before,
      before.cache.live? ("book:" ++ isbn) now = none)
    (valid : Transparent now before) : Transparent now after := by
  cases outcome with
  | refused untouched => exact untouched.transparent valid
  | arrived listed moving moved accepted =>
      obtain ⟨status, _⟩ := BookCopy.completeTransfer_ok accepted
      refine moved.transparent (BookCopy.sameCopy_completeTransfer accepted) (quiet _ ?_) valid
      simp only [unannouncedByArrival, listed]
      exact mem_titleWhen moved.held (by simp [moving, status])

private theorem executeRebalancingPlan_transparent {now : ℚ} (time : Datetime)
    (plan : List PlanItem) (before : State) (quiet : ∀ isbn ∈ unannouncedByPlan time plan before,
      before.cache.live? ("book:" ++ isbn) now = none)
    (valid : Transparent now before) :
    Transparent now (executeRebalancingPlan time plan before).2 := by
  induction plan generalizing before with
  | nil => exact valid
  | cons item rest ih =>
      rw [unannouncedByPlan] at quiet
      have first := (executeItem_outcome item time before).transparent
        (fun isbn member => quiet isbn (List.mem_append_left _ member)) valid
      rw [executeRebalancingPlan, Proc.bind_apply]
      rcases ran : executeItem item time before with ⟨_ | executed, middle⟩
      · rw [ran] at first
        exact first.1
      · rw [ran] at first quiet
        have later := ih middle
          (fun isbn member => first.2 ▸ quiet isbn (List.mem_append_right _ member)) first.1
        simp only [Proc.bind_apply]
        rcases finished : executeRebalancingPlan time rest middle with ⟨_ | others, after⟩ <;>
        · rw [finished] at later
          exact later

theorem CatalogOutcome.transparent {now : ℚ} {before after : State}
    (outcome : CatalogOutcome before after) (valid : Transparent now before) :
    Transparent now after := by
  cases outcome with
  | refused untouched => exact untouched.transparent valid
  | @listed book blank bookRepo users cache =>
      have concerns : BookRepository.Concerns book.isbn before.bookRepo after.bookRepo := by
        rw [bookRepo]
        apply valid.owned.saveBook
        intro copies copyId ref edition member
        rw [blank copies edition] at member
        cases member
      refine ⟨concerns.owned, ?_⟩
      intro isbn details served
      rw [cache, InMemoryCache.live?_invalidate] at served
      split at served
      · cases served
      · next different =>
          rw [concerns.others isbn fun same => different (same ▸ rfl)]
          exact valid.current isbn details (InMemoryCache.live?_invalidatePrefix served)

theorem AcquisitionOutcome.transparent {now : ℚ} {isbn copyId : String} {before after : State}
    (outcome : AcquisitionOutcome isbn copyId before after) (valid : Transparent now before) :
    Transparent now after := by
  cases outcome with
  | refused untouched => exact untouched.transparent valid
  | @added book copy found identity title coherent shelved bookRepo users cache =>
      have allocated := valid.owned.alloc isbn copy
      have attached : BookRepository.Concerns isbn _ (before.bookRepo.attach isbn book copy) :=
        allocated.owned.addCopy found (Heap.read?_alloc_next _ copy) title before.bookRepo.copies
      have saved := attached.owned.saveCopy (Heap.read?_alloc_next _ copy)
      rw [title] at saved
      have concerns := ((allocated.trans attached).trans saved).trans (saved.owned.resaveBook isbn)
      refine valid.announced ?_ cache
      rw [bookRepo]
      exact concerns

/-- A read through the cache keeps the cache transparent. -/
theorem getBookDetails_transparent {isbn : String} {now : Datetime} {state : State}
    (valid : Transparent now.timestamp state) :
    Transparent now.timestamp (getBookDetails isbn now state).2 := by
  refine ⟨valid.owned, ?_⟩
  intro other details served
  rcases InMemoryCache.live?_getOrCompute served with earlier | ⟨same, computed⟩
  · exact valid.current other details earlier
  · rw [key_injective same]
    exact computed

theorem Transparent.read {isbn : String} {now : Datetime} {state : State}
    (valid : Transparent now.timestamp state) :
    (getBookDetails isbn now state).1 = .ok (currentDetails state isbn) := by
  have read : (getBookDetails isbn now state).1 = .ok (state.cache.getOrCompute ("book:" ++ isbn)
      (currentDetails state isbn) detailsTtl now.timestamp).1 := rfl
  rw [read, InMemoryCache.getOrCompute_fst]
  cases served : state.cache.live? ("book:" ++ isbn) now.timestamp with
  | none => rfl
  | some details => exact congrArg Except.ok (valid.current isbn details served).symm

def ClockedTransparent (current : ClockedState) : Prop :=
  Transparent current.clock.timestamp current.state

/-- A call that changes no title silently keeps the cache transparent. -/
theorem step_transparent {before after : ClockedState} {call : TimedOperation}
    (valid : ClockedTransparent before) (taken : ClockedStep before call after)
    (quiet : Quiet ⟨before, call, after⟩) : ClockedTransparent after := by
  obtain ⟨state, clock⟩ := before
  obtain ⟨reached, reachedClock⟩ := after
  obtain ⟨operation, now⟩ := call
  obtain ⟨ordered, clockSet, stepped⟩ := taken
  have advanced : reachedClock = now := clockSet
  have executed : operation.exec now state = reached := stepped
  subst reachedClock reached
  have current : Transparent now.timestamp state := valid.later (Datetime.timestamp_mono ordered)
  cases operation with
  | registerBook formatType actorId arguments =>
      exact (registerBook_outcome formatType actorId arguments now state).transparent current
  | addPhysicalCopy isbn copyId branchId shelfLocation price actorId =>
      exact (acquisition_outcome isbn copyId branchId shelfLocation price actorId now
        state).transparent current
  | registerUser request =>
      cases registration_outcome request state with
      | refused untouched => exact untouched.transparent current
      | registered fresh active history users bookRepo cache =>
          exact ⟨bookRepo ▸ current.owned, bookRepo ▸ cache ▸ current.current⟩
  | issuePhysicalBook request => exact (issue_outcome request now state).transparent quiet current
  | returnPhysicalBook request =>
      exact (return_outcome request now state).transparent quiet current
  | reserveBook isbn userId reservationId => exact ⟨current.owned, current.current⟩
  | requestSmartAllocation isbn userId requestId =>
      exact (requestSmartAllocation_untouched isbn userId requestId now state).transparent current
  | processSmartAllocationDrop isbn transactionId eventId =>
      rcases allocationDrop_outcome isbn transactionId eventId now state with
        untouched | ⟨request, attempted, outcome⟩
      · exact untouched.transparent current
      · refine outcome.transparent ?_ current
        simpa only [Quiet, unannounced, attempted] using quiet
  | transferCopy copyId destBranchId requestedBy transferId =>
      exact ((transfer_outcome copyId destBranchId requestedBy transferId now state).transparent
        quiet current).1
  | executeRebalancingPlan plan =>
      exact executeRebalancingPlan_transparent now plan state quiet current
  | completeTransfer transferId =>
      exact (arrival_outcome transferId now state).transparent quiet current
  | chargeFine userId isbn overdueDays actorId =>
      cases charge_outcome userId isbn overdueDays actorId now state with
      | refused untouched => exact untouched.transparent current
      | changed known users bookRepo cache =>
          exact ⟨bookRepo ▸ current.owned, bookRepo ▸ cache ▸ current.current⟩
  | payFine userId amount paymentMethod metadata transactionId =>
      cases pay_outcome userId amount paymentMethod metadata transactionId now state with
      | refused untouched => exact untouched.transparent current
      | changed known users bookRepo cache =>
          exact ⟨bookRepo ▸ current.owned, bookRepo ▸ cache ▸ current.current⟩
  | getBookDetails isbn => exact getBookDetails_transparent current

private theorem transparent_empty (branchRepo registered : Dict String Distributed.LibraryBranch)
    (now : ℚ) : Transparent now (State.empty branchRepo registered) :=
  ⟨BookRepository.owned_empty, by
    intro isbn details served
    cases served⟩

/-- Every read of title details in a run returns the details stored at that moment. -/
def ReadsCurrent (trace : List (Transition ClockedState TimedOperation)) : Prop :=
  ∀ call ∈ trace, ∀ isbn, call.label.operation = .getBookDetails isbn →
    (getBookDetails isbn call.label.now call.before.state).1 =
      .ok (currentDetails call.before.state isbn)

/-- In every run in which no call silently changes a title that is served from
the cache, every read returns the current details. -/
theorem run_readsCurrent (branchRepo registered : Dict String Distributed.LibraryBranch)
    (clock : Datetime) {trace : List (Transition ClockedState TimedOperation)}
    {final : ClockedState}
    (run : Run ClockedStep ⟨State.empty branchRepo registered, clock⟩ trace final)
    (quiet : ∀ call ∈ trace, Quiet call) : ReadsCurrent trace := by
  intro call member isbn read
  have initially : ClockedTransparent ⟨State.empty branchRepo registered, clock⟩ :=
    transparent_empty branchRepo registered clock.timestamp
  obtain ⟨valid, taken⟩ := run.transition_invariant quiet initially
    (fun _ _ _ => step_transparent) call member
  exact (valid.later (Datetime.timestamp_mono taken.ordered)).read

instance (call : Transition ClockedState TimedOperation) : Decidable (Quiet call) :=
  inferInstanceAs (Decidable (∀ isbn ∈ unannounced call.label call.before.state,
    call.before.state.cache.live? ("book:" ++ isbn) call.label.now.timestamp = none))

def clockedExec (current : ClockedState) (call : TimedOperation) : ClockedState :=
  ⟨call.operation.exec call.now current.state, call.now⟩

def simultaneous (state : State) (now : Datetime) (operations : List Operation) :
    List (Transition ClockedState TimedOperation) :=
  Run.trail clockedExec ⟨state, now⟩ (operations.map fun operation => ⟨operation, now⟩)

theorem run_simultaneous (state : State) (now : Datetime) (operations : List Operation) :
    Run ClockedStep ⟨state, now⟩ (simultaneous state now operations)
      ⟨operations.foldl (fun current operation => operation.exec now current) state, now⟩ := by
  induction operations generalizing state with
  | nil => exact .nil
  | cons operation rest ih =>
      exact (ih (operation.exec now state)).cons ⟨le_rfl, rfl, rfl⟩

/-- A network with one branch besides the copies' own. -/
def pune : Dict String Distributed.LibraryBranch :=
  Dict.empty.set "BRANCH-PUNE" ⟨"BRANCH-PUNE", "Pune", "Pune", "FC Road", "020", 0, 0⟩

def stocked : List Operation :=
  [.registerBook "physical" "ADMIN" { isbn := some "B1", title := some "Lean" },
    .addPhysicalCopy "B1" "C1" "BRANCH-DELHI" "A1" 100 "ADMIN"]

def sent : Operation := .transferCopy "C1" "BRANCH-PUNE" "ADMIN" "TR1"

/-- Two reads before and two after each change of the title: an issue, a return and a new
copy. The transfer comes before the first read. -/
def readTwice : List Operation :=
  stocked ++ [.addPhysicalCopy "B1" "C2" "BRANCH-DELHI" "A2" 100 "ADMIN",
    .registerUser { userId := "U1", name := "Asha", email := "asha@example", passwordHash := "h" },
    sent, .getBookDetails "B1", .getBookDetails "B1",
    .issuePhysicalBook { copyId := "C2", userId := "U1", transactionId := "T1", eventId := "E1" },
    .getBookDetails "B1", .getBookDetails "B1",
    .returnPhysicalBook { copyId := "C2", eventId := "E2" },
    .addPhysicalCopy "B1" "C3" "BRANCH-DELHI" "A3" 100 "ADMIN",
    .getBookDetails "B1", .getBookDetails "B1"]

/-- Every second read is answered from the cache, with the current details. -/
theorem run_readsCurrent_readTwice :
    (readTwice.foldl (fun current operation => operation.exec .min current)
        (State.empty pune .empty)).cache.hits = 3 ∧
      ReadsCurrent (simultaneous (State.empty pune .empty) .min readTwice) :=
  ⟨by decide +kernel,
    run_readsCurrent pune .empty .min (run_simultaneous _ _ _) (by decide +kernel)⟩

/-- A transfer between two reads is missed by the second one. -/
theorem transfer_leaves_outdated_details :
    ¬ ∀ (branchRepo registered : Dict String Distributed.LibraryBranch) (clock : Datetime)
      (trace : List (Transition ClockedState TimedOperation)) (final : ClockedState),
      Run ClockedStep ⟨State.empty branchRepo registered, clock⟩ trace final →
        ReadsCurrent trace := by
  intro transparent
  have current := transparent pune .empty .min _ _ (run_simultaneous _ _
    (stocked ++ [.getBookDetails "B1", sent, .getBookDetails "B1"]))
  let outdated := (stocked ++ [.getBookDetails "B1", sent]).foldl
    (fun current operation => operation.exec .min current) (State.empty pune .empty)
  have read := current ⟨⟨outdated, .min⟩, ⟨.getBookDetails "B1", .min⟩, _⟩
    (.tail _ (.tail _ (.tail _ (.tail _ (.head _))))) "B1" rfl
  have missed : (getBookDetails "B1" .min outdated).1 ≠ .ok (currentDetails outdated "B1") := by
    decide +kernel
  exact missed read

end LibraFlow.Container
