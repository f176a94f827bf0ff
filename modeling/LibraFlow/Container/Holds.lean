import LibraFlow.Container.Desk

/-! Held copies and ready reservations. A return records the hold twice, in the
copy and in the reservation entry; a pickup changes the copy only. As long as no
held copy is picked up, the two records agree. -/

set_option autoImplicit false

namespace LibraFlow.Container

open LibraFlow.Core LibraFlow.Library LibraFlow.Storage LibraFlow.Patterns LibraFlow.Services

/-- An entry that promises a copy to its user. -/
def Promises (manager : ReservationManager) (ref : Ref) (userId copyId : String) : Prop :=
  ∃ entry, manager.entries.read? ref = some entry ∧ entry.status = .readyForPickup ∧
    entry.userId = userId ∧ entry.assignedCopyId = some copyId

/-- A copy that is held for a user. -/
def Desk.HeldFor (desk : Desk) (copyId userId : String) : Prop :=
  ∃ copy, desk.copies copyId = some copy ∧ copy.status = .reserved ∧
    copy.currentReserverId = some userId

/-- Ready entries and held copies are in correspondence. -/
structure Desk.Matched (desk : Desk) : Prop where
  queued : desk.reservationMgr.Queued
  kept : ∀ ref userId copyId, Promises desk.reservationMgr ref userId copyId →
    desk.HeldFor copyId userId
  promised : ∀ copyId userId, desk.HeldFor copyId userId →
    ∃ ref, Promises desk.reservationMgr ref userId copyId
  single : ∀ left right leftUser rightUser copyId,
    Promises desk.reservationMgr left leftUser copyId →
    Promises desk.reservationMgr right rightUser copyId → left = right

section Copies

variable {desk : Desk} {copyId userId : String}

private theorem heldFor_putCopy {copy : BookCopy} {other : String} :
    (desk.putCopy other copy).HeldFor copyId userId ↔
      if copyId = other then copy.status = .reserved ∧ copy.currentReserverId = some userId
      else desk.HeldFor copyId userId := by
  simp only [Desk.HeldFor, Desk.putCopy, Function.update_apply]
  split
  · constructor
    · rintro ⟨found, same, facts⟩
      cases same
      exact facts
    · exact fun facts => ⟨copy, rfl, facts⟩
  · rfl

/-- A copy that is not held before and after. -/
theorem Desk.Matched.putCopy {copy : BookCopy} (matched : desk.Matched)
    (free : ∀ user, ¬ desk.HeldFor copyId user) (status : copy.status ≠ .reserved) :
    (desk.putCopy copyId copy).Matched := by
  have same : ∀ other user, (desk.putCopy copyId copy).HeldFor other user ↔
      desk.HeldFor other user := by
    intro other user
    rw [heldFor_putCopy]
    split
    · next equal =>
        subst equal
        exact ⟨fun held => absurd held.1 status, fun held => absurd held (free user)⟩
    · rfl
  refine ⟨matched.queued, ?_, ?_, matched.single⟩
  · intro ref user other promises
    exact (same other user).mpr (matched.kept ref user other promises)
  · intro other user held
    exact matched.promised other user ((same other user).mp held)

/-- Records and tracking play no part. -/
theorem Desk.Matched.congr {other : Desk} (matched : desk.Matched)
    (copies : other.copies = desk.copies)
    (manager : other.reservationMgr = desk.reservationMgr) : other.Matched := by
  obtain ⟨queued, kept, promised, single⟩ := matched
  have same : ∀ copyId userId, other.HeldFor copyId userId ↔ desk.HeldFor copyId userId := by
    intro copyId userId
    simp only [Desk.HeldFor, copies]
  refine ⟨manager ▸ queued, ?_, ?_, ?_⟩
  · intro ref userId copyId promises
    exact (same copyId userId).mpr (kept ref userId copyId (manager ▸ promises))
  · intro copyId userId held
    rw [manager]
    exact promised copyId userId ((same copyId userId).mp held)
  · rw [manager]
    exact single

private theorem not_heldFor_of_status {copy : BookCopy} (held : desk.copies copyId = some copy)
    (status : copy.status ≠ .reserved) (user : String) : ¬ desk.HeldFor copyId user := by
  rintro ⟨found, same, reserved, _⟩
  rw [held, Option.some.injEq] at same
  exact status (same ▸ reserved)

private theorem not_heldFor_of_none (unknown : desk.copies copyId = none) (user : String) :
    ¬ desk.HeldFor copyId user := by
  rintro ⟨found, same, _⟩
  rw [unknown] at same
  cases same

end Copies

section Calls

variable {now : Datetime} {before after : Desk} {copyId userId : String}

theorem Lends.matched (lends : Lends copyId userId now before after) (matched : before.Matched)
    (unclaimed : ∀ copy, before.copies copyId = some copy →
      ¬ (copy.status = .reserved ∧ copy.currentReserverId = some userId)) : after.Matched := by
  have free : ∀ copy, before.copies copyId = some copy → mayTake copy userId = true →
      ∀ user, ¬ before.HeldFor copyId user := by
    intro copy held allowed
    refine not_heldFor_of_status held ?_
    intro reserved
    simp only [mayTake, reserved, reduceCtorEq, true_and, false_or, decide_eq_true_eq] at allowed
    exact unclaimed copy held ⟨reserved, allowed⟩
  cases lends with
  | recorded record held allowed accepted =>
      obtain ⟨_, rfl⟩ := BookCopy.checkOut_ok accepted
      exact (matched.putCopy (free _ held allowed) (by simp)).congr rfl rfl
  | overflowed held allowed accepted =>
      obtain ⟨_, rfl⟩ := BookCopy.checkOut_ok accepted
      exact matched.putCopy (free _ held allowed) (by simp)

theorem Departs.matched {autonomous : Bool} {destBranchId transferId : String}
    (departs : Departs autonomous copyId destBranchId transferId now before after)
    (matched : before.Matched) : after.Matched := by
  cases departs with
  | departed requestedBy held elsewhere accepted =>
      obtain ⟨status, rfl⟩ := BookCopy.startTransfer_ok accepted
      exact (matched.putCopy (not_heldFor_of_status held (by simp [status]))
        (by simp)).congr rfl rfl

theorem Arrives.matched {transferId : String} (arrives : Arrives transferId now before after)
    (matched : before.Matched) : after.Matched := by
  cases arrives with
  | arrived listed moving held accepted =>
      obtain ⟨status, rfl⟩ := BookCopy.completeTransfer_ok accepted
      refine (matched.putCopy (not_heldFor_of_status held (by simp [status])) ?_).congr rfl rfl
      split <;> simp

theorem Executes.matched {plan : List PlanItem} (executes : Executes now plan before after)
    (matched : before.Matched) : after.Matched := by
  induction executes with
  | ended => exact matched
  | skipped _ ih => exact ih matched
  | moved departs _ ih => exact ih (departs.matched matched)

private theorem promises_reserved {manager : ReservationManager} {isbn reservationId : String}
    {priorityScore : ℚ} {result : Ref × ReservationManager}
    (reserves : manager.Reserves isbn userId priorityScore reservationId now result) (ref : Ref)
    (user copy : String) :
    Promises result.2 ref user copy ↔ Promises manager ref user copy := by
  cases reserves with
  | found => rfl
  | joined =>
      constructor
      · rintro ⟨entry, read, ready, rest⟩
        simp only [Heap.read?_alloc] at read
        split at read
        · cases read
          cases ready
        · exact ⟨entry, read, ready, rest⟩
      · rintro ⟨entry, read, rest⟩
        exact ⟨entry, Heap.read?_alloc_of_some _ read, rest⟩

theorem Desk.Matched.reserve {isbn reservationId : String} {desk : Desk}
    (matched : desk.Matched) :
    { desk with reservationMgr :=
        (desk.reservationMgr.reserveBook isbn userId 0 reservationId now).2 }.Matched := by
  have reserves : desk.reservationMgr.Reserves isbn userId 0 reservationId now
    (desk.reservationMgr.reserveBook isbn userId 0 reservationId now) := matched.queued.reserves
  have same := promises_reserved reserves
  refine ⟨matched.queued.reserved reserves, ?_, ?_, ?_⟩
  · intro ref user copy promises
    exact matched.kept ref user copy ((same ref user copy).mp promises)
  · intro copy user held
    obtain ⟨ref, promises⟩ := matched.promised copy user held
    exact ⟨ref, (same ref user copy).mpr promises⟩
  · intro left right leftUser rightUser copy leftPromises rightPromises
    exact matched.single left right leftUser rightUser copy ((same _ _ _).mp leftPromises)
      ((same _ _ _).mp rightPromises)

/-- The entry in front becomes the one promise that is new. -/
theorem promises_front {manager : ReservationManager} {isbn : String} {ref : Ref}
    {rest : List Ref} {entry ready : ReservationEntry} (queued : manager.Queued)
    (front : manager.queue isbn = ref :: rest) (read : manager.entries.read? ref = some entry)
    (status : ready.status = .readyForPickup) (copy : ready.assignedCopyId = some copyId)
    (other : Ref) (user otherCopy : String) :
    Promises ⟨manager.entries.write ref ready, manager.queues.set isbn rest,
        manager.reservations⟩ other user otherCopy ↔
      (other = ref ∧ user = ready.userId ∧ otherCopy = copyId) ∨
        Promises manager other user otherCopy := by
  have unpromised : ¬ Promises manager ref user otherCopy := by
    rintro ⟨held, heldRead, isReady, _⟩
    obtain ⟨waiting, waitingRead, _, pending⟩ := queued.waiting isbn ref (by simp [front])
    rw [heldRead, Option.some.injEq] at waitingRead
    rw [waitingRead, pending] at isReady
    cases isReady
  by_cases same : ref = other
  · subst other
    simp only [Promises, Heap.read?_write_self ready read, Option.some.injEq, exists_eq_left',
      status, copy, true_and]
    constructor
    · rintro ⟨rfl, rfl⟩
      exact .inl ⟨rfl, rfl⟩
    · rintro (⟨rfl, rfl⟩ | promises)
      · exact ⟨rfl, rfl⟩
      · exact absurd promises unpromised
  · simp only [Promises, Heap.read?_write, if_neg same, Ne.symm same, false_and, false_or]

/-- A returned copy that goes to the entry in front. -/
theorem Desk.Matched.assign {isbn : String} {desk : Desk} {ref : Ref} {rest : List Ref}
    {entry ready : ReservationEntry} {reserved : BookCopy} (matched : desk.Matched)
    (free : ∀ user, ¬ desk.HeldFor copyId user)
    (queued : (⟨desk.reservationMgr.entries.write ref ready,
      desk.reservationMgr.queues.set isbn rest, desk.reservationMgr.reservations⟩ :
        ReservationManager).Queued)
    (front : desk.reservationMgr.queue isbn = ref :: rest)
    (read : desk.reservationMgr.entries.read? ref = some entry)
    (status : ready.status = .readyForPickup) (copy : ready.assignedCopyId = some copyId)
    (held : reserved.status = .reserved)
    (reserver : reserved.currentReserverId = some ready.userId) :
    { desk.putCopy copyId reserved with reservationMgr :=
        ⟨desk.reservationMgr.entries.write ref ready, desk.reservationMgr.queues.set isbn rest,
          desk.reservationMgr.reservations⟩ }.Matched := by
  have promises := promises_front matched.queued front read status copy
  have holds : ∀ other user, Desk.HeldFor { desk.putCopy copyId reserved with reservationMgr :=
      ⟨desk.reservationMgr.entries.write ref ready, desk.reservationMgr.queues.set isbn rest,
        desk.reservationMgr.reservations⟩ } other user ↔
      if other = copyId then user = ready.userId else desk.HeldFor other user := by
    intro other user
    refine heldFor_putCopy.trans ?_
    simp only [held, reserver, true_and, Option.some.injEq, eq_comm]
  have fresh : ∀ other user, ¬ Promises desk.reservationMgr other user copyId :=
    fun other user old => free user (matched.kept other user copyId old)
  refine ⟨queued, ?_, ?_, ?_⟩
  · intro other user otherCopy promised
    rw [holds]
    obtain ⟨rfl, rfl, rfl⟩ | old := (promises other user otherCopy).mp promised
    · simp
    · have different : otherCopy ≠ copyId := by
        rintro rfl
        exact fresh other user old
      rw [if_neg different]
      exact matched.kept other user otherCopy old
  · intro otherCopy user heldFor
    rw [holds] at heldFor
    split at heldFor
    · next same => exact ⟨ref, (promises ref user otherCopy).mpr (.inl ⟨rfl, heldFor, same⟩)⟩
    · obtain ⟨other, old⟩ := matched.promised otherCopy user heldFor
      exact ⟨other, (promises other user otherCopy).mpr (.inr old)⟩
  · intro left right leftUser rightUser otherCopy leftPromises rightPromises
    obtain ⟨rfl, rfl, rfl⟩ | leftOld := (promises _ _ _).mp leftPromises <;>
      obtain ⟨rfl, rightUserIs, rightCopy⟩ | rightOld := (promises _ _ _).mp rightPromises
    · rfl
    · exact absurd rightOld (fresh _ _)
    · subst rightCopy
      exact absurd leftOld (fresh _ _)
    · exact matched.single left right leftUser rightUser otherCopy leftOld rightOld

theorem TakesBack.matched (takesBack : TakesBack copyId now before after)
    (matched : before.Matched)
    (timely : now.addHours? ReservationManager.pickupWindowHours = none →
      ∀ copy, before.copies copyId = some copy → truthy copy.currentBorrowerId = true →
        before.reservationMgr.queue copy.bookIsbn = []) : after.Matched := by
  cases takesBack with
  | @shelved copy returned manager held status named accepted offered =>
      have assigns : before.reservationMgr.Assigns returned.bookIsbn copyId
        (before.reservationMgr.handleCopyReturned returned.bookIsbn copyId now) :=
        matched.queued.assigns
      rw [offered] at assigns
      have shelf : returned.status ≠ .reserved := by
        rcases BookCopy.returnBook_ok accepted with ⟨_, rfl⟩ | ⟨_, rfl⟩ <;> simp
      cases assigns with
      | nobody =>
          exact (matched.putCopy (not_heldFor_of_status held (by simp [status])) shelf).congr
            rfl rfl
      | front _ _ _ outcome => simp at outcome
  | @assigned copy returned reserved manager entry held status named accepted offered kept =>
      have assigns : before.reservationMgr.Assigns returned.bookIsbn copyId
        (before.reservationMgr.handleCopyReturned returned.bookIsbn copyId now) :=
        matched.queued.assigns
      have queued := matched.queued.assigned assigns
      rw [offered] at assigns queued
      obtain ⟨_, rfl⟩ := BookCopy.reserve_ok kept
      cases assigns with
      | front line read marked outcome =>
          simp only [Except.ok.injEq, Option.some.injEq, reduceCtorEq, or_false] at outcome
          subst outcome
          exact matched.assign (not_heldFor_of_status held (by simp [status])) queued line read
            (by rw [marked]) (by rw [marked]) rfl rfl
  | @overflowed copy returned manager error held status named accepted offered =>
      have assigns : before.reservationMgr.Assigns returned.bookIsbn copyId
        (before.reservationMgr.handleCopyReturned returned.bookIsbn copyId now) :=
        matched.queued.assigns
      have overflow := (ReservationManager.handleCopyReturned_error offered).1
      have vacant := timely overflow copy held named
      rw [← (BookCopy.sameCopy_returnBook accepted).bookIsbn] at vacant
      rw [offered] at assigns
      cases assigns with
      | front line =>
          rw [vacant] at line
          cases line

end Calls

/-- Nobody who may borrow picks up the copy held for them, and no copy comes back
for a waiting reader so late that the pickup deadline cannot be represented. -/
def Unclaimed (call : Transition State TimedOperation) : Prop :=
  match call.label.operation with
  | .issuePhysicalBook request => ∀ user ref copy,
      call.before.users.get? request.userId = some user → user.canBorrow = true →
      call.before.bookRepo.getCopy request.copyId = some (ref, copy) →
      ¬ (copy.status = .reserved ∧ copy.currentReserverId = some request.userId)
  | .returnPhysicalBook request => ∀ ref copy,
      call.before.bookRepo.getCopy request.copyId = some (ref, copy) →
      truthy copy.currentBorrowerId = true →
      call.label.now.addHours? ReservationManager.pickupWindowHours = none →
      call.before.reservationMgr.queue copy.bookIsbn = []
  | _ => True

private theorem issue_ineligible {request : IssueRequest} {now : Datetime} {before : State}
    (refused : ∀ user, before.users.get? request.userId = some user → user.canBorrow ≠ true) :
    (issuePhysicalBook request now before).2 = before := by
  unfold issuePhysicalBook
  simp only [Proc.read_bind_apply]
  cases known : before.users.get? request.userId with
  | none => rfl
  | some user =>
      have ineligible : user.canBorrow = false := Bool.eq_false_of_not_eq_true (refused user known)
      simp [ineligible]

structure SoundMatched (state : State) : Prop where
  sound : Sound state
  matched : state.desk.Matched

theorem Handles.matched {now : Datetime} {operation : Operation} {before after : Desk}
    (handles : Handles now operation before after) (matched : before.Matched)
    (unclaimed : ∀ request, operation = .issuePhysicalBook request →
      ∀ copy, before.copies request.copyId = some copy →
        ¬ (copy.status = .reserved ∧ copy.currentReserverId = some request.userId))
    (timely : ∀ request, operation = .returnPhysicalBook request →
      now.addHours? ReservationManager.pickupWindowHours = none →
      ∀ copy, before.copies request.copyId = some copy → truthy copy.currentBorrowerId = true →
        before.reservationMgr.queue copy.bookIsbn = []) : after.Matched := by
  cases handles with
  | quiet => exact matched
  | acquire fresh => exact matched.putCopy (not_heldFor_of_none fresh) (by simp [BookCopy.new])
  | @issue request _ _ lends => exact lends.matched matched (unclaimed request rfl)
  | allot shelved lends =>
      exact lends.matched matched fun copy held => by simp [shelved copy held]
  | @giveBack request _ _ takesBack => exact takesBack.matched matched (timely request rfl)
  | reserve => exact matched.reserve
  | transfer departs => exact departs.matched matched
  | rebalance executes => exact executes.matched matched
  | arrive arrives => exact arrives.matched matched

theorem SoundMatched.step {before after : State} {call : TimedOperation}
    (state : SoundMatched before) (step : Step before call after)
    (admissible : Admissible ⟨before, call, after⟩)
    (unclaimed : Unclaimed ⟨before, call, after⟩) : SoundMatched after := by
  refine ⟨(step_explained step admissible state.sound).sound state.sound, ?_⟩
  by_cases refused : ∃ request, call.operation = .issuePhysicalBook request ∧
      ∀ user, before.users.get? request.userId = some user → user.canBorrow ≠ true
  · obtain ⟨request, called, ineligible⟩ := refused
    have reached : (call.operation.exec call.now before) = after := step
    rw [called] at reached
    rw [← reached]
    simp only [Operation.exec, issue_ineligible ineligible]
    exact state.matched
  refine (step_handles step admissible state.sound).matched state.matched ?_ ?_
  · intro request called copy held
    obtain ⟨user, known, eligible⟩ : ∃ user, before.users.get? request.userId = some user ∧
        user.canBorrow = true := by
      by_contra none
      exact refused ⟨request, called, fun user known eligible => none ⟨user, known, eligible⟩⟩
    obtain ⟨ref, found⟩ := BookRepository.view_eq_some_iff.mp held
    simp only [Unclaimed, called] at unclaimed
    exact unclaimed user ref copy known eligible found
  · intro request called overflow copy held named
    obtain ⟨ref, found⟩ := BookRepository.view_eq_some_iff.mp held
    simp only [Unclaimed, called] at unclaimed
    exact unclaimed ref copy found named overflow

/-- The two records of a hold agree: a copy is held for a user exactly when one
ready entry promises it to them, and no copy is promised twice. -/
structure HoldsAgree (state : State) : Prop where
  held : ∀ copyId userId,
    (∃ ref copy, state.bookRepo.getCopy copyId = some (ref, copy) ∧ copy.status = .reserved ∧
      copy.currentReserverId = some userId) ↔
      ∃! ref, Promises state.reservationMgr ref userId copyId
  once : ∀ left right leftUser rightUser copyId,
    Promises state.reservationMgr left leftUser copyId →
    Promises state.reservationMgr right rightUser copyId → left = right

theorem SoundMatched.holdsAgree {state : State} (correct : SoundMatched state) :
    HoldsAgree state := by
  obtain ⟨_, matched⟩ := correct
  refine ⟨?_, matched.single⟩
  intro copyId userId
  constructor
  · rintro ⟨ref, copy, found, status, reserver⟩
    obtain ⟨entry, promises⟩ := matched.promised copyId userId
      ⟨copy, view_of_getCopy found, status, reserver⟩
    exact ⟨entry, promises, fun other again =>
      matched.single other entry userId userId copyId again promises⟩
  · rintro ⟨entry, promises, _⟩
    obtain ⟨copy, seen, status, reserver⟩ := matched.kept entry userId copyId promises
    obtain ⟨ref, found⟩ := BookRepository.view_eq_some_iff.mp seen
    exact ⟨ref, copy, found, status, reserver⟩

/-- A call that callers promise, with no pickup. -/
def UnclaimedCall (call : Transition State TimedOperation) : Prop :=
  Admissible call ∧ Unclaimed call

/-- In every run in which no held copy is picked up, holds and ready reservations
agree in the state reached. -/
theorem run_holdsAgree (branchRepo registered : Dict String Distributed.LibraryBranch)
    {trace : List (Transition State TimedOperation)} {final : State}
    (run : Run Step (State.empty branchRepo registered) trace final)
    (admissible : ∀ call ∈ trace, Admissible call)
    (unclaimed : ∀ call ∈ trace, Unclaimed call) : HoldsAgree final := by
  have permitted : ∀ call ∈ trace, UnclaimedCall call :=
    fun call member => ⟨admissible call member, unclaimed call member⟩
  have initially : SoundMatched (State.empty branchRepo registered) := by
    refine ⟨sound_empty branchRepo registered, ReservationManager.queued_empty, ?_, ?_, ?_⟩
    · rintro ref userId copyId ⟨entry, read, _⟩
      cases read
    · rintro copyId userId ⟨copy, held, _⟩
      cases held
    · rintro left right leftUser rightUser copyId ⟨entry, read, _⟩
      cases read
  have correct : SoundMatched final := run.invariant permitted initially
    fun before call after earlier taken allowed => earlier.step taken allowed.1 allowed.2
  exact correct.holdsAgree

def unclaimed (state : State) (call : TimedOperation) : Bool :=
  match call.operation with
  | .issuePhysicalBook request =>
      (state.bookRepo.getCopy request.copyId).all fun found =>
        !(found.2.status = .reserved ∧ found.2.currentReserverId = some request.userId)
  | .returnPhysicalBook _ =>
      (call.now.addHours? ReservationManager.pickupWindowHours).isSome
  | _ => true

private theorem unclaimed_sound {call : Transition State TimedOperation}
    (checked : unclaimed call.before call.label = true) : Unclaimed call := by
  unfold unclaimed at checked
  unfold Unclaimed
  cases operation : call.label.operation with
  | issuePhysicalBook request =>
      intro user ref copy _ _ found held
      simp [operation, found, held] at checked
  | returnPhysicalBook request =>
      intro ref copy _ _ overflow
      simp [operation, overflow] at checked
  | _ => trivial

/-- A copy comes back while another reader waits for the title. -/
def heldLoan : List TimedOperation :=
  ([.registerBook "physical" "ADMIN" { isbn := some "B1", title := some "Lean" },
    .addPhysicalCopy "B1" "C1" "BRANCH-DELHI" "A1" 100 "ADMIN",
    .registerUser { userId := "U1", name := "Asha", email := "asha@example", passwordHash := "h" },
    .registerUser { userId := "U2", name := "Ravi", email := "ravi@example", passwordHash := "h" },
    .issuePhysicalBook { copyId := "C1", userId := "U1", transactionId := "T1", eventId := "E1" },
    .reserveBook "B1" "U2" "R1",
    .returnPhysicalBook { copyId := "C1", eventId := "E2" }] : List Operation).map
      fun operation => ⟨operation, .min⟩

theorem run_holdsAgree_heldLoan :
    HoldsAgree (heldLoan.foldl serve (State.empty .empty .empty)) ∧
      (heldLoan.foldl serve (State.empty .empty .empty)).reservationMgr.getWaitingCount "B1" =
        0 := by
  have checked : ∀ call ∈ Run.trail serve (State.empty .empty .empty) heldLoan,
      admissible call.before call.label = true ∧ unclaimed call.before call.label = true := by
    decide +kernel
  refine ⟨run_holdsAgree .empty .empty (Run.of_exec (fun _ _ => rfl) _ heldLoan) ?_ ?_,
    by decide +kernel⟩
  · exact fun call member => admissible_sound (checked call member).1
  · exact fun call member => unclaimed_sound (checked call member).2

/-- The reader picks the held copy up, and the entry stays ready. -/
theorem pickup_leaves_entry_ready :
    ∃ trace final, Run Step (State.empty .empty .empty) trace final ∧
      (∀ call ∈ trace, Admissible call) ∧ ¬ HoldsAgree final := by
  let calls := heldLoan ++ [⟨.issuePhysicalBook
    { copyId := "C1", userId := "U2", transactionId := "T2", eventId := "E3" }, .min⟩]
  have checked : ∀ call ∈ Run.trail serve (State.empty .empty .empty) calls,
      admissible call.before call.label = true := by decide +kernel
  have promised : ((calls.foldl serve (State.empty .empty .empty)).reservationMgr.entries.read?
      0).map (fun entry => (entry.status, entry.userId, entry.assignedCopyId)) =
      some (.readyForPickup, "U2", some "C1") := by decide +kernel
  have lent : ((calls.foldl serve (State.empty .empty .empty)).bookRepo.getCopy "C1").map
      (fun found => found.2.status) = some .issued := by decide +kernel
  refine ⟨_, _, Run.of_exec (fun _ _ => rfl) _ calls,
    fun call member => admissible_sound (checked call member), ?_⟩
  intro agree
  obtain ⟨entry, read, shown⟩ := Option.map_eq_some_iff.mp promised
  simp only [Prod.mk.injEq] at shown
  have promises : Promises (calls.foldl serve (State.empty .empty .empty)).reservationMgr 0 "U2"
    "C1" := ⟨entry, read, shown.1, shown.2.1, shown.2.2⟩
  obtain ⟨ref, copy, found, reserved, _⟩ := (agree.held "C1" "U2").mpr
    ⟨0, promises, fun other again => agree.once other 0 "U2" "U2" "C1" again promises⟩
  have issued : copy.status = .issued := by
    have shelf : (calls.foldl serve (State.empty .empty .empty)).bookRepo.getCopy "C1" =
      some (ref, copy) := found
    rw [shelf] at lent
    exact Option.some.inj lent
  rw [reserved] at issued
  cases issued

end LibraFlow.Container
