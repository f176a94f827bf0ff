import LibraFlow.Container.Trails

/-! The outbox as the history of the loans. Read from the first event to the last, the
events of checkouts and returns tell who has which copy, as the copies and the users do. -/

set_option autoImplicit false

namespace LibraFlow.Container

open LibraFlow.Core LibraFlow.Library LibraFlow.Storage LibraFlow.Patterns LibraFlow.Services

/-- Who has which copy after an event. -/
def retell (holders : String → Option String) : CopyEvent → String → Option String
  | .issued copyId _ userId _ _ => Function.update holders copyId (some userId)
  | .returned copyId _ _ _ _ _ => Function.update holders copyId none

/-- Who has which copy, by the events alone. -/
def holdersOf (events : List CopyEvent) : String → Option String :=
  events.foldl retell fun _ => none

private theorem holdersOf_append (events : List CopyEvent) (event : CopyEvent) :
    holdersOf (events ++ [event]) = retell (holdersOf events) event := by
  simp [holdersOf]

/-- Who has which copy, by the copies. -/
def borrowersOf (copies : String → Option BookCopy) (copyId : String) : Option String :=
  (copies copyId).bind BookCopy.currentBorrowerId

private theorem borrowersOf_update (copies : String → Option BookCopy) (copyId : String)
    (changed : BookCopy) : borrowersOf (Function.update copies copyId (some changed)) =
      Function.update (borrowersOf copies) copyId changed.currentBorrowerId := by
  funext other
  simp only [borrowersOf, Function.update_apply]
  split <;> rfl

/-- A copy that changes, and stays with its borrower. -/
theorem borrowersOf_keeps {copies : String → Option BookCopy} {copyId : String}
    {changed : BookCopy} (same : changed.currentBorrowerId = borrowersOf copies copyId) :
    borrowersOf (Function.update copies copyId (some changed)) = borrowersOf copies := by
  rw [borrowersOf_update, same, Function.update_eq_self]

/-- The call hands out a copy or takes one back. -/
def Operation.lends : Operation → Bool
  | .issuePhysicalBook _ | .returnPhysicalBook _ | .processSmartAllocationDrop .. => true
  | _ => false

/-- The deadlines that a call computes are dates. -/
def Dated (call : TimedOperation) : Prop :=
  match call.operation with
  | .issuePhysicalBook request => call.now.addDays? request.loanDays ≠ none
  | .processSmartAllocationDrop .. => call.now.addDays? 14 ≠ none
  | .returnPhysicalBook _ => call.now.addHours? ReservationManager.pickupWindowHours ≠ none
  | _ => True

/-- Copies and outbox change together, by one event or not at all. -/
inductive Retold (before after : State) : Prop where
  | quiet (outbox : after.outbox = before.outbox)
      (borrowers : borrowersOf after.bookRepo.view = borrowersOf before.bookRepo.view)
  | told (event : OutboxEvent CopyEvent) (outbox : after.outbox = before.outbox ++ [event])
      (borrowers : borrowersOf after.bookRepo.view =
        retell (borrowersOf before.bookRepo.view) event.payload)

section Desk

variable {now : Datetime} {before after : Desk}

theorem Departs.borrowers {autonomous : Bool} {copyId destBranchId transferId : String}
    (departs : Departs autonomous copyId destBranchId transferId now before after) :
    borrowersOf after.copies = borrowersOf before.copies := by
  cases departs with
  | departed requestedBy held elsewhere accepted =>
      obtain ⟨_, rfl⟩ := BookCopy.startTransfer_ok accepted
      exact borrowersOf_keeps (by simp [borrowersOf, held])

theorem Executes.borrowers {plan : List PlanItem} (executes : Executes now plan before after) :
    borrowersOf after.copies = borrowersOf before.copies := by
  induction executes with
  | ended => rfl
  | skipped _ ih => exact ih
  | moved departs _ ih => exact ih.trans departs.borrowers

theorem Arrives.borrowers {transferId : String} (arrives : Arrives transferId now before after) :
    borrowersOf after.copies = borrowersOf before.copies := by
  cases arrives with
  | arrived listed moving held accepted =>
      obtain ⟨_, rfl⟩ := BookCopy.completeTransfer_ok accepted
      refine borrowersOf_keeps ?_
      split <;> simp [borrowersOf, held]

/-- Only checkouts and returns change who has a copy. -/
theorem Handles.borrowers {operation : Operation} (handles : Handles now operation before after)
    (other : operation.lends = false) : borrowersOf after.copies = borrowersOf before.copies := by
  cases handles with
  | quiet | reserve => rfl
  | acquire fresh => exact borrowersOf_keeps (by simp [borrowersOf, fresh, BookCopy.new])
  | issue | allot | giveBack => cases other
  | transfer departs => exact departs.borrowers
  | rebalance executes => exact executes.borrowers
  | arrive arrives => exact arrives.borrowers

end Desk

section Steps

variable {before after : State} {now : Datetime}

/-- A checkout tells one event, or nothing when it is refused. -/
theorem IssueLogged.retold {middle : State} {request : IssueRequest}
    (outcome : IssueLogged request now middle after)
    (dated : now.addDays? request.loanDays ≠ none) (logs : middle.logs = before.logs)
    (bookRepo : middle.bookRepo = before.bookRepo) (sound : Sound before) :
    Retold before after := by
  have outbox : middle.outbox = before.outbox := congrArg Logs.outbox logs
  cases outcome with
  | refused same kept =>
      refine .quiet ((congrArg Logs.outbox same).trans outbox) ?_
      rw [kept, bookRepo]
  | overflowed _ overflow => exact absurd overflow dated
  | @issued record user ref copy issued taken about same saved =>
      have appended := congrArg Logs.outbox same
      obtain ⟨aboutCopy, aboutUser⟩ := about
      refine .told _ (appended.trans (by rw [Logs.checkOut, logs]; rfl)) ?_
      have held : before.bookRepo.getCopy request.copyId = some (ref, copy) := bookRepo ▸ taken.held
      obtain ⟨_, rfl⟩ := BookCopy.checkOut_ok taken.accepted
      rw [saved, bookRepo, (sound.repository.mutate_saveCopy held
        (BookCopy.sameCopy_checkOut taken.accepted)).2.1, borrowersOf_update]
      simp [Logs.issuedEvent, Outbox.newEvent, retell, aboutCopy, aboutUser]

/-- A return tells one event, or nothing when it is refused. -/
theorem InOrder.return_retold (inOrder : InOrder before) (request : ReturnRequest)
    (dated : now.addHours? ReservationManager.pickupWindowHours ≠ none) :
    Retold before (returnPhysicalBook request now before).2 := by
  have timely : ¬ Overdated request now before := by
    rintro ⟨_, _, _, _, _, undated⟩
    exact dated undated
  have spec := (inOrder.returnSpec_iff request now).mpr timely
  rcases ran : returnPhysicalBook request now before with ⟨result, reached⟩
  rw [ran] at spec
  cases spec with
  | unknown | notIssued => exact .quiet rfl rfl
  | returned found status borrower takenBack =>
      cases takenBack.disposes with
      | shelved nobody copies reservations outbox =>
          refine .told _ outbox ?_
          rw [copies, borrowersOf_update]
          rfl
      | held oldest copies entries front queues index outbox =>
          refine .told _ outbox ?_
          rw [copies, borrowersOf_update]
          rfl

theorem Noted.outbox {base : Logs} (noted : Noted base after) : after.outbox = base.outbox := by
  obtain ⟨notices, entries, _, _, same⟩ := noted
  exact congrArg Logs.outbox same

/-- Only checkouts and returns write to the outbox. -/
theorem exec_outbox {operation : Operation} (other : operation.lends = false) :
    (operation.exec now before).outbox = before.outbox := by
  have start := noted_start before
  cases operation with
  | registerBook formatType actorId arguments =>
      exact (registerBook_noted formatType actorId arguments now before start).outbox
  | addPhysicalCopy isbn copyId branchId shelfLocation price actorId =>
      exact (acquisition_noted isbn copyId branchId shelfLocation price actorId now before
        start).outbox
  | registerUser request => exact (registration_noted request before start).outbox
  | issuePhysicalBook | returnPhysicalBook | processSmartAllocationDrop => cases other
  | reserveBook isbn userId reservationId => rfl
  | requestSmartAllocation isbn userId requestId =>
      exact (request_noted isbn userId requestId now before start).outbox
  | transferCopy copyId destBranchId requestedBy transferId =>
      exact (transfer_noted copyId destBranchId requestedBy transferId now before start).outbox
  | executeRebalancingPlan plan => exact (plan_noted now plan before start).outbox
  | completeTransfer transferId => exact (arrival_noted transferId now before start).outbox
  | chargeFine userId isbn overdueDays actorId =>
      exact (charge_noted userId isbn overdueDays actorId now before start).outbox
  | payFine userId amount paymentMethod metadata transactionId =>
      exact (pay_noted userId amount paymentMethod metadata transactionId now before start).outbox
  | getBookDetails isbn => rfl

private theorem step_retold {call : TimedOperation} (inOrder : InOrder before)
    (step : Step before call after) (promised : Promised ⟨before, call, after⟩)
    (dated : Dated call) : Retold before after := by
  have handles := step_handles step promised.admissible inOrder.sound
  obtain ⟨operation, now⟩ := call
  cases step
  cases operation with
  | issuePhysicalBook request =>
      exact (issue_logged request now before).retold dated rfl rfl inOrder.sound
  | returnPhysicalBook request => exact inOrder.return_retold request dated
  | processSmartAllocationDrop isbn transactionId eventId =>
      obtain same | ⟨request, middle, fortnight, logs, bookRepo, outcome⟩ :=
        drop_logged isbn transactionId eventId now before
      · have reached : Operation.exec (.processSmartAllocationDrop isbn transactionId eventId) now
            before = before := same
        rw [reached]
        exact .quiet rfl rfl
      · exact outcome.retold (fortnight ▸ dated) logs bookRepo inOrder.sound
  | _ => exact .quiet (exec_outbox rfl) (handles.borrowers rfl)

end Steps

/-- The outbox tells who has which copy. -/
def Replayed (state : State) : Prop :=
  borrowersOf state.bookRepo.view = holdersOf (state.outbox.map OutboxEvent.payload)

theorem Replayed.retold {before after : State} (replayed : Replayed before)
    (retold : Retold before after) : Replayed after := by
  unfold Replayed at replayed ⊢
  cases retold with
  | quiet outbox borrowers => rw [outbox, borrowers, replayed]
  | told event outbox borrowers =>
      rw [outbox, borrowers, replayed, List.map_append, List.map_singleton, holdersOf_append]

theorem Sound.onLoan_iff {state : State} (sound : Sound state) (copyId userId : String) :
    state.ledger.OnLoan copyId userId ↔
      borrowersOf state.bookRepo.view copyId = some userId := by
  constructor
  · rintro ⟨copy, held, _, borrower⟩
    have present : state.bookRepo.view copyId = some copy := held
    rw [borrowersOf, present, Option.bind_some, borrower]
  · intro borrowed
    obtain ⟨copy, present, borrower⟩ := Option.bind_eq_some_iff.mp borrowed
    have coherent := sound.consistent.coherent copyId copy present
    exact ⟨copy, present, coherent.borrower.mp (by simp [borrower]), borrower⟩

/-- The copies on loan and the lists of the users can be told from the events of the outbox
alone, as long as the deadlines that are computed are dates. -/
theorem run_replay (branchRepo registered : Dict String Distributed.LibraryBranch)
    {trace : List (Transition State TimedOperation)} {final : State}
    (run : Run Step (State.empty branchRepo registered) trace final)
    (promised : ∀ call ∈ trace, Promised call) (dated : ∀ call ∈ trace, Dated call.label) :
    (∀ copyId ref copy, final.bookRepo.getCopy copyId = some (ref, copy) →
      copy.currentBorrowerId = holdersOf (final.outbox.map OutboxEvent.payload) copyId) ∧
    ∀ userId user, final.users.get? userId = some user → ∀ copyId,
      copyId ∈ user.activeBorrowedCopyIds ↔
        holdersOf (final.outbox.map OutboxEvent.payload) copyId = some userId := by
  have together : InOrder final ∧ Replayed final := by
    have permitted : ∀ call ∈ trace, Promised call ∧ Dated call.label := fun call member =>
      ⟨promised call member, dated call member⟩
    apply run.invariant permitted
    · exact ⟨inOrder_empty branchRepo registered, rfl⟩
    · rintro before call after ⟨inOrder, replayed⟩ step ⟨kept, onTime⟩
      exact ⟨inOrder.step step kept, replayed.retold (step_retold inOrder step kept onTime)⟩
  obtain ⟨inOrder, replayed⟩ := together
  constructor
  · intro copyId ref copy held
    rw [← replayed, borrowersOf, view_of_getCopy held, Option.bind_some]
  · intro userId user known copyId
    rw [← replayed, (inOrder.sound.consistent.records userId user known).active]
    exact inOrder.sound.onLoan_iff copyId userId

private theorem awaitedLoan_dated : ∀ call ∈ Run.trail serve
    (State.empty .empty .empty) awaitedLoan,
    Dated call.label := by
  have timely : (Datetime.min.addDays? 14).isSome = true := by decide +kernel
  intro call member
  simp only [awaitedLoan, List.map_cons, List.map_nil, Run.trail, List.mem_cons, List.not_mem_nil,
    or_false] at member
  rcases member with rfl | rfl | rfl | rfl | rfl | rfl
  case inr.inr.inr.inr.inl => exact Option.isSome_iff_ne_none.mp timely
  all_goals trivial

theorem run_replay_awaited :
    holdersOf (awaited.outbox.map OutboxEvent.payload) "C1" = some "U1" ∧
      ∀ user, awaited.users.get? "U1" = some user → "C1" ∈ user.activeBorrowedCopyIds := by
  have told : holdersOf (awaited.outbox.map OutboxEvent.payload) "C1" = some "U1" := by
    decide +kernel
  have replayed := run_replay .empty .empty awaitedLoan_run awaitedLoan_promised awaitedLoan_dated
  exact ⟨told, fun user known => (replayed.2 "U1" user known "C1").mpr told⟩

end LibraFlow.Container
