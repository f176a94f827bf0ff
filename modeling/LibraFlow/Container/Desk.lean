import LibraFlow.Container.LoanConsistency
import LibraFlow.Patterns.ReservationProperties

/-! What the calls do to the copies, the reservations, the transfers and the
tracking of transfers. Copies are seen by identifier; each call is opened once
and described by what it did. -/

set_option autoImplicit false

namespace LibraFlow.Container

open LibraFlow.Core LibraFlow.Library LibraFlow.Storage LibraFlow.Patterns LibraFlow.Services
  LibraFlow.Distributed LibraFlow.Ai

structure Desk where
  copies : String → Option BookCopy
  reservationMgr : ReservationManager
  transfers : Dict String TransferRequest
  tracking : TransferTracking
  records : List CirculationRecord

def State.desk (state : State) : Desk where
  copies := state.bookRepo.view
  reservationMgr := state.reservationMgr
  transfers := state.branchMgr.transfers
  tracking := state.tracking
  records := state.records

def Desk.putCopy (desk : Desk) (copyId : String) (copy : BookCopy) : Desk :=
  { desk with copies := Function.update desk.copies copyId (some copy) }

/-- A checkout. When the due date overflows the copy is issued all the same, but
nothing is recorded. -/
inductive Lends (copyId userId : String) (now : Datetime) (before : Desk) : Desk → Prop where
  | recorded {copy issued : BookCopy} (record : CirculationRecord)
      (held : before.copies copyId = some copy) (allowed : mayTake copy userId = true)
      (accepted : copy.checkOut userId = .ok issued) (about : record.copyId = copyId)
      (dated : record.borrowedAt = now) :
      Lends copyId userId now before { before.putCopy copyId issued with
        records := before.records ++ [record]
        tracking := before.tracking.recordCheckoutHook copyId issued.branchId now }
  | overflowed {copy issued : BookCopy}
      (held : before.copies copyId = some copy) (allowed : mayTake copy userId = true)
      (accepted : copy.checkOut userId = .ok issued) :
      Lends copyId userId now before (before.putCopy copyId issued)

theorem Lends.reached {copyId userId : String} {now : Datetime} {before after other : Desk}
    (lends : Lends copyId userId now before after) (same : other = after) :
    Lends copyId userId now before other := same ▸ lends

/-- A return, with what the reservation queue made of the copy. -/
inductive TakesBack (copyId : String) (now : Datetime) (before : Desk) : Desk → Prop where
  | shelved {copy returned : BookCopy} {manager : ReservationManager}
      (held : before.copies copyId = some copy) (status : copy.status = .issued)
      (named : truthy copy.currentBorrowerId = true) (accepted : copy.returnBook = .ok returned)
      (offered : before.reservationMgr.handleCopyReturned returned.bookIsbn copyId now =
        (.ok none, manager)) :
      TakesBack copyId now before
        { before.putCopy copyId returned with reservationMgr := manager }
  | assigned {copy returned reserved : BookCopy} {manager : ReservationManager}
      {entry : ReservationEntry}
      (held : before.copies copyId = some copy) (status : copy.status = .issued)
      (named : truthy copy.currentBorrowerId = true) (accepted : copy.returnBook = .ok returned)
      (offered : before.reservationMgr.handleCopyReturned returned.bookIsbn copyId now =
        (.ok (some entry), manager))
      (kept : returned.reserve entry.userId = .ok reserved) :
      TakesBack copyId now before
        { before.putCopy copyId reserved with reservationMgr := manager }
  | overflowed {copy returned : BookCopy} {manager : ReservationManager} {error : Error}
      (held : before.copies copyId = some copy) (status : copy.status = .issued)
      (named : truthy copy.currentBorrowerId = true) (accepted : copy.returnBook = .ok returned)
      (offered : before.reservationMgr.handleCopyReturned returned.bookIsbn copyId now =
        (.error error, manager)) :
      TakesBack copyId now before
        { before.putCopy copyId returned with reservationMgr := manager }

theorem TakesBack.reached {copyId : String} {now : Datetime} {before after other : Desk}
    (takesBack : TakesBack copyId now before after) (same : other = after) :
    TakesBack copyId now before other := same ▸ takesBack

/-- The entry a transfer makes in the ledger of transfers. -/
def departure (copy : BookCopy) (destBranchId requestedBy transferId : String) (now : Datetime) :
    TransferRequest where
  transferId := transferId
  copyId := copy.copyId
  isbn := copy.bookIsbn
  sourceBranchId := copy.branchId
  destBranchId := destBranchId
  requestedBy := requestedBy
  status := .inTransit
  createdAt := now
  completedAt := none

/-- A copy sets off; an autonomous transfer is tracked. -/
inductive Departs (autonomous : Bool) (copyId destBranchId transferId : String) (now : Datetime)
    (before : Desk) : Desk → Prop where
  | departed {copy sent : BookCopy} (requestedBy : String)
      (held : before.copies copyId = some copy)
      (elsewhere : copy.branchId ≠ destBranchId)
      (accepted : copy.startTransfer destBranchId = .ok sent) :
      Departs autonomous copyId destBranchId transferId now before { before.putCopy copyId sent with
        transfers := before.transfers.set transferId
          (departure sent destBranchId requestedBy transferId now)
        tracking :=
          if autonomous then before.tracking.recordRequest
            (departure sent destBranchId requestedBy transferId now) now
          else before.tracking }

theorem Departs.reached {autonomous : Bool} {copyId destBranchId transferId : String}
    {now : Datetime} {before after other : Desk}
    (departs : Departs autonomous copyId destBranchId transferId now before after)
    (same : other = after) :
    Departs autonomous copyId destBranchId transferId now before other := same ▸ departs

/-- A copy arrives. -/
inductive Arrives (transferId : String) (now : Datetime) (before : Desk) : Desk → Prop where
  | arrived {copy arrived : BookCopy} {transfer : TransferRequest}
      (listed : before.transfers.get? transferId = some transfer)
      (moving : transfer.status = .inTransit) (held : before.copies transfer.copyId = some copy)
      (accepted : copy.completeTransfer = .ok arrived) :
      Arrives transferId now before { before.putCopy transfer.copyId arrived with
        transfers := before.transfers.set transferId
          { transfer with status := .completed, completedAt := some now }
        tracking := before.tracking.recordArrival transferId now }

theorem Arrives.reached {transferId : String} {now : Datetime} {before after other : Desk}
    (arrives : Arrives transferId now before after) (same : other = after) :
    Arrives transferId now before other := same ▸ arrives

/-- The departures of a plan, item by item; it may end early. -/
inductive Executes (now : Datetime) : List PlanItem → Desk → Desk → Prop where
  | ended {desk : Desk} {plan : List PlanItem} : Executes now plan desk desk
  | skipped {item : PlanItem} {rest : List PlanItem} {before after : Desk}
      (later : Executes now rest before after) : Executes now (item :: rest) before after
  | moved {item : PlanItem} {rest : List PlanItem} {before middle after : Desk}
      (departs : Departs true item.copyId item.destBranchId item.transferId now before middle)
      (later : Executes now rest middle after) : Executes now (item :: rest) before after

section Circulation

variable {now : Datetime} {before : State}

/-- The copies a checkout leaves behind when it went through. -/
theorem Taken.lends_view {request : IssueRequest} {user : User} {ref : Ref}
    {copy issued : BookCopy} (taken : Taken request before user ref copy issued)
    (sound : Sound before) :
    ((before.bookRepo.mutate ref issued).saveCopy ref).view =
      Function.update before.bookRepo.view request.copyId (some issued) :=
  (sound.repository.mutate_saveCopy taken.held (BookCopy.sameCopy_checkOut taken.accepted)).2.1

private theorem issue_desk (request : IssueRequest) (now : Datetime) (sound : Sound before) :
    (issuePhysicalBook request now before).2.desk = before.desk ∨
      Lends request.copyId request.userId now before.desk
        (issuePhysicalBook request now before).2.desk := by
  unfold issuePhysicalBook
  simp only [Proc.read_bind_apply]
  cases foundUser : before.users.get? request.userId with
  | none => exact .inl rfl
  | some user =>
      cases eligible : user.canBorrow with
      | false => exact .inl (by simp [eligible])
      | true =>
          cases foundCopy : before.bookRepo.getCopy request.copyId with
          | none => exact .inl (by simp [eligible, foundCopy])
          | some found =>
              obtain ⟨ref, copy⟩ := found
              cases allowed : mayTake copy request.userId with
              | false => exact .inl (by simp [eligible, foundCopy, allowed])
              | true =>
                  cases accepted : copy.checkOut request.userId with
                  | error detail => exact .inl (by simp [eligible, foundCopy, allowed, accepted])
                  | ok issued =>
                      have taken : Taken request before user ref copy issued :=
                        ⟨foundUser, eligible, foundCopy, allowed, accepted⟩
                      have held : before.desk.copies request.copyId = some copy :=
                        view_of_getCopy foundCopy
                      simp only [Proc.expect_some_bind_apply, eligible, Proc.check_true_bind_apply,
                        Proc.read_bind_apply, foundCopy, allowed, accepted,
                        Proc.lift_ok_bind_apply, Proc.update_bind_apply]
                      cases now.addDays? request.loanDays with
                      | none =>
                          have view := sound.repository.view_mutate issued foundCopy
                          refine .inr (Lends.reached (.overflowed held allowed accepted) ?_)
                          simp [State.desk, Desk.putCopy, State.mutateCopy, State.putUser, view]
                      | some dueDate =>
                          have view := taken.lends_view sound
                          refine .inr (Lends.reached (.recorded ⟨request.transactionId,
                            request.copyId, issued.bookIsbn, request.userId, now, dueDate⟩
                            held allowed accepted rfl rfl) ?_)
                          simp [State.desk, Desk.putCopy, State.mutateCopy, State.putUser, view,
                            State.saveCopy, State.saveEvent, State.dispatch, State.logEvent,
                            State.invalidateBook]

private theorem return_desk (request : ReturnRequest) (sound : Sound before) :
    (returnPhysicalBook request now before).2.desk = before.desk ∨
      TakesBack request.copyId now before.desk
        (returnPhysicalBook request now before).2.desk := by
  unfold returnPhysicalBook
  simp only [Proc.read_bind_apply]
  cases foundCopy : before.bookRepo.getCopy request.copyId with
  | none => exact .inl rfl
  | some found =>
      obtain ⟨ref, copy⟩ := found
      cases borrower : copy.currentBorrowerId with
      | none => exact .inl (by simp [borrower])
      | some borrowerId =>
          cases named : truthy (some borrowerId) with
          | false => exact .inl (by simp [borrower, named])
          | true =>
              have presented : Presented request before borrowerId ref copy :=
                ⟨foundCopy, borrower, borrower ▸ named⟩
              have status := presented.status sound
              cases accepted : copy.returnBook with
              | error detail => exact .inl (by simp [borrower, named, accepted, State.desk])
              | ok returned =>
                  have held : before.desk.copies request.copyId = some copy :=
                    view_of_getCopy foundCopy
                  obtain ⟨shelved, view, shelvedCopy⟩ := sound.repository.mutate_saveCopy foundCopy
                    (BookCopy.sameCopy_returnBook accepted)
                  simp only [Proc.expect_some_bind_apply, borrower, named,
                    Proc.check_true_bind_apply, Proc.update_bind_apply, accepted,
                    Proc.lift_ok_bind_apply, Option.getD_some]
                  generalize middleIs : State.saveCopy (State.mutateCopy { before with
                    users := closeLoan request borrowerId now before.users } ref returned) ref =
                    middle
                  have desk : middle.desk = before.desk.putCopy request.copyId returned := by
                    rw [← middleIs]
                    simp [State.desk, Desk.putCopy, State.saveCopy, State.mutateCopy, view]
                  have manager : before.desk.reservationMgr = middle.reservationMgr := by
                    rw [← middleIs]
                    rfl
                  rcases offered : middle.reservationMgr.handleCopyReturned returned.bookIsbn
                    request.copyId now with ⟨_ | _ | entry, after⟩
                  · rw [offerToQueue_error_bind offered]
                    rw [← manager] at offered
                    refine .inr (TakesBack.reached (.overflowed held status presented.named accepted
                      offered) ?_)
                    rw [← desk]
                    rfl
                  · rw [offerToQueue_none_bind offered]
                    rw [← manager] at offered
                    refine .inr (TakesBack.reached (.shelved held status presented.named accepted
                      offered) ?_)
                    rw [← desk]
                    rfl
                  · rw [offerToQueue_some_bind offered]
                    rw [← manager] at offered
                    cases kept : returned.reserve entry.userId with
                    | error detail =>
                        rcases BookCopy.returnBook_ok accepted with ⟨_, rfl⟩ | ⟨_, rfl⟩ <;>
                          cases kept
                    | ok reserved =>
                        obtain ⟨_, keptView, _⟩ := shelved.mutate_saveCopy shelvedCopy
                          (BookCopy.sameCopy_reserve kept)
                        refine .inr (TakesBack.reached
                          (.assigned held status presented.named accepted offered kept) ?_)
                        simp only [holdFor, kept]
                        have keptDesk : ((middle.mutateCopy ref reserved).saveCopy ref).desk =
                            before.desk.putCopy request.copyId reserved := by
                          rw [← middleIs]
                          simp [State.desk, Desk.putCopy, State.saveCopy, State.mutateCopy,
                            keptView, view]
                        rw [← keptDesk]
                        rfl

end Circulation

section Transfers

variable {now : Datetime} {before : State}

/-- Update a copy object together with the branch manager, and store the copy. -/
theorem saveCopy_desk {state : State} {copyId : String} {ref : Ref} {copy changed : BookCopy}
    (held : state.bookRepo.getCopy copyId = some (ref, copy))
    (repository : state.bookRepo.WellFormed) (same : BookCopy.SameCopy copy changed)
    (manager : MultiBranchManager) :
    (State.saveCopy { state.mutateCopy ref changed with branchMgr := manager } ref).desk =
      { state.desk.putCopy copyId changed with transfers := manager.transfers } := by
  obtain ⟨_, view, _⟩ := repository.mutate_saveCopy held same
  simp only [State.desk, Desk.putCopy, State.saveCopy, State.mutateCopy, view]

private theorem requestTransfer_desk (ref : Ref) (copy : BookCopy)
    (destBranchId requestedBy transferId : String) (state : State) :
    (∃ error, requestTransfer ref copy destBranchId requestedBy transferId now state =
      (.error error, state)) ∨
    ∃ sent, copy.branchId ≠ destBranchId ∧ copy.startTransfer destBranchId = .ok sent ∧
      requestTransfer ref copy destBranchId requestedBy transferId now state =
        (.ok (departure sent destBranchId requestedBy transferId now),
          { state.mutateCopy ref sent with
            branchMgr := { state.branchMgr with
              transfers := state.branchMgr.transfers.set transferId
                (departure sent destBranchId requestedBy transferId now) } }) := by
  unfold requestTransfer MultiBranchManager.requestTransfer
  by_cases known : state.branchMgr.branches.contains destBranchId = true
  · by_cases here : copy.branchId = destBranchId
    · exact .inl ⟨_, by simp [known, here]; rfl⟩
    · cases accepted : copy.startTransfer destBranchId with
      | error detail => exact .inl ⟨.valueError detail, by simp [known, here]⟩
      | ok sent =>
          simp only [known, here, not_true_eq_false, ↓reduceIte]
          exact .inr ⟨sent, here, rfl, rfl⟩
  · exact .inl ⟨_, by simp [known]; rfl⟩

private theorem registerSource_transfers (copy : BookCopy) (state : State) :
    (registerSource copy state).desk = state.desk := by
  unfold registerSource
  split
  · rfl
  · split <;> rfl

private theorem transfer_desk (copyId destBranchId requestedBy transferId : String)
    (sound : Sound before) :
    (transferCopy copyId destBranchId requestedBy transferId now before).2.desk = before.desk ∨
      Departs false copyId destBranchId transferId now before.desk
        (transferCopy copyId destBranchId requestedBy transferId now before).2.desk := by
  unfold transferCopy
  simp only [Proc.read_bind_apply]
  cases foundBranch : before.branchRepo.get? destBranchId with
  | none => exact .inl rfl
  | some dest =>
      cases foundCopy : before.bookRepo.getCopy copyId with
      | none => exact .inl (by simp [foundCopy]; rfl)
      | some found =>
          obtain ⟨ref, copy⟩ := found
          simp only [Proc.expect_some_bind_apply, Proc.update_bind_apply, Proc.read_bind_apply,
            foundCopy]
          generalize prepared : registerSource copy { before with
            branchMgr := before.branchMgr.registerBranch dest } = middle
          have unchanged : middle.desk = before.desk := by
            rw [← prepared, registerSource_transfers]
            rfl
          have bookRepo : middle.bookRepo = before.bookRepo := by
            rw [← prepared]
            exact (registerSource_untouched _ _).bookRepo
          rw [Proc.bind_apply]
          rcases requestTransfer_desk ref copy destBranchId requestedBy transferId middle with
            ⟨error, raised⟩ | ⟨sent, elsewhere, accepted, ran⟩
          · rw [raised]
            exact .inl unchanged
          · rw [ran]
            refine .inr (Departs.reached (.departed requestedBy (view_of_getCopy foundCopy)
              elsewhere accepted) ?_)
            rw [← bookRepo] at foundCopy
            have stored := saveCopy_desk foundCopy (bookRepo ▸ sound.repository)
              (BookCopy.sameCopy_startTransfer accepted) { middle.branchMgr with
                transfers := middle.branchMgr.transfers.set transferId
                  (departure sent destBranchId requestedBy transferId now) }
            have transfers : middle.branchMgr.transfers = before.desk.transfers :=
              congrArg Desk.transfers unchanged
            refine stored.trans ?_
            simp only [unchanged, transfers, Bool.false_eq_true, ↓reduceIte]
            rfl

private theorem executeItem_desk (item : PlanItem) (now : Datetime) (sound : Sound before) :
    (executeItem item now before).2.desk = before.desk ∨
      Departs true item.copyId item.destBranchId item.transferId now before.desk
        (executeItem item now before).2.desk := by
  unfold executeItem
  simp only [Proc.read_bind_apply]
  cases foundCopy : before.bookRepo.getCopy item.copyId with
  | none => exact .inl rfl
  | some found =>
      obtain ⟨ref, copy⟩ := found
      by_cases shelved : copy.status = .available
      · simp only [shelved, ne_eq, not_true_eq_false, ↓reduceIte]
        rw [Proc.bind_apply]
        rcases requestTransfer_desk ref copy item.destBranchId "AUTONOMOUS_REBALANCER"
          item.transferId before with ⟨error, raised⟩ | ⟨sent, elsewhere, accepted, ran⟩
        · rw [raised]
          exact .inl rfl
        · rw [ran]
          refine .inr (Departs.reached (.departed "AUTONOMOUS_REBALANCER"
            (view_of_getCopy foundCopy) elsewhere accepted) ?_)
          have stored := saveCopy_desk foundCopy sound.repository
            (BookCopy.sameCopy_startTransfer accepted) { before.branchMgr with
              transfers := before.branchMgr.transfers.set item.transferId
                (departure sent item.destBranchId "AUTONOMOUS_REBALANCER" item.transferId now) }
          exact congrArg (fun desk : Desk => { desk with
            tracking := before.tracking.recordRequest (departure sent item.destBranchId
              "AUTONOMOUS_REBALANCER" item.transferId now) now }) stored
      · simp only [shelved, ne_eq, not_false_eq_true, ↓reduceIte]
        exact .inl rfl

/-- An arrival is recorded when it returns a transfer; otherwise nothing changes. -/
theorem arrival_desk (transferId : String) (now : Datetime) (sound : Sound before) :
    ((∀ completed, (completeTransfer transferId now before).1 ≠ .ok (some completed)) ∧
        (completeTransfer transferId now before).2 = before) ∨
      ((∃ completed, (completeTransfer transferId now before).1 = .ok (some completed)) ∧
        Arrives transferId now before.desk (completeTransfer transferId now before).2.desk) := by
  unfold completeTransfer
  simp only [Proc.read_bind_apply]
  cases listed : before.branchMgr.transfers.get? transferId with
  | none => exact .inl ⟨by simp, rfl⟩
  | some transfer =>
      simp only [Proc.read_bind_apply]
      cases foundCopy : before.bookRepo.getCopy transfer.copyId with
      | none => exact .inl ⟨by simp, rfl⟩
      | some found =>
          obtain ⟨ref, copy⟩ := found
          simp only [Proc.read_bind_apply, MultiBranchManager.completeTransfer, listed]
          by_cases moving : transfer.status = .inTransit
          · cases accepted : copy.completeTransfer with
            | error detail => exact .inl (by simp [moving])
            | ok arrived =>
                refine .inr ⟨by simp [moving], Arrives.reached (.arrived listed moving
                  (view_of_getCopy foundCopy) accepted) ?_⟩
                have stored := saveCopy_desk foundCopy sound.repository
                  (BookCopy.sameCopy_completeTransfer accepted) { before.branchMgr with
                    transfers := before.branchMgr.transfers.set transferId
                      { transfer with status := .completed, completedAt := some now } }
                simp only [moving, ne_eq, not_true_eq_false, ↓reduceIte]
                exact congrArg (fun desk : Desk => { desk with
                  tracking := before.tracking.recordArrival transferId now }) stored
          · exact .inl (by simp [moving])

private theorem plan_desk (plan : List PlanItem) (before : State)
    (named : ∀ item ∈ plan, item.destBranchId ≠ "") (sound : Sound before) :
    Executes now plan before.desk (executeRebalancingPlan now plan before).2.desk := by
  induction plan generalizing before with
  | nil => exact .ended
  | cons item rest ih =>
      have first := executeItem_desk item now sound
      have explained := (executeItem_outcome item now before).explained (named item (by simp))
        sound
      rw [executeRebalancingPlan, Proc.bind_apply]
      rcases ran : executeItem item now before with ⟨_ | executed, middle⟩
      · rw [ran] at first
        obtain same | departs := first
        · simp only [same]
          exact .ended
        · exact .moved departs .ended
      · rw [ran] at first explained
        have later := ih middle (fun other member => named other (by simp [member]))
          (explained.sound sound)
        have finished : (((do
            let others ← executeRebalancingPlan now rest
            return executed.toList ++ others : Call (List TransferRequest)) middle).2).desk =
            (executeRebalancingPlan now rest middle).2.desk := by
          rw [Proc.bind_apply]
          rcases executeRebalancingPlan now rest middle with ⟨_ | others, after⟩ <;> rfl
        simp only [finished]
        obtain same | departs := first
        · rw [← same]
          exact .skipped later
        · exact .moved departs later

end Transfers

/-- What an operation does to the desk. -/
inductive Handles (now : Datetime) : Operation → Desk → Desk → Prop where
  | quiet {operation : Operation} {desk : Desk} : Handles now operation desk desk
  | acquire {isbn copyId branchId shelfLocation actorId : String} {price : ℚ} {desk : Desk}
      (fresh : desk.copies copyId = none) :
      Handles now (.addPhysicalCopy isbn copyId branchId shelfLocation price actorId) desk
        (desk.putCopy copyId (.new copyId isbn branchId shelfLocation price))
  | issue {request : IssueRequest} {before after : Desk}
      (lends : Lends request.copyId request.userId now before after) :
      Handles now (.issuePhysicalBook request) before after
  | allot {isbn transactionId eventId copyId userId : String} {before after : Desk}
      (shelved : ∀ copy, before.copies copyId = some copy → copy.status = .available)
      (lends : Lends copyId userId now before after) :
      Handles now (.processSmartAllocationDrop isbn transactionId eventId) before after
  | giveBack {request : ReturnRequest} {before after : Desk}
      (takesBack : TakesBack request.copyId now before after) :
      Handles now (.returnPhysicalBook request) before after
  | reserve {isbn userId reservationId : String} {desk : Desk} :
      Handles now (.reserveBook isbn userId reservationId) desk { desk with
        reservationMgr := (desk.reservationMgr.reserveBook isbn userId 0 reservationId now).2 }
  | transfer {copyId destBranchId requestedBy transferId : String} {before after : Desk}
      (departs : Departs false copyId destBranchId transferId now before after) :
      Handles now (.transferCopy copyId destBranchId requestedBy transferId) before after
  | rebalance {plan : List PlanItem} {before after : Desk}
      (executes : Executes now plan before after) :
      Handles now (.executeRebalancingPlan plan) before after
  | arrive {transferId : String} {before after : Desk}
      (arrives : Arrives transferId now before after) :
      Handles now (.completeTransfer transferId) before after

theorem Handles.reached {now : Datetime} {operation : Operation} {before after other : Desk}
    (handles : Handles now operation before after) (same : other = after) :
    Handles now operation before other := same ▸ handles

theorem Handles.same {now : Datetime} {operation : Operation} {before after : Desk}
    (equal : after = before) : Handles now operation before after := equal ▸ .quiet

section Others

variable {now : Datetime} {before : State}

private theorem registerBook_desk (formatType actorId : String) (arguments : BookArguments)
    (sound : Sound before) :
    (registerBook formatType actorId arguments now before).2.desk = before.desk := by
  unfold registerBook
  cases accepted : createBook formatType arguments with
  | error error => rfl
  | ok book =>
      have view : (before.bookRepo.saveBook book).view = before.bookRepo.view := by
        refine (BookRepository.sameCopies_saveBook sound.repository ?_).view
        intro copies copyId ref edition found
        rw [createBook_ok accepted copies edition] at found
        cases found
      simp [State.desk, State.invalidateBook, State.logEvent, view]

private theorem acquisition_desk (isbn copyId branchId shelfLocation : String) (price : ℚ)
    (actorId : String) (now : Datetime) (fresh : before.bookRepo.copies.get? copyId = none)
    (sound : Sound before) :
    (addPhysicalCopy isbn copyId branchId shelfLocation price actorId now before).2.desk =
        before.desk ∨
      (addPhysicalCopy isbn copyId branchId shelfLocation price actorId now before).2.desk =
        before.desk.putCopy copyId (.new copyId isbn branchId shelfLocation price) := by
  unfold addPhysicalCopy
  simp only [Proc.read_bind_apply]
  cases found : physicalOnly (before.bookRepo.getBook isbn) with
  | none => exact .inl rfl
  | some book =>
      have known := (Option.filter_eq_some_iff.mp found).1
      have attached : ((before.bookRepo.attach isbn book
          (.new copyId isbn branchId shelfLocation price)).saveCopy
            before.bookRepo.objects.next).WellFormed :=
        sound.repository.attach_saveCopy known rfl fresh
      have view := (BookRepository.resaveBook_spec attached isbn).1.view.trans
        (sound.repository.view_attach_saveCopy rfl)
      right
      simp only [Proc.expect_some_bind_apply, Proc.read_bind_apply, Proc.update_bind_apply,
        Proc.pure_apply]
      simp only [State.desk, Desk.putCopy, State.saveCopy, State.invalidateBook, State.logEvent,
        view]
      rfl

private theorem registerUser_desk (request : RegisterRequest) :
    (registerUser request before).2.desk = before.desk := by
  unfold registerUser
  simp only [Proc.read_bind_apply]
  cases before.users.contains request.userId with
  | true => rfl
  | false =>
      cases createUser request.role request.arguments with
      | error error => rfl
      | ok user => rfl

private theorem requestSmartAllocation_desk (isbn userId requestId : String) :
    (requestSmartAllocation isbn userId requestId now before).2.desk = before.desk := by
  unfold requestSmartAllocation
  simp only [Proc.read_bind_apply]
  cases before.users.get? userId with
  | none => rfl
  | some user => rfl

private theorem chargeFine_desk (userId isbn : String) (overdueDays : Int) (actorId : String) :
    (chargeFine userId isbn overdueDays actorId now before).2.desk = before.desk := by
  unfold chargeFine
  simp only [Proc.read_bind_apply]
  cases before.users.get? userId with
  | none => rfl
  | some user => rfl

private theorem payFine_desk (userId : String) (amount : ℚ) (paymentMethod : String)
    (metadata : PaymentMetadata) (transactionId : String) :
    (payFine userId amount paymentMethod metadata transactionId now before).2.desk =
      before.desk := by
  unfold payFine
  simp only [Proc.read_bind_apply]
  cases before.users.get? userId with
  | none => rfl
  | some user =>
      cases PaymentMethod.ofName? paymentMethod with
      | none => rfl
      | some method =>
          simp only [Proc.expect_some_bind_apply, Proc.read_bind_apply]
          cases executePayment method before.userWallets amount userId metadata transactionId with
          | error error => rfl
          | ok outcome =>
              obtain ⟨result, wallets⟩ := outcome
              simp only [Proc.lift_ok_bind_apply, Proc.update_bind_apply]
              by_cases completed : result.status = .completed
              · simp only [completed, ↓reduceIte]
                rfl
              · simp only [completed, ↓reduceIte]
                rfl

/-- The copy an allocation drop picks is on the shelf. -/
theorem firstAvailable_shelved {isbn : String} {copy other : BookCopy}
    (repository : before.bookRepo.WellFormed) (picked : firstAvailable before isbn = some copy)
    (held : before.desk.copies copy.copyId = some other) : other.status = .available := by
  unfold firstAvailable at picked
  split at picked
  · next copies listed =>
      obtain ⟨book, found, edition⟩ := Option.bind_eq_some_iff.mp listed
      have member := List.mem_of_mem_head? (Option.mem_def.mpr picked)
      obtain ⟨object, shelved⟩ := List.mem_filter.mp member
      obtain ⟨ref, stored, read⟩ := List.mem_filterMap.mp object
      obtain ⟨key, own⟩ := (Dict.mem_values_iff copies ref).mp stored
      have shared := repository.shared isbn book copies key ref found edition own
      obtain ⟨kept, keptRead, identity⟩ := repository.copyIds key ref shared
      rw [read, Option.some.injEq] at keptRead
      subst kept
      rw [← identity] at shared
      have seen := view_of_getCopy (BookRepository.getCopy_eq_some_iff.mpr ⟨shared, read⟩)
      have same : some other = some copy := held.symm.trans seen
      cases same
      exact of_decide_eq_true shelved
  · cases picked

private theorem allocationDrop_desk (isbn transactionId eventId : String) (now : Datetime)
    (sound : Sound before) :
    (processSmartAllocationDrop isbn transactionId eventId now before).2.desk = before.desk ∨
      ∃ copyId userId, (∀ copy, before.desk.copies copyId = some copy →
          copy.status = .available) ∧
        Lends copyId userId now before.desk
          (processSmartAllocationDrop isbn transactionId eventId now before).2.desk := by
  unfold processSmartAllocationDrop
  simp only [Proc.read_bind_apply]
  cases before.allocationQueues.get? isbn with
  | none => exact .inl rfl
  | some queue =>
      simp only [Proc.read_bind_apply]
      rcases queue.popHighestPriority with ⟨_ | top, rest⟩
      · exact .inl rfl
      · cases picked : firstAvailable before isbn with
        | none => exact .inl rfl
        | some copy =>
            simp only [Proc.update_bind_apply]
            rw [Proc.bind_apply]
            generalize called : IssueRequest.mk copy.copyId top.userId "SMART_ALLOCATOR" 14
              transactionId eventId = request
            have dequeued : Sound { before with
                allocationQueues := before.allocationQueues.set isbn rest } :=
              ⟨sound.repository, sound.consistent⟩
            have outcome := issue_desk request now dequeued
            have shelved : ∀ other, before.desk.copies request.copyId = some other →
                other.status = .available := by
              rw [← called]
              exact fun other held => firstAvailable_shelved sound.repository picked held
            rcases ran : issuePhysicalBook request now { before with
                allocationQueues := before.allocationQueues.set isbn rest } with
              ⟨_ | record, after⟩ <;>
            · rw [ran] at outcome
              obtain same | lends := outcome
              · exact .inl same
              · exact .inr ⟨request.copyId, request.userId, shelved, lends⟩

end Others

/-- Every admissible call is one of the ways to serve at the desk. -/
theorem step_handles {before after : State} {call : TimedOperation}
    (step : Step before call after) (admissible : Admissible ⟨before, call, after⟩)
    (sound : Sound before) : Handles call.now call.operation before.desk after.desk := by
  obtain ⟨operation, now⟩ := call
  cases step
  cases operation with
  | registerBook formatType actorId arguments =>
      exact .same (registerBook_desk formatType actorId arguments sound)
  | addPhysicalCopy isbn copyId branchId shelfLocation price actorId =>
      have unknown : before.desk.copies copyId = none := by
        have fresh : before.bookRepo.copies.get? copyId = none := admissible
        simp [State.desk, BookRepository.view, BookRepository.getCopy, fresh]
      obtain same | added := acquisition_desk isbn copyId branchId shelfLocation price
        actorId now admissible sound
      · exact .same same
      · exact Handles.reached (.acquire unknown) added
  | registerUser request => exact .same (registerUser_desk request)
  | issuePhysicalBook request =>
      obtain same | lends := issue_desk request now sound
      · exact .same same
      · exact .issue lends
  | returnPhysicalBook request =>
      obtain same | takesBack := return_desk request sound
      · exact .same same
      · exact .giveBack takesBack
  | reserveBook isbn userId reservationId => exact .reserve
  | requestSmartAllocation isbn userId requestId =>
      exact .same (requestSmartAllocation_desk isbn userId requestId)
  | processSmartAllocationDrop isbn transactionId eventId =>
      obtain same | ⟨copyId, userId, shelved, lends⟩ :=
        allocationDrop_desk isbn transactionId eventId now sound
      · exact .same same
      · exact .allot shelved lends
  | transferCopy copyId destBranchId requestedBy transferId =>
      obtain same | departs := transfer_desk copyId destBranchId requestedBy transferId sound
      · exact .same same
      · exact .transfer departs
  | executeRebalancingPlan plan => exact .rebalance (plan_desk plan before admissible sound)
  | completeTransfer transferId =>
      obtain ⟨_, same⟩ | ⟨_, arrives⟩ := arrival_desk transferId now sound
      · exact .same (congrArg State.desk same)
      · exact .arrive arrives
  | chargeFine userId isbn overdueDays actorId =>
      exact .same (chargeFine_desk userId isbn overdueDays actorId)
  | payFine userId amount paymentMethod metadata transactionId =>
      exact .same (payFine_desk userId amount paymentMethod metadata transactionId)
  | getBookDetails isbn => exact .quiet

/-- Whether a call keeps what callers promise. -/
def admissible (state : State) (call : TimedOperation) : Bool :=
  match call.operation with
  | .addPhysicalCopy _ copyId _ _ _ _ => (state.bookRepo.copies.get? copyId).isNone
  | .transferCopy _ destBranchId _ _ => destBranchId ≠ ""
  | .executeRebalancingPlan plan => plan.all fun item => item.destBranchId ≠ ""
  | _ => true

theorem admissible_sound {call : Transition State TimedOperation}
    (checked : admissible call.before call.label = true) : Admissible call := by
  unfold admissible at checked
  unfold Admissible
  cases operation : call.label.operation with
  | addPhysicalCopy isbn copyId branchId shelfLocation price actorId =>
      simpa [operation] using checked
  | transferCopy copyId destBranchId requestedBy transferId => simpa [operation] using checked
  | executeRebalancingPlan plan => simpa [operation] using checked
  | _ => trivial

/-- The state after one call. -/
def serve (state : State) (call : TimedOperation) : State := call.operation.exec call.now state

end LibraFlow.Container
