import LibraFlow.Container.Desk

/-! The ledger of transfers and the copies in transit. Whatever is checked out,
returned, moved by hand or moved by a plan, every copy in transit has one open
transfer, and every open transfer has its copy in transit on the way it says. -/

set_option autoImplicit false

namespace LibraFlow.Container

open LibraFlow.Core LibraFlow.Library LibraFlow.Storage LibraFlow.Services LibraFlow.Distributed

/-- An open transfer of a copy. -/
def Carries (transfers : Dict String TransferRequest) (transferId copyId : String) : Prop :=
  ∃ transfer, transfers.get? transferId = some transfer ∧ transfer.status = .inTransit ∧
    transfer.copyId = copyId

private theorem carries_set {transfers : Dict String TransferRequest}
    {transferId other copyId : String} {transfer : TransferRequest} :
    Carries (transfers.set transferId transfer) other copyId ↔
      if transferId = other then transfer.status = .inTransit ∧ transfer.copyId = copyId
      else Carries transfers other copyId := by
  simp only [Carries, Dict.get?_set]
  split
  · simp
  · rfl

/-- The copy is on the way that the transfer says. -/
structure OnRoute (transfer : TransferRequest) (copy : BookCopy) : Prop where
  status : copy.status = .inTransit
  target : copy.targetBranchId = some transfer.destBranchId
  source : copy.branchId = transfer.sourceBranchId
  named : transfer.destBranchId ≠ ""

structure Desk.Routed (desk : Desk) : Prop where
  identified : ∀ copyId copy, desk.copies copyId = some copy → copy.copyId = copyId
  moving : ∀ transferId transfer, desk.transfers.get? transferId = some transfer →
    transfer.status = .inTransit →
    ∃ copy, desk.copies transfer.copyId = some copy ∧ OnRoute transfer copy
  single : ∀ left right copyId, Carries desk.transfers left copyId →
    Carries desk.transfers right copyId → left = right
  carried : ∀ copyId copy, desk.copies copyId = some copy → copy.status = .inTransit →
    ∃ transferId, Carries desk.transfers transferId copyId

section Calls

variable {now : Datetime} {desk before after : Desk} {copyId userId : String}

/-- No open transfer names a copy that is not in transit. -/
theorem Desk.Routed.not_carries (routed : desk.Routed)
    (settled : ∀ copy, desk.copies copyId = some copy → copy.status ≠ .inTransit)
    (transferId : String) : ¬ Carries desk.transfers transferId copyId := by
  rintro ⟨transfer, listed, open_, rfl⟩
  obtain ⟨copy, held, onRoute⟩ := routed.moving transferId transfer listed open_
  exact settled copy held onRoute.status

theorem Desk.Routed.identified_putCopy {copy : BookCopy} (routed : desk.Routed)
    (identity : copy.copyId = copyId) (other : String) (found : BookCopy)
    (held : Function.update desk.copies copyId (some copy) other = some found) :
    found.copyId = other := by
  rw [Function.update_apply] at held
  split at held
  · next same =>
      cases held
      exact identity.trans same.symm
  · exact routed.identified other found held

/-- A copy that is not in transit before and after. -/
theorem Desk.Routed.putCopy {copy : BookCopy} (routed : desk.Routed)
    (settled : ∀ old, desk.copies copyId = some old → old.status ≠ .inTransit)
    (status : copy.status ≠ .inTransit) (identity : copy.copyId = copyId) :
    (desk.putCopy copyId copy).Routed := by
  refine ⟨routed.identified_putCopy identity, ?_, routed.single, ?_⟩
  · intro transferId transfer listed open_
    obtain ⟨found, held, onRoute⟩ := routed.moving transferId transfer listed open_
    have different : transfer.copyId ≠ copyId := by
      rintro rfl
      exact settled found held onRoute.status
    exact ⟨found, by simp [Desk.putCopy, different, held], onRoute⟩
  · intro other found held inTransit
    simp only [Desk.putCopy, Function.update_apply] at held
    split at held
    · cases held
      exact absurd inTransit status
    · exact routed.carried other found held inTransit

theorem Desk.Routed.congr {other : Desk} (routed : desk.Routed)
    (copies : other.copies = desk.copies) (transfers : other.transfers = desk.transfers) :
    other.Routed := by
  obtain ⟨identified, moving, single, carried⟩ := routed
  refine ⟨copies ▸ identified, ?_, transfers ▸ single, ?_⟩
  · rw [copies, transfers]
    exact moving
  · rw [copies, transfers]
    exact carried

private theorem settled_of_status {copy : BookCopy} (held : desk.copies copyId = some copy)
    (status : copy.status ≠ .inTransit) :
    ∀ old, desk.copies copyId = some old → old.status ≠ .inTransit := by
  intro old same
  rw [held, Option.some.injEq] at same
  exact same ▸ status

theorem Lends.routed (lends : Lends copyId userId now before after) (routed : before.Routed) :
    after.Routed := by
  have step : ∀ copy issued, before.copies copyId = some copy →
      copy.checkOut userId = .ok issued → (before.putCopy copyId issued).Routed := by
    intro copy issued held accepted
    obtain ⟨shelved, rfl⟩ := BookCopy.checkOut_ok accepted
    refine routed.putCopy (settled_of_status held ?_) (by simp) (routed.identified copyId copy held)
    rcases shelved with status | status <;> simp [status]
  cases lends with
  | recorded record held allowed accepted => exact (step _ _ held accepted).congr rfl rfl
  | overflowed held allowed accepted => exact step _ _ held accepted

theorem TakesBack.routed (takesBack : TakesBack copyId now before after)
    (routed : before.Routed) : after.Routed := by
  have step : ∀ copy final, before.copies copyId = some copy → copy.status = .issued →
      final.status ≠ .inTransit → BookCopy.SameCopy copy final →
      (before.putCopy copyId final).Routed := by
    intro copy final held issued status same
    exact routed.putCopy (settled_of_status held (by simp [issued])) status
      (same.copyId.trans (routed.identified copyId copy held))
  have shelf : ∀ copy returned : BookCopy, copy.returnBook = .ok returned →
      returned.status ≠ .inTransit := by
    intro copy returned accepted
    rcases BookCopy.returnBook_ok accepted with ⟨_, rfl⟩ | ⟨_, rfl⟩ <;> simp
  cases takesBack with
  | shelved held status named accepted offered =>
      exact (step _ _ held status (shelf _ _ accepted)
        (BookCopy.sameCopy_returnBook accepted)).congr rfl rfl
  | overflowed held status named accepted offered =>
      exact (step _ _ held status (shelf _ _ accepted)
        (BookCopy.sameCopy_returnBook accepted)).congr rfl rfl
  | @assigned copy returned reserved manager entry held status named accepted offered kept =>
      have returns := BookCopy.sameCopy_returnBook accepted
      have holds := BookCopy.sameCopy_reserve kept
      have waits : reserved.status ≠ .inTransit := by
        obtain ⟨_, rfl⟩ := BookCopy.reserve_ok kept
        simp
      exact (step _ _ held status waits ⟨holds.copyId.trans returns.copyId,
        holds.bookIsbn.trans returns.bookIsbn⟩).congr rfl rfl

theorem Departs.routed {autonomous : Bool} {destBranchId transferId : String}
    (departs : Departs autonomous copyId destBranchId transferId now before after)
    (named : destBranchId ≠ "") (fresh : before.transfers.get? transferId = none)
    (routed : before.Routed) : after.Routed := by
  cases departs with
  | @departed copy sent requestedBy held elsewhere accepted =>
      obtain ⟨status, rfl⟩ := BookCopy.startTransfer_ok accepted
      have identity := routed.identified copyId copy held
      have unmoved := routed.not_carries (settled_of_status held (by simp [status]))
      refine ⟨routed.identified_putCopy identity, ?_, ?_, ?_⟩
      · intro other transfer listed open_
        simp only [Dict.get?_set] at listed
        split at listed
        · cases listed
          refine ⟨{ copy with status := .inTransit, targetBranchId := some destBranchId }, ?_,
            rfl, rfl, rfl, named⟩
          simp [Desk.putCopy, departure, identity]
        · obtain ⟨found, otherHeld, onRoute⟩ := routed.moving other transfer listed open_
          have different : transfer.copyId ≠ copyId := by
            rintro rfl
            exact unmoved other ⟨transfer, listed, open_, rfl⟩
          exact ⟨found, by simp [Desk.putCopy, different, otherHeld], onRoute⟩
      · intro left right otherCopy leftCarries rightCarries
        simp only [carries_set, departure, identity, true_and] at leftCarries rightCarries
        split at leftCarries <;> split at rightCarries
        · next leftNew rightNew => exact leftNew.symm.trans rightNew
        · exact absurd (leftCarries ▸ rightCarries) (unmoved _)
        · exact absurd (rightCarries ▸ leftCarries) (unmoved _)
        · exact routed.single left right otherCopy leftCarries rightCarries
      · intro other found otherHeld inTransit
        simp only [Desk.putCopy, Function.update_apply] at otherHeld
        split at otherHeld
        · next same =>
            refine ⟨transferId, ?_⟩
            simp [carries_set, departure, identity, same]
        · obtain ⟨known, carries⟩ := routed.carried other found otherHeld inTransit
          have different : transferId ≠ known := by
            rintro rfl
            obtain ⟨transfer, listed, _⟩ := carries
            rw [fresh] at listed
            cases listed
          exact ⟨known, by simpa [carries_set, different] using carries⟩

/-- What an arrival makes of the copy of an open transfer. -/
theorem OnRoute.completeTransfer {transfer : TransferRequest} {copy arrived : BookCopy}
    (onRoute : OnRoute transfer copy) (accepted : copy.completeTransfer = .ok arrived) :
    arrived = { copy with
      status := .available
      branchId := transfer.destBranchId
      targetBranchId := none } := by
  obtain ⟨_, rfl⟩ := BookCopy.completeTransfer_ok accepted
  simp [onRoute.target, truthy_some onRoute.named]

theorem Arrives.routed {transferId : String} (arrives : Arrives transferId now before after)
    (routed : before.Routed) : after.Routed := by
  cases arrives with
  | @arrived copy arrived transfer listed moving held accepted =>
      obtain ⟨known, knownHeld, onRoute⟩ := routed.moving transferId transfer listed moving
      rw [held, Option.some.injEq] at knownHeld
      subst known
      have identity := routed.identified transfer.copyId copy held
      have carries : Carries before.transfers transferId transfer.copyId :=
        ⟨transfer, listed, moving, rfl⟩
      obtain rfl := onRoute.completeTransfer accepted
      refine ⟨routed.identified_putCopy identity, ?_, ?_, ?_⟩
      · intro other otherTransfer otherListed open_
        simp only [Dict.get?_set] at otherListed
        split at otherListed
        · cases otherListed
          cases open_
        · next different =>
            obtain ⟨found, otherHeld, otherRoute⟩ :=
              routed.moving other otherTransfer otherListed open_
            have elsewhere : otherTransfer.copyId ≠ transfer.copyId := by
              intro same
              exact different (routed.single transferId other transfer.copyId carries
                ⟨otherTransfer, otherListed, open_, same⟩)
            exact ⟨found, by simp [Desk.putCopy, elsewhere, otherHeld], otherRoute⟩
      · intro left right otherCopy leftCarries rightCarries
        simp only [carries_set, reduceCtorEq, false_and] at leftCarries rightCarries
        split at leftCarries
        · exact leftCarries.elim
        · split at rightCarries
          · exact rightCarries.elim
          · exact routed.single left right otherCopy leftCarries rightCarries
      · intro other found otherHeld inTransit
        simp only [Desk.putCopy, Function.update_apply] at otherHeld
        split at otherHeld
        · cases otherHeld
          cases inTransit
        · next elsewhere =>
            obtain ⟨known, otherCarries⟩ := routed.carried other found otherHeld inTransit
            have different : transferId ≠ known := by
              rintro rfl
              obtain ⟨same, sameListed, _, named⟩ := otherCarries
              rw [listed, Option.some.injEq] at sameListed
              exact elsewhere (named.symm.trans (sameListed ▸ rfl))
            exact ⟨known, by simpa [carries_set, different] using otherCarries⟩

/-- The transfers of a plan get identifiers that no other transfer has. -/
structure FreshItems (transfers : Dict String TransferRequest) (plan : List PlanItem) : Prop where
  unused : ∀ item ∈ plan, transfers.get? item.transferId = none
  distinct : (plan.map PlanItem.transferId).Nodup

theorem FreshItems.tail {transfers : Dict String TransferRequest} {item : PlanItem}
    {rest : List PlanItem} (fresh : FreshItems transfers (item :: rest)) :
    FreshItems transfers rest :=
  ⟨fun other member => fresh.unused other (List.mem_cons_of_mem _ member),
    (List.nodup_cons.mp fresh.distinct).2⟩

theorem Departs.freshItems {item : PlanItem} {rest : List PlanItem}
    (departs : Departs true item.copyId item.destBranchId item.transferId now before after)
    (fresh : FreshItems before.transfers (item :: rest)) : FreshItems after.transfers rest := by
  refine ⟨?_, fresh.tail.distinct⟩
  intro other member
  have different : item.transferId ≠ other.transferId := by
    intro same
    exact (List.nodup_cons.mp fresh.distinct).1 (same ▸ List.mem_map_of_mem member)
  cases departs
  rw [Dict.get?_set_of_ne _ _ different]
  exact fresh.tail.unused other member

theorem Executes.routed {plan : List PlanItem} (executes : Executes now plan before after)
    (named : ∀ item ∈ plan, item.destBranchId ≠ "") (fresh : FreshItems before.transfers plan)
    (routed : before.Routed) : after.Routed := by
  induction executes with
  | ended => exact routed
  | skipped _ ih =>
      exact ih (fun item member => named item (List.mem_cons_of_mem _ member)) fresh.tail routed
  | @moved item rest _ _ _ departs _ ih =>
      have first := departs.routed (named item List.mem_cons_self)
        (fresh.unused item List.mem_cons_self) routed
      exact ih (fun other member => named other (List.mem_cons_of_mem _ member))
        (departs.freshItems fresh) first

end Calls

/-- A new transfer gets an identifier that no other transfer has. -/
def FreshTransfers (call : Transition State TimedOperation) : Prop :=
  match call.label.operation with
  | .transferCopy _ _ _ transferId => call.before.branchMgr.transfers.get? transferId = none
  | .executeRebalancingPlan plan => FreshItems call.before.branchMgr.transfers plan
  | _ => True

structure SoundRouted (state : State) : Prop where
  sound : Sound state
  routed : state.desk.Routed

theorem SoundRouted.step {before after : State} {call : TimedOperation}
    (state : SoundRouted before) (step : Step before call after)
    (admissible : Admissible ⟨before, call, after⟩)
    (fresh : FreshTransfers ⟨before, call, after⟩) : SoundRouted after := by
  refine ⟨(step_explained step admissible state.sound).sound state.sound, ?_⟩
  have handles := step_handles step admissible state.sound
  obtain ⟨operation, now⟩ := call
  suffices general : ∀ start final, Handles now operation start final →
      start.transfers = before.branchMgr.transfers → start.Routed → final.Routed from
    general _ _ handles rfl state.routed
  intro start final handles same routed
  cases handles with
  | quiet => exact routed
  | acquire unknown =>
      refine routed.putCopy ?_ (by simp [BookCopy.new]) rfl
      intro old known
      rw [unknown] at known
      cases known
  | issue lends => exact lends.routed routed
  | allot _ lends => exact lends.routed routed
  | giveBack takesBack => exact takesBack.routed routed
  | reserve => exact routed.congr rfl rfl
  | @transfer copyId destBranchId requestedBy transferId _ _ departs =>
      have unused : before.branchMgr.transfers.get? transferId = none := fresh
      exact departs.routed admissible (same ▸ unused) routed
  | @rebalance plan _ _ executes =>
      have unused : FreshItems before.branchMgr.transfers plan := fresh
      exact executes.routed admissible (same ▸ unused) routed
  | arrive arrives => exact arrives.routed routed

/-- Transfers and copies agree: a copy is in transit exactly when one open
transfer names it, which is then the way it is on, and open transfers name
copies in transit only. -/
structure TransfersAgree (state : State) : Prop where
  inTransit : ∀ copyId ref copy, state.bookRepo.getCopy copyId = some (ref, copy) →
    (copy.status = .inTransit ↔
      ∃! transferId, Carries state.branchMgr.transfers transferId copyId)
  route : ∀ transferId transfer, state.branchMgr.transfers.get? transferId = some transfer →
    transfer.status = .inTransit →
    ∃ ref copy, state.bookRepo.getCopy transfer.copyId = some (ref, copy) ∧
      copy.status = .inTransit ∧ copy.targetBranchId = some transfer.destBranchId ∧
      copy.branchId = transfer.sourceBranchId

/-- An arrival moves the copy of its transfer and completes that transfer, and
nothing else; without an open transfer it changes nothing. -/
structure ArrivesExactly (call : Transition State TimedOperation) : Prop where
  moves : ∀ transferId completed, call.label.operation = .completeTransfer transferId →
    (completeTransfer transferId call.label.now call.before).1 = .ok (some completed) →
    ∃ transfer copy, call.before.branchMgr.transfers.get? transferId = some transfer ∧
      call.before.bookRepo.view transfer.copyId = some copy ∧
      call.after.bookRepo.view = Function.update call.before.bookRepo.view transfer.copyId
        (some { copy with
          status := .available
          branchId := transfer.destBranchId
          targetBranchId := none }) ∧
      ∀ other, call.after.branchMgr.transfers.get? other =
        if other = transferId then
          some { transfer with status := .completed, completedAt := some call.label.now }
        else call.before.branchMgr.transfers.get? other
  idle : ∀ transferId, call.label.operation = .completeTransfer transferId →
    (∀ transfer, call.before.branchMgr.transfers.get? transferId = some transfer →
      transfer.status ≠ .inTransit) →
    call.after = call.before

theorem SoundRouted.transfersAgree {state : State} (correct : SoundRouted state) :
    TransfersAgree state := by
  obtain ⟨_, routed⟩ := correct
  refine ⟨?_, ?_⟩
  · intro copyId ref copy found
    have held : state.desk.copies copyId = some copy := view_of_getCopy found
    constructor
    · intro status
      obtain ⟨transferId, carries⟩ := routed.carried copyId copy held status
      exact ⟨transferId, carries, fun other again =>
        routed.single other transferId copyId again carries⟩
    · rintro ⟨transferId, carries, _⟩
      by_contra settled
      exact routed.not_carries (settled_of_status held settled) transferId carries
  · intro transferId transfer listed moving
    obtain ⟨copy, seen, onRoute⟩ := routed.moving transferId transfer listed moving
    obtain ⟨ref, found⟩ := BookRepository.view_eq_some_iff.mp seen
    exact ⟨ref, copy, found, onRoute.status, onRoute.target, onRoute.source⟩

theorem SoundRouted.arrivesExactly {before after : State} {call : TimedOperation}
    (state : SoundRouted before) (step : Step before call after) :
    ArrivesExactly ⟨before, call, after⟩ := by
  obtain ⟨operation, now⟩ := call
  cases step
  refine ⟨?_, ?_⟩
  · intro transferId completed called returned
    subst called
    obtain ⟨unreturned, _⟩ | ⟨_, arrives⟩ := arrival_desk transferId now state.sound
    · exact absurd returned (unreturned completed)
    · simp only [Operation.exec]
      generalize reached : (completeTransfer transferId now before).2 = after at arrives
      generalize shown : after.desk = desk at arrives
      cases arrives with
      | @arrived copy arrived transfer listed moving held accepted =>
          obtain ⟨known, knownHeld, onRoute⟩ := state.routed.moving transferId transfer listed
            moving
          rw [held, Option.some.injEq] at knownHeld
          subst known
          obtain rfl := onRoute.completeTransfer accepted
          refine ⟨transfer, copy, listed, held, congrArg Desk.copies shown, ?_⟩
          intro other
          have transfers : after.branchMgr.transfers = _ := congrArg Desk.transfers shown
          rw [transfers, Dict.get?_set]
          simp only [eq_comm]
          rfl
  · intro transferId called settled
    subst called
    obtain ⟨_, same⟩ | ⟨_, arrives⟩ := arrival_desk transferId now state.sound
    · exact same
    · generalize (completeTransfer transferId now before).2.desk = desk at arrives
      cases arrives with
      | arrived listed moving held accepted => exact absurd moving (settled _ listed)

/-- A call that callers promise, with new transfer identifiers. -/
def FreshCall (call : Transition State TimedOperation) : Prop :=
  Admissible call ∧ FreshTransfers call

private theorem routed_empty (branchRepo registered : Dict String LibraryBranch) :
    SoundRouted (State.empty branchRepo registered) := by
  refine ⟨sound_empty branchRepo registered, ?_, ?_, ?_, ?_⟩
  · intro copyId copy held
    cases held
  · intro transferId transfer listed
    cases listed
  · rintro left right copyId ⟨transfer, listed, _⟩
    cases listed
  · intro copyId copy held
    cases held

/-- After any sequence of admissible calls with distinct transfer identifiers the
transfers and the copies agree, and every arrival is exact. -/
theorem run_transfersAgree (branchRepo registered : Dict String LibraryBranch)
    {trace : List (Transition State TimedOperation)} {final : State}
    (run : Run Step (State.empty branchRepo registered) trace final)
    (admissible : ∀ call ∈ trace, Admissible call)
    (fresh : ∀ call ∈ trace, FreshTransfers call) :
    TransfersAgree final ∧ ∀ call ∈ trace, ArrivesExactly call := by
  have permitted : ∀ call ∈ trace, FreshCall call :=
    fun call member => ⟨admissible call member, fresh call member⟩
  have initially := routed_empty branchRepo registered
  have preserved : ∀ before call after, SoundRouted before → Step before call after →
      FreshCall ⟨before, call, after⟩ → SoundRouted after :=
    fun before call after earlier taken allowed => earlier.step taken allowed.1 allowed.2
  refine ⟨(run.invariant permitted initially preserved).transfersAgree, ?_⟩
  intro call member
  obtain ⟨earlier, taken⟩ := run.transition_invariant permitted initially preserved call member
  exact earlier.arrivesExactly taken

/-- Whether the transfers of a call get new identifiers. -/
def freshTransfers (state : State) (call : TimedOperation) : Bool :=
  match call.operation with
  | .transferCopy _ _ _ transferId => (state.branchMgr.transfers.get? transferId).isNone
  | .executeRebalancingPlan plan =>
      (plan.all fun item => (state.branchMgr.transfers.get? item.transferId).isNone) &&
        decide (plan.map PlanItem.transferId).Nodup
  | _ => true

theorem freshTransfers_sound {call : Transition State TimedOperation}
    (checked : freshTransfers call.before call.label = true) : FreshTransfers call := by
  unfold freshTransfers at checked
  unfold FreshTransfers
  cases operation : call.label.operation with
  | transferCopy copyId destBranchId requestedBy transferId =>
      simpa [operation] using checked
  | executeRebalancingPlan plan =>
      simp only [operation, Bool.and_eq_true, List.all_eq_true, Option.isNone_iff_eq_none,
        decide_eq_true_eq] at checked
      exact ⟨checked.1, checked.2⟩
  | _ => trivial

/-- Two branches. -/
def twoBranches : Dict String LibraryBranch :=
  (Dict.empty.set "DELHI" ⟨"DELHI", "Delhi", "", "", "", 0, 0⟩).set "PUNE"
    ⟨"PUNE", "Pune", "", "", "", 1, 1⟩

/-- Two copies of a title set off, one by hand and one by a plan; the first
arrives, and its arrival is announced twice. -/
def twoTransfers : List TimedOperation :=
  ([.registerBook "physical" "ADMIN" { isbn := some "B1", title := some "Lean" },
    .addPhysicalCopy "B1" "C1" "DELHI" "A1" 100 "ADMIN",
    .addPhysicalCopy "B1" "C2" "DELHI" "A1" 100 "ADMIN",
    .transferCopy "C1" "PUNE" "ADMIN" "T1",
    .executeRebalancingPlan [⟨"C2", "PUNE", "T2"⟩],
    .completeTransfer "T1",
    .completeTransfer "T1"] : List Operation).map fun operation => ⟨operation, .min⟩

theorem run_transfersAgree_twoTransfers :
    TransfersAgree (twoTransfers.foldl serve (State.empty twoBranches twoBranches)) ∧
      ((twoTransfers.foldl serve (State.empty twoBranches twoBranches)).bookRepo.getCopy "C2").map
        (fun found => found.2.status) = some .inTransit := by
  have checked : ∀ call ∈ Run.trail serve (State.empty twoBranches twoBranches) twoTransfers,
      admissible call.before call.label = true ∧
        freshTransfers call.before call.label = true := by decide +kernel
  refine ⟨(run_transfersAgree twoBranches twoBranches
    (Run.of_exec (fun _ _ => rfl) _ twoTransfers) ?_ ?_).1, by decide +kernel⟩
  · exact fun call member => admissible_sound (checked call member).1
  · exact fun call member => freshTransfers_sound (checked call member).2

end LibraFlow.Container
