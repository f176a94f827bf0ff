import LibraFlow.Container.Acquisition
import LibraFlow.Container.PlanSafety

/-! Executing a plan some time after it was made. An item whose copy has left the
shelf is skipped; an item whose copy stands at its destination, or whose destination
the manager does not know, raises and ends the call. -/

set_option autoImplicit false

namespace LibraFlow.Container

open LibraFlow.Core LibraFlow.Library LibraFlow.Storage LibraFlow.Distributed LibraFlow.Ai
  LibraFlow.Services

/-- The copy on the shelf of another branch that an item can send to its destination. -/
def servable? (state : State) (item : PlanItem) : Option BookCopy :=
  (state.bookRepo.view item.copyId).filter fun copy =>
    decide (copy.status = .available ∧ copy.branchId ≠ item.destBranchId ∧
      state.branchMgr.branches.contains item.destBranchId = true)

/-- The items that can be carried out, with their copies. -/
def servable (state : State) (items : List PlanItem) : List (PlanItem × BookCopy) :=
  items.filterMap fun item => (servable? state item).map fun copy => (item, copy)

/-- The copy of an item on its way. -/
def departed (move : PlanItem × BookCopy) : BookCopy :=
  { move.2 with targetBranchId := some move.1.destBranchId, status := .inTransit }

def depart (view : String → Option BookCopy) (move : PlanItem × BookCopy) :
    String → Option BookCopy :=
  Function.update view move.1.copyId (some (departed move))

/-- The transfers of some items are entered in the ledger, tracked and published, their
copies are on the way, and nothing else has changed. -/
structure SendsOff (now : Datetime) (moves : List (PlanItem × BookCopy)) (before after : State) :
    Prop where
  copies : after.bookRepo.view = moves.foldl depart before.bookRepo.view
  ledger : after.branchMgr = { before.branchMgr with
    transfers := moves.foldl (fun transfers move =>
      transfers.set move.1.transferId (requestOf move.1 move.2 now)) before.branchMgr.transfers }
  tracking : after.tracking = moves.foldl (fun tracking move =>
    tracking.recordRequest (requestOf move.1 move.2 now) now) before.tracking
  published : after.published = before.published ++ moves.map fun move =>
    .requested move.1.transferId move.2.copyId move.2.bookIsbn move.2.branchId move.1.destBranchId
  others : { after with
    bookRepo := before.bookRepo
    branchMgr := before.branchMgr
    tracking := before.tracking
    published := before.published } = before

/-- The call returns; it has carried out the items that can be, and skipped the others
without effect. -/
def ToleratesStale (now : Datetime) (items : List PlanItem) (before : State) : Prop :=
  ∃ after, executeRebalancingPlan now items before =
      (.ok ((servable before items).map fun move => requestOf move.1 move.2 now), after) ∧
    SendsOff now (servable before items) before after ∧
    (∀ move ∈ servable before items, after.bookRepo.view move.1.copyId = some (departed move)) ∧
    ∀ copyId, (∀ move ∈ servable before items, move.1.copyId ≠ copyId) →
      after.bookRepo.view copyId = before.bookRepo.view copyId

/-- Items whose copies are on the shelf can be carried out. -/
def ShelvedServable (items : List PlanItem) (state : State) : Prop :=
  ∀ item ∈ items, ∀ copy, state.bookRepo.view item.copyId = some copy →
    copy.status = .available → copy.branchId ≠ item.destBranchId ∧
      state.branchMgr.branches.contains item.destBranchId = true

section Items

variable {now : Datetime} {item : PlanItem} {before middle after : State} {copy : BookCopy}

private theorem sendsOff_nil (state : State) : SendsOff now [] state state where
  copies := rfl
  ledger := rfl
  tracking := rfl
  published := (List.append_nil _).symm
  others := rfl

theorem SendsOff.trans {first second : List (PlanItem × BookCopy)}
    (left : SendsOff now first before middle) (right : SendsOff now second middle after) :
    SendsOff now (first ++ second) before after where
  copies := by rw [right.copies, left.copies, List.foldl_append]
  ledger := by rw [right.ledger, left.ledger, List.foldl_append]
  tracking := by rw [right.tracking, left.tracking, List.foldl_append]
  published := by rw [right.published, left.published, List.map_append, List.append_assoc]
  others := by
    have start := left.others
    rw [← right.others] at start
    exact start

theorem SendsOff.network {moves : List (PlanItem × BookCopy)} (departs : SendsOff now moves before after) :
    after.branchMgr.branches = before.branchMgr.branches := by
  rw [departs.ledger]

private theorem executeItem_skips (skipped : ∀ copy, before.bookRepo.view item.copyId = some copy →
    copy.status ≠ .available) : executeItem item now before = (.ok none, before) := by
  unfold executeItem
  simp only [Proc.read_bind_apply]
  cases found : before.bookRepo.getCopy item.copyId with
  | none => rfl
  | some held =>
      obtain ⟨ref, copy⟩ := held
      have gone := skipped copy (BookRepository.view_eq_some_iff.mpr ⟨ref, found⟩)
      simp only [ne_eq, gone, not_false_eq_true, ↓reduceIte]
      rfl

private theorem executeItem_raises (held : before.bookRepo.view item.copyId = some copy)
    (shelved : copy.status = .available) (unservable : ¬ (copy.branchId ≠ item.destBranchId ∧
      before.branchMgr.branches.contains item.destBranchId = true)) :
    ∃ detail, executeItem item now before = (.error (.valueError detail), before) := by
  obtain ⟨ref, found⟩ := BookRepository.view_eq_some_iff.mp held
  unfold executeItem
  simp only [Proc.read_bind_apply, found, shelved, ne_eq, not_true_eq_false, ↓reduceIte]
  rw [Proc.bind_apply, requestTransfer, MultiBranchManager.requestTransfer]
  by_cases known : before.branchMgr.branches.contains item.destBranchId = true
  · have there : copy.branchId = item.destBranchId := by
      by_contra away
      exact unservable ⟨away, known⟩
    rw [if_neg (not_not.mpr known), if_pos there]
    exact ⟨_, rfl⟩
  · rw [if_pos known]
    exact ⟨_, rfl⟩

private theorem executeItem_departs (keyed : StockKeyed before)
    (held : before.bookRepo.view item.copyId = some copy) (shelved : copy.status = .available)
    (away : copy.branchId ≠ item.destBranchId)
    (known : before.branchMgr.branches.contains item.destBranchId = true) :
    ∃ after, executeItem item now before = (.ok (some (requestOf item copy now)), after) ∧
      SendsOff now [(item, copy)] before after ∧ StockKeyed after := by
  obtain ⟨ref, found⟩ := BookRepository.view_eq_some_iff.mp held
  obtain ⟨_, read⟩ := BookRepository.getCopy_eq_some_iff.mp found
  let moved : BookCopy := departed (item, copy)
  have accepted : copy.startTransfer item.destBranchId = .ok moved := by
    rw [BookCopy.startTransfer, shelved]
    rfl
  have same := BookCopy.sameCopy_startTransfer accepted
  have started : before.branchMgr.requestTransfer copy item.destBranchId "AUTONOMOUS_REBALANCER"
      item.transferId now = .ok (moved, requestOf item copy now, { before.branchMgr with
        transfers := before.branchMgr.transfers.set item.transferId (requestOf item copy now) }) := by
    simp [MultiBranchManager.requestTransfer, known, away, accepted, moved, departed, requestOf]
  let sent : State := { (before.mutateCopy ref moved).saveCopy ref with
    branchMgr := { before.branchMgr with
      transfers := before.branchMgr.transfers.set item.transferId (requestOf item copy now) }
    tracking := before.tracking.recordRequest (requestOf item copy now) now }
  refine ⟨sent.publish (.requested item.transferId copy.copyId copy.bookIsbn copy.branchId
    item.destBranchId), ?_, ⟨?_, rfl, rfl, rfl, rfl⟩, ?_⟩
  · unfold executeItem
    simp only [Proc.read_bind_apply, found, shelved, ne_eq, not_true_eq_false, ↓reduceIte]
    rw [Proc.bind_apply, requestTransfer, started]
    simp only [Proc.update_bind_apply, Proc.pure_apply]
    rfl
  · exact keyed.view_mutate_saveCopy found same
  · exact (keyed.mutate read same).saveCopy (Heap.read?_write_self moved read)

end Items

section Plans

variable {now : Datetime} {items : List PlanItem} {before after : State}
  {moves : List (PlanItem × BookCopy)}

private theorem foldl_depart_other {view : String → Option BookCopy} {copyId : String}
    (other : ∀ move ∈ moves, move.1.copyId ≠ copyId) : moves.foldl depart view copyId = view copyId := by
  induction moves generalizing view with
  | nil => rfl
  | cons first rest ih =>
      rw [List.foldl_cons, ih fun move member => other move (List.mem_cons_of_mem _ member)]
      exact Function.update_of_ne (other first (List.mem_cons_self ..)).symm _ _

private theorem foldl_depart_moved {view : String → Option BookCopy}
    (distinct : (moves.map fun move => move.1.copyId).Nodup) {move : PlanItem × BookCopy}
    (member : move ∈ moves) : moves.foldl depart view move.1.copyId = some (departed move) := by
  induction moves generalizing view with
  | nil => cases member
  | cons first rest ih =>
      obtain ⟨fresh, distinctRest⟩ := List.nodup_cons.mp distinct
      rw [List.foldl_cons]
      rcases List.mem_cons.mp member with here | later
      · subst here
        rw [foldl_depart_other]
        · exact Function.update_self ..
        · intro other listed same
          exact fresh (List.mem_map.mpr ⟨other, listed, same⟩)
      · exact ih distinctRest later

/-- Items that name other copies are as they were. -/
theorem SendsOff.view_other (departs : SendsOff now moves before after) {copyId : String}
    (other : ∀ move ∈ moves, move.1.copyId ≠ copyId) :
    after.bookRepo.view copyId = before.bookRepo.view copyId := by
  rw [departs.copies]
  exact foldl_depart_other other

theorem SendsOff.servable_other (departs : SendsOff now moves before after)
    (other : ∀ move ∈ moves, ∀ item ∈ items, move.1.copyId ≠ item.copyId) :
    servable after items = servable before items := by
  refine List.filterMap_congr fun item member => ?_
  rw [servable?, servable?, departs.view_other fun move moved => other move moved item member,
    departs.network]

theorem SendsOff.shelvedServable_other (departs : SendsOff now moves before after)
    (other : ∀ move ∈ moves, ∀ item ∈ items, move.1.copyId ≠ item.copyId) :
    ShelvedServable items after ↔ ShelvedServable items before := by
  refine forall_congr' fun item => forall_congr' fun member => ?_
  rw [departs.view_other fun move moved => other move moved item member, departs.network]

private theorem servable_copyIds_sublist (state : State) (items : List PlanItem) :
    ((servable state items).map fun move => move.1.copyId).Sublist (items.map PlanItem.copyId) := by
  induction items with
  | nil => exact List.Sublist.refl _
  | cons item rest ih =>
      cases found : servable? state item with
      | none =>
          rw [servable, List.filterMap_cons_none (by rw [found]; rfl)]
          exact ih.cons _
      | some copy =>
          rw [servable, List.filterMap_cons_some (by rw [found]; rfl), List.map_cons, List.map_cons]
          exact ih.cons_cons _

/-- What executing the first item does to the rest of a plan. -/
theorem executeItem_spec (keyed : StockKeyed before) (item : PlanItem) :
    (∃ detail, executeItem item now before = (.error (.valueError detail), before) ∧
      ¬ ShelvedServable [item] before) ∨
    ∃ after, executeItem item now before =
        (.ok ((servable? before item).map fun copy => requestOf item copy now), after) ∧
      SendsOff now (servable before [item]) before after ∧ StockKeyed after ∧
      ShelvedServable [item] before := by
  cases held : before.bookRepo.view item.copyId with
  | none =>
      have nothing : servable? before item = none := by rw [servable?, held]; rfl
      refine .inr ⟨before, ?_, ?_, keyed, ?_⟩
      · rw [nothing]
        exact executeItem_skips fun copy found => by rw [held] at found; cases found
      · rw [servable, List.filterMap_cons_none (by rw [nothing]; rfl)]
        exact sendsOff_nil before
      · intro other member copy found
        rw [List.mem_singleton.mp member, held] at found
        cases found
  | some copy =>
      by_cases shelved : copy.status = .available
      · by_cases possible : copy.branchId ≠ item.destBranchId ∧
            before.branchMgr.branches.contains item.destBranchId = true
        · have found : servable? before item = some copy := by
            rw [servable?, held]
            exact Option.filter_some_pos (decide_eq_true ⟨shelved, possible⟩)
          obtain ⟨after, ran, departs, still⟩ := @executeItem_departs now item before copy keyed held
            shelved possible.1 possible.2
          refine .inr ⟨after, ?_, ?_, still, ?_⟩
          · rw [found]
            exact ran
          · rw [servable, List.filterMap_cons_some (by rw [found]; rfl)]
            exact departs
          · intro other member present stored _
            rw [List.mem_singleton.mp member, held, Option.some.injEq] at stored
            rw [List.mem_singleton.mp member, ← stored]
            exact possible
        · obtain ⟨detail, raised⟩ := @executeItem_raises now item before copy held shelved possible
          refine .inl ⟨detail, raised, fun all => possible ?_⟩
          exact all item (List.mem_singleton_self item) copy held shelved
      · have nothing : servable? before item = none := by
          rw [servable?, held]
          exact Option.filter_some_neg (by simp [shelved])
        refine .inr ⟨before, ?_, ?_, keyed, ?_⟩
        · rw [nothing]
          refine executeItem_skips fun other found => ?_
          rw [held, Option.some.injEq] at found
          exact found ▸ shelved
        · rw [servable, List.filterMap_cons_none (by rw [nothing]; rfl)]
          exact sendsOff_nil before
        · intro other member present stored available
          rw [List.mem_singleton.mp member, held, Option.some.injEq] at stored
          exact absurd (stored ▸ available) shelved

private theorem shelvedServable_cons {item : PlanItem} {rest : List PlanItem} :
    ShelvedServable (item :: rest) before ↔
      ShelvedServable [item] before ∧ ShelvedServable rest before := by
  simp [ShelvedServable]

/-- The whole plan is carried out as far as possible, or an item raises. -/
theorem executeRebalancingPlan_spec (keyed : StockKeyed before)
    (distinct : (items.map PlanItem.copyId).Nodup) :
    (∃ after, executeRebalancingPlan now items before =
        (.ok ((servable before items).map fun move => requestOf move.1 move.2 now), after) ∧
      SendsOff now (servable before items) before after ∧ ShelvedServable items before) ∨
    ((∃ error after, executeRebalancingPlan now items before = (.error error, after)) ∧
      ¬ ShelvedServable items before) := by
  induction items generalizing before with
  | nil => exact .inl ⟨before, rfl, sendsOff_nil before, fun _ member => by cases member⟩
  | cons item rest ih =>
      obtain ⟨fresh, distinctRest⟩ := List.nodup_cons.mp distinct
      rw [executeRebalancingPlan, Proc.bind_apply, shelvedServable_cons]
      rcases @executeItem_spec now before keyed item with
        ⟨detail, raised, bad⟩ | ⟨middle, ran, departs, still, good⟩
      · right
        rw [raised]
        exact ⟨⟨_, _, rfl⟩, fun both => bad both.1⟩
      · have apart : ∀ move ∈ servable before [item], ∀ other ∈ rest,
            move.1.copyId ≠ other.copyId := by
          intro move moved other listed same
          have named := (servable_copyIds_sublist before [item]).subset
            (List.mem_map_of_mem moved)
          rw [List.map_singleton, List.mem_singleton] at named
          exact fresh (List.mem_map.mpr ⟨other, listed, same.symm.trans named⟩)
        have whole : servable before (item :: rest) =
            servable before [item] ++ servable middle rest := by
          rw [departs.servable_other apart, ← List.singleton_append, servable, List.filterMap_append]
          rfl
        have first : ((servable? before item).map fun copy => requestOf item copy now).toList =
            (servable before [item]).map fun move => requestOf move.1 move.2 now := by
          cases found : servable? before item <;> simp [servable, found]
        rw [ran]
        rcases ih still distinctRest with ⟨after, finished, others, ready⟩ | ⟨⟨error, after, failed⟩, bad⟩
        · left
          refine ⟨after, ?_, ?_, good, (departs.shelvedServable_other apart).mp ready⟩
          · rw [whole, List.map_append, ← first]
            simp only [Proc.bind_apply, finished]
            rfl
          · rw [whole]
            exact departs.trans others
        · right
          refine ⟨⟨error, after, ?_⟩, fun both => bad ?_⟩
          · simp only [Proc.bind_apply, failed]
          · exact (departs.shelvedServable_other apart).mpr both.2

end Plans

section Planned

variable {state : State} {inputs : PlanningInputs} {popped : List TransferCandidate}
  {items : List PlanItem}

/-- The items come from a plan, whenever it was made. -/
def FromPlan (inputs : PlanningInputs) (popped : List TransferCandidate) (items : List PlanItem) :
    Prop :=
  (items.map fun item => (item.copyId, item.destBranchId)) =
    (inputs.select popped).map fun move => (move.copyId, move.destBranchId)

theorem FromPlan.distinct (planned : FromPlan inputs popped items) :
    (items.map PlanItem.copyId).Nodup := by
  have copyIds := congrArg (List.map Prod.fst) planned
  rw [PlanningInputs.select_eq_map_chosen] at copyIds
  simp only [List.map_map] at copyIds
  have once := chosen_copyIds_nodup inputs popped
  rwa [← show items.map PlanItem.copyId = (inputs.chosen popped).map TransferCandidate.copyId from
    copyIds] at once

/-- A plan that was made earlier is executed as far as possible exactly when every copy
of it that is on the shelf stands elsewhere than its destination, and the manager knows
that destination. -/
theorem toleratesStale_iff (keyed : StockKeyed state) (planned : FromPlan inputs popped items)
    (now : Datetime) : ToleratesStale now items state ↔ ShelvedServable items state := by
  have distinct := planned.distinct
  have sublist := servable_copyIds_sublist state items
  rcases @executeRebalancingPlan_spec now items state keyed distinct with
    ⟨after, finished, departs, ready⟩ | ⟨⟨error, after, failed⟩, bad⟩
  · refine ⟨fun _ => ready, fun _ => ⟨after, finished, departs, ?_, fun _ => departs.view_other⟩⟩
    intro move member
    rw [departs.copies]
    exact foldl_depart_moved (distinct.sublist sublist) member
  · refine ⟨fun tolerates => ?_, fun ready => absurd ready bad⟩
    obtain ⟨after, finished, _⟩ := tolerates
    rw [failed] at finished
    cases finished

end Planned

private theorem surgeElsewhere_keyed : StockKeyed surgeElsewhere := by
  have valid := surgeElsewhere_represented.wellFormed
  refine ⟨valid.bookKeys, valid.copyIds, ?_⟩
  intro isbn book listed copyId ref found edition member
  exact valid.copyIds copyId ref (valid.shared isbn book listed copyId ref found edition member)

/-- The plan made for the surge. -/
def surgePlan : List PlanItem := [⟨"C1", "PUNE", "T2"⟩]

private theorem surgePlan_fromPlan : FromPlan (surgeElsewhere.planningInputs 10 3)
    (((surgeElsewhere.planningInputs 10 3).candidates
      (physicalStock surgeElsewhere.bookRepo.listBooks)).insertionSort TransferCandidate.Before)
    surgePlan := by
  unfold FromPlan
  decide +kernel

/-- The planned copy has been sent off by hand, and is skipped. -/
theorem toleratesStale_iff_sent_by_hand :
    ToleratesStale .min surgePlan
      (Operation.exec (.transferCopy "C1" "PUNE" "ADMIN" "T1") .min surgeElsewhere) := by
  have keyed : StockKeyed
      (Operation.exec (.transferCopy "C1" "PUNE" "ADMIN" "T1") .min surgeElsewhere) :=
    (exec_restocks _ .min surgeElsewhere).keyed surgeElsewhere_keyed
  refine (toleratesStale_iff keyed surgePlan_fromPlan .min).mpr ?_
  intro item member copy held shelved
  rw [surgePlan, List.mem_singleton] at member
  subst member
  have moving : ((Operation.exec (.transferCopy "C1" "PUNE" "ADMIN" "T1") .min
      surgeElsewhere).bookRepo.view "C1").map BookCopy.status = some .inTransit := by
    decide +kernel
  rw [held, Option.map_some, shelved] at moving
  cases moving

/-- The planned copy has arrived in the meantime, and the stale plan raises. -/
theorem stale_plan_raises :
    let arrived := Operation.exec (.completeTransfer "T1") .min
      (Operation.exec (.transferCopy "C1" "PUNE" "ADMIN" "T1") .min surgeElsewhere)
    FromPlan (surgeElsewhere.planningInputs 10 3)
        (((surgeElsewhere.planningInputs 10 3).candidates
          (physicalStock surgeElsewhere.bookRepo.listBooks)).insertionSort TransferCandidate.Before)
        surgePlan ∧
      StockKeyed arrived ∧ ¬ ToleratesStale .min surgePlan arrived := by
  intro arrived
  have raises : (executeRebalancingPlan .min surgePlan arrived).1.toOption.isSome = false := by
    decide +kernel
  refine ⟨surgePlan_fromPlan, ?_, ?_⟩
  · exact (exec_restocks _ .min _).keyed
      ((exec_restocks _ .min surgeElsewhere).keyed surgeElsewhere_keyed)
  · rintro ⟨after, finished, _⟩
    rw [finished] at raises
    cases raises

end LibraFlow.Container
