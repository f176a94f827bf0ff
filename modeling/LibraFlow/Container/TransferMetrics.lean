import LibraFlow.Ai.TrackingProperties
import LibraFlow.Container.TransferLedger

/-! Closed-loop metrics. A tracked transfer counts as confirmed exactly when the
calls of the run say so: its copy was lent at the destination within seven days
of arrival, before any later autonomous transfer of the copy. -/

set_option autoImplicit false

namespace LibraFlow.Container

open LibraFlow.Core LibraFlow.Library LibraFlow.Storage LibraFlow.Services LibraFlow.Distributed
  LibraFlow.Ai

/-- The loans that a call records. -/
def checkoutsBy (call : Transition State TimedOperation) : List CirculationRecord :=
  call.after.records.drop call.before.records.length

/-- The autonomous transfers that a call starts. -/
def departuresBy (call : Transition State TimedOperation) : List TransferRequest :=
  match call.label.operation with
  | .executeRebalancingPlan _ =>
      call.after.branchMgr.transfers.values.drop call.before.branchMgr.transfers.values.length
  | _ => []

/-- The transfer whose arrival a call reports. -/
def arrivedBy (call : Transition State TimedOperation) : Option String :=
  match call.label.operation with
  | .completeTransfer transferId =>
      match (completeTransfer transferId call.label.now call.before).1 with
      | .ok (some _) => some transferId
      | _ => none
  | _ => none

/-- The most recent autonomous transfer of a copy. -/
def latestOf (copyId : String) (trace : List (Transition State TimedOperation)) :
    Option String :=
  TransferTracking.lastMove copyId (trace.flatMap departuresBy)

/-- A call lends the copy at the destination, at most seven days after an earlier
call reported its arrival, and no later autonomous transfer has moved it. -/
structure Confirms (leading : List (Transition State TimedOperation))
    (call : Transition State TimedOperation) (transferId copyId destBranchId : String) :
    Prop where
  lent : ∃ record ∈ checkoutsBy call, record.copyId = copyId
  there : ∃ copy, call.before.bookRepo.view copyId = some copy ∧ copy.branchId = destBranchId
  latest : latestOf copyId leading = some transferId
  recent : ∃ arrival ∈ leading, arrivedBy arrival = some transferId ∧
    (call.label.now.micros : Int) - arrival.label.now.micros ≤ TransferTracking.confirmationWindow

def Confirmed (trace : List (Transition State TimedOperation))
    (transferId copyId destBranchId : String) : Prop :=
  ∃ leading call trailing, trace = leading ++ call :: trailing ∧
    Confirms leading call transferId copyId destBranchId

/-- The tracking agrees with the calls made so far. -/
structure Tracks (trace : List (Transition State TimedOperation)) (desk : Desk) : Prop where
  known : ∀ transferId tracked,
    desk.tracking.transfersTracked.get? transferId = some tracked →
    ∃ transfer, desk.transfers.get? transferId = some transfer ∧
      (transfer.status = .inTransit ↔ tracked.arrivedAt = none) ∧ tracked.transferId = transferId
  regular : ∀ transferId tracked,
    desk.tracking.transfersTracked.get? transferId = some tracked →
    TransferTracking.Regular tracked
  reported : ∀ arrival ∈ trace, ∀ transferId, arrivedBy arrival = some transferId →
    ∃ transfer, desk.transfers.get? transferId = some transfer
  arrived : ∀ transferId tracked,
    desk.tracking.transfersTracked.get? transferId = some tracked →
    ∀ time, tracked.arrivedAt = some time ↔
      ∃ arrival ∈ trace, arrivedBy arrival = some transferId ∧ arrival.label.now = time
  borrowed : ∀ transferId tracked,
    desk.tracking.transfersTracked.get? transferId = some tracked →
    (tracked.borrowedAt.isSome = true ↔
      Confirmed trace transferId tracked.copyId tracked.destBranchId)
  latest : ∀ copyId, desk.tracking.copyToTransfer.get? copyId = latestOf copyId trace
  own : ∀ copyId transferId, desk.tracking.copyToTransfer.get? copyId = some transferId →
    ∃ tracked, desk.tracking.transfersTracked.get? transferId = some tracked ∧
      tracked.copyId = copyId

section Trace

variable {trace : List (Transition State TimedOperation)}
  {call : Transition State TimedOperation} {transferId copyId destBranchId : String}

private theorem confirmed_snoc : Confirmed (trace ++ [call]) transferId copyId destBranchId ↔
    Confirmed trace transferId copyId destBranchId ∨
      Confirms trace call transferId copyId destBranchId := by
  constructor
  · rintro ⟨leading, found, trailing, whole, confirms⟩
    rcases List.eq_nil_or_concat trailing with rfl | ⟨init, last, rfl⟩
    · obtain ⟨rfl, same⟩ := List.append_inj' whole rfl
      cases same
      exact .inr confirms
    · rw [List.concat_eq_append, ← List.cons_append, ← List.append_assoc] at whole
      obtain ⟨same, _⟩ := List.append_inj' whole rfl
      exact .inl ⟨leading, found, init, same, confirms⟩
  · rintro (⟨leading, found, trailing, rfl, confirms⟩ | confirms)
    · exact ⟨leading, found, trailing ++ [call], by simp, confirms⟩
    · exact ⟨trace, call, [], rfl, confirms⟩

private theorem latestOf_snoc : latestOf copyId (trace ++ [call]) =
    (TransferTracking.lastMove copyId (departuresBy call)).or (latestOf copyId trace) := by
  unfold latestOf
  rw [List.flatMap_append, List.flatMap_singleton, TransferTracking.lastMove_append]

private theorem arrived_snoc {time : Datetime} :
    (∃ arrival ∈ trace ++ [call], arrivedBy arrival = some transferId ∧
        arrival.label.now = time) ↔
      (∃ arrival ∈ trace, arrivedBy arrival = some transferId ∧ arrival.label.now = time) ∨
        (arrivedBy call = some transferId ∧ call.label.now = time) := by
  constructor
  · rintro ⟨arrival, member, reported, at_⟩
    obtain old | new := List.mem_append.mp member
    · exact .inl ⟨arrival, old, reported, at_⟩
    · cases List.mem_singleton.mp new
      exact .inr ⟨reported, at_⟩
  · rintro (⟨arrival, member, reported, at_⟩ | ⟨reported, at_⟩)
    · exact ⟨arrival, List.mem_append_left _ member, reported, at_⟩
    · exact ⟨call, by simp, reported, at_⟩

theorem Confirms.not_silent (confirms : Confirms trace call transferId copyId destBranchId) :
    checkoutsBy call ≠ [] := by
  obtain ⟨record, member, _⟩ := confirms.lent
  exact List.ne_nil_of_mem member

theorem Confirmed.reported (confirmed : Confirmed trace transferId copyId destBranchId) :
    ∃ arrival ∈ trace, arrivedBy arrival = some transferId := by
  obtain ⟨leading, found, trailing, rfl, confirms⟩ := confirmed
  obtain ⟨arrival, member, reported, _⟩ := confirms.recent
  exact ⟨arrival, List.mem_append_left _ member, reported⟩

end Trace

section Steps

variable {trace : List (Transition State TimedOperation)}
  {call : Transition State TimedOperation} {before after : Desk}

/-- A call that neither lends, moves by plan nor reports an arrival. -/
theorem Tracks.quiet (tracks : Tracks trace before) (silent : checkoutsBy call = [])
    (still : departuresBy call = []) (unreported : arrivedBy call = none)
    (tracking : after.tracking = before.tracking)
    (transfers : ∀ transferId transfer, before.transfers.get? transferId = some transfer →
      after.transfers.get? transferId = some transfer) : Tracks (trace ++ [call]) after := by
  refine ⟨?_, ?_, ?_, ?_, ?_, ?_, ?_⟩
  · intro transferId tracked found
    rw [tracking] at found
    obtain ⟨transfer, listed, open_⟩ := tracks.known transferId tracked found
    exact ⟨transfer, transfers transferId transfer listed, open_⟩
  · rw [tracking]
    exact tracks.regular
  · intro arrival member transferId reported
    obtain old | new := List.mem_append.mp member
    · obtain ⟨transfer, listed⟩ := tracks.reported arrival old transferId reported
      exact ⟨transfer, transfers transferId transfer listed⟩
    · cases List.mem_singleton.mp new
      rw [unreported] at reported
      cases reported
  · intro transferId tracked found time
    rw [tracking] at found
    rw [arrived_snoc, tracks.arrived transferId tracked found time, unreported]
    simp
  · intro transferId tracked found
    rw [tracking] at found
    rw [confirmed_snoc, tracks.borrowed transferId tracked found]
    exact ⟨.inl, fun confirmed => confirmed.resolve_right fun confirms =>
      confirms.not_silent silent⟩
  · intro copyId
    rw [tracking, latestOf_snoc, still, tracks.latest]
    rfl
  · rw [tracking]
    exact tracks.own

/-- A recorded loan confirms the latest transfer of its copy, if anything. -/
theorem Tracks.lend {copyId : String} {copy : BookCopy} {record : CirculationRecord}
    (tracks : Tracks trace before) (recorded : checkoutsBy call = [record])
    (about : record.copyId = copyId) (still : departuresBy call = [])
    (unreported : arrivedBy call = none)
    (held : call.before.bookRepo.view copyId = some copy)
    (tracking : after.tracking =
      before.tracking.recordCheckoutHook copyId copy.branchId call.label.now)
    (transfers : after.transfers = before.transfers) : Tracks (trace ++ [call]) after := by
  -- a confirmation by this call is a credit in the tracking, and conversely
  have credits : ∀ transferId tracked,
      before.tracking.transfersTracked.get? transferId = some tracked →
      (Confirms trace call transferId tracked.copyId tracked.destBranchId ↔
        before.tracking.Credits copyId copy.branchId call.label.now transferId tracked) := by
    intro transferId tracked found
    constructor
    · intro confirms
      obtain ⟨lentRecord, member, lentCopy⟩ := confirms.lent
      rw [recorded, List.mem_singleton] at member
      subst lentRecord
      have same : tracked.copyId = copyId := lentCopy.symm.trans about
      obtain ⟨arrival, arrivalMember, reported, within⟩ := confirms.recent
      obtain ⟨there, thereHeld, branch⟩ := confirms.there
      rw [same, held, Option.some.injEq] at thereHeld
      subst there
      refine ⟨?_, found, branch.symm, arrival.label.now, ?_, within⟩
      · rw [tracks.latest, ← same]
        exact confirms.latest
      · exact (tracks.arrived transferId tracked found _).mpr
          ⟨arrival, arrivalMember, reported, rfl⟩
    · intro credited
      obtain ⟨owned, ownedFound, same⟩ := tracks.own copyId transferId credited.latest
      rw [found, Option.some.injEq] at ownedFound
      subst owned
      obtain ⟨time, arrivedAt, within⟩ := credited.recent
      obtain ⟨arrival, member, reported, at_⟩ :=
        (tracks.arrived transferId tracked found time).mp arrivedAt
      refine ⟨⟨record, by simp [recorded], about.trans same.symm⟩,
        ⟨copy, same ▸ held, credited.here.symm⟩, ?_, arrival, member, reported, at_ ▸ within⟩
      rw [← tracks.latest, same]
      exact credited.latest
  have seen := TransferTracking.tracked_recordCheckoutHook before.tracking copyId copy.branchId
    call.label.now
  rw [← tracking] at seen
  refine ⟨?_, ?_, ?_, ?_, ?_, ?_, ?_⟩
  · intro transferId tracked found
    rw [transfers]
    obtain ⟨same, _⟩ | ⟨earlier, credited, marked⟩ := seen transferId
    · exact tracks.known transferId tracked (same ▸ found)
    · rw [marked, Option.some.injEq] at found
      subst tracked
      exact tracks.known transferId earlier credited.known
  · intro transferId tracked found
    obtain ⟨same, _⟩ | ⟨earlier, credited, marked⟩ := seen transferId
    · exact tracks.regular transferId tracked (same ▸ found)
    · rw [marked, Option.some.injEq] at found
      subst tracked
      obtain ⟨time, arrivedAt, _⟩ := credited.recent
      exact ⟨by simp [arrivedAt], by simp [arrivedAt]⟩
  · intro arrival member transferId reported
    rw [transfers]
    obtain old | new := List.mem_append.mp member
    · exact tracks.reported arrival old transferId reported
    · cases List.mem_singleton.mp new
      rw [unreported] at reported
      cases reported
  · intro transferId tracked found time
    rw [arrived_snoc, unreported]
    simp only [reduceCtorEq, false_and, or_false]
    obtain ⟨same, _⟩ | ⟨earlier, credited, marked⟩ := seen transferId
    · exact tracks.arrived transferId tracked (same ▸ found) time
    · rw [marked, Option.some.injEq] at found
      subst tracked
      exact tracks.arrived transferId earlier credited.known time
  · intro transferId tracked found
    rw [confirmed_snoc]
    obtain ⟨same, credited⟩ | ⟨earlier, credited, marked⟩ := seen transferId
    · rw [same] at found
      rw [← tracks.borrowed transferId tracked found, credits transferId tracked found]
      exact ⟨.inl, fun either => either.elim id (credited tracked)⟩
    · rw [marked, Option.some.injEq] at found
      subst tracked
      exact ⟨fun _ => .inr ((credits transferId earlier credited.known).mpr credited),
        fun _ => rfl⟩
  · intro otherCopy
    rw [tracking, TransferTracking.copyToTransfer_recordCheckoutHook, latestOf_snoc, still,
      tracks.latest]
    rfl
  · intro otherCopy transferId leads
    rw [tracking, TransferTracking.copyToTransfer_recordCheckoutHook] at leads
    obtain ⟨tracked, found, own⟩ := tracks.own otherCopy transferId leads
    obtain ⟨same, _⟩ | ⟨earlier, credited, marked⟩ := seen transferId
    · exact ⟨tracked, same.trans found, own⟩
    · rw [credited.known, Option.some.injEq] at found
      exact ⟨_, marked, found ▸ own⟩

/-- An arrival is dated in the metadata of its transfer. -/
theorem Tracks.arrive {transferId : String} {transfer : TransferRequest}
    (tracks : Tracks trace before) (silent : checkoutsBy call = [])
    (still : departuresBy call = []) (reports : arrivedBy call = some transferId)
    (listed : before.transfers.get? transferId = some transfer)
    (moving : transfer.status = .inTransit)
    (tracking : after.tracking = before.tracking.recordArrival transferId call.label.now)
    (transfers : after.transfers = before.transfers.set transferId
      { transfer with status := .completed, completedAt := some call.label.now }) :
    Tracks (trace ++ [call]) after := by
  have seen := TransferTracking.tracked_recordArrival before.tracking transferId call.label.now
  rw [← tracking] at seen
  have unconfirmed : ∀ other copyId destBranchId,
      ¬ Confirms trace call other copyId destBranchId :=
    fun other copyId destBranchId confirms => confirms.not_silent silent
  -- an open transfer has not been reported before
  have unreported : ∀ tracked, before.tracking.transfersTracked.get? transferId = some tracked →
      tracked.arrivedAt = none := by
    intro tracked found
    obtain ⟨same, sameListed, open_⟩ := tracks.known transferId tracked found
    rw [listed, Option.some.injEq] at sameListed
    exact open_.1.mp (sameListed ▸ moving)
  refine ⟨?_, ?_, ?_, ?_, ?_, ?_, ?_⟩
  · intro other tracked found
    rw [seen] at found
    rw [transfers, Dict.get?_set]
    split at found
    · next same =>
        obtain ⟨earlier, earlierFound, rfl⟩ := Option.map_eq_some_iff.mp found
        obtain ⟨_, _, _, identity⟩ := tracks.known other earlier earlierFound
        exact ⟨_, if_pos same, by simp, identity⟩
    · next different =>
        rw [if_neg different]
        exact tracks.known other tracked found
  · intro other tracked found
    rw [seen] at found
    split at found
    · obtain ⟨earlier, _, rfl⟩ := Option.map_eq_some_iff.mp found
      exact ⟨by simp, by simp⟩
    · exact tracks.regular other tracked found
  · intro arrival member other reported
    rw [transfers, Dict.get?_set]
    by_cases same : transferId = other
    · exact ⟨_, if_pos same⟩
    · rw [if_neg same]
      obtain old | new := List.mem_append.mp member
      · exact tracks.reported arrival old other reported
      · cases List.mem_singleton.mp new
        rw [reports, Option.some.injEq] at reported
        exact absurd reported same
  · intro other tracked found time
    rw [seen] at found
    rw [arrived_snoc, reports]
    split at found
    · next same =>
        subst other
        obtain ⟨earlier, earlierFound, rfl⟩ := Option.map_eq_some_iff.mp found
        have never := (tracks.arrived transferId earlier earlierFound time).not.mp
          (by simp [unreported earlier earlierFound])
        simp [never]
    · next different =>
        rw [tracks.arrived other tracked found time]
        simp [different]
  · intro other tracked found
    rw [seen] at found
    rw [confirmed_snoc, or_iff_left (unconfirmed _ _ _)]
    split at found
    · next same =>
        subst other
        obtain ⟨earlier, earlierFound, rfl⟩ := Option.map_eq_some_iff.mp found
        exact tracks.borrowed transferId earlier earlierFound
    · exact tracks.borrowed other tracked found
  · intro copyId
    rw [tracking, TransferTracking.copyToTransfer_recordArrival, latestOf_snoc, still,
      tracks.latest]
    rfl
  · intro copyId other leads
    rw [tracking, TransferTracking.copyToTransfer_recordArrival] at leads
    obtain ⟨tracked, found, own⟩ := tracks.own copyId other leads
    rw [seen]
    by_cases same : transferId = other
    · rw [if_pos same, found]
      exact ⟨_, rfl, own⟩
    · rw [if_neg same]
      exact ⟨tracked, found, own⟩

/-- The departures of an executed plan, in order. -/
structure MovesAll (moves : List TransferRequest) (now : Datetime) (before after : Desk) :
    Prop where
  listed : after.transfers.values = before.transfers.values ++ moves
  tracking : after.tracking = before.tracking.recordRequests moves now
  records : after.records = before.records
  distinct : (moves.map TransferRequest.transferId).Nodup
  unused : ∀ request ∈ moves, before.transfers.get? request.transferId = none
  opened : ∀ request ∈ moves, after.transfers.get? request.transferId = some request ∧
    request.status = .inTransit
  kept : ∀ transferId transfer, before.transfers.get? transferId = some transfer →
    after.transfers.get? transferId = some transfer

theorem Executes.movesAll {now : Datetime} {plan : List PlanItem}
    (executes : Executes now plan before after) (fresh : FreshItems before.transfers plan) :
    ∃ moves, MovesAll moves now before after := by
  induction executes with
  | ended => exact ⟨[], by simp, rfl, rfl, by simp, by simp, by simp, fun _ _ same => same⟩
  | skipped _ ih => exact ih fresh.tail
  | @moved item rest before middle after departs _ ih =>
      obtain ⟨moves, later⟩ := ih (departs.freshItems fresh)
      have unused := fresh.unused item List.mem_cons_self
      cases departs with
      | @departed copy sent requestedBy held elsewhere accepted =>
          generalize request : departure sent item.destBranchId requestedBy item.transferId now =
            first at later
          have own : first.transferId = item.transferId := by rw [← request]; rfl
          have open_ : first.status = .inTransit := by rw [← request]; rfl
          -- later departures have other identifiers, since this one is listed by then
          have others : ∀ other ∈ moves, other.transferId ≠ item.transferId := by
            intro other member same
            have unlisted := later.unused other member
            rw [same] at unlisted
            simp at unlisted
          refine ⟨first :: moves, ?_, ?_, later.records, ?_, ?_, ?_, ?_⟩
          · rw [later.listed]
            simp only [Dict.values_set_fresh _ _ unused, List.append_assoc,
              List.singleton_append]
          · rw [later.tracking]
            rfl
          · rw [List.map_cons, List.nodup_cons]
            refine ⟨?_, later.distinct⟩
            intro member
            obtain ⟨other, listed, same⟩ := List.mem_map.mp member
            exact others other listed (same.trans own)
          · intro other member
            obtain rfl | late := List.mem_cons.mp member
            · rw [own]
              exact unused
            · have unlisted := later.unused other late
              rwa [Dict.get?_set_of_ne _ _ (Ne.symm (others other late))] at unlisted
          · intro other member
            obtain rfl | late := List.mem_cons.mp member
            · exact ⟨later.kept _ _ (by rw [own]; exact Dict.get?_set_self _ _ _), open_⟩
            · exact later.opened other late
          · intro transferId transfer listed
            refine later.kept transferId transfer ?_
            have different : item.transferId ≠ transferId := by
              rintro rfl
              rw [unused] at listed
              cases listed
            rw [Dict.get?_set_of_ne _ _ different]
            exact listed

/-- A plan starts new transfers, each the latest of its copy. -/
theorem Tracks.depart {moves : List TransferRequest} (tracks : Tracks trace before)
    (silent : checkoutsBy call = []) (departures : departuresBy call = moves)
    (unreported : arrivedBy call = none)
    (movesAll : MovesAll moves call.label.now before after) : Tracks (trace ++ [call]) after := by
  have seen := TransferTracking.tracked_recordRequests before.tracking call.label.now moves
    movesAll.distinct
  rw [← movesAll.tracking] at seen
  -- nothing is known yet about the transfer of a new identifier
  have unheard : ∀ request ∈ moves, ∀ arrival ∈ trace,
      arrivedBy arrival ≠ some request.transferId := by
    intro request member arrival listed reported
    obtain ⟨transfer, found⟩ := tracks.reported arrival listed request.transferId reported
    rw [movesAll.unused request member] at found
    cases found
  have unconfirmed : ∀ other copyId destBranchId,
      ¬ Confirms trace call other copyId destBranchId :=
    fun other copyId destBranchId confirms => confirms.not_silent silent
  refine ⟨?_, ?_, ?_, ?_, ?_, ?_, ?_⟩
  · intro transferId tracked found
    obtain ⟨request, member, rfl, new⟩ | ⟨_, old⟩ := seen transferId
    · rw [new, Option.some.injEq] at found
      subst tracked
      obtain ⟨listed, open_⟩ := movesAll.opened request member
      exact ⟨request, listed, by simp [open_, TransferTracking.newlyTracked], rfl⟩
    · obtain ⟨transfer, listed, open_⟩ := tracks.known transferId tracked (old ▸ found)
      exact ⟨transfer, movesAll.kept transferId transfer listed, open_⟩
  · intro transferId tracked found
    obtain ⟨request, member, rfl, new⟩ | ⟨_, old⟩ := seen transferId
    · rw [new, Option.some.injEq] at found
      subst tracked
      exact ⟨by simp [TransferTracking.newlyTracked], by simp [TransferTracking.newlyTracked]⟩
    · exact tracks.regular transferId tracked (old ▸ found)
  · intro arrival member transferId reported
    obtain earlier | new := List.mem_append.mp member
    · obtain ⟨transfer, listed⟩ := tracks.reported arrival earlier transferId reported
      exact ⟨transfer, movesAll.kept transferId transfer listed⟩
    · cases List.mem_singleton.mp new
      rw [unreported] at reported
      cases reported
  · intro transferId tracked found time
    rw [arrived_snoc, unreported]
    simp only [reduceCtorEq, false_and, or_false]
    obtain ⟨request, member, rfl, new⟩ | ⟨_, old⟩ := seen transferId
    · rw [new, Option.some.injEq] at found
      subst tracked
      constructor
      · intro impossible
        cases impossible
      · rintro ⟨arrival, listed, reported, _⟩
        exact absurd reported (unheard request member arrival listed)
    · exact tracks.arrived transferId tracked (old ▸ found) time
  · intro transferId tracked found
    rw [confirmed_snoc, or_iff_left (unconfirmed _ _ _)]
    obtain ⟨request, member, rfl, new⟩ | ⟨_, old⟩ := seen transferId
    · rw [new, Option.some.injEq] at found
      subst tracked
      constructor
      · intro impossible
        cases impossible
      · intro confirmed
        obtain ⟨arrival, listed, reported⟩ := confirmed.reported
        exact absurd reported (unheard request member arrival listed)
    · exact tracks.borrowed transferId tracked (old ▸ found)
  · intro copyId
    rw [movesAll.tracking, TransferTracking.copyToTransfer_recordRequests, latestOf_snoc,
      departures, tracks.latest]
  · intro copyId transferId leads
    rw [movesAll.tracking, TransferTracking.copyToTransfer_recordRequests] at leads
    cases last : TransferTracking.lastMove copyId moves with
    | some known =>
        rw [last, Option.some_or, Option.some.injEq] at leads
        subst known
        obtain ⟨moved, movedMember, ownCopy, ownId⟩ := TransferTracking.lastMove_mem last
        obtain ⟨request, member, same, new⟩ | ⟨others, _⟩ := seen transferId
        · have equal := List.inj_on_of_nodup_map movesAll.distinct member movedMember
            (same.trans ownId.symm)
          exact ⟨_, new, equal ▸ ownCopy⟩
        · exact absurd ownId (others moved movedMember)
    | none =>
        rw [last, Option.none_or] at leads
        obtain ⟨tracked, found, own⟩ := tracks.own copyId transferId leads
        obtain ⟨request, member, rfl, _⟩ | ⟨_, old⟩ := seen transferId
        · obtain ⟨transfer, listed, _⟩ := tracks.known request.transferId tracked found
          rw [movesAll.unused request member] at listed
          cases listed
        · exact ⟨tracked, old.trans found, own⟩

end Steps

private theorem tracks_empty (branchRepo registered : Dict String LibraryBranch) :
    Tracks [] (State.empty branchRepo registered).desk := by
  refine ⟨?_, ?_, by simp, ?_, ?_, fun _ => rfl, ?_⟩
  all_goals
    intro _ _ found
    cases found

structure SoundTracks (trace : List (Transition State TimedOperation)) (state : State) :
    Prop where
  sound : Sound state
  tracks : Tracks trace state.desk

section Observations

variable {before after : State} {operation : Operation} {now : Datetime}

private theorem checkoutsBy_same (same : after.records = before.records) :
    checkoutsBy ⟨before, ⟨operation, now⟩, after⟩ = [] := by
  simp [checkoutsBy, same]

private theorem departuresBy_same (same : after.branchMgr.transfers = before.branchMgr.transfers) :
    departuresBy ⟨before, ⟨operation, now⟩, after⟩ = [] := by
  unfold departuresBy
  split
  · simp [same]
  · rfl

private theorem arrivedBy_other (other : ∀ transferId, operation ≠ .completeTransfer transferId) :
    arrivedBy ⟨before, ⟨operation, now⟩, after⟩ = none := by
  unfold arrivedBy
  split
  · next transferId called => exact absurd called (other transferId)
  · rfl

end Observations

section Calls

variable {trace : List (Transition State TimedOperation)} {before after : State}
  {operation : Operation} {now : Datetime}

/-- A call that leaves loans, transfers and tracking as they are. -/
theorem Tracks.untouched (tracks : Tracks trace before.desk)
    (other : ∀ transferId, operation ≠ .completeTransfer transferId)
    (records : after.records = before.records)
    (transfers : after.branchMgr.transfers = before.branchMgr.transfers)
    (tracking : after.tracking = before.tracking) :
    Tracks (trace ++ [⟨before, ⟨operation, now⟩, after⟩]) after.desk := by
  refine tracks.quiet (checkoutsBy_same records) (departuresBy_same transfers)
    (arrivedBy_other other) tracking ?_
  intro transferId transfer listed
  have same : after.desk.transfers = before.desk.transfers := transfers
  rw [same]
  exact listed

theorem Tracks.lends {copyId userId : String} {desk : Desk} (tracks : Tracks trace before.desk)
    (lends : Lends copyId userId now before.desk desk) (reached : after.desk = desk)
    (other : ∀ transferId, operation ≠ .completeTransfer transferId) :
    Tracks (trace ++ [⟨before, ⟨operation, now⟩, after⟩]) after.desk := by
  cases lends with
  | @recorded copy issued record held allowed accepted about dated =>
      have records : after.records = before.records ++ [record] := congrArg Desk.records reached
      have transfers : after.branchMgr.transfers = before.branchMgr.transfers :=
        congrArg Desk.transfers reached
      have branch : issued.branchId = copy.branchId := by
        obtain ⟨_, rfl⟩ := BookCopy.checkOut_ok accepted
        rfl
      refine tracks.lend (by simp [checkoutsBy, records]) about (departuresBy_same transfers)
        (arrivedBy_other other) held ?_ transfers
      rw [← branch]
      exact congrArg Desk.tracking reached
  | overflowed held allowed accepted =>
      exact tracks.untouched other (congrArg Desk.records reached)
        (congrArg Desk.transfers reached) (congrArg Desk.tracking reached)

theorem Tracks.takesBack {copyId : String} {desk : Desk} (tracks : Tracks trace before.desk)
    (takesBack : TakesBack copyId now before.desk desk) (reached : after.desk = desk)
    (other : ∀ transferId, operation ≠ .completeTransfer transferId) :
    Tracks (trace ++ [⟨before, ⟨operation, now⟩, after⟩]) after.desk := by
  cases takesBack with
  | shelved | assigned | overflowed =>
      exact tracks.untouched other (congrArg Desk.records reached)
        (congrArg Desk.transfers reached) (congrArg Desk.tracking reached)

theorem Tracks.transferred {copyId destBranchId requestedBy transferId : String} {desk : Desk}
    (tracks : Tracks trace before.desk)
    (departs : Departs false copyId destBranchId transferId now before.desk desk)
    (reached : after.desk = desk)
    (fresh : before.branchMgr.transfers.get? transferId = none) :
    Tracks (trace ++ [⟨before,
      ⟨.transferCopy copyId destBranchId requestedBy transferId, now⟩, after⟩]) after.desk := by
  cases departs with
  | departed sender held elsewhere accepted =>
      have transfers : after.desk.transfers = _ := congrArg Desk.transfers reached
      have tracking : after.desk.tracking = before.desk.tracking := by
        rw [reached]
        simp
      refine tracks.quiet (checkoutsBy_same (congrArg Desk.records reached)) rfl rfl tracking ?_
      intro known transfer listed
      have different : transferId ≠ known := by
        rintro rfl
        have unlisted : before.desk.transfers.get? transferId = none := fresh
        rw [unlisted] at listed
        cases listed
      rw [transfers, Dict.get?_set_of_ne _ _ different]
      exact listed

theorem Tracks.executed {plan : List PlanItem} (tracks : Tracks trace before.desk)
    (executes : Executes now plan before.desk after.desk)
    (fresh : FreshItems before.branchMgr.transfers plan) :
    Tracks (trace ++ [⟨before, ⟨.executeRebalancingPlan plan, now⟩, after⟩]) after.desk := by
  obtain ⟨moves, movesAll⟩ := executes.movesAll fresh
  have listed : after.branchMgr.transfers.values = before.branchMgr.transfers.values ++ moves :=
    movesAll.listed
  refine tracks.depart (checkoutsBy_same movesAll.records) ?_ rfl movesAll
  simp [departuresBy, listed]

theorem Tracks.completed {transferId : String} (tracks : Tracks trace before.desk)
    (sound : Sound before) (step : Step before ⟨.completeTransfer transferId, now⟩ after) :
    Tracks (trace ++ [⟨before, ⟨.completeTransfer transferId, now⟩, after⟩]) after.desk := by
  have reached : (completeTransfer transferId now before).2 = after := step
  have outcome := arrival_desk transferId now sound
  rw [reached] at outcome
  obtain ⟨unreturned, same⟩ | ⟨⟨completed, returned⟩, arrives⟩ := outcome
  · have unreported : arrivedBy ⟨before, ⟨.completeTransfer transferId, now⟩, after⟩ = none := by
      simp only [arrivedBy]
    subst same
    exact tracks.quiet (checkoutsBy_same rfl) rfl unreported rfl fun _ _ listed => listed
  · have reports : arrivedBy ⟨before, ⟨.completeTransfer transferId, now⟩, after⟩ =
        some transferId := by
      simp only [arrivedBy, returned]
    generalize shown : after.desk = desk at arrives ⊢
    cases arrives with
    | arrived listed moving held accepted =>
        exact tracks.arrive (checkoutsBy_same (congrArg Desk.records shown)) rfl reports listed
          moving rfl rfl

end Calls

theorem SoundTracks.step {trace : List (Transition State TimedOperation)}
    {before after : State} {call : TimedOperation} (state : SoundTracks trace before)
    (step : Step before call after) (admissible : Admissible ⟨before, call, after⟩)
    (fresh : FreshTransfers ⟨before, call, after⟩) :
    SoundTracks (trace ++ [⟨before, call, after⟩]) after := by
  refine ⟨(step_explained step admissible state.sound).sound state.sound, ?_⟩
  have handles := step_handles step admissible state.sound
  have tracks := state.tracks
  obtain ⟨operation, now⟩ := call
  by_cases arrival : ∃ transferId, operation = .completeTransfer transferId
  · obtain ⟨transferId, rfl⟩ := arrival
    exact tracks.completed state.sound step
  have other : ∀ transferId, operation ≠ .completeTransfer transferId :=
    fun transferId called => arrival ⟨transferId, called⟩
  generalize start : before.desk = first at handles
  generalize reached : after.desk = last at handles
  cases handles with
  | quiet =>
      exact reached ▸ tracks.untouched other (congrArg Desk.records (reached.trans start.symm))
        (congrArg Desk.transfers (reached.trans start.symm))
        (congrArg Desk.tracking (reached.trans start.symm))
  | acquire fresh =>
      subst start
      exact reached ▸ tracks.untouched other (congrArg Desk.records reached)
        (congrArg Desk.transfers reached) (congrArg Desk.tracking reached)
  | issue lends => exact reached ▸ tracks.lends (start ▸ lends) reached other
  | allot _ lends => exact reached ▸ tracks.lends (start ▸ lends) reached other
  | giveBack takesBack => exact reached ▸ tracks.takesBack (start ▸ takesBack) reached other
  | reserve =>
      subst start
      exact reached ▸ tracks.untouched other (congrArg Desk.records reached)
        (congrArg Desk.transfers reached) (congrArg Desk.tracking reached)
  | transfer departs => exact reached ▸ tracks.transferred (start ▸ departs) reached fresh
  | rebalance executes =>
      subst start reached
      exact tracks.executed executes fresh
  | arrive => exact absurd rfl (other _)

/-- A transfer that the metadata shows as confirmed is confirmed by the calls of the
run, and the metrics add up. -/
structure MetricsAgree (trace : List (Transition State TimedOperation)) (state : State) :
    Prop where
  confirmed : ∀ transferId tracked,
    state.tracking.transfersTracked.get? transferId = some tracked →
    (tracked.borrowedAt.isSome = true ↔
      Confirmed trace transferId tracked.copyId tracked.destBranchId)
  arrivals : ∀ transferId tracked,
    state.tracking.transfersTracked.get? transferId = some tracked →
    (tracked.arrivedAt.isSome = true ↔ ∃ arrival ∈ trace, arrivedBy arrival = some transferId)
  counts : state.tracking.Counts state.tracking.getOutcomeMetrics
  total : state.tracking.getOutcomeMetrics.inTransit +
    state.tracking.getOutcomeMetrics.arrivedAtDestination =
      state.tracking.getOutcomeMetrics.totalAutonomousTransfers
  fewer : state.tracking.getOutcomeMetrics.checkedOutWithin7d ≤
    state.tracking.getOutcomeMetrics.arrivedAtDestination
  precision : 0 ≤ state.tracking.getOutcomeMetrics.precisionRatePct ∧
    state.tracking.getOutcomeMetrics.precisionRatePct ≤ 100
  once : (state.tracking.transfersTracked.values.map TrackedTransfer.transferId).Nodup

/-- After any sequence of admissible calls with distinct transfer identifiers the
metrics agree with the calls. -/
theorem run_metricsAgree (branchRepo registered : Dict String LibraryBranch)
    {trace : List (Transition State TimedOperation)} {final : State}
    (run : Run Step (State.empty branchRepo registered) trace final)
    (admissible : ∀ call ∈ trace, Admissible call)
    (fresh : ∀ call ∈ trace, FreshTransfers call) : MetricsAgree trace final := by
  have correct : SoundTracks trace final := by
    induction run with
    | nil => exact ⟨sound_empty branchRepo registered, tracks_empty branchRepo registered⟩
    | snoc _ taken ih =>
        have earlier := ih (fun call member => admissible call (List.mem_append_left _ member))
          (fun call member => fresh call (List.mem_append_left _ member))
        exact earlier.step taken (admissible _ (by simp)) (fresh _ (by simp))
  obtain ⟨total, fewer, precision⟩ :=
    TransferTracking.getOutcomeMetrics_adds_up correct.tracks.regular
  refine ⟨correct.tracks.borrowed, ?_, TransferTracking.counts_getOutcomeMetrics _, total, fewer,
    precision, ?_⟩
  · intro transferId tracked found
    have times := correct.tracks.arrived transferId tracked found
    rw [Option.isSome_iff_exists]
    constructor
    · intro arrived
      obtain ⟨time, stamped⟩ := arrived
      obtain ⟨arrival, member, reported, _⟩ := (times time).mp stamped
      exact ⟨arrival, member, reported⟩
    · intro known
      obtain ⟨arrival, member, reported⟩ := known
      exact ⟨_, (times arrival.label.now).mpr ⟨arrival, member, reported, rfl⟩⟩
  have keys : final.tracking.transfersTracked.values.map TrackedTransfer.transferId =
      final.tracking.transfersTracked.keys := by
    unfold Dict.values Dict.keys
    rw [List.map_map]
    refine List.map_congr_left ?_
    rintro ⟨transferId, tracked⟩ member
    have found := (Dict.get?_eq_some_iff _ _ _).mpr member
    obtain ⟨_, _, _, identity⟩ := correct.tracks.known transferId tracked found
    exact identity
  rw [keys]
  exact final.tracking.transfersTracked.keysNodup

/-- A copy is moved by plan, arrives and is lent at its new branch. -/
def movedAndLent : List TimedOperation :=
  ([.registerBook "physical" "ADMIN" { isbn := some "B1", title := some "Lean" },
    .addPhysicalCopy "B1" "C1" "DELHI" "A1" 100 "ADMIN",
    .registerUser { userId := "U1", name := "Asha", email := "asha@example", passwordHash := "h" },
    .executeRebalancingPlan [⟨"C1", "PUNE", "T1"⟩],
    .completeTransfer "T1",
    .issuePhysicalBook { copyId := "C1", userId := "U1", transactionId := "X1", eventId := "E1" }] :
    List Operation).map fun operation => ⟨operation, .min⟩

theorem run_metricsAgree_movedAndLent :
    MetricsAgree (Run.trail serve (State.empty twoBranches twoBranches) movedAndLent)
        (movedAndLent.foldl serve (State.empty twoBranches twoBranches)) ∧
      (movedAndLent.foldl serve
        (State.empty twoBranches twoBranches)).tracking.getOutcomeMetrics.checkedOutWithin7d =
          1 := by
  have checked : ∀ call ∈ Run.trail serve (State.empty twoBranches twoBranches) movedAndLent,
      admissible call.before call.label = true ∧
        freshTransfers call.before call.label = true := by decide +kernel
  refine ⟨run_metricsAgree twoBranches twoBranches
    (Run.of_exec (fun _ _ => rfl) _ movedAndLent) ?_ ?_, by decide +kernel⟩
  · exact fun call member => admissible_sound (checked call member).1
  · exact fun call member => freshTransfers_sound (checked call member).2

end LibraFlow.Container
