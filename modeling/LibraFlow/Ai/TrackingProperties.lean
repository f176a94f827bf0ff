import LibraFlow.Ai.Tracking

/-! Laws of the transfer tracking: what a series of departures, an arrival and a
checkout make of it, and bounds of the metrics. -/

set_option autoImplicit false

namespace LibraFlow.Ai.TransferTracking

open LibraFlow.Core LibraFlow.Library LibraFlow.Distributed

/-- The metadata a departure starts with. -/
def newlyTracked (request : TransferRequest) (now : Datetime) : TrackedTransfer where
  transferId := request.transferId
  copyId := request.copyId
  isbn := request.isbn
  sourceBranchId := request.sourceBranchId
  destBranchId := request.destBranchId
  requestedAt := now
  arrivedAt := none
  borrowedAt := none
  status := .inTransit

/-- Record a series of departures. -/
def recordRequests (tracking : TransferTracking) (moves : List TransferRequest)
    (now : Datetime) : TransferTracking :=
  moves.foldl (fun tracked request => tracked.recordRequest request now) tracking

/-- The last of a series of transfers that moves a copy. -/
def lastMove (copyId : String) (moves : List TransferRequest) : Option String :=
  ((moves.filter fun request => request.copyId = copyId).getLast?).map TransferRequest.transferId

theorem lastMove_append (copyId : String) (first second : List TransferRequest) :
    lastMove copyId (first ++ second) = (lastMove copyId second).or (lastMove copyId first) := by
  unfold lastMove
  rw [List.filter_append, List.getLast?_append]
  cases (second.filter fun request => request.copyId = copyId).getLast? with
  | none => rfl
  | some request => rfl

section Departures

variable {tracking : TransferTracking} {now : Datetime}

private theorem recordRequests_cons (request : TransferRequest) (rest : List TransferRequest) :
    tracking.recordRequests (request :: rest) now =
      (tracking.recordRequest request now).recordRequests rest now := rfl

private theorem tracked_recordRequest (request : TransferRequest) (transferId : String) :
    (tracking.recordRequest request now).transfersTracked.get? transferId =
      if request.transferId = transferId then some (newlyTracked request now)
      else tracking.transfersTracked.get? transferId := Dict.get?_set _ _ _ _

/-- A tracked transfer is new, or it was tracked before and no departure has its
identifier. -/
theorem tracked_recordRequests (tracking : TransferTracking) (now : Datetime)
    (moves : List TransferRequest) (distinct : (moves.map TransferRequest.transferId).Nodup) (transferId : String) :
    (∃ request ∈ moves, request.transferId = transferId ∧
        (tracking.recordRequests moves now).transfersTracked.get? transferId =
          some (newlyTracked request now)) ∨
      ((∀ request ∈ moves, request.transferId ≠ transferId) ∧
        (tracking.recordRequests moves now).transfersTracked.get? transferId =
          tracking.transfersTracked.get? transferId) := by
  induction moves generalizing tracking with
  | nil => exact .inr ⟨by simp, rfl⟩
  | cons first rest ih =>
      rw [List.map_cons, List.nodup_cons] at distinct
      rw [recordRequests_cons]
      obtain ⟨request, member, own, found⟩ | ⟨others, found⟩ :=
        ih (tracking.recordRequest first now) distinct.2
      · exact .inl ⟨request, List.mem_cons_of_mem _ member, own, found⟩
      · rw [found, tracked_recordRequest]
        split
        · next own => exact .inl ⟨first, List.mem_cons_self, own, rfl⟩
        · next different =>
            refine .inr ⟨?_, rfl⟩
            intro request member
            obtain rfl | later := List.mem_cons.mp member
            · exact different
            · exact others request later

/-- A copy leads to its last departure. -/
theorem copyToTransfer_recordRequests (moves : List TransferRequest) (copyId : String) :
    (tracking.recordRequests moves now).copyToTransfer.get? copyId =
      (lastMove copyId moves).or (tracking.copyToTransfer.get? copyId) := by
  induction moves generalizing tracking with
  | nil => rfl
  | cons first rest ih =>
      have single : (tracking.recordRequest first now).copyToTransfer.get? copyId =
          (lastMove copyId [first]).or (tracking.copyToTransfer.get? copyId) := by
        simp only [recordRequest, Dict.get?_set, lastMove, List.filter_cons, List.filter_nil]
        by_cases own : first.copyId = copyId <;> simp [own]
      have split : lastMove copyId (first :: rest) =
          (lastMove copyId rest).or (lastMove copyId [first]) := lastMove_append copyId [first] rest
      rw [recordRequests_cons, ih, single, split, Option.or_assoc]

theorem lastMove_mem {copyId transferId : String} {moves : List TransferRequest}
    (last : lastMove copyId moves = some transferId) :
    ∃ request ∈ moves, request.copyId = copyId ∧ request.transferId = transferId := by
  obtain ⟨request, found, own⟩ := Option.map_eq_some_iff.mp last
  obtain ⟨member, copy⟩ := List.mem_filter.mp (List.mem_of_getLast? found)
  exact ⟨request, member, of_decide_eq_true copy, own⟩

end Departures

section Arrivals

variable {tracking : TransferTracking} {now : Datetime} {transferId : String}

theorem tracked_recordArrival (tracking : TransferTracking) (transferId : String)
    (now : Datetime) (other : String) :
    (tracking.recordArrival transferId now).transfersTracked.get? other =
      if transferId = other then
        (tracking.transfersTracked.get? other).map fun tracked =>
          { tracked with status := .arrived, arrivedAt := some now }
      else tracking.transfersTracked.get? other := by
  unfold recordArrival
  cases found : tracking.transfersTracked.get? transferId with
  | none =>
      by_cases same : transferId = other
      · simp [← same, found]
      · simp [same]
  | some tracked =>
      simp only [Dict.get?_set]
      by_cases same : transferId = other
      · simp [← same, found]
      · simp [same]

@[simp] theorem copyToTransfer_recordArrival :
    (tracking.recordArrival transferId now).copyToTransfer = tracking.copyToTransfer := by
  unfold recordArrival
  split <;> rfl

end Arrivals

section Checkouts

variable {tracking : TransferTracking} {now : Datetime} {copyId branchId : String}

/-- A checkout that confirms a transfer: the latest of its copy, arrived at this
branch at most seven days ago. -/
structure Credits (tracking : TransferTracking) (copyId branchId : String) (now : Datetime)
    (transferId : String) (tracked : TrackedTransfer) : Prop where
  latest : tracking.copyToTransfer.get? copyId = some transferId
  known : tracking.transfersTracked.get? transferId = some tracked
  here : tracked.destBranchId = branchId
  recent : ∃ arrived, tracked.arrivedAt = some arrived ∧
    (now.micros : Int) - arrived.micros ≤ confirmationWindow

/-- A checkout marks the transfer that it confirms for the first time; otherwise
it changes nothing. -/
theorem recordCheckoutHook_cases (tracking : TransferTracking) (copyId branchId : String)
    (now : Datetime) :
    (∃ transferId tracked, tracking.Credits copyId branchId now transferId tracked ∧
        tracked.borrowedAt = none ∧
        tracking.recordCheckoutHook copyId branchId now = { tracking with
          transfersTracked := tracking.transfersTracked.set transferId
            { tracked with borrowedAt := some now, status := .checkedOut } }) ∨
      (tracking.recordCheckoutHook copyId branchId now = tracking ∧
        ∀ transferId tracked, tracking.Credits copyId branchId now transferId tracked →
          tracked.borrowedAt.isSome = true) := by
  unfold recordCheckoutHook
  cases latest : tracking.copyToTransfer.get? copyId with
  | none =>
      refine .inr ⟨rfl, ?_⟩
      intro transferId tracked credits
      rw [credits.latest] at latest
      cases latest
  | some last =>
      simp only
      -- only the latest transfer of the copy can be confirmed
      have only : ∀ transferId tracked,
          tracking.Credits copyId branchId now transferId tracked →
          tracking.transfersTracked.get? last = some tracked ∧ transferId = last := by
        intro transferId tracked credits
        have same := credits.latest.symm.trans latest
        cases same
        exact ⟨credits.known, rfl⟩
      cases known : tracking.transfersTracked.get? last with
      | none =>
          refine .inr ⟨rfl, ?_⟩
          intro transferId tracked credits
          rw [(only transferId tracked credits).1] at known
          cases known
      | some tracked =>
          simp only
          have same : ∀ transferId other,
              tracking.Credits copyId branchId now transferId other → other = tracked := by
            intro transferId other credits
            exact Option.some.inj ((only transferId other credits).1.symm.trans known)
          by_cases here : tracked.destBranchId = branchId
          · simp only [here, ne_eq, not_true_eq_false, ↓reduceIte]
            cases arrivedAt : tracked.arrivedAt with
            | none =>
                refine .inr ⟨rfl, ?_⟩
                intro transferId other credits
                obtain rfl := same transferId other credits
                obtain ⟨arrived, isArrived, _⟩ := credits.recent
                rw [isArrived] at arrivedAt
                cases arrivedAt
            | some arrived =>
                cases borrowedAt : tracked.borrowedAt with
                | some borrowed =>
                    refine .inr ⟨rfl, ?_⟩
                    intro transferId other credits
                    obtain rfl := same transferId other credits
                    rw [borrowedAt]
                    rfl
                | none =>
                    simp only
                    by_cases recent : (now.micros : Int) - arrived.micros ≤ confirmationWindow
                    · rw [if_pos recent]
                      exact .inl ⟨last, tracked, ⟨latest, known, here, arrived, arrivedAt, recent⟩,
                        borrowedAt, by simp [here, arrivedAt]⟩
                    · rw [if_neg recent]
                      refine .inr ⟨rfl, ?_⟩
                      intro transferId other credits
                      obtain rfl := same transferId other credits
                      obtain ⟨time, isArrived, within⟩ := credits.recent
                      rw [arrivedAt, Option.some.injEq] at isArrived
                      exact absurd (isArrived ▸ within) recent
          · simp only [here, ne_eq, not_false_eq_true, ↓reduceIte]
            refine .inr ⟨trivial, ?_⟩
            intro transferId other credits
            obtain rfl := same transferId other credits
            exact absurd credits.here here

/-- A checkout seen from one transfer. -/
theorem tracked_recordCheckoutHook (tracking : TransferTracking) (copyId branchId : String)
    (now : Datetime) (transferId : String) :
    ((tracking.recordCheckoutHook copyId branchId now).transfersTracked.get? transferId =
        tracking.transfersTracked.get? transferId ∧
      ∀ tracked, tracking.Credits copyId branchId now transferId tracked →
        tracked.borrowedAt.isSome = true) ∨
    ∃ tracked, tracking.Credits copyId branchId now transferId tracked ∧
      (tracking.recordCheckoutHook copyId branchId now).transfersTracked.get? transferId =
        some { tracked with borrowedAt := some now, status := .checkedOut } := by
  obtain ⟨marked, tracked, credits, _, reached⟩ | ⟨reached, credited⟩ :=
    recordCheckoutHook_cases tracking copyId branchId now
  · rw [reached]
    by_cases same : marked = transferId
    · subst marked
      exact .inr ⟨tracked, credits, Dict.get?_set_self _ _ _⟩
    · refine .inl ⟨Dict.get?_set_of_ne _ _ same, ?_⟩
      intro other again
      have equal := credits.latest.symm.trans again.latest
      exact absurd (Option.some.inj equal) same
  · rw [reached]
    exact .inl ⟨rfl, credited transferId⟩

theorem copyToTransfer_recordCheckoutHook :
    (tracking.recordCheckoutHook copyId branchId now).copyToTransfer =
      tracking.copyToTransfer := by
  obtain ⟨marked, tracked, _, _, reached⟩ | ⟨reached, _⟩ :=
    recordCheckoutHook_cases tracking copyId branchId now
  · rw [reached]
  · rw [reached]

end Checkouts

/-- The fields of the metadata agree with one another. -/
structure Regular (tracked : TrackedTransfer) : Prop where
  status : tracked.status = .inTransit ↔ tracked.arrivedAt = none
  borrowed : tracked.borrowedAt.isSome = true → tracked.arrivedAt.isSome = true

private theorem percentage_mem {part whole : Nat} (positive : 0 < whole) (smaller : part ≤ whole) :
    0 ≤ roundTo 1 ((part : ℚ) / whole * 100) ∧ roundTo 1 ((part : ℚ) / whole * 100) ≤ 100 := by
  have divisor : (0 : ℚ) < whole := by exact_mod_cast positive
  have ratio : (part : ℚ) / whole ≤ 1 := (div_le_one divisor).mpr (by exact_mod_cast smaller)
  have above : ((0 : ℤ) : ℚ) ≤ (part : ℚ) / whole * 100 := by positivity
  have below : (part : ℚ) / whole * 100 ≤ ((100 : ℤ) : ℚ) := by
    push_cast
    linarith
  exact_mod_cast roundTo_mem above below

/-- The numbers of transfers that have left, arrived, been borrowed and not arrived yet,
and the share of the borrowed ones. -/
structure Counts (tracking : TransferTracking) (metrics : OutcomeMetrics) : Prop where
  total : metrics.totalAutonomousTransfers = tracking.transfersTracked.values.length
  arrived : metrics.arrivedAtDestination =
    (tracking.transfersTracked.values.filter fun tracked => tracked.arrivedAt.isSome).length
  borrowed : metrics.checkedOutWithin7d =
    (tracking.transfersTracked.values.filter fun tracked => tracked.borrowedAt.isSome).length
  inTransit : metrics.inTransit =
    (tracking.transfersTracked.values.filter fun tracked => tracked.status = .inTransit).length
  precision : metrics.precisionRatePct =
    if 0 < metrics.arrivedAtDestination then
      roundTo 1 ((metrics.checkedOutWithin7d : ℚ) / metrics.arrivedAtDestination * 100)
    else 0

theorem counts_getOutcomeMetrics (tracking : TransferTracking) :
    tracking.Counts tracking.getOutcomeMetrics where
  total := by simp [getOutcomeMetrics, Dict.size, Dict.values]
  arrived := List.countP_eq_length_filter
  borrowed := List.countP_eq_length_filter
  inTransit := List.countP_eq_length_filter
  precision := rfl

/-- The metrics of regular metadata add up. -/
theorem getOutcomeMetrics_adds_up {tracking : TransferTracking}
    (regular : ∀ transferId tracked,
      tracking.transfersTracked.get? transferId = some tracked → Regular tracked) :
    tracking.getOutcomeMetrics.inTransit + tracking.getOutcomeMetrics.arrivedAtDestination =
        tracking.getOutcomeMetrics.totalAutonomousTransfers ∧
      tracking.getOutcomeMetrics.checkedOutWithin7d ≤
        tracking.getOutcomeMetrics.arrivedAtDestination ∧
      0 ≤ tracking.getOutcomeMetrics.precisionRatePct ∧
      tracking.getOutcomeMetrics.precisionRatePct ≤ 100 := by
  have members : ∀ tracked ∈ tracking.transfersTracked.values, Regular tracked := by
    intro tracked member
    obtain ⟨transferId, known⟩ := (Dict.mem_values_iff _ _).mp member
    exact regular transferId tracked known
  have fewer : tracking.getOutcomeMetrics.checkedOutWithin7d ≤
      tracking.getOutcomeMetrics.arrivedAtDestination := by
    refine List.countP_mono_left ?_
    intro tracked member borrowed
    exact (members tracked member).borrowed borrowed
  refine ⟨?_, fewer, ?_⟩
  · have waiting : tracking.getOutcomeMetrics.inTransit =
        tracking.transfersTracked.values.countP fun tracked => ¬ tracked.arrivedAt.isSome := by
      refine List.countP_congr ?_
      intro tracked member
      simp [(members tracked member).status]
    have split : tracking.transfersTracked.values.length = _ := List.length_eq_countP_add_countP
      (fun tracked : TrackedTransfer => tracked.arrivedAt.isSome)
    rw [waiting, (counts_getOutcomeMetrics tracking).total, split]
    exact Nat.add_comm _ _
  · unfold getOutcomeMetrics at fewer ⊢
    simp only at fewer ⊢
    split
    · next positive => exact percentage_mem positive fewer
    · norm_num

end LibraFlow.Ai.TransferTracking
