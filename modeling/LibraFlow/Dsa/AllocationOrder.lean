import LibraFlow.Dsa.AllocationQueue
import LibraFlow.Library.Run
import Mathlib.Algebra.Order.Field.Basic
import Mathlib.Data.List.Sort

/-! The order in which the allocation queue serves. Requests are numbered as they
arrive and their priorities are negated, so that the least request of the heap has
the greatest priority and is the earliest of those. -/

set_option autoImplicit false

namespace LibraFlow.Dsa

open LibraFlow.Core LibraFlow.Library

inductive QueueCall (κ : Type) where
  | enqueue (requestId : String) (user : User) (branchId : String) (customPriority : Option κ)
      (now : Datetime)
  | popHighestPriority

abbrev QueueTrace (κ : Type) := List (Transition (SmartAllocationQueue κ) (QueueCall κ))

section Popping

variable {κ : Type} [LinearOrder κ] {queue : SmartAllocationQueue κ}

private theorem strictOrder_before :
    BinaryHeap.StrictOrder (BorrowRequest.before : BorrowRequest κ → BorrowRequest κ → Bool) where
  asymm left right less := by
    simp only [BorrowRequest.before, decide_eq_true_eq, decide_eq_false_iff_not] at less ⊢
    intro reversed
    rcases reversed with greater | ⟨same, later⟩
    · rcases less with less | ⟨equal, _⟩
      · exact lt_asymm less greater
      · exact greater.ne' equal
    · rcases less with less | ⟨_, earlier⟩
      · exact less.ne' same
      · exact lt_asymm earlier later
  trans first second third left right := by
    simp only [BorrowRequest.before, decide_eq_false_iff_not, not_or, not_and, not_lt] at left right ⊢
    refine ⟨left.1.trans right.1, fun same => ?_⟩
    have equal : second.priority = first.priority := le_antisymm (same ▸ right.1) left.1
    exact (left.2 equal).trans (right.2 (same.trans equal.symm))

/-- The request a call returns from the queue. -/
def QueueCall.popped (queue : SmartAllocationQueue κ) : QueueCall κ → Option (BorrowRequest κ)
  | enqueue .. => none
  | popHighestPriority => queue.popHighestPriority.1

def returned (trace : QueueTrace κ) : List (BorrowRequest κ) :=
  trace.filterMap fun transition => transition.label.popped transition.before

private theorem returned_snoc (trace : QueueTrace κ)
    (transition : Transition (SmartAllocationQueue κ) (QueueCall κ)) :
    returned (trace ++ [transition]) =
      returned trace ++ (transition.label.popped transition.before).toList := by
  rw [returned, List.filterMap_append]
  cases found : transition.label.popped transition.before <;> simp [returned, found]

/-- The requests that repeated pops return. -/
def SmartAllocationQueue.drain : Nat → SmartAllocationQueue κ → List (BorrowRequest κ)
  | 0, _ => []
  | fuel + 1, queue =>
      match queue.popHighestPriority with
      | (none, _) => []
      | (some top, rest) => top :: drain fuel rest

/-- What a pop gives: nothing from an empty queue, or a least request. -/
inductive Pops (queue : SmartAllocationQueue κ) :
    Option (BorrowRequest κ) × SmartAllocationQueue κ → Prop where
  | nothing (empty : queue.heap = []) : Pops queue (none, queue)
  | top {request : BorrowRequest κ} {rest : List (BorrowRequest κ)}
      (ordered : BinaryHeap.Ordered BorrowRequest.before rest)
      (members : queue.heap.Perm (request :: rest))
      (least : ∀ other ∈ queue.heap, other.before request = false) :
      Pops queue (some request, { queue with heap := rest })

private theorem pops (ordered : BinaryHeap.Ordered BorrowRequest.before queue.heap) :
    Pops queue queue.popHighestPriority := by
  unfold SmartAllocationQueue.popHighestPriority
  cases popped : BinaryHeap.heappop BorrowRequest.before queue.heap with
  | none => exact .nothing (BinaryHeap.heappop_eq_none_iff.mp popped)
  | some result =>
      obtain ⟨request, rest⟩ := result
      obtain ⟨still, members, least⟩ := ordered.heappop strictOrder_before popped
      exact .top still members least

/-- Repeated pops return the requests of the queue in order. -/
theorem drain_spec (fuel : Nat) (ordered : BinaryHeap.Ordered BorrowRequest.before queue.heap)
    (enough : queue.heap.length ≤ fuel) :
    (queue.drain fuel).Perm queue.heap ∧
      (queue.drain fuel).Pairwise fun earlier later => later.before earlier = false := by
  induction fuel generalizing queue with
  | zero =>
      have empty : queue.heap = [] := List.eq_nil_of_length_eq_zero (by omega)
      rw [SmartAllocationQueue.drain, empty]
      exact ⟨.nil, .nil⟩
  | succ fuel ih =>
      have popped := pops ordered
      unfold SmartAllocationQueue.drain
      generalize queue.popHighestPriority = result at popped ⊢
      cases popped with
      | nothing empty =>
          rw [empty]
          exact ⟨.nil, .nil⟩
      | @top request rest still members least =>
          have shorter : rest.length ≤ fuel := by
            have length := members.length_eq
            rw [List.length_cons] at length
            omega
          obtain ⟨others, sorted⟩ := @ih { queue with heap := rest } still shorter
          refine ⟨(others.cons request).trans members.symm, List.pairwise_cons.mpr ⟨?_, sorted⟩⟩
          intro other member
          exact least other (members.mem_iff.mpr (List.mem_cons_of_mem _ (others.mem_iff.mp member)))

/-- A pop takes the first of what repeated pops return. -/
theorem drain_of_pop (ordered : BinaryHeap.Ordered BorrowRequest.before queue.heap)
    {top : BorrowRequest κ} {rest : SmartAllocationQueue κ}
    (popped : queue.popHighestPriority = (some top, rest)) :
    queue.drain queue.size = top :: rest.drain rest.size := by
  have gives := pops ordered
  rw [popped] at gives
  cases gives with
  | @top _ left _ members _ =>
      have length : queue.size = left.length + 1 := members.length_eq
      rw [length, SmartAllocationQueue.drain, popped]
      rfl

instance : Std.Total fun left right : BorrowRequest κ => (!right.before left) = true := ⟨by
  intro left right
  cases less : right.before left with
  | false => exact .inl rfl
  | true =>
      right
      rw [strictOrder_before.asymm _ _ less]
      rfl⟩

instance : IsTrans (BorrowRequest κ) fun left right => (!right.before left) = true := ⟨by
  intro first second third left right
  rw [Bool.not_eq_true'] at left right ⊢
  exact strictOrder_before.trans first second third left right⟩

/-- Requests of one queue are told apart by their numbers. -/
def Numbered (requests : List (BorrowRequest κ)) : Prop :=
  ∀ left ∈ requests, ∀ right ∈ requests, left.entryId = right.entryId → left = right

private theorem toList_eq_drain [Field κ] (round : κ → κ)
    (ordered : BinaryHeap.Ordered BorrowRequest.before queue.heap) (numbered : Numbered queue.heap) :
    queue.toList round = (queue.drain queue.size).map (SmartAllocationQueue.listing round) := by
  obtain ⟨members, sorted⟩ := drain_spec queue.size ordered (Nat.le_refl _)
  have same : (queue.heap.insertionSort fun left right => !right.before left) =
      queue.drain queue.size := by
    refine List.Perm.eq_of_pairwise ?_ (List.pairwise_insertionSort _ _)
      (sorted.imp fun later => by rw [later]; rfl)
      ((List.perm_insertionSort _ _).trans members.symm)
    intro left right inSorted inDrain before after
    refine numbered left ((List.mem_insertionSort _).mp inSorted) right
      (members.mem_iff.mp inDrain) ?_
    simp only [BorrowRequest.before, Bool.not_eq_true', decide_eq_false_iff_not, not_or, not_and,
      not_lt] at before after
    have equal : left.priority = right.priority := le_antisymm before.1 after.1
    exact le_antisymm (before.2 equal.symm) (after.2 equal)
  rw [SmartAllocationQueue.toList, same]

end Popping

section Runs

variable {κ : Type} [Field κ] [LinearOrder κ] {queue : SmartAllocationQueue κ}
  {trace : QueueTrace κ}

def QueueCall.exec (queue : SmartAllocationQueue κ) : QueueCall κ → SmartAllocationQueue κ
  | enqueue requestId user branchId customPriority now =>
      (queue.enqueue requestId user branchId customPriority now).2
  | popHighestPriority => queue.popHighestPriority.2

def QueueStep (before : SmartAllocationQueue κ) (call : QueueCall κ)
    (after : SmartAllocationQueue κ) : Prop :=
  call.exec before = after

/-- The request a call adds to the queue. -/
def QueueCall.added (queue : SmartAllocationQueue κ) : QueueCall κ → Option (BorrowRequest κ)
  | enqueue requestId user branchId customPriority now =>
      some (queue.enqueue requestId user branchId customPriority now).1
  | popHighestPriority => none

def enqueued (trace : QueueTrace κ) : List (BorrowRequest κ) :=
  trace.filterMap fun transition => transition.label.added transition.before

private theorem enqueued_snoc (trace : QueueTrace κ)
    (transition : Transition (SmartAllocationQueue κ) (QueueCall κ)) :
    enqueued (trace ++ [transition]) =
      enqueued trace ++ (transition.label.added transition.before).toList := by
  rw [enqueued, List.filterMap_append]
  cases found : transition.label.added transition.before <;> simp [enqueued, found]

/-- The priority that a call asks for, its own or the one computed from the user. -/
def QueueCall.asked : QueueCall κ → Option κ
  | enqueue _ user _ customPriority now => some (customPriority.getD
      ((SmartAllocationQueue.calculatePriority user now.date : ℚ) : κ))
  | popHighestPriority => none

/-- The line of the listing for a call's request, when its priority is to be shown. -/
def QueueCall.line (round : κ → κ) : QueueCall κ → Option (QueuedRequest κ)
  | call@(enqueue requestId user branchId _ now) => call.asked.map fun priority => {
      requestId, userId := user.userId, userName := user.name, priority := round priority,
      branchId, timestamp := now }
  | popHighestPriority => none

private theorem enqueued_asked (trace : QueueTrace κ) :
    (enqueued trace).map BorrowRequest.actualPriority =
      trace.filterMap fun transition => transition.label.asked := by
  rw [enqueued, List.map_filterMap]
  congr 1
  funext transition
  cases transition.label <;> rfl

private theorem enqueued_lines (round : κ → κ) (trace : QueueTrace κ) :
    (enqueued trace).map (SmartAllocationQueue.listing round) =
      trace.filterMap fun transition => transition.label.line round := by
  rw [enqueued, List.map_filterMap]
  congr 1
  funext transition
  cases transition.label with
  | enqueue requestId user branchId customPriority now =>
      simp [QueueCall.added, QueueCall.line, QueueCall.asked, SmartAllocationQueue.enqueue,
        SmartAllocationQueue.listing]
  | popHighestPriority => rfl

/-- The request has the greatest priority, and came before the others that have it. -/
def FirstOf (requests : List (BorrowRequest κ)) (request : BorrowRequest κ) : Prop :=
  request ∈ requests ∧ ∀ other ∈ requests, other ≠ request →
    other.actualPriority < request.actualPriority ∨
      (other.actualPriority = request.actualPriority ∧ request.entryId < other.entryId)

/-- A pop returns the first request, and nothing only from an empty queue. -/
def ServesFirst (queue : SmartAllocationQueue κ) : Prop :=
  match queue.popHighestPriority.1 with
  | none => queue.heap = []
  | some request => FirstOf queue.heap request

/-- A heap of requests with negated priorities and with different numbers, none above
the counter. -/
structure Arranged (queue : SmartAllocationQueue κ) : Prop where
  ordered : BinaryHeap.Ordered BorrowRequest.before queue.heap
  distinct : (queue.heap.map BorrowRequest.entryId).Nodup
  counted : ∀ request ∈ queue.heap, request.entryId ≤ queue.entryCounter
  negated : ∀ request ∈ queue.heap, request.priority = -request.actualPriority

theorem arranged_new (isbn : String) : Arranged (.new isbn : SmartAllocationQueue κ) where
  ordered _ _ _ _ _ found := by cases found
  distinct := List.nodup_nil
  counted _ member := by cases member
  negated _ member := by cases member

theorem Arranged.enqueue (arranged : Arranged queue) (requestId : String) (user : User)
    (branchId : String) (customPriority : Option κ) (now : Datetime) :
    Arranged (queue.enqueue requestId user branchId customPriority now).2 := by
  generalize result : queue.enqueue requestId user branchId customPriority now = queued
  have number : queued.1.entryId = queue.entryCounter + 1 := result ▸ rfl
  have negated : queued.1.priority = -queued.1.actualPriority := result ▸ rfl
  have counter : queued.2.entryCounter = queue.entryCounter + 1 := result ▸ rfl
  have pushed : queued.2.heap = BinaryHeap.heappush BorrowRequest.before queue.heap queued.1 :=
    result ▸ rfl
  have members : queued.2.heap.Perm (queued.1 :: queue.heap) := pushed ▸ BinaryHeap.heappush_perm _ _
  have either : ∀ request ∈ queued.2.heap, request = queued.1 ∨ request ∈ queue.heap :=
    fun request member => List.mem_cons.mp (members.mem_iff.mp member)
  refine ⟨?_, ?_, ?_, ?_⟩
  · rw [pushed]
    exact arranged.ordered.heappush strictOrder_before queued.1
  · refine (members.map BorrowRequest.entryId).nodup_iff.mpr ?_
    rw [List.map_cons, List.nodup_cons]
    refine ⟨fun listed => ?_, arranged.distinct⟩
    obtain ⟨other, member, same⟩ := List.mem_map.mp listed
    have bound := arranged.counted other member
    rw [same, number] at bound
    exact absurd bound (Nat.not_succ_le_self _)
  · intro request member
    rw [counter]
    rcases either request member with new | old
    · rw [new, number]
    · exact (arranged.counted request old).trans (Nat.le_succ _)
  · intro request member
    rcases either request member with new | old
    · rw [new]
      exact negated
    · exact arranged.negated request old

theorem Arranged.pop (arranged : Arranged queue) : Arranged queue.popHighestPriority.2 := by
  have popped := pops arranged.ordered
  generalize queue.popHighestPriority = result at popped ⊢
  cases popped with
  | nothing empty => exact arranged
  | @top request rest ordered members least =>
      have included : ∀ other ∈ rest, other ∈ queue.heap := fun other member =>
        members.mem_iff.mpr (List.mem_cons_of_mem _ member)
      have distinct := (members.map BorrowRequest.entryId).nodup_iff.mp arranged.distinct
      exact ⟨ordered, (List.nodup_cons.mp distinct).2,
        fun other member => arranged.counted other (included other member),
        fun other member => arranged.negated other (included other member)⟩

theorem Arranged.numbered (arranged : Arranged queue) : Numbered queue.heap :=
  fun _ first _ second same => List.inj_on_of_nodup_map arranged.distinct first second same

theorem Arranged.firstOf [IsStrictOrderedRing κ] (arranged : Arranged queue)
    {request : BorrowRequest κ} {rest : SmartAllocationQueue κ}
    (popped : queue.popHighestPriority = (some request, rest)) : FirstOf queue.heap request := by
  have gives := pops arranged.ordered
  rw [popped] at gives
  cases gives with
  | top ordered members least =>
      have listed : request ∈ queue.heap := members.mem_iff.mpr (List.mem_cons_self ..)
      refine ⟨listed, fun other member differ => ?_⟩
      have later := least other member
      simp only [BorrowRequest.before, decide_eq_false_iff_not, not_or, not_and, not_lt] at later
      rw [arranged.negated _ listed, arranged.negated _ member, neg_le_neg_iff, neg_inj] at later
      rcases lt_or_eq_of_le later.1 with lower | same
      · exact .inl lower
      · refine .inr ⟨same, lt_of_le_of_ne (later.2 same) fun equal => differ ?_⟩
        exact arranged.numbered other member request listed equal.symm

theorem Arranged.servesFirst [IsStrictOrderedRing κ] (arranged : Arranged queue) :
    ServesFirst queue := by
  unfold ServesFirst
  rcases popped : queue.popHighestPriority with ⟨_ | request, rest⟩
  · have gives := pops arranged.ordered
    rw [popped] at gives
    cases gives with
    | nothing empty => exact empty
  · exact arranged.firstOf popped

/-- The queue holds what was enqueued and not returned, numbered as it arrived. -/
structure Kept (trace : QueueTrace κ) (queue : SmartAllocationQueue κ) : Prop where
  arranged : Arranged queue
  members : (enqueued trace).Perm (returned trace ++ queue.heap)
  increasing : (enqueued trace).Pairwise fun earlier later => earlier.entryId < later.entryId
  counted : ∀ request ∈ enqueued trace, request.entryId ≤ queue.entryCounter

private theorem kept_new (isbn : String) : Kept []
    (SmartAllocationQueue.new isbn : SmartAllocationQueue κ) where
  arranged := arranged_new isbn
  members := .nil
  increasing := .nil
  counted _ member := by cases member

theorem Kept.enqueue (kept : Kept trace queue) (requestId : String) (user : User)
    (branchId : String) (customPriority : Option κ) (now : Datetime) :
    let call := QueueCall.enqueue requestId user branchId customPriority now
    Kept (trace ++ [⟨queue, call, call.exec queue⟩]) (call.exec queue) := by
  intro call
  obtain ⟨request, new⟩ : ∃ request, request = (queue.enqueue requestId user branchId
    customPriority now).1 := ⟨_, rfl⟩
  have number : request.entryId = queue.entryCounter + 1 := new ▸ rfl
  have all : enqueued (trace ++ [⟨queue, call, call.exec queue⟩]) = enqueued trace ++ [request] := by
    rw [enqueued_snoc, new]
    rfl
  have same : returned (trace ++ [⟨queue, call, call.exec queue⟩]) = returned trace := by
    rw [returned_snoc]
    exact List.append_nil _
  have pushed : (call.exec queue).heap =
      BinaryHeap.heappush BorrowRequest.before queue.heap request := new ▸ rfl
  refine ⟨kept.arranged.enqueue requestId user branchId customPriority now, ?_, ?_, ?_⟩
  · rw [all, same, pushed]
    have inserted := @BinaryHeap.heappush_perm _ BorrowRequest.before queue.heap request
    calc (enqueued trace ++ [request]).Perm (request :: enqueued trace) :=
          List.perm_append_singleton _ _
      List.Perm _ (request :: (returned trace ++ queue.heap)) := kept.members.cons request
      List.Perm _ (returned trace ++ request :: queue.heap) := List.perm_middle.symm
      List.Perm _ _ := inserted.symm.append_left (returned trace)
  · rw [all, List.pairwise_append]
    refine ⟨kept.increasing, List.pairwise_singleton _ _, ?_⟩
    intro earlier member later last
    rw [List.mem_singleton.mp last, number]
    exact Nat.lt_succ_of_le (kept.counted earlier member)
  · intro other member
    rw [all] at member
    rcases List.mem_append.mp member with old | last
    · exact (kept.counted other old).trans (Nat.le_succ _)
    · rw [List.mem_singleton.mp last, number]
      exact Nat.le_refl _

theorem Kept.pop (kept : Kept trace queue) :
    let call : QueueCall κ := .popHighestPriority
    Kept (trace ++ [⟨queue, call, call.exec queue⟩]) (call.exec queue) := by
  intro call
  have all : enqueued (trace ++ [⟨queue, call, call.exec queue⟩]) = enqueued trace := by
    rw [enqueued_snoc]
    exact List.append_nil _
  have popped := pops kept.arranged.ordered
  have arranged := kept.arranged.pop
  have gone : returned (trace ++ [⟨queue, call, call.exec queue⟩]) =
      returned trace ++ queue.popHighestPriority.1.toList := returned_snoc _ _
  have left : call.exec queue = queue.popHighestPriority.2 := rfl
  generalize queue.popHighestPriority = result at popped gone left arranged
  rw [left] at gone all ⊢
  cases popped with
  | nothing empty =>
      refine ⟨arranged, ?_, all ▸ kept.increasing, all ▸ kept.counted⟩
      rw [all, gone]
      simpa using kept.members
  | @top request rest ordered members least =>
      refine ⟨arranged, ?_, all ▸ kept.increasing, all ▸ kept.counted⟩
      rw [all, gone, List.append_assoc]
      exact kept.members.trans (members.append_left (returned trace))

theorem Kept.step (kept : Kept trace queue) (call : QueueCall κ) :
    Kept (trace ++ [⟨queue, call, call.exec queue⟩]) (call.exec queue) := by
  cases call with
  | enqueue requestId user branchId customPriority now =>
      exact kept.enqueue requestId user branchId customPriority now
  | popHighestPriority => exact kept.pop

theorem Kept.of_run {isbn : String} (run : Run QueueStep (SmartAllocationQueue.new isbn) trace queue) :
    Kept trace queue := by
  induction run with
  | nil => exact kept_new isbn
  | snoc _ taken ih =>
      rw [← taken]
      exact ih.step _

theorem Kept.nodup (kept : Kept trace queue) : (enqueued trace).Nodup :=
  kept.increasing.imp fun earlier same => absurd (congrArg BorrowRequest.entryId same) earlier.ne

/-- In every sequence of calls, a pop returns the earliest request of the greatest
priority; requests get increasing numbers, the data and the priority of their calls, and
each is queued until it is returned once; and the listing is what repeated pops would
return. -/
theorem run_queueOrder [IsStrictOrderedRing κ] {isbn : String} {final : SmartAllocationQueue κ}
    (run : Run QueueStep (SmartAllocationQueue.new isbn) trace final) :
    (∀ transition ∈ trace, transition.label = .popHighestPriority →
      ServesFirst transition.before) ∧
    (enqueued trace).Pairwise (fun earlier later => earlier.entryId < later.entryId) ∧
    (enqueued trace).Nodup ∧
    (enqueued trace).map BorrowRequest.actualPriority =
      trace.filterMap (fun transition => transition.label.asked) ∧
    (∀ round : κ → κ, (enqueued trace).map (SmartAllocationQueue.listing round) =
      trace.filterMap fun transition => transition.label.line round) ∧
    (enqueued trace).Perm (returned trace ++ final.heap) ∧
    final.size + (returned trace).length = (enqueued trace).length ∧
    (final.drain final.size).Perm final.heap ∧
    ∀ round : κ → κ, final.toList round =
      (final.drain final.size).map (SmartAllocationQueue.listing round) := by
  have kept := Kept.of_run run
  refine ⟨?_, kept.increasing, kept.nodup, enqueued_asked trace,
    fun round => enqueued_lines round trace, kept.members, ?_, (drain_spec final.size
      kept.arranged.ordered (Nat.le_refl _)).1,
    fun round => toList_eq_drain round kept.arranged.ordered kept.arranged.numbered⟩
  · intro transition member _
    obtain ⟨leading, trailing, split⟩ := List.append_of_mem member
    rw [split, List.append_cons] at run
    obtain ⟨middle, first, _⟩ := run.split
    exact (Kept.of_run first.last.1).arranged.servesFirst
  · have length := kept.members.length_eq
    rw [List.length_append] at length
    rw [SmartAllocationQueue.size]
    omega

theorem run_queueOrder_tie :
    let reader := User.new { userId := "U1", name := "N", email := "E", passwordHash := "H" } 4 .admin
    let calls : List (QueueCall ℚ) :=
      [.enqueue "R1" reader "B1" (some (1 / 4)) .min, .enqueue "R2" reader "B1" (some (1 / 2)) .min,
        .enqueue "R3" reader "B1" (some (1 / 2)) .min, .enqueue "R4" reader "B1" none .min,
        .popHighestPriority, .popHighestPriority]
    let trace := Run.trail (fun queue call => call.exec queue) (.new "I1") calls
    (returned trace).map BorrowRequest.requestId = ["R2", "R3"] ∧
      (enqueued trace).map BorrowRequest.actualPriority = [1 / 4, 1 / 2, 1 / 2, 47 / 100] ∧
      ∀ transition ∈ trace, transition.label = .popHighestPriority →
        ServesFirst transition.before := by
  intro reader calls trace
  have run : Run QueueStep (SmartAllocationQueue.new "I1") trace _ :=
    Run.of_exec (fun _ _ => rfl) _ calls
  obtain ⟨first, _, _, asked, _⟩ := run_queueOrder run
  exact ⟨by decide +kernel, asked.trans (by decide +kernel), first⟩

end Runs

end LibraFlow.Dsa
