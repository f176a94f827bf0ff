import LibraFlow.Library.Run
import LibraFlow.Patterns.ReservationProperties

/-! Runs of reservations and returns. Each title's queue is a lossless first-in
first-out queue: the entries that got a copy are the oldest ones, and the others
are waiting in the order in which they were made. -/

set_option autoImplicit false

namespace LibraFlow.Patterns

open LibraFlow.Core LibraFlow.Library ReservationManager

/-- The calls that change the reservation queues. -/
inductive ReservationCall where
  | reserveBook (isbn userId : String) (priorityScore : ℚ) (reservationId : String)
      (now : Datetime)
  | handleCopyReturned (isbn copyId : String) (hours : Int) (now : Datetime)

namespace ReservationCall

def isbn : ReservationCall → String
  | reserveBook isbn .. | handleCopyReturned isbn .. => isbn

/-- The queues a call leaves behind, whether it returns or raises. -/
def exec (manager : ReservationManager) : ReservationCall → ReservationManager
  | reserveBook isbn userId priorityScore reservationId now =>
      (manager.reserveBook isbn userId priorityScore reservationId now).2
  | handleCopyReturned isbn copyId hours now =>
      (manager.handleCopyReturned isbn copyId now hours).2

/-- One complete call. -/
def Step (before : ReservationManager) (call : ReservationCall) (after : ReservationManager) :
    Prop := call.exec before = after

theorem Step.queued {before after : ReservationManager} {call : ReservationCall}
    (step : Step before call after) (queued : before.Queued) : after.Queued := by
  cases step
  cases call with
  | reserveBook => exact queued.reserved queued.reserves
  | handleCopyReturned => exact queued.assigned queued.assigns

end ReservationCall

/-- The calls of a run. -/
abbrev ReservationTrace := List (Transition ReservationManager ReservationCall)

/-- The entry a call creates for a title: the one it returns, when it is a new object. -/
def createdBy (isbn : String) (transition : Transition ReservationManager ReservationCall) :
    Option Ref :=
  match transition.label with
  | .reserveBook title userId priorityScore reservationId now =>
      let ref := (transition.before.reserveBook title userId priorityScore reservationId now).1
      if title = isbn ∧ (transition.before.entries.read? ref).isNone then some ref else none
  | .handleCopyReturned .. => none

/-- The entries that change from pending to ready. -/
def newlyReady (before after : ReservationManager) : List Ref :=
  (List.range before.entries.next).filter fun ref =>
    (before.entries.read? ref).map ReservationEntry.status = some .pending ∧
      (after.entries.read? ref).map ReservationEntry.status = some .readyForPickup

/-- The entries of a title that a returned copy makes ready, each with that copy. -/
def assignedBy (isbn : String) (transition : Transition ReservationManager ReservationCall) :
    List (Ref × String) :=
  match transition.label with
  | .handleCopyReturned _ copyId _ _ =>
      ((newlyReady transition.before transition.after).filter fun ref =>
        (transition.after.entries.read? ref).map ReservationEntry.isbn = some isbn).map
          fun ref => (ref, copyId)
  | .reserveBook .. => []

/-- The entries created for a title, in the order of their creation. -/
def created (isbn : String) (trace : ReservationTrace) : List Ref :=
  trace.filterMap (createdBy isbn)

/-- The entries of a title that got a copy, in the order of the returns. -/
def assigned (isbn : String) (trace : ReservationTrace) : List (Ref × String) :=
  trace.flatMap (assignedBy isbn)

/-- A new entry gets an identifier that no other entry has. -/
def FreshReservation (transition : Transition ReservationManager ReservationCall) : Prop :=
  ∀ isbn userId priorityScore reservationId now,
    transition.label = .reserveBook isbn userId priorityScore reservationId now →
    transition.before.reservations.get? reservationId = none

/-- The queues agree with the calls made so far. -/
structure Recorded (trace : ReservationTrace) (manager : ReservationManager) : Prop where
  queued : manager.Queued
  order : ∀ isbn, created isbn trace =
    (assigned isbn trace).map Prod.fst ++ manager.queue isbn
  distinct : ∀ isbn, (created isbn trace).Nodup
  registered : ∀ isbn, ∀ ref ∈ created isbn trace, ∃ entry,
    manager.entries.read? ref = some entry ∧ entry.isbn = isbn ∧
      manager.reservations.get? entry.reservationId = some ref
  ready : ∀ isbn, ∀ pair ∈ assigned isbn trace, ∃ entry,
    manager.entries.read? pair.1 = some entry ∧ entry.status = .readyForPickup ∧
      entry.assignedCopyId = some pair.2

section Steps

variable {trace : ReservationTrace} {before after : ReservationManager} {call : ReservationCall}

private theorem created_snoc (isbn : String)
    (transition : Transition ReservationManager ReservationCall) :
    created isbn (trace ++ [transition]) =
      created isbn trace ++ (createdBy isbn transition).toList := by
  unfold created
  rw [List.filterMap_append]
  cases new : createdBy isbn transition with
  | none => simp [new]
  | some ref => simp [new]

private theorem assigned_snoc (isbn : String)
    (transition : Transition ReservationManager ReservationCall) :
    assigned isbn (trace ++ [transition]) =
      assigned isbn trace ++ assignedBy isbn transition := by
  simp [assigned]

/-- The one entry that turns ready is the one in front. -/
theorem newlyReady_front {isbn : String} {ref : Ref} {rest : List Ref}
    {entry ready : ReservationEntry} (queued : before.Queued)
    (front : before.queue isbn = ref :: rest) (read : before.entries.read? ref = some entry)
    (status : ready.status = .readyForPickup) :
    newlyReady before ⟨before.entries.write ref ready, before.queues.set isbn rest,
      before.reservations⟩ = [ref] := by
  have pending : entry.status = .pending := by
    obtain ⟨held, heldRead, _, pending⟩ := queued.waiting isbn ref (by simp [front])
    rw [read, Option.some.injEq] at heldRead
    rw [heldRead]
    exact pending
  have only : ∀ other, other ∈ newlyReady before ⟨before.entries.write ref ready,
      before.queues.set isbn rest, before.reservations⟩ ↔ other ∈ [ref] := by
    intro other
    simp only [newlyReady, List.mem_filter, List.mem_range, decide_eq_true_eq,
      List.mem_singleton]
    constructor
    · rintro ⟨_, wasPending, isReady⟩
      by_contra different
      rw [Heap.read?_write, if_neg (Ne.symm different), wasPending] at isReady
      cases isReady
    · rintro rfl
      refine ⟨Heap.lt_next_of_read? read, by rw [read, Option.map_some, pending], ?_⟩
      rw [Heap.read?_write_self ready read, Option.map_some, status]
  exact List.perm_singleton.mp ((List.perm_ext_iff_of_nodup
    (List.nodup_range.filter _) (List.nodup_singleton ref)).mpr only)

private theorem newlyReady_self (manager : ReservationManager) : newlyReady manager manager =
    [] := by
  refine List.filter_eq_nil_iff.mpr ?_
  intro ref _
  cases manager.entries.read? ref with
  | none => simp
  | some entry => cases status : entry.status <;> simp [status]

private theorem createdBy_eq {title userId reservationId : String} {priorityScore : ℚ}
    {now : Datetime} {ref : Ref} {manager : ReservationManager}
    (outcome : before.reserveBook title userId priorityScore reservationId now = (ref, manager))
    (isbn : String) :
    createdBy isbn ⟨before, .reserveBook title userId priorityScore reservationId now, after⟩ =
      if title = isbn ∧ (before.entries.read? ref).isNone then some ref else none := by
  simp only [createdBy, outcome]

theorem Recorded.reserve {title userId reservationId : String} {priorityScore : ℚ}
    {now : Datetime} (recorded : Recorded trace before)
    (fresh : before.reservations.get? reservationId = none)
    (step : (ReservationCall.reserveBook title userId priorityScore reservationId now).Step
      before after) :
    Recorded (trace ++
      [⟨before, .reserveBook title userId priorityScore reservationId now, after⟩]) after := by
  have reserves : Reserves before title userId priorityScore reservationId now _ :=
    recorded.queued.reserves
  have queued := recorded.queued.reserved reserves
  cases step
  simp only [ReservationCall.exec]
  generalize outcome : before.reserveBook title userId priorityScore reservationId now = result
    at reserves queued
  have unassigned : ∀ isbn, assigned isbn (trace ++ [⟨before,
      .reserveBook title userId priorityScore reservationId now, result.2⟩]) =
      assigned isbn trace := by
    intro isbn
    rw [assigned_snoc]
    exact List.append_nil _
  cases reserves with
  | @found ref entry member read user =>
      have uncreated : ∀ isbn, created isbn (trace ++ [⟨before,
          .reserveBook title userId priorityScore reservationId now,
          { before with queues := before.queues.set title (before.queue title) }⟩]) =
          created isbn trace := by
        intro isbn
        rw [created_snoc, createdBy_eq outcome, read]
        simp
      refine ⟨queued, ?_, ?_, ?_, ?_⟩
      · intro isbn
        rw [uncreated, unassigned, recorded.order, queue_set]
        split
        · next equal => rw [equal]
        · rfl
      · intro isbn
        rw [uncreated]
        exact recorded.distinct isbn
      · intro isbn other listed
        rw [uncreated] at listed
        exact recorded.registered isbn other listed
      · intro isbn pair listed
        rw [unassigned] at listed
        exact recorded.ready isbn pair listed
  | joined absent =>
      have unused : before.entries.read? before.entries.next = none := by
        simp [Heap.read?, Heap.next]
      have appended : ∀ isbn manager, created isbn (trace ++ [⟨before,
          .reserveBook title userId priorityScore reservationId now, manager⟩]) =
          created isbn trace ++ if title = isbn then [before.entries.next] else [] := by
        intro isbn manager
        rw [created_snoc, createdBy_eq outcome, unused]
        split <;> simp_all
      refine ⟨queued, ?_, ?_, ?_, ?_⟩
      · intro isbn
        rw [appended, unassigned, recorded.order, queue_set]
        split
        · next equal => rw [equal, List.append_assoc]
        · rw [List.append_nil]
      · intro isbn
        rw [appended]
        split
        · refine List.nodup_append.mpr ⟨recorded.distinct isbn, List.nodup_singleton _, ?_⟩
          intro ref listed last new same
          obtain ⟨entry, read, _⟩ := recorded.registered isbn ref listed
          exact Nat.ne_of_lt (Heap.lt_next_of_read? read)
            (same.trans (List.mem_singleton.mp new))
        · rw [List.append_nil]
          exact recorded.distinct isbn
      · intro isbn ref listed
        rw [appended, List.mem_append] at listed
        obtain old | new := listed
        · obtain ⟨entry, read, owned, known⟩ := recorded.registered isbn ref old
          refine ⟨entry, Heap.read?_alloc_of_some _ read, owned, ?_⟩
          have different : reservationId ≠ entry.reservationId := by
            rintro rfl
            rw [fresh] at known
            cases known
          rw [Dict.get?_set_of_ne _ _ different, known]
        · split at new
          · next equal =>
              cases List.mem_singleton.mp new
              exact ⟨_, Heap.read?_alloc_next _ _, equal, Dict.get?_set_self _ _ _⟩
          · cases new
      · intro isbn pair listed
        rw [unassigned] at listed
        obtain ⟨entry, read, status, copy⟩ := recorded.ready isbn pair listed
        exact ⟨entry, Heap.read?_alloc_of_some _ read, status, copy⟩

/-- What a returned copy does to the entries of one title. -/
theorem assignedBy_eq {title copyId : String} {hours : Int} {now : Datetime}
    (queued : before.Queued)
    (step : (ReservationCall.handleCopyReturned title copyId hours now).Step before after)
    (isbn : String) :
    assignedBy isbn ⟨before, .handleCopyReturned title copyId hours now, after⟩ =
      if title = isbn then ((before.queue isbn).head?.map fun ref => (ref, copyId)).toList
      else [] := by
  have assigns : Assigns before title copyId (before.handleCopyReturned title copyId now hours) :=
    queued.assigns
  have reached : (before.handleCopyReturned title copyId now hours).2 = after := step
  generalize before.handleCopyReturned title copyId now hours = result at assigns reached
  simp only [assignedBy]
  subst reached
  cases assigns with
  | nobody vacant =>
      rw [newlyReady_self]
      split
      · next equal => simp [← equal, vacant]
      · rfl
  | @front ref rest entry ready result front read marked outcome =>
      have owned : entry.isbn = title := by
        obtain ⟨held, heldRead, owned, _⟩ := queued.waiting title ref (by simp [front])
        rw [read, Option.some.injEq] at heldRead
        rw [heldRead]
        exact owned
      have title : ready.isbn = entry.isbn := by rw [marked]
      rw [newlyReady_front queued front read (by rw [marked])]
      simp only [List.filter_cons, Heap.read?_write_self ready read, Option.map_some, title,
        owned, Option.some.injEq, decide_eq_true_eq, List.filter_nil]
      split
      · next equal => simp [← equal, front]
      · rfl

theorem Recorded.returned {title copyId : String} {hours : Int} {now : Datetime}
    (recorded : Recorded trace before)
    (step : (ReservationCall.handleCopyReturned title copyId hours now).Step before after) :
    Recorded (trace ++ [⟨before, .handleCopyReturned title copyId hours now, after⟩]) after := by
  have assigns : Assigns before title copyId (before.handleCopyReturned title copyId now hours) :=
    recorded.queued.assigns
  have queued := recorded.queued.assigned assigns
  have uncreated : ∀ isbn, created isbn (trace ++ [⟨before,
      .handleCopyReturned title copyId hours now, after⟩]) = created isbn trace := by
    intro isbn
    rw [created_snoc]
    exact List.append_nil _
  have pairs : ∀ isbn, assigned isbn (trace ++ [⟨before,
      .handleCopyReturned title copyId hours now, after⟩]) = assigned isbn trace ++
      if title = isbn then ((before.queue isbn).head?.map fun ref => (ref, copyId)).toList
      else [] := by
    intro isbn
    rw [assigned_snoc, assignedBy_eq recorded.queued step]
  cases step
  simp only [ReservationCall.exec] at uncreated pairs ⊢
  generalize before.handleCopyReturned title copyId now hours = result
    at assigns queued uncreated pairs
  cases assigns with
  | nobody vacant =>
      have same : ∀ isbn, assigned isbn (trace ++ [⟨before,
          .handleCopyReturned title copyId hours now, before⟩]) = assigned isbn trace := by
        intro isbn
        rw [pairs]
        split
        · next equal => simp [← equal, vacant]
        · exact List.append_nil _
      refine ⟨queued, ?_, ?_, ?_, ?_⟩
      · intro isbn
        rw [uncreated, same]
        exact recorded.order isbn
      · intro isbn
        rw [uncreated]
        exact recorded.distinct isbn
      · intro isbn ref listed
        rw [uncreated] at listed
        exact recorded.registered isbn ref listed
      · intro isbn pair listed
        rw [same] at listed
        exact recorded.ready isbn pair listed
  | @front ref rest entry ready result front read marked outcome =>
      refine ⟨queued, ?_, ?_, ?_, ?_⟩
      · intro isbn
        rw [uncreated, pairs, recorded.order, queue_set]
        split
        · next equal => simp [← equal, front]
        · rw [List.append_nil]
      · intro isbn
        rw [uncreated]
        exact recorded.distinct isbn
      · intro isbn other listed
        rw [uncreated] at listed
        obtain ⟨held, heldRead, owned, known⟩ := recorded.registered isbn other listed
        by_cases same : ref = other
        · subst other
          rw [read, Option.some.injEq] at heldRead
          subst held
          refine ⟨ready, Heap.read?_write_self ready read, ?_, ?_⟩
          · rw [marked]
            exact owned
          · rw [marked]
            exact known
        · exact ⟨held, by rw [Heap.read?_write, if_neg same, heldRead], owned, known⟩
      · intro isbn pair listed
        rw [pairs, List.mem_append] at listed
        obtain old | new := listed
        · obtain ⟨held, heldRead, status, copy⟩ := recorded.ready isbn pair old
          have different : ref ≠ pair.1 := by
            rintro rfl
            obtain ⟨waiting, waitingRead, _, pending⟩ :=
              recorded.queued.waiting title pair.1 (by simp [front])
            rw [heldRead, Option.some.injEq] at waitingRead
            rw [waitingRead, pending] at status
            cases status
          exact ⟨held, by rw [Heap.read?_write, if_neg different, heldRead], status, copy⟩
        · split at new
          · next equal =>
              rw [← equal, front] at new
              simp only [List.head?_cons, Option.map_some, Option.toList_some,
                List.mem_singleton] at new
              subst pair
              exact ⟨ready, Heap.read?_write_self ready read, by rw [marked], by rw [marked]⟩
          · cases new

theorem Recorded.step (recorded : Recorded trace before) (step : call.Step before after)
    (fresh : FreshReservation ⟨before, call, after⟩) :
    Recorded (trace ++ [⟨before, call, after⟩]) after := by
  cases call with
  | reserveBook isbn userId priorityScore reservationId now =>
      exact recorded.reserve (fresh _ _ _ _ _ rfl) step
  | handleCopyReturned isbn copyId hours now => exact recorded.returned step

end Steps

private theorem recorded_empty : Recorded [] ReservationManager.empty := by
  constructor
  · exact queued_empty
  all_goals simp [created, assigned, ReservationManager.empty, queue]

/-- The queue of a title after a run: what is left of the entries created, in
their order, once the oldest ones have got their copies. -/
structure Fifo (isbn : String) (trace : ReservationTrace) (manager : ReservationManager) :
    Prop where
  order : created isbn trace = (assigned isbn trace).map Prod.fst ++ manager.queue isbn
  pending : ∀ ref ∈ manager.queue isbn,
    (manager.entries.read? ref).map ReservationEntry.status = some .pending
  users : ((manager.queue isbn).map fun ref =>
    (manager.entries.read? ref).map ReservationEntry.userId).Nodup
  fate : ∀ ref ∈ created isbn trace, ∃ entry, manager.entries.read? ref = some entry ∧
    entry.isbn = isbn ∧ manager.reservations.get? entry.reservationId = some ref ∧
    ((entry.status = .pending ∧ (manager.queue isbn).count ref = 1 ∧
        (assigned isbn trace).filter (fun pair => pair.1 = ref) = []) ∨
      (entry.status = .readyForPickup ∧ (manager.queue isbn).count ref = 0 ∧
        ∃ copyId, entry.assignedCopyId = some copyId ∧
          (assigned isbn trace).filter (fun pair => pair.1 = ref) = [(ref, copyId)]))
  waiting : manager.getWaitingCount isbn = (manager.queue isbn).length

/-- A call concerns one title, and a returned copy is assigned exactly when
somebody waits for the title: to the entry in front. -/
structure Serves (transition : Transition ReservationManager ReservationCall) : Prop where
  front : ∀ isbn copyId hours now,
    transition.label = .handleCopyReturned isbn copyId hours now →
    assignedBy isbn transition =
      ((transition.before.queue isbn).head?.map fun ref => (ref, copyId)).toList
  somebody : ∀ isbn copyId hours now,
    transition.label = .handleCopyReturned isbn copyId hours now →
    (assignedBy isbn transition ≠ [] ↔ 0 < transition.before.getWaitingCount isbn)
  others : ∀ isbn, isbn ≠ transition.label.isbn →
    transition.after.queue isbn = transition.before.queue isbn ∧
      createdBy isbn transition = none ∧ assignedBy isbn transition = []

private theorem getWaitingCount_eq {manager : ReservationManager} (queued : manager.Queued)
    (isbn : String) : manager.getWaitingCount isbn = (manager.queue isbn).length := by
  unfold getWaitingCount
  rw [List.filter_eq_self.mpr]
  intro ref member
  obtain ⟨entry, read, _, pending⟩ := queued.waiting isbn ref member
  simp [read, pending]

/-- Among pairs with distinct keys, a key selects one pair. -/
theorem filter_key {κ ν : Type} [DecidableEq κ] {pairs : List (κ × ν)} {pair : κ × ν}
    (distinct : (pairs.map Prod.fst).Nodup) (member : pair ∈ pairs) :
    pairs.filter (fun other => other.1 = pair.1) = [pair] := by
  induction pairs with
  | nil => cases member
  | cons first rest ih =>
      rw [List.map_cons, List.nodup_cons] at distinct
      obtain rfl | later := List.mem_cons.mp member
      · have others : rest.filter (fun other => other.1 = pair.1) = [] := by
          refine List.filter_eq_nil_iff.mpr ?_
          intro other listed same
          exact distinct.1 (List.mem_map.mpr ⟨other, listed, of_decide_eq_true same⟩)
        simp [others]
      · have different : first.1 ≠ pair.1 := fun same =>
          distinct.1 (List.mem_map.mpr ⟨pair, later, same.symm⟩)
        simp [different, ih distinct.2 later]

theorem Recorded.fifo {trace : ReservationTrace} {manager : ReservationManager}
    (recorded : Recorded trace manager) (isbn : String) : Fifo isbn trace manager := by
  have distinct := recorded.distinct isbn
  rw [recorded.order, List.nodup_append] at distinct
  obtain ⟨assignedOnce, queuedOnce, apart⟩ := distinct
  refine ⟨recorded.order isbn, ?_, ?_, ?_, getWaitingCount_eq recorded.queued isbn⟩
  · intro ref member
    obtain ⟨entry, read, _, pending⟩ := recorded.queued.waiting isbn ref member
    rw [read, Option.map_some, pending]
  · refine List.Nodup.map_on ?_ (recorded.queued.once isbn)
    intro left leftMember right rightMember same
    obtain ⟨leftEntry, leftRead, _⟩ := recorded.queued.waiting isbn left leftMember
    obtain ⟨rightEntry, rightRead, _⟩ := recorded.queued.waiting isbn right rightMember
    rw [leftRead, rightRead] at same
    exact recorded.queued.users isbn left leftMember right rightMember _ _ leftRead rightRead
      (Option.some.inj same)
  · intro ref member
    obtain ⟨entry, read, owned, known⟩ := recorded.registered isbn ref member
    refine ⟨entry, read, owned, known, ?_⟩
    rw [recorded.order, List.mem_append] at member
    obtain served | waiting := member
    · obtain ⟨pair, listed, rfl⟩ := List.mem_map.mp served
      obtain ⟨held, heldRead, status, copy⟩ := recorded.ready isbn pair listed
      rw [read, Option.some.injEq] at heldRead
      subst held
      refine .inr ⟨status, ?_, pair.2, copy, ?_⟩
      · exact List.count_eq_zero.mpr fun again => apart _ served _ again rfl
      · exact filter_key assignedOnce listed
    · obtain ⟨held, heldRead, _, pending⟩ := recorded.queued.waiting isbn ref waiting
      rw [read, Option.some.injEq] at heldRead
      subst held
      refine .inl ⟨pending, List.count_eq_one_of_mem queuedOnce waiting, ?_⟩
      refine List.filter_eq_nil_iff.mpr ?_
      intro pair listed same
      exact apart _ (List.mem_map_of_mem listed) _ waiting (of_decide_eq_true same)

theorem serves {before after : ReservationManager} {call : ReservationCall}
    (queued : before.Queued) (step : call.Step before after) : Serves ⟨before, call, after⟩ := by
  refine ⟨?_, ?_, ?_⟩
  · intro isbn copyId hours now label
    cases label
    rw [assignedBy_eq queued step, if_pos rfl]
  · intro isbn copyId hours now label
    cases label
    rw [assignedBy_eq queued step, if_pos rfl, getWaitingCount_eq queued]
    cases before.queue isbn with
    | nil => simp
    | cons ref rest => simp
  · intro isbn different
    cases call with
    | reserveBook title userId priorityScore reservationId now =>
        have other : title ≠ isbn := Ne.symm different
        have reserves : Reserves before title userId priorityScore reservationId now _ :=
          queued.reserves
        refine ⟨?_, by simp [createdBy, other], rfl⟩
        cases step
        simp only [ReservationCall.exec]
        generalize before.reserveBook title userId priorityScore reservationId now = result
          at reserves
        cases reserves with
        | found | joined => rw [queue_set, if_neg other]
    | handleCopyReturned title copyId hours now =>
        have other : title ≠ isbn := Ne.symm different
        have assigns : Assigns before title copyId
          (before.handleCopyReturned title copyId now hours) := queued.assigns
        refine ⟨?_, rfl, by rw [assignedBy_eq queued step, if_neg other]⟩
        cases step
        simp only [ReservationCall.exec]
        generalize before.handleCopyReturned title copyId now hours = result at assigns
        cases assigns with
        | nobody => rfl
        | front => rw [queue_set, if_neg other]

theorem Recorded.run {trace : ReservationTrace} {final : ReservationManager}
    (run : Run ReservationCall.Step .empty trace final)
    (fresh : ∀ transition ∈ trace, FreshReservation transition) : Recorded trace final := by
  induction run with
  | nil => exact recorded_empty
  | snoc _ taken ih =>
      have earlier := ih fun transition member =>
        fresh transition (List.mem_append_left _ member)
      exact earlier.step taken (fresh _ (by simp))

/-- Every call finds the queues in order, whatever identifiers were drawn. -/
theorem transitions_queued {trace : ReservationTrace} {final : ReservationManager}
    (run : Run ReservationCall.Step .empty trace final) :
    ∀ transition ∈ trace, transition.before.Queued ∧
      transition.label.Step transition.before transition.after := by
  refine run.transition_invariant (fun _ _ => trivial) queued_empty ?_
  intro before call after queued step _
  exact step.queued queued

/-- In every run of reservations and returns, every title has a lossless queue,
and every call serves the queue of its own title. -/
theorem run_fifo {trace : ReservationTrace} {final : ReservationManager}
    (run : Run ReservationCall.Step .empty trace final)
    (fresh : ∀ transition ∈ trace, FreshReservation transition) :
    (∀ isbn, Fifo isbn trace final) ∧ ∀ transition ∈ trace, Serves transition := by
  refine ⟨(Recorded.run run fresh).fifo, ?_⟩
  intro transition member
  obtain ⟨queued, step⟩ := transitions_queued run transition member
  exact serves queued step

/-- Two readers ask for a title and one copy of it comes back. -/
def twoReaders : List ReservationCall :=
  [.reserveBook "B1" "U1" 0 "R1" .min, .reserveBook "B1" "U2" 0 "R2" .min,
    .reserveBook "B1" "U1" 0 "R3" .min, .handleCopyReturned "B1" "C1" 48 .min]

theorem run_fifo_two_readers :
    (∀ isbn, Fifo isbn (Run.trail ReservationCall.exec .empty twoReaders)
      (twoReaders.foldl ReservationCall.exec .empty)) ∧
      assigned "B1" (Run.trail ReservationCall.exec .empty twoReaders) = [(0, "C1")] ∧
      (twoReaders.foldl ReservationCall.exec .empty).queue "B1" = [1] := by
  refine ⟨(run_fifo (Run.of_exec (fun _ _ => rfl) _ _) ?_).1, by decide +kernel,
    by decide +kernel⟩
  intro transition member isbn userId priorityScore reservationId now label
  simp only [twoReaders, Run.trail, List.mem_cons, List.not_mem_nil, or_false] at member
  obtain rfl | rfl | rfl | rfl := member <;> cases label <;> decide +kernel

/-- An entry that counts as a reservation of the user for the title. -/
def ReservationEntry.ActiveFor (entry : ReservationEntry) (isbn userId : String) : Prop :=
  entry.isbn = isbn ∧ entry.userId = userId ∧
    (entry.status = .pending ∨ entry.status = .readyForPickup)

/-- An active reservation that the index lists. -/
def ListsActive (manager : ReservationManager) (isbn userId : String) (ref : Ref) : Prop :=
  ∃ reservationId entry, manager.reservations.get? reservationId = some ref ∧
    manager.entries.read? ref = some entry ∧ entry.ActiveFor isbn userId

/-- A user has at most one active reservation for a title. -/
def OneActive (manager : ReservationManager) : Prop :=
  ∀ isbn userId left right, ListsActive manager isbn userId left →
    ListsActive manager isbn userId right → left = right

/-- A reservation asked for while one is active is that one, and nothing is created. -/
def ReturnsActive (transition : Transition ReservationManager ReservationCall) : Prop :=
  ∀ isbn userId priorityScore reservationId now ref,
    transition.label = .reserveBook isbn userId priorityScore reservationId now →
    ListsActive transition.before isbn userId ref →
    (transition.before.reserveBook isbn userId priorityScore reservationId now).1 = ref ∧
      transition.after.entries = transition.before.entries ∧
      transition.after.reservations = transition.before.reservations

/-- No user asks for a title while a copy of it is ready for them. -/
def AsksUnserved (transition : Transition ReservationManager ReservationCall) : Prop :=
  ∀ isbn userId priorityScore reservationId now,
    transition.label = .reserveBook isbn userId priorityScore reservationId now →
    ∀ listedId ref entry, transition.before.reservations.get? listedId = some ref →
      transition.before.entries.read? ref = some entry → entry.isbn = isbn →
      entry.userId = userId → entry.status ≠ .readyForPickup

structure SingleQueued (manager : ReservationManager) : Prop where
  queued : manager.Queued
  single : OneActive manager

section Unserved

variable {before after : ReservationManager} {call : ReservationCall}

/-- While no copy is ready for the user, an active reservation is in the queue. -/
theorem listsActive_waiting {isbn userId reservationId : String} {priorityScore : ℚ}
    {now : Datetime} {ref : Ref} (queued : before.Queued)
    (unserved : AsksUnserved
      ⟨before, .reserveBook isbn userId priorityScore reservationId now, after⟩)
    (listed : ListsActive before isbn userId ref) :
    ref ∈ before.queue isbn ∧ ∃ entry, before.entries.read? ref = some entry ∧
      entry.userId = userId := by
  obtain ⟨listedId, entry, known, read, title, user, _⟩ := listed
  obtain ⟨_, _, member⟩ | ⟨ready, _⟩ := queued.settled ref entry read
  · exact ⟨title ▸ member, entry, read, user⟩
  · exact absurd ready (unserved _ _ _ _ _ rfl listedId ref entry known read title user)

private theorem returnsActive (queued : before.Queued) (step : call.Step before after)
    (unserved : AsksUnserved ⟨before, call, after⟩) : ReturnsActive ⟨before, call, after⟩ := by
  intro isbn userId priorityScore reservationId now ref label listed
  cases label
  obtain ⟨member, entry, read, user⟩ := listsActive_waiting queued unserved listed
  have reserves : Reserves before isbn userId priorityScore reservationId now _ :=
    queued.reserves
  cases step
  simp only [ReservationCall.exec]
  generalize before.reserveBook isbn userId priorityScore reservationId now = result at reserves
  cases reserves with
  | found foundMember foundRead foundUser =>
      exact ⟨queued.users isbn _ foundMember ref member _ _ foundRead read
        (foundUser.trans user.symm), rfl, rfl⟩
  | joined absent => exact absurd user (absent ref member entry read)

/-- A returned copy makes no reservation active that was not active before. -/
theorem listsActive_returned {title copyId isbn userId : String} {hours : Int} {now : Datetime}
    {ref : Ref} (queued : before.Queued)
    (step : (ReservationCall.handleCopyReturned title copyId hours now).Step before after)
    (listed : ListsActive after isbn userId ref) : ListsActive before isbn userId ref := by
  have assigns : Assigns before title copyId (before.handleCopyReturned title copyId now hours) :=
    queued.assigns
  cases step
  simp only [ReservationCall.exec] at listed
  generalize before.handleCopyReturned title copyId now hours = result at assigns listed
  cases assigns with
  | nobody => exact listed
  | @front chosen rest entry ready result front read marked outcome =>
      obtain ⟨listedId, held, known, heldRead, active⟩ := listed
      by_cases same : chosen = ref
      · subst ref
        simp only [Heap.read?_write_self ready read, Option.some.injEq] at heldRead
        subst held
        obtain ⟨waiting, waitingRead, _, pending⟩ := queued.waiting title chosen (by simp [front])
        rw [read, Option.some.injEq] at waitingRead
        rw [marked] at active
        exact ⟨listedId, entry, known, read, active.1, active.2.1, .inl (waitingRead ▸ pending)⟩
      · simp only [Heap.read?_write, if_neg same] at heldRead
        exact ⟨listedId, held, known, heldRead, active⟩

/-- A reservation makes at most its own entry active. -/
theorem listsActive_reserved {title reader reservationId isbn userId : String}
    {priorityScore : ℚ} {now : Datetime} {ref : Ref} (queued : before.Queued)
    (step : (ReservationCall.reserveBook title reader priorityScore reservationId now).Step
      before after)
    (listed : ListsActive after isbn userId ref) :
    ListsActive before isbn userId ref ∨
      (ref = before.entries.next ∧ isbn = title ∧ userId = reader ∧
        ∀ waiting ∈ before.queue title, ∀ entry, before.entries.read? waiting = some entry →
          entry.userId ≠ reader) := by
  have reserves : Reserves before title reader priorityScore reservationId now _ :=
    queued.reserves
  cases step
  simp only [ReservationCall.exec] at listed
  generalize before.reserveBook title reader priorityScore reservationId now = result
    at reserves listed
  cases reserves with
  | found => exact .inl listed
  | joined absent =>
      obtain ⟨listedId, entry, known, read, active⟩ := listed
      simp only [Heap.read?_alloc] at read
      split at read
      · next new =>
          cases read
          exact .inr ⟨new, active.1.symm, active.2.1.symm, absent⟩
      · next old =>
          simp only [Dict.get?_set] at known
          split at known
          · cases known
            exact absurd rfl old
          · exact .inl ⟨listedId, entry, known, read, active⟩

theorem SingleQueued.step (state : SingleQueued before) (step : call.Step before after)
    (unserved : AsksUnserved ⟨before, call, after⟩) : SingleQueued after := by
  refine ⟨step.queued state.queued, ?_⟩
  intro isbn userId left right leftListed rightListed
  cases call with
  | handleCopyReturned title copyId hours now =>
      exact state.single isbn userId left right
        (listsActive_returned state.queued step leftListed)
        (listsActive_returned state.queued step rightListed)
  | reserveBook title reader priorityScore reservationId now =>
      -- an entry that was active before rules out a new one for the same user
      have exclusive : ∀ old, ListsActive before title reader old →
          ¬ ∀ waiting ∈ before.queue title, ∀ entry, before.entries.read? waiting = some entry →
            entry.userId ≠ reader := by
        intro old listed absent
        obtain ⟨member, entry, read, user⟩ := listsActive_waiting state.queued unserved listed
        exact absent old member entry read user
      obtain leftOld | ⟨rfl, rfl, rfl, leftNew⟩ :=
          listsActive_reserved state.queued step leftListed <;>
        obtain rightOld | ⟨rfl, rightTitle, rightReader, rightNew⟩ :=
          listsActive_reserved state.queued step rightListed
      · exact state.single isbn userId left right leftOld rightOld
      · subst rightTitle rightReader
        exact absurd rightNew (exclusive left leftOld)
      · exact absurd leftNew (exclusive right rightOld)
      · rfl

end Unserved

/-- In every run in which nobody asks for a title while a copy of it is ready for
them: a user never has two active reservations for a title, and asking again
returns the one there is. -/
theorem run_oneActive {trace : ReservationTrace} {final : ReservationManager}
    (run : Run ReservationCall.Step .empty trace final)
    (unserved : ∀ transition ∈ trace, AsksUnserved transition) :
    OneActive final ∧ ∀ transition ∈ trace, ReturnsActive transition := by
  have initially : SingleQueued .empty :=
    ⟨queued_empty, fun _ _ _ _ ⟨_, _, known, _⟩ => by cases known⟩
  have preserved : ∀ before call after, SingleQueued before →
      ReservationCall.Step before call after → AsksUnserved ⟨before, call, after⟩ →
      SingleQueued after := fun _ _ _ state step asks => state.step step asks
  refine ⟨(run.invariant unserved initially preserved).single, ?_⟩
  intro transition member
  obtain ⟨state, step⟩ := run.transition_invariant unserved initially preserved transition member
  exact returnsActive state.queued step (unserved transition member)

def asksUnserved (manager : ReservationManager) : ReservationCall → Bool
  | .reserveBook isbn userId .. =>
      manager.reservations.values.all fun ref =>
        match manager.entries.read? ref with
        | some entry =>
            !(entry.isbn = isbn ∧ entry.userId = userId ∧ entry.status = .readyForPickup)
        | none => true
  | .handleCopyReturned .. => true

private theorem asksUnserved_sound {transition : Transition ReservationManager ReservationCall}
    (checked : asksUnserved transition.before transition.label = true) :
    AsksUnserved transition := by
  intro isbn userId priorityScore reservationId now label listedId ref entry known read title
    user ready
  rw [label] at checked
  have passes := List.all_eq_true.mp checked ref ((Dict.mem_values_iff _ _).mpr ⟨listedId, known⟩)
  simp [read, title, user, ready] at passes

theorem run_oneActive_asked_twice :
    ∃ trace final, Run ReservationCall.Step .empty trace final ∧ trace.length = 4 ∧
      (∀ transition ∈ trace, AsksUnserved transition) ∧ OneActive final ∧
      ∀ transition ∈ trace, ReturnsActive transition := by
  have checked : ∀ transition ∈ Run.trail ReservationCall.exec .empty twoReaders,
      asksUnserved transition.before transition.label = true := by decide +kernel
  have unserved : ∀ transition ∈ Run.trail ReservationCall.exec .empty twoReaders,
      AsksUnserved transition :=
    fun transition member => asksUnserved_sound (checked transition member)
  obtain ⟨single, returns⟩ := run_oneActive (Run.of_exec (fun _ _ => rfl) _ _) unserved
  exact ⟨_, _, Run.of_exec (fun _ _ => rfl) _ _, rfl, unserved, single, returns⟩

/-- A reader for whom a copy is ready asks for the title again. -/
def askedAgain : List ReservationCall :=
  [.reserveBook "B1" "U1" 0 "R1" .min, .handleCopyReturned "B1" "C1" 48 .min,
    .reserveBook "B1" "U1" 0 "R2" .min]

/-- The ready entry has left the queue that the duplicate test looks at. -/
theorem ready_reader_reserves_again :
    ∃ trace final, Run ReservationCall.Step .empty trace final ∧ ¬ OneActive final := by
  refine ⟨_, _, Run.of_exec (fun _ _ => rfl) _ askedAgain, ?_⟩
  intro single
  have first : ((askedAgain.foldl ReservationCall.exec .empty).entries.read? 0).map
      (fun entry => (entry.isbn, entry.userId, entry.status)) =
      some ("B1", "U1", .readyForPickup) := by decide +kernel
  have second : ((askedAgain.foldl ReservationCall.exec .empty).entries.read? 1).map
      (fun entry => (entry.isbn, entry.userId, entry.status)) =
      some ("B1", "U1", .pending) := by decide +kernel
  have known : (askedAgain.foldl ReservationCall.exec .empty).reservations.get? "R1" = some 0 ∧
      (askedAgain.foldl ReservationCall.exec .empty).reservations.get? "R2" = some 1 := by
    decide +kernel
  obtain ⟨left, leftRead, leftShown⟩ := Option.map_eq_some_iff.mp first
  obtain ⟨right, rightRead, rightShown⟩ := Option.map_eq_some_iff.mp second
  simp only [Prod.mk.injEq] at leftShown rightShown
  have same := single "B1" "U1" 0 1
    ⟨"R1", left, known.1, leftRead, leftShown.1, leftShown.2.1, .inr leftShown.2.2⟩
    ⟨"R2", right, known.2, rightRead, rightShown.1, rightShown.2.1, .inl rightShown.2.2⟩
  cases same

end LibraFlow.Patterns
