import LibraFlow.Patterns.ReservationQueue

/-! Laws of the reservation queues. A queue holds the pending entries of its
title and nothing else, so a reservation joins at the back or finds its user
already waiting, and a returned copy goes to the entry in front. -/

set_option autoImplicit false

namespace LibraFlow.Patterns.ReservationManager

open LibraFlow.Core LibraFlow.Library

/-- Pending entries are in the queue of their title, and every other entry holds
a copy and is in no queue. -/
structure Queued (manager : ReservationManager) : Prop where
  waiting : ∀ isbn, ∀ ref ∈ manager.queue isbn, ∃ entry, manager.entries.read? ref = some entry ∧
    entry.isbn = isbn ∧ entry.status = .pending
  settled : ∀ ref entry, manager.entries.read? ref = some entry →
    (entry.status = .pending ∧ entry.assignedCopyId = none ∧ ref ∈ manager.queue entry.isbn) ∨
      (entry.status = .readyForPickup ∧ ∃ copyId, entry.assignedCopyId = some copyId)
  once : ∀ isbn, (manager.queue isbn).Nodup
  users : ∀ isbn, ∀ left ∈ manager.queue isbn, ∀ right ∈ manager.queue isbn,
    ∀ leftEntry rightEntry, manager.entries.read? left = some leftEntry →
      manager.entries.read? right = some rightEntry → leftEntry.userId = rightEntry.userId →
      left = right

theorem queued_empty : Queued empty := by
  constructor <;> simp [empty, queue]

/-- A new entry, as its constructor leaves it. -/
def newEntry (reservationId isbn userId : String) (priorityScore : ℚ) (now : Datetime) :
    ReservationEntry where
  reservationId := reservationId
  isbn := isbn
  userId := userId
  priorityScore := priorityScore
  status := .pending
  createdAt := now
  assignedCopyId := none
  readyPickupExpiresAt := none

@[simp] theorem queue_set (manager : ReservationManager) (entries : Heap ReservationEntry)
    (reservations : Dict String Ref) (isbn other : String) (refs : List Ref) :
    queue ⟨entries, manager.queues.set isbn refs, reservations⟩ other =
      if isbn = other then refs else manager.queue other := by
  unfold queue
  rw [Dict.get?_set]
  split <;> rfl

private theorem takePending_shorter (entries : Heap ReservationEntry) {refs : List Ref}
    (waiting : refs ≠ []) : (takePending entries refs).2.length < refs.length := by
  induction refs with
  | nil => exact absurd rfl waiting
  | cons ref rest ih =>
      have further : (takePending entries rest).2.length < (ref :: rest).length := by
        cases rest with
        | nil => exact Nat.zero_lt_one
        | cons next others => exact Nat.lt_succ_of_lt (ih (List.cons_ne_nil _ _))
      unfold takePending
      split
      · next entry read =>
          split
          · exact Nat.lt_succ_self _
          · exact further
      · exact further

/-- A returned copy takes entries from a queue that has any, whatever follows. -/
theorem handleCopyReturned_ne {manager : ReservationManager} {isbn : String} (copyId : String)
    (now : Datetime) (hours : Int) (waiting : manager.queue isbn ≠ []) :
    (manager.handleCopyReturned isbn copyId now hours).2 ≠ manager := by
  have shorter := takePending_shorter manager.entries waiting
  intro same
  have queue : (manager.handleCopyReturned isbn copyId now hours).2.queue isbn =
      (takePending manager.entries (manager.queue isbn)).2 := by
    unfold handleCopyReturned
    generalize now.addHours? hours = expiry
    rw [if_neg waiting]
    rcases takePending manager.entries (manager.queue isbn) with ⟨chosen, rest⟩
    cases chosen with
    | none => simp
    | some chosen => cases expiry <;> simp
  rw [same] at queue
  rw [← queue] at shorter
  exact lt_irrefl _ shorter

/-- What a reservation does. -/
inductive Reserves (manager : ReservationManager) (isbn userId : String) (priorityScore : ℚ)
    (reservationId : String) (now : Datetime) : Ref × ReservationManager → Prop where
  | found {ref : Ref} {entry : ReservationEntry} (member : ref ∈ manager.queue isbn)
      (read : manager.entries.read? ref = some entry) (user : entry.userId = userId) :
      Reserves manager isbn userId priorityScore reservationId now
        (ref, { manager with queues := manager.queues.set isbn (manager.queue isbn) })
  | joined
      (absent : ∀ ref ∈ manager.queue isbn, ∀ entry, manager.entries.read? ref = some entry →
        entry.userId ≠ userId) :
      Reserves manager isbn userId priorityScore reservationId now
        (manager.entries.next, {
          entries := manager.entries.alloc (newEntry reservationId isbn userId priorityScore now)
          queues := manager.queues.set isbn (manager.queue isbn ++ [manager.entries.next])
          reservations := manager.reservations.set reservationId manager.entries.next })

/-- What a returned copy does: it goes to the entry in front, if there is one. -/
inductive Assigns (manager : ReservationManager) (isbn copyId : String) :
    Except Error (Option ReservationEntry) × ReservationManager → Prop where
  | nobody (vacant : manager.queue isbn = []) : Assigns manager isbn copyId (.ok none, manager)
  | front {ref : Ref} {rest : List Ref} {entry ready : ReservationEntry}
      {result : Except Error (Option ReservationEntry)}
      (front : manager.queue isbn = ref :: rest) (read : manager.entries.read? ref = some entry)
      (marked : ready = { entry with
        status := .readyForPickup
        assignedCopyId := some copyId
        readyPickupExpiresAt := ready.readyPickupExpiresAt })
      (outcome : result = .ok (some ready) ∨ result = .error .overflowError) :
      Assigns manager isbn copyId (result, { manager with
        entries := manager.entries.write ref ready
        queues := manager.queues.set isbn rest })

namespace Queued

variable {manager : ReservationManager} {isbn userId copyId reservationId : String}
  {priorityScore : ℚ} {now : Datetime} {hours : Int}

private theorem activeFor_iff (queued : manager.Queued) {ref : Ref}
    (member : ref ∈ manager.queue isbn) :
    manager.activeFor userId ref = true ↔
      ∃ entry, manager.entries.read? ref = some entry ∧ entry.userId = userId := by
  obtain ⟨entry, read, _, pending⟩ := queued.waiting isbn ref member
  simp [activeFor, read, pending]

theorem reserves (queued : manager.Queued) :
    Reserves manager isbn userId priorityScore reservationId now
      (manager.reserveBook isbn userId priorityScore reservationId now) := by
  unfold reserveBook
  cases found : (manager.queue isbn).find? (manager.activeFor userId) with
  | some ref =>
      have member := List.mem_of_find?_eq_some found
      obtain ⟨entry, read, user⟩ := (queued.activeFor_iff member).mp (List.find?_some found)
      exact .found member read user
  | none =>
      refine .joined ?_
      intro ref member entry read same
      have inactive := List.find?_eq_none.mp found ref member
      exact inactive ((queued.activeFor_iff member).mpr ⟨entry, read, same⟩)

theorem assigns (queued : manager.Queued) :
    Assigns manager isbn copyId (manager.handleCopyReturned isbn copyId now hours) := by
  unfold handleCopyReturned
  generalize now.addHours? hours = expiry
  cases line : manager.queue isbn with
  | nil => exact .nobody line
  | cons ref rest =>
      obtain ⟨entry, read, _, pending⟩ := queued.waiting isbn ref (by simp [line])
      simp only [reduceCtorEq, ↓reduceIte, takePending, read, pending]
      cases expiry with
      | none => exact .front line read rfl (.inr rfl)
      | some deadline => exact .front line read rfl (.inl rfl)

theorem reserved (queued : manager.Queued) {result : Ref × ReservationManager}
    (reserves : Reserves manager isbn userId priorityScore reservationId now result) :
    result.2.Queued := by
  cases reserves with
  | found =>
      have same : ∀ other, queue { manager with
          queues := manager.queues.set isbn (manager.queue isbn) } other =
          manager.queue other := by
        intro other
        rw [queue_set]
        split
        · next equal => rw [equal]
        · rfl
      constructor
      · intro other ref member
        rw [same] at member
        exact queued.waiting other ref member
      · intro ref entry read
        rw [same]
        exact queued.settled ref entry read
      · intro other
        rw [same]
        exact queued.once other
      · intro other left leftMember right rightMember
        rw [same] at leftMember rightMember
        exact queued.users other left leftMember right rightMember
  | joined absent =>
      -- the new entry is the only one whose reference is the next one
      have older : ∀ other, ∀ ref ∈ manager.queue other, ref ≠ manager.entries.next := by
        intro other ref member same
        obtain ⟨entry, read, _⟩ := queued.waiting other ref member
        exact Nat.ne_of_lt (Heap.lt_next_of_read? read) same
      constructor
      · intro other ref member
        simp only [queue_set] at member
        split at member
        · next equal =>
            obtain old | new := List.mem_append.mp member
            · obtain ⟨entry, read, title, pending⟩ := queued.waiting isbn ref old
              exact ⟨entry, Heap.read?_alloc_of_some _ read, title.trans equal, pending⟩
            · cases List.mem_singleton.mp new
              exact ⟨_, Heap.read?_alloc_next _ _, equal, rfl⟩
        · obtain ⟨entry, read, title, pending⟩ := queued.waiting other ref member
          exact ⟨entry, Heap.read?_alloc_of_some _ read, title, pending⟩
      · intro ref entry read
        simp only [Heap.read?_alloc] at read
        split at read
        · next new =>
            cases read
            exact .inl ⟨rfl, rfl, by simp [newEntry, new]⟩
        · obtain ⟨pending, unassigned, member⟩ | ready := queued.settled ref entry read
          · refine .inl ⟨pending, unassigned, ?_⟩
            rw [queue_set]
            split
            · next equal => exact List.mem_append_left _ (equal ▸ member)
            · exact member
          · exact .inr ready
      · intro other
        rw [queue_set]
        split
        · refine List.nodup_append.mpr ⟨queued.once isbn, List.nodup_singleton _, ?_⟩
          intro ref member last new same
          exact older isbn ref member (same.trans (List.mem_singleton.mp new))
        · exact queued.once other
      · intro other left leftMember right rightMember leftEntry rightEntry leftRead rightRead same
        simp only [queue_set] at leftMember rightMember
        simp only [Heap.read?_alloc] at leftRead rightRead
        split at leftMember
        · next equal =>
            rw [if_pos equal] at rightMember
            obtain leftOld | leftNew := List.mem_append.mp leftMember <;>
              obtain rightOld | rightNew := List.mem_append.mp rightMember
            · rw [if_neg (older isbn left leftOld)] at leftRead
              rw [if_neg (older isbn right rightOld)] at rightRead
              exact queued.users isbn left leftOld right rightOld _ _ leftRead rightRead same
            · rw [if_neg (older isbn left leftOld)] at leftRead
              rw [if_pos (List.mem_singleton.mp rightNew)] at rightRead
              cases rightRead
              exact absurd same (absent left leftOld leftEntry leftRead)
            · rw [if_pos (List.mem_singleton.mp leftNew)] at leftRead
              rw [if_neg (older isbn right rightOld)] at rightRead
              cases leftRead
              exact absurd same.symm (absent right rightOld rightEntry rightRead)
            · rw [List.mem_singleton.mp leftNew, List.mem_singleton.mp rightNew]
        · next different =>
            rw [if_neg different] at rightMember
            rw [if_neg (older other left leftMember)] at leftRead
            rw [if_neg (older other right rightMember)] at rightRead
            exact queued.users other left leftMember right rightMember _ _ leftRead rightRead same

theorem assigned (queued : manager.Queued)
    {result : Except Error (Option ReservationEntry) × ReservationManager}
    (assigns : Assigns manager isbn copyId result) : result.2.Queued := by
  cases assigns with
  | nobody => exact queued
  | @front ref rest entry ready result front read marked outcome =>
      have once := queued.once isbn
      rw [front, List.nodup_cons] at once
      have shorter : ∀ other, ∀ waiting ∈ (if isbn = other then rest else manager.queue other),
          waiting ∈ manager.queue other ∧ waiting ≠ ref := by
        intro other waiting member
        split at member
        · next equal =>
            subst other
            exact ⟨by simp [front, member], fun same => once.1 (same ▸ member)⟩
        · next different =>
            refine ⟨member, ?_⟩
            rintro rfl
            obtain ⟨held, heldRead, title, _⟩ := queued.waiting other waiting member
            obtain ⟨known, knownRead, knownTitle, _⟩ := queued.waiting isbn waiting (by simp [front])
            rw [heldRead, Option.some.injEq] at knownRead
            exact different (knownTitle.symm.trans (knownRead ▸ title))
      have unchanged : ∀ other, other ≠ ref →
          (manager.entries.write ref ready).read? other = manager.entries.read? other := by
        intro other different
        rw [Heap.read?_write, if_neg (Ne.symm different)]
      constructor
      · intro other waiting member
        simp only [queue_set] at member
        obtain ⟨old, different⟩ := shorter other waiting member
        obtain ⟨held, heldRead, title, pending⟩ := queued.waiting other waiting old
        exact ⟨held, (unchanged waiting different).trans heldRead, title, pending⟩
      · intro other held heldRead
        by_cases same : other = ref
        · subst other
          simp only [Heap.read?_write_self ready read, Option.some.injEq] at heldRead
          subst held
          rw [marked]
          exact .inr ⟨rfl, copyId, rfl⟩
        · simp only [unchanged other same] at heldRead
          obtain ⟨pending, unassigned, member⟩ | settled := queued.settled other held heldRead
          · refine .inl ⟨pending, unassigned, ?_⟩
            rw [queue_set]
            split
            · next equal =>
                rw [← equal, front] at member
                exact (List.mem_cons.mp member).resolve_left same
            · exact member
          · exact .inr settled
      · intro other
        rw [queue_set]
        split
        · exact once.2
        · exact queued.once other
      · intro other left leftMember right rightMember leftEntry rightEntry leftRead rightRead same
        simp only [queue_set] at leftMember rightMember
        obtain ⟨leftOld, leftOther⟩ := shorter other left leftMember
        obtain ⟨rightOld, rightOther⟩ := shorter other right rightMember
        simp only [unchanged left leftOther] at leftRead
        simp only [unchanged right rightOther] at rightRead
        exact queued.users other left leftOld right rightOld _ _ leftRead rightRead same

end Queued

end LibraFlow.Patterns.ReservationManager
