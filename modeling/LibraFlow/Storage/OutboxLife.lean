import LibraFlow.Storage.OutboxProperties

/-! The life of a single event. Whatever the interleaving of the workers, each
event moves through a small automaton of its own: it waits, is held by one
worker, and ends published, given up or abandoned by a worker that crashed. -/

set_option autoImplicit false

namespace LibraFlow.Storage.OutboxRelay

open LibraFlow.Core LibraFlow.Library Outbox

variable {π : Type}

inductive Place where
  | unknown
  | pending
  | held (worker : Nat) (stage : Stage)
  | abandoned (stage : Stage)
  | published
  | failed
  deriving DecidableEq

/-- Where an event is, and how many failures have been recorded for it. -/
structure Life where
  place : Place
  retries : Nat
  deriving DecidableEq

namespace Life

/-- The status and retry count the store shows. -/
def row (life : Life) : Option (OutboxStatus × Nat) :=
  match life.place with
  | .unknown => none
  | .pending => some (.pending, life.retries)
  | .held _ _ | .abandoned _ => some (.inFlight, life.retries)
  | .published => some (.published, life.retries)
  | .failed => some (.failed, life.retries)

def holder (life : Life) : Option Nat :=
  match life.place with
  | .held worker _ => some worker
  | _ => none

def deliveries (life : Life) : Nat :=
  match life.place with
  | .held _ .delivered | .abandoned .delivered | .published => 1
  | _ => 0

def failures (life : Life) : Nat :=
  match life.place with
  | .held _ .raised | .abandoned .raised => life.retries + 1
  | _ => life.retries

/-- Failures stay below the limit until the event is given up. -/
def Bounded (life : Life) : Prop :=
  match life.place with
  | .unknown => life.retries = 0
  | .failed => life.retries = maxAttempts
  | _ => life.retries < maxAttempts

/-- What an action can do to one event. -/
inductive Next : Action π → Life → Life → Prop where
  | stay {action : Action π} {life : Life} : Next action life life
  | saved {eventId topic : String} {payload : π} {now : Datetime} {retries : Nat} :
      Next (.save eventId topic payload now) ⟨.unknown, retries⟩ ⟨.pending, retries⟩
  | claimed {worker retries : Nat} :
      Next (.claim worker) ⟨.pending, retries⟩ ⟨.held worker .ready, retries⟩
  | delivered {worker retries : Nat} :
      Next (.publish worker true) ⟨.held worker .ready, retries⟩ ⟨.held worker .delivered, retries⟩
  | raised {worker retries : Nat} :
      Next (.publish worker false) ⟨.held worker .ready, retries⟩ ⟨.held worker .raised, retries⟩
  | published {worker retries : Nat} {now : Datetime} :
      Next (.markPublished worker now) ⟨.held worker .delivered, retries⟩ ⟨.published, retries⟩
  | retried {worker retries : Nat} (again : retries + 1 < maxAttempts) :
      Next (.markFailed worker) ⟨.held worker .raised, retries⟩ ⟨.pending, retries + 1⟩
  | gaveUp {worker retries : Nat} (last : maxAttempts ≤ retries + 1) :
      Next (.markFailed worker) ⟨.held worker .raised, retries⟩ ⟨.failed, retries + 1⟩
  | abandoned {worker retries : Nat} {stage : Stage} :
      Next (.crash worker) ⟨.held worker stage, retries⟩ ⟨.abandoned stage, retries⟩

end Life

/-- The system shows the given life of an event. -/
structure Tracked (system : System π) (eventId : String) (life : Life) : Prop where
  row : (lookup eventId system.store).map (fun event => (event.status, event.retryCount)) = life.row
  holder : ∀ worker, system.Holds worker eventId ↔ life.holder = some worker
  facing : ∀ worker stage, stage ≠ .ready →
    (system.Facing worker stage eventId ↔ life.place = .held worker stage)
  deliveries : system.deliveries eventId = life.deliveries
  failures : system.failures eventId = life.failures
  bounded : life.Bounded

structure Valid (system : System π) : Prop where
  distinct : (ids system.store).Nodup
  batches : ∀ worker, (ids (system.workers worker).batch).Nodup
  copies : ∀ worker, ∀ event ∈ (system.workers worker).batch,
    lookup event.eventId system.store = some event
  messages : ∀ attempt ∈ system.attempts, ∃ event, lookup attempt.eventId system.store = some event ∧
    event.topic = attempt.topic ∧ event.payload = attempt.payload
  lives : ∀ eventId, ∃ life, Tracked system eventId life

theorem tracked_empty (eventId : String) :
    Tracked (System.empty : System π) eventId ⟨.unknown, 0⟩ := by
  refine ⟨rfl, ?_, ?_, rfl, rfl, rfl⟩
  · intro worker
    simp [System.Holds, System.empty, Worker.idle, Life.holder]
  · intro worker stage _
    simp [System.Facing, System.empty, Worker.idle]

theorem valid_empty : Valid (System.empty : System π) := by
  refine ⟨List.nodup_nil, ?_, ?_, ?_, fun eventId => ⟨_, tracked_empty eventId⟩⟩
  · intro worker
    exact List.nodup_nil
  · intro worker event member
    cases member
  · intro attempt member
    cases member

section Updates

variable {system : System π} {worker other : Nat} {replaced : Worker π} {eventId : String}
  {stage : Stage}

theorem holds_update {store : List (OutboxEvent π)} {attempts : List (Attempt π)} :
    System.Holds ⟨store, Function.update system.workers worker replaced, attempts⟩ other eventId ↔
      if other = worker then eventId ∈ ids replaced.batch else system.Holds other eventId := by
  simp only [System.Holds, Function.update_apply, ids]
  split <;> rfl

theorem facing_update {store : List (OutboxEvent π)} {attempts : List (Attempt π)} :
    System.Facing ⟨store, Function.update system.workers worker replaced, attempts⟩ other stage
        eventId ↔
      if other = worker then ∃ event rest, replaced = ⟨event :: rest, stage⟩ ∧
        event.eventId = eventId
      else system.Facing other stage eventId := by
  simp only [System.Facing, Function.update_apply]
  split <;> rfl

private theorem facing_of_current {event : OutboxEvent π} {rest : List (OutboxEvent π)}
    {reached : Stage} (current : system.workers worker = ⟨event :: rest, reached⟩) :
    system.Facing worker stage eventId ↔ stage = reached ∧ event.eventId = eventId := by
  unfold System.Facing
  rw [current]
  constructor
  · rintro ⟨_, _, ⟨⟩, same⟩
    exact ⟨rfl, same⟩
  · rintro ⟨rfl, same⟩
    exact ⟨event, rest, rfl, same⟩

theorem holds_of_current {event : OutboxEvent π} {rest : List (OutboxEvent π)}
    {reached : Stage} (current : system.workers worker = ⟨event :: rest, reached⟩) :
    system.Holds worker eventId ↔ eventId = event.eventId ∨ eventId ∈ ids rest := by
  simp [System.Holds, current, ids]

private theorem count_append {store : List (OutboxEvent π)} {workers : Nat → Worker π}
    {attempt : Attempt π} {accepted : Bool} :
    System.count ⟨store, workers, system.attempts ++ [attempt]⟩ eventId accepted =
      system.count eventId accepted +
        if attempt.eventId = eventId ∧ attempt.accepted = accepted then 1 else 0 := by
  simp [System.count]

end Updates

theorem Life.holder_eq_some {life : Life} {worker : Nat} (held : life.holder = some worker) :
    ∃ stage, life = ⟨.held worker stage, life.retries⟩ := by
  obtain ⟨place, retries⟩ := life
  cases place with
  | held holder stage =>
      cases held
      exact ⟨stage, rfl⟩
  | unknown | pending | abandoned | published | failed => cases held

/-- The event a worker faces is held by it, in the worker's stage. -/
theorem Tracked.current {system : System π} {worker : Nat} {event : OutboxEvent π}
    {rest : List (OutboxEvent π)} {reached : Stage} {life : Life}
    (tracked : Tracked system event.eventId life)
    (current : system.workers worker = ⟨event :: rest, reached⟩) :
    life = ⟨.held worker reached, life.retries⟩ := by
  have held := (tracked.holder worker).mp ((holds_of_current current).mpr (.inl rfl))
  obtain ⟨stage, shape⟩ := Life.holder_eq_some held
  have place : life.place = .held worker stage := by rw [shape]
  by_cases ready : stage = .ready
  · by_cases waiting : reached = .ready
    · rw [waiting, ← ready]
      exact shape
    · have facing := (tracked.facing worker reached waiting).mp
        ((facing_of_current current).mpr ⟨rfl, rfl⟩)
      rw [place] at facing
      cases facing
      exact shape
  · have facing := (tracked.facing worker stage ready).mpr place
    obtain ⟨same, _⟩ := (facing_of_current current).mp facing
    rw [← same]
    exact shape

section Tracking

variable {system : System π} {eventId : String} {life : Life} {worker : Nat}
  {event : OutboxEvent π} {rest : List (OutboxEvent π)}

theorem Life.row_eq_none (hidden : life.row = none) : life = ⟨.unknown, life.retries⟩ := by
  obtain ⟨place, retries⟩ := life
  cases place <;> simp_all [Life.row]

theorem Life.row_pending {retries : Nat} (shown : life.row = some (.pending, retries)) :
    life = ⟨.pending, retries⟩ := by
  obtain ⟨place, count⟩ := life
  cases place <;> simp_all [Life.row]

theorem Tracked.save (tracked : Tracked system eventId life) {savedId topic : String} {payload : π}
    {now : Datetime} (fresh : savedId ∉ ids system.store) :
    ∃ later, Life.Next (Action.save savedId topic payload now) life later ∧
      Tracked { system with store := saveEvent system.store savedId topic payload now } eventId
        later := by
  have shown : lookup eventId (saveEvent system.store savedId topic payload now) =
      if eventId = savedId then some (newEvent savedId topic payload now)
      else lookup eventId system.store := lookup_saveEvent fresh
  by_cases same : eventId = savedId
  · subst savedId
    have row := tracked.row
    rw [lookup_eq_none_iff.mpr fresh] at row
    have shape := Life.row_eq_none row.symm
    have bounded := tracked.bounded
    rw [shape] at tracked bounded
    have none : life.retries = 0 := bounded
    refine ⟨⟨.pending, life.retries⟩, shape ▸ .saved, ?_, tracked.holder, ?_, tracked.deliveries,
      tracked.failures, ?_⟩
    · rw [shown, if_pos rfl, none]
      rfl
    · intro worker stage notReady
      change system.Facing worker stage eventId ↔ _
      rw [tracked.facing worker stage notReady]
      simp
    · rw [none]
      exact Nat.zero_lt_succ 4
  · refine ⟨life, .stay, ?_, tracked.holder, tracked.facing, tracked.deliveries, tracked.failures,
      tracked.bounded⟩
    rw [shown, if_neg same]
    exact tracked.row

theorem Tracked.claim (tracked : Tracked system eventId life) {batch after : List (OutboxEvent π)}
    (free : (system.workers worker).batch = []) (claimed : Claimed system.store batch after) :
    ∃ later, Life.Next (Action.claim worker : Action π) life later ∧
      Tracked ⟨after, Function.update system.workers worker ⟨batch, .ready⟩, system.attempts⟩
        eventId later := by
  have notFacing : ∀ other stage, stage ≠ .ready →
      (System.Facing ⟨after, Function.update system.workers worker ⟨batch, .ready⟩,
        system.attempts⟩ other stage eventId ↔ other ≠ worker ∧
        system.Facing other stage eventId) := by
    intro other stage notReady
    rw [facing_update]
    split
    · next same =>
        simp only [same, ne_eq, not_true_eq_false, false_and, iff_false]
        rintro ⟨_, _, ⟨⟩, _⟩
        exact notReady rfl
    · next different => simp [different]
  by_cases taken : eventId ∈ ids batch
  · obtain ⟨event, inBatch, same⟩ := List.mem_map.mp taken
    obtain ⟨found, present, pending, _⟩ := claimed.source event inBatch
    rw [same] at present
    have row := tracked.row
    rw [present, Option.map_some, pending] at row
    have shape := Life.row_pending row.symm
    subst shape
    refine ⟨⟨.held worker .ready, found.retryCount⟩, .claimed, ?_, ?_, ?_, tracked.deliveries,
      tracked.failures, tracked.bounded⟩
    · rw [claimed.changed, present]
      simp [taken, claimEvent, Life.row]
    · intro other
      rw [holds_update]
      split
      · next equal => simp [taken, equal, Life.holder]
      · next different =>
          rw [tracked.holder]
          simp [Life.holder, Ne.symm different]
    · intro other stage notReady
      rw [notFacing other stage notReady, tracked.facing other stage notReady]
      simp [Ne.symm notReady]
  · refine ⟨life, .stay, ?_, ?_, ?_, tracked.deliveries, tracked.failures, tracked.bounded⟩
    · rw [claimed.changed]
      simpa [taken] using tracked.row
    · intro other
      rw [holds_update]
      split
      · next same =>
          subst other
          rw [← tracked.holder]
          simp [taken, System.Holds, free]
      · exact tracked.holder other
    · intro other stage notReady
      rw [notFacing other stage notReady, ← tracked.facing other stage notReady]
      refine and_iff_right_of_imp ?_
      rintro ⟨event, rest, current, _⟩ same
      rw [same] at current
      rw [current] at free
      cases free

theorem Tracked.publish (tracked : Tracked system eventId life) {accepted : Bool}
    (current : system.workers worker = ⟨event :: rest, .ready⟩) :
    ∃ later, Life.Next (Action.publish worker accepted : Action π) life later ∧
      Tracked ⟨system.store, Function.update system.workers worker
          ⟨event :: rest, if accepted then .delivered else .raised⟩,
        system.attempts ++ [⟨event.eventId, event.topic, event.payload, accepted⟩]⟩
        eventId later := by
  have holder : ∀ other, System.Holds ⟨system.store, Function.update system.workers worker
      ⟨event :: rest, if accepted then .delivered else .raised⟩,
      system.attempts ++ [⟨event.eventId, event.topic, event.payload, accepted⟩]⟩ other eventId ↔
      system.Holds other eventId := by
    intro other
    rw [holds_update]
    split
    · next same =>
        subst other
        simp [System.Holds, current, ids]
    · rfl
  by_cases same : event.eventId = eventId
  · subst eventId
    have shape := tracked.current current
    rw [shape] at tracked
    refine ⟨⟨.held worker (if accepted then .delivered else .raised), life.retries⟩, ?_,
      tracked.row, ?_, ?_, ?_, ?_, tracked.bounded⟩
    · rw [shape]
      cases accepted
      · exact .raised
      · exact .delivered
    · intro other
      rw [holder, tracked.holder]
      rfl
    · intro other stage notReady
      rw [facing_update]
      split
      · next equal =>
          subst other
          constructor
          · rintro ⟨_, _, ⟨⟩, _⟩
            rfl
          · intro place
            cases place
            exact ⟨event, rest, rfl, rfl⟩
      · next different =>
          rw [tracked.facing other stage notReady]
          simp [Ne.symm different]
    · have before := tracked.deliveries
      unfold System.deliveries at before ⊢
      rw [count_append, before]
      cases accepted <;> simp [Life.deliveries]
    · have before := tracked.failures
      unfold System.failures at before ⊢
      rw [count_append, before]
      cases accepted <;> simp [Life.failures]
  · refine ⟨life, .stay, tracked.row, ?_, ?_, ?_, ?_, tracked.bounded⟩
    · intro other
      rw [holder]
      exact tracked.holder other
    · intro other stage notReady
      rw [facing_update, ← tracked.facing other stage notReady]
      split
      · next equal =>
          rw [equal, facing_of_current current]
          constructor
          · rintro ⟨_, _, ⟨⟩, matched⟩
            exact absurd matched same
          · exact fun facing => absurd facing.2 same
      · rfl
    · unfold System.deliveries
      rw [count_append, if_neg (fun facts => same facts.1)]
      exact tracked.deliveries
    · unfold System.failures
      rw [count_append, if_neg (fun facts => same facts.1)]
      exact tracked.failures

/-- After marking its first event a worker goes on with the rest of its batch. -/
theorem Tracked.advance (tracked : Tracked system eventId life) {reached : Stage}
    {store : List (OutboxEvent π)} (other : eventId ≠ event.eventId)
    (current : system.workers worker = ⟨event :: rest, reached⟩)
    (unchanged : lookup eventId store = lookup eventId system.store) :
    Tracked ⟨store, Function.update system.workers worker ⟨rest, .ready⟩, system.attempts⟩ eventId
      life := by
  refine ⟨?_, ?_, ?_, tracked.deliveries, tracked.failures, tracked.bounded⟩
  · rw [unchanged]
    exact tracked.row
  · intro holder
    rw [holds_update, ← tracked.holder]
    split
    · next same =>
        rw [same, holds_of_current current]
        simp [other]
    · rfl
  · intro holder stage notReady
    rw [facing_update, ← tracked.facing holder stage notReady]
    split
    · next same =>
        rw [same, facing_of_current current]
        constructor
        · rintro ⟨_, _, ⟨⟩, _⟩
          exact absurd rfl notReady
        · exact fun facing => absurd facing.2.symm other
    · rfl

/-- The event that was marked is held by nobody. -/
theorem Tracked.release (tracked : Tracked system event.eventId life) {reached : Stage}
    {store : List (OutboxEvent π)} {attempts : List (Attempt π)} {later : Life}
    (current : system.workers worker = ⟨event :: rest, reached⟩)
    (distinct : event.eventId ∉ ids rest) (free : later.holder = none) :
    (∀ other, System.Holds ⟨store, Function.update system.workers worker ⟨rest, .ready⟩, attempts⟩
      other event.eventId ↔ later.holder = some other) ∧
    ∀ other stage, stage ≠ .ready → (System.Facing ⟨store, Function.update system.workers worker
      ⟨rest, .ready⟩, attempts⟩ other stage event.eventId ↔ later.place = .held other stage) := by
  have shape := tracked.current current
  rw [shape] at tracked
  constructor
  · intro other
    rw [holds_update, free]
    split
    · simp [distinct]
    · next different =>
        rw [tracked.holder]
        simp [Life.holder, Ne.symm different]
  · intro other stage notReady
    have notHeld : later.place ≠ .held other stage := by
      intro place
      simp [Life.holder, place] at free
    rw [facing_update]
    split
    · simp only [notHeld, iff_false]
      rintro ⟨_, _, ⟨⟩, _⟩
      exact notReady rfl
    · next different =>
        rw [tracked.facing other stage notReady]
        simp [notHeld, Ne.symm different]

theorem Tracked.markPublished (tracked : Tracked system eventId life) {now : Datetime}
    (current : system.workers worker = ⟨event :: rest, .delivered⟩)
    (distinct : event.eventId ∉ ids rest) :
    ∃ later, Life.Next (Action.markPublished worker now : Action π) life later ∧
      Tracked ⟨Outbox.markPublished event.eventId now system.store,
        Function.update system.workers worker ⟨rest, .ready⟩, system.attempts⟩ eventId later := by
  by_cases same : eventId = event.eventId
  · subst eventId
    have shape := tracked.current current
    obtain ⟨holder, facing⟩ := tracked.release current distinct
      (rfl : Life.holder ⟨.published, life.retries⟩ = none)
    rw [shape] at tracked
    refine ⟨⟨.published, life.retries⟩, shape ▸ .published, ?_, holder, facing,
      tracked.deliveries, tracked.failures, tracked.bounded⟩
    have row := tracked.row
    simp only [Life.row, Option.map_eq_some_iff, Prod.mk.injEq] at row
    obtain ⟨stored, found, _, retries⟩ := row
    rw [lookup_markPublished, if_pos rfl, found]
    simp [Outbox.publish, Life.row, retries]
  · exact ⟨life, .stay, tracked.advance same current (by rw [lookup_markPublished, if_neg same])⟩

theorem Tracked.markFailed (tracked : Tracked system eventId life)
    (current : system.workers worker = ⟨event :: rest, .raised⟩)
    (distinct : event.eventId ∉ ids rest) :
    ∃ later, Life.Next (Action.markFailed worker : Action π) life later ∧
      Tracked ⟨Outbox.markFailed event.eventId system.store,
        Function.update system.workers worker ⟨rest, .ready⟩, system.attempts⟩ eventId later := by
  by_cases same : eventId = event.eventId
  · subst eventId
    have shape := tracked.current current
    have below : life.retries < maxAttempts := by
      have bounded := tracked.bounded
      rw [shape] at bounded
      exact bounded
    have row := tracked.row
    rw [shape] at row
    simp only [Life.row, Option.map_eq_some_iff, Prod.mk.injEq] at row
    obtain ⟨stored, found, _, retries⟩ := row
    by_cases last : maxAttempts ≤ life.retries + 1
    · obtain ⟨holder, facing⟩ := tracked.release current distinct
        (rfl : Life.holder ⟨.failed, life.retries + 1⟩ = none)
      rw [shape] at tracked
      refine ⟨⟨.failed, life.retries + 1⟩, shape ▸ .gaveUp last, ?_, holder, facing,
        tracked.deliveries, tracked.failures, Nat.le_antisymm below last⟩
      rw [lookup_markFailed, if_pos rfl, found]
      simp [Outbox.fail, Life.row, retries, last]
    · obtain ⟨holder, facing⟩ := tracked.release current distinct
        (rfl : Life.holder ⟨.pending, life.retries + 1⟩ = none)
      rw [shape] at tracked
      refine ⟨⟨.pending, life.retries + 1⟩, shape ▸ .retried (Nat.lt_of_not_le last), ?_, holder,
        facing, tracked.deliveries, tracked.failures, Nat.lt_of_not_le last⟩
      rw [lookup_markFailed, if_pos rfl, found]
      simp [Outbox.fail, Life.row, retries, last]
  · exact ⟨life, .stay, tracked.advance same current (by rw [lookup_markFailed, if_neg same])⟩

theorem Tracked.crash (tracked : Tracked system eventId life) :
    ∃ later, Life.Next (Action.crash worker : Action π) life later ∧
      Tracked ⟨system.store, Function.update system.workers worker .idle, system.attempts⟩ eventId
        later := by
  by_cases holds : system.Holds worker eventId
  · obtain ⟨stage, shape⟩ := Life.holder_eq_some ((tracked.holder worker).mp holds)
    rw [shape] at tracked
    refine ⟨⟨.abandoned stage, life.retries⟩, shape ▸ .abandoned, tracked.row, ?_, ?_, ?_, ?_,
      tracked.bounded⟩
    · intro other
      rw [holds_update]
      split
      · simp [Worker.idle, ids, Life.holder]
      · next different =>
          rw [tracked.holder]
          simp [Life.holder, Ne.symm different]
    · intro other reached notReady
      rw [facing_update]
      split
      · simp [Worker.idle]
      · next different =>
          rw [tracked.facing other reached notReady]
          simp [Ne.symm different]
    · exact tracked.deliveries.trans (by cases stage <;> rfl)
    · exact tracked.failures.trans (by cases stage <;> rfl)
  · have elsewhere : ∀ stage, life.place ≠ .held worker stage := by
      intro stage place
      exact holds ((tracked.holder worker).mpr (by simp [Life.holder, place]))
    refine ⟨life, .stay, tracked.row, ?_, ?_, tracked.deliveries, tracked.failures,
      tracked.bounded⟩
    · intro other
      rw [holds_update, ← tracked.holder]
      split
      · next same => simp [same, holds, Worker.idle, ids]
      · rfl
    · intro other stage notReady
      rw [facing_update]
      split
      · next same => simp [same, elsewhere, Worker.idle]
      · exact tracked.facing other stage notReady

end Tracking

/-- Every step moves every event along its life. -/
theorem Step.tracks {backend : Backend} {before after : System π} {action : Action π}
    (step : Step backend before action after) (valid : Valid before) {eventId : String} {life : Life}
    (tracked : Tracked before eventId life) :
    ∃ later, Life.Next action life later ∧ Tracked after eventId later := by
  cases step with
  | save fresh => exact tracked.save fresh
  | claim free claims => exact tracked.claim free (claims.claimed valid.distinct)
  | publish current => exact tracked.publish current
  | @markPublished worker event rest now current =>
      have batch := valid.batches worker
      rw [current, ids, List.map_cons, List.nodup_cons] at batch
      exact tracked.markPublished current batch.1
  | @markFailed worker event rest current =>
      have batch := valid.batches worker
      rw [current, ids, List.map_cons, List.nodup_cons] at batch
      exact tracked.markFailed current batch.1
  | crash => exact tracked.crash

theorem Valid.holder_unique {system : System π} (valid : Valid system) {left right : Nat}
    {eventId : String} (leftHolds : system.Holds left eventId)
    (rightHolds : system.Holds right eventId) : left = right := by
  obtain ⟨life, tracked⟩ := valid.lives eventId
  have leftHolder := (tracked.holder left).mp leftHolds
  have rightHolder := (tracked.holder right).mp rightHolds
  rw [leftHolder, Option.some.injEq] at rightHolder
  exact rightHolder

theorem Valid.not_pending {system : System π} (valid : Valid system) {worker : Nat}
    {eventId : String} (holds : system.Holds worker eventId) {row : OutboxEvent π}
    (found : lookup eventId system.store = some row) : row.status ≠ .pending := by
  intro pending
  obtain ⟨life, tracked⟩ := valid.lives eventId
  obtain ⟨stage, shape⟩ := Life.holder_eq_some ((tracked.holder worker).mp holds)
  have shown := tracked.row
  rw [found, shape, Option.map_some, pending] at shown
  cases shown

/-- Marking the first event of a batch keeps the other copies up to date. -/
theorem Valid.copies_mark {system : System π} (valid : Valid system) {worker : Nat}
    {event : OutboxEvent π} {rest : List (OutboxEvent π)} {stage : Stage}
    {store : List (OutboxEvent π)}
    (current : system.workers worker = ⟨event :: rest, stage⟩)
    (unchanged : ∀ eventId, eventId ≠ event.eventId →
      lookup eventId store = lookup eventId system.store) :
    ∀ other, ∀ copy ∈ (Function.update system.workers worker ⟨rest, .ready⟩ other).batch,
      lookup copy.eventId store = some copy := by
  intro other copy member
  have batch := valid.batches worker
  rw [current, ids, List.map_cons, List.nodup_cons] at batch
  rw [Function.update_apply] at member
  split at member
  · have different : copy.eventId ≠ event.eventId := by
      intro same
      exact batch.1 (same ▸ List.mem_map_of_mem member)
    rw [unchanged copy.eventId different]
    exact valid.copies worker copy (by rw [current]; exact List.mem_cons_of_mem _ member)
  · next distinct =>
      have different : copy.eventId ≠ event.eventId := by
        intro same
        have left : system.Holds other copy.eventId := List.mem_map_of_mem member
        have right : system.Holds worker copy.eventId := (holds_of_current current).mpr (.inl same)
        exact distinct (valid.holder_unique left right)
      rw [unchanged copy.eventId different]
      exact valid.copies other copy member

theorem Valid.batches_update {system : System π} (valid : Valid system) {worker : Nat}
    {replaced : Worker π} (distinct : (ids replaced.batch).Nodup) (other : Nat) :
    (ids (Function.update system.workers worker replaced other).batch).Nodup := by
  rw [Function.update_apply]
  split
  · exact distinct
  · exact valid.batches other

/-- A store that keeps the topics and payloads keeps the published messages in order. -/
theorem Valid.messages_of {system : System π} (valid : Valid system)
    {store : List (OutboxEvent π)}
    (kept : ∀ eventId event, lookup eventId system.store = some event →
      ∃ later, lookup eventId store = some later ∧ later.topic = event.topic ∧
        later.payload = event.payload) :
    ∀ attempt ∈ system.attempts, ∃ event, lookup attempt.eventId store = some event ∧
      event.topic = attempt.topic ∧ event.payload = attempt.payload := by
  intro attempt member
  obtain ⟨event, found, topic, payload⟩ := valid.messages attempt member
  obtain ⟨later, present, sameTopic, samePayload⟩ := kept attempt.eventId event found
  exact ⟨later, present, sameTopic.trans topic, samePayload.trans payload⟩

theorem Step.valid {backend : Backend} {before after : System π} {action : Action π}
    (step : Step backend before action after) (valid : Valid before) : Valid after := by
  have lives : ∀ eventId, ∃ life, Tracked after eventId life := by
    intro eventId
    obtain ⟨life, tracked⟩ := valid.lives eventId
    obtain ⟨later, _, next⟩ := step.tracks valid tracked
    exact ⟨later, next⟩
  cases step with
  | @save eventId topic payload now fresh =>
      refine ⟨?_, valid.batches, ?_, valid.messages_of ?_, lives⟩
      · simp only [ids, saveEvent, List.map_append]
        exact List.nodup_append.mpr ⟨valid.distinct, List.nodup_singleton _, by
          intro left leftMember right rightMember same
          rw [List.map_singleton, List.mem_singleton] at rightMember
          rw [same, rightMember] at leftMember
          exact fresh leftMember⟩
      · intro worker copy member
        have found := valid.copies worker copy member
        have different : copy.eventId ≠ eventId := by
          rintro rfl
          rw [lookup_eq_none_iff.mpr fresh] at found
          cases found
        rw [lookup_saveEvent fresh, if_neg different]
        exact found
      · intro other event found
        have different : other ≠ eventId := by
          rintro rfl
          rw [lookup_eq_none_iff.mpr fresh] at found
          cases found
        exact ⟨event, by rw [lookup_saveEvent fresh, if_neg different, found], rfl, rfl⟩
  | @claim worker batch after free claims =>
      have claimed := claims.claimed valid.distinct
      have kept : ∀ eventId event, lookup eventId before.store = some event →
          ∃ later, lookup eventId after = some later ∧ later.topic = event.topic ∧
            later.payload = event.payload := by
        intro eventId event found
        rw [claimed.changed, found, Option.map_some]
        exact ⟨_, rfl, by split <;> exact ⟨rfl, rfl⟩⟩
      refine ⟨claimed.sameIds ▸ valid.distinct, valid.batches_update claimed.distinct, ?_,
        valid.messages_of kept, lives⟩
      intro other copy member
      simp only [Function.update_apply] at member
      split at member
      · obtain ⟨row, found, _, same⟩ := claimed.source copy member
        have taken : copy.eventId ∈ ids batch := List.mem_map_of_mem member
        rw [claimed.changed, found, Option.map_some, if_pos taken, same]
      · have found := valid.copies other copy member
        have untaken : copy.eventId ∉ ids batch := by
          intro taken
          obtain ⟨event, inBatch, same⟩ := List.mem_map.mp taken
          obtain ⟨row, present, pending, _⟩ := claimed.source event inBatch
          rw [same] at present
          exact valid.not_pending (List.mem_map_of_mem member) present pending
        rw [claimed.changed, found, Option.map_some, if_neg untaken]
  | @publish worker event rest accepted current =>
      have batch := valid.batches worker
      rw [current] at batch
      refine ⟨valid.distinct, valid.batches_update batch, ?_, ?_, lives⟩
      · intro other copy member
        simp only [Function.update_apply] at member
        split at member
        · exact valid.copies worker copy (by rw [current]; exact member)
        · exact valid.copies other copy member
      · intro attempt member
        rcases List.mem_append.mp member with earlier | last
        · exact valid.messages attempt earlier
        · rw [List.mem_singleton] at last
          subst attempt
          exact ⟨event, valid.copies worker event (by rw [current]; simp), rfl, rfl⟩
  | @markPublished worker event rest now current =>
      have batch := valid.batches worker
      rw [current, ids, List.map_cons, List.nodup_cons] at batch
      refine ⟨?_, valid.batches_update batch.2, valid.copies_mark current ?_,
        valid.messages_of ?_, lives⟩
      · simpa only [ids_markPublished] using valid.distinct
      · intro eventId different
        rw [lookup_markPublished, if_neg different]
      · intro eventId row found
        rw [lookup_markPublished, found]
        split
        · exact ⟨_, rfl, rfl, rfl⟩
        · exact ⟨row, rfl, rfl, rfl⟩
  | @markFailed worker event rest current =>
      have batch := valid.batches worker
      rw [current, ids, List.map_cons, List.nodup_cons] at batch
      refine ⟨?_, valid.batches_update batch.2, valid.copies_mark current ?_,
        valid.messages_of ?_, lives⟩
      · simpa only [ids_markFailed] using valid.distinct
      · intro eventId different
        rw [lookup_markFailed, if_neg different]
      · intro eventId row found
        rw [lookup_markFailed, found]
        split
        · exact ⟨_, rfl, rfl, rfl⟩
        · exact ⟨row, rfl, rfl, rfl⟩
  | @crash worker =>
      refine ⟨valid.distinct, valid.batches_update List.nodup_nil, ?_, valid.messages, lives⟩
      intro other copy member
      simp only [Function.update_apply] at member
      split at member
      · cases member
      · exact valid.copies other copy member


end LibraFlow.Storage.OutboxRelay
