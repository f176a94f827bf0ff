import LibraFlow.Storage.OutboxLife

/-! What the relay protocol guarantees over whole runs: competing workers never
publish an event twice, and which runs can still deliver everything once the
broker is back. -/

set_option autoImplicit false

namespace LibraFlow.Storage.OutboxRelay

open LibraFlow.Core LibraFlow.Library Outbox

variable {π : Type}

/-- The in-memory system run step by step; an action that is not enabled fails. -/
def exec (system : System π) : Action π → Option (System π)
  | .save eventId topic payload now =>
      if eventId ∈ system.store.map OutboxEvent.eventId then none
      else some { system with store := saveEvent system.store eventId topic payload now }
  | .claim worker =>
      match (system.workers worker).batch with
      | [] => some { system with
          store := (fetchPending batchLimit system.store).2
          workers := Function.update system.workers worker
            ⟨(fetchPending batchLimit system.store).1, .ready⟩ }
      | _ :: _ => none
  | .publish worker accepted =>
      match system.workers worker with
      | ⟨event :: rest, .ready⟩ => some { system with
          workers := Function.update system.workers worker
            ⟨event :: rest, if accepted then .delivered else .raised⟩
          attempts := system.attempts ++ [⟨event.eventId, event.topic, event.payload, accepted⟩] }
      | _ => none
  | .markPublished worker now =>
      match system.workers worker with
      | ⟨event :: rest, .delivered⟩ => some { system with
          store := Outbox.markPublished event.eventId now system.store
          workers := Function.update system.workers worker ⟨rest, .ready⟩ }
      | _ => none
  | .markFailed worker =>
      match system.workers worker with
      | ⟨event :: rest, .raised⟩ => some { system with
          store := Outbox.markFailed event.eventId system.store
          workers := Function.update system.workers worker ⟨rest, .ready⟩ }
      | _ => none
  | .crash worker => some { system with
      workers := Function.update system.workers worker .idle }

theorem exec_step {before after : System π} {action : Action π}
    (ran : exec before action = some after) : Step .inMemory before action after := by
  cases action with
  | save eventId topic payload now =>
      simp only [exec] at ran
      split at ran
      · cases ran
      · next fresh =>
          cases ran
          exact .save fresh
  | claim worker =>
      simp only [exec] at ran
      split at ran
      · next free =>
          cases ran
          exact .claim free (.inMemory before.store)
      · cases ran
  | publish worker accepted =>
      simp only [exec] at ran
      split at ran
      · next current =>
          cases ran
          exact .publish current
      · cases ran
  | markPublished worker now =>
      simp only [exec] at ran
      split at ran
      · next current =>
          cases ran
          exact .markPublished current
      · cases ran
  | markFailed worker =>
      simp only [exec] at ran
      split at ran
      · next current =>
          cases ran
          exact .markFailed current
      · cases ran
  | crash worker =>
      cases ran
      exact .crash

def execAll (system : System π) : List (Action π) → Option (System π)
  | [] => some system
  | action :: rest => (exec system action).bind fun next => execAll next rest

private theorem execAll_run {system final : System π} {actions : List (Action π)}
    (ran : execAll system actions = some final) :
    ∃ trace, Run (Step .inMemory) system trace final ∧
      trace.map Transition.label = actions := by
  induction actions generalizing system with
  | nil =>
      cases ran
      exact ⟨[], .nil, rfl⟩
  | cons action rest ih =>
      obtain ⟨middle, first, later⟩ := Option.bind_eq_some_iff.mp ran
      obtain ⟨trace, run, labels⟩ := ih later
      exact ⟨_, run.cons (exec_step first), by rw [List.map_cons, labels]⟩

theorem run_valid {backend : Backend} {start final : System π}
    {trace : List (Transition (System π) (Action π))} (run : Run (Step backend) start trace final)
    (valid : Valid start) : Valid final :=
  run.invariant (fun _ _ => trivial) valid fun _ _ _ earlier taken (_ : True) => taken.valid earlier

section Competition

def Action.isCrash : Action π → Bool
  | .crash _ => true
  | _ => false

/-- No event has been abandoned by a worker that crashed. -/
structure Intact (system : System π) : Prop where
  valid : Valid system
  lives : ∀ eventId, ∃ life, Tracked system eventId life ∧ ∀ stage, life.place ≠ .abandoned stage

private theorem intact_empty : Intact (System.empty : System π) :=
  ⟨valid_empty, fun eventId => ⟨⟨.unknown, 0⟩, tracked_empty eventId, fun _ => nofun⟩⟩

theorem Step.intact {backend : Backend} {before after : System π} {action : Action π}
    (step : Step backend before action after) (alive : action.isCrash = false)
    (intact : Intact before) : Intact after := by
  refine ⟨step.valid intact.valid, ?_⟩
  intro eventId
  obtain ⟨life, tracked, kept⟩ := intact.lives eventId
  obtain ⟨later, next, trackedAfter⟩ := step.tracks intact.valid tracked
  refine ⟨later, trackedAfter, ?_⟩
  cases next with
  | stay => exact kept
  | abandoned => cases alive
  | saved | claimed | delivered | raised | published | retried | gaveUp =>
      intro stage place
      cases place

/-- How competing workers share the events of a store. -/
structure Exclusive (system : System π) (event : OutboxEvent π) : Prop where
  holder : ∀ left right, system.Holds left event.eventId → system.Holds right event.eventId →
    left = right
  inFlight : event.status = .inFlight ↔ ∃ worker, system.Holds worker event.eventId
  once : system.deliveries event.eventId ≤ 1
  published : event.status = .published → system.deliveries event.eventId = 1
  attempts : system.deliveries event.eventId + system.failures event.eventId ≤ 5

theorem Tracked.exclusive {system : System π} {event : OutboxEvent π} {life : Life}
    (tracked : Tracked system event.eventId life)
    (found : lookup event.eventId system.store = some event)
    (kept : ∀ stage, life.place ≠ .abandoned stage) : Exclusive system event := by
  obtain ⟨row, holder, _, deliveries, failures, bounded⟩ := tracked
  rw [found, Option.map_some] at row
  obtain ⟨place, retries⟩ := life
  refine ⟨?_, ?_, ?_, ?_, ?_⟩
  · intro left right leftHolds rightHolds
    have leftHolder := (holder left).mp leftHolds
    rw [(holder right).mp rightHolds, Option.some.injEq] at leftHolder
    exact leftHolder.symm
  · simp only [holder]
    cases place with
    | abandoned stage => exact absurd rfl (kept stage)
    | unknown => cases row
    | held _ _ | pending | published | failed =>
        simp only [Life.row, Option.some.injEq, Prod.mk.injEq] at row
        simp [Life.holder, row.1]
  · rw [deliveries]
    cases place with
    | held _ stage | abandoned stage => cases stage <;> simp [Life.deliveries]
    | unknown | pending | published | failed => simp [Life.deliveries]
  · intro published
    rw [deliveries]
    cases place <;> simp_all [Life.row, Life.deliveries]
  · rw [deliveries, failures]
    cases place with
    | held _ stage | abandoned stage =>
        have below : retries < 5 := bounded
        cases stage <;> simp only [Life.deliveries, Life.failures] <;> omega
    | unknown | pending | published =>
        simp only [Life.Bounded, maxAttempts] at bounded
        simp only [Life.deliveries, Life.failures]
        omega
    | failed =>
        simp only [Life.Bounded, maxAttempts] at bounded
        simp [Life.deliveries, Life.failures, bounded]

/-- An event is given up when its fifth failure has been recorded: until its
worker lets go of it, it is still in flight. -/
theorem Tracked.failed_iff {system : System π} {event : OutboxEvent π} {life : Life}
    (tracked : Tracked system event.eventId life)
    (found : lookup event.eventId system.store = some event)
    (kept : ∀ stage, life.place ≠ .abandoned stage) :
    event.status = .failed ↔ system.failures event.eventId = 5 ∧
      ∀ worker, ¬ system.Holds worker event.eventId := by
  obtain ⟨row, holder, _, _, failures, bounded⟩ := tracked
  rw [found, Option.map_some] at row
  obtain ⟨place, retries⟩ := life
  rw [failures]
  simp only [holder]
  cases place with
  | unknown => cases row
  | abandoned stage => exact absurd rfl (kept stage)
  | failed =>
      simp only [Life.row, Option.some.injEq, Prod.mk.injEq] at row
      have limit : retries = 5 := bounded
      simp [Life.failures, Life.holder, row.1, limit]
  | held worker stage =>
      simp only [Life.row, Option.some.injEq, Prod.mk.injEq] at row
      simp [Life.holder, row.1]
  | pending | published =>
      simp only [Life.row, Option.some.injEq, Prod.mk.injEq] at row
      have below : retries < 5 := bounded
      simp only [row.1, reduceCtorEq, Life.failures, false_iff, not_and]
      intro five
      omega

/-- In every run of competing workers without a crash, each event is with one
worker at most, is published once at most and is given up after five recorded
failures. -/
theorem run_exclusive {trace : List (Transition (System π) (Action π))} {final : System π}
    (run : Run (Step .inMemory) System.empty trace final)
    (alive : ∀ transition ∈ trace, transition.label.isCrash = false) :
    ∀ event ∈ final.store, Exclusive final event ∧
      (event.status = .failed ↔ final.failures event.eventId = 5 ∧
        ∀ worker, ¬ final.Holds worker event.eventId) := by
  have intact : Intact final := run.invariant alive intact_empty
    fun _ _ _ earlier taken permitted => taken.intact permitted earlier
  intro event member
  have found := lookup_of_mem intact.valid.distinct member
  obtain ⟨life, tracked, kept⟩ := intact.lives event.eventId
  exact ⟨tracked.exclusive found kept, tracked.failed_iff found kept⟩

private theorem labels_alive {trace : List (Transition (System π) (Action π))}
    {actions : List (Action π)} (labels : trace.map Transition.label = actions)
    (alive : ∀ action ∈ actions, action.isCrash = false) :
    ∀ transition ∈ trace, transition.label.isCrash = false := by
  intro transition member
  exact alive transition.label (labels ▸ List.mem_map_of_mem member)

/-- Save an event and let a worker fail to publish it. -/
def failingRounds : Nat → List (Action Unit)
  | 0 => [.save "E1" "copy.issued" () .min]
  | rounds + 1 => failingRounds rounds ++ [.claim 0, .publish 0 false, .markFailed 0]

theorem run_exclusive_five_failures :
    ∃ final, execAll System.empty (failingRounds 5) = some final ∧
      ∀ event ∈ final.store, Exclusive final event ∧
        (event.status = .failed ↔ final.failures event.eventId = 5 ∧
          ∀ worker, ¬ final.Holds worker event.eventId) := by
  obtain ⟨final, ran⟩ : ∃ final, execAll System.empty (failingRounds 5) = some final := ⟨_, rfl⟩
  obtain ⟨trace, run, labels⟩ := execAll_run ran
  exact ⟨final, ran, run_exclusive run (labels_alive labels (by decide))⟩

/-- Between the fifth failing publish and its mark an event has five failed
attempts and is not given up yet. -/
theorem five_failures_in_flight :
    ¬ ∀ (trace : List (Transition (System Unit) (Action Unit))) (final : System Unit),
      Run (Step .inMemory) System.empty trace final →
      (∀ transition ∈ trace, transition.label.isCrash = false) →
      ∀ event ∈ final.store, Exclusive final event ∧
        (event.status = .failed ↔ final.failures event.eventId = 5) := by
  intro always
  obtain ⟨final, ran⟩ : ∃ final, execAll System.empty
      (failingRounds 4 ++ [.claim 0, .publish 0 false]) = some final := ⟨_, rfl⟩
  obtain ⟨trace, run, labels⟩ := execAll_run ran
  have given := always trace final run (labels_alive labels (by decide))
  have state : final.store.map (fun event => (event.eventId, event.status)) =
      [("E1", .inFlight)] ∧ final.failures "E1" = 5 := by
    cases ran
    decide +kernel
  obtain ⟨event, member, shown⟩ := List.mem_map.mp
    (state.1 ▸ List.mem_singleton.mpr rfl :
      ("E1", OutboxStatus.inFlight) ∈ final.store.map fun event => (event.eventId, event.status))
  rw [Prod.mk.injEq] at shown
  have failed := (given event member).2.mpr (shown.1 ▸ state.2)
  rw [shown.2] at failed
  cases failed

end Competition

section Recovery

/-- What relays do once the broker accepts every message and nothing crashes. -/
def Action.isReliable : Action π → Bool
  | .claim _ | .publish _ true | .markPublished _ _ | .markFailed _ => true
  | .save _ _ _ _ | .publish _ false | .crash _ => false

def ReliableRun (backend : Backend) (start final : System π) : Prop :=
  ∃ trace, Run (Step backend) start trace final ∧
    ∀ transition ∈ trace, transition.label.isReliable = true

/-- Every worker has finished and a poll would find nothing. -/
structure Quiescent (system : System π) : Prop where
  free : ∀ worker, (system.workers worker).batch = []
  drained : ∀ event ∈ system.store, event.status ≠ .pending

def System.Delivered (system : System π) (event : OutboxEvent π) : Prop :=
  ∃ attempt ∈ system.attempts, attempt.eventId = event.eventId ∧ attempt.topic = event.topic ∧
    attempt.payload = event.payload ∧ attempt.accepted = true

/-- From here on, relays that keep polling a working broker come to rest, and when
they do every saved event has been delivered. -/
def Recovers (backend : Backend) (system : System π) : Prop :=
  ∀ later, ReliableRun backend system later →
    (∃ final, ReliableRun backend later final ∧ Quiescent final) ∧
    (Quiescent later → ∀ event ∈ later.store, later.Delivered event)

/-- The step loses no event: no worker crashes with an undelivered event in its
batch, and no publish fails for the fifth time. -/
def Careful (transition : Transition (System π) (Action π)) : Prop :=
  match transition.label with
  | .crash worker => ∀ event ∈ (transition.before.workers worker).batch,
      0 < transition.before.deliveries event.eventId
  | .publish worker false => ∀ event ∈ (transition.before.workers worker).batch.head?,
      event.retryCount + 1 < maxAttempts
  | _ => True

/-- No later step can deliver the event. -/
def Life.Lost (life : Life) : Prop :=
  match life.place with
  | .failed => True
  | .abandoned stage => stage ≠ .delivered
  | .held _ .raised => maxAttempts ≤ life.retries + 1
  | _ => False

theorem Life.Lost.next {action : Action π} {life later : Life} (lost : life.Lost)
    (next : Life.Next action life later) : later.Lost := by
  cases next with
  | stay => exact lost
  | saved | claimed | delivered | raised | published => cases lost
  | retried again => exact absurd lost (Nat.not_le_of_lt again)
  | gaveUp => trivial
  | @abandoned worker retries stage =>
      cases stage with
      | ready | delivered => cases lost
      | raised =>
          intro same
          cases same

theorem Life.Lost.undelivered {life : Life} (lost : life.Lost) : life.deliveries = 0 := by
  obtain ⟨place, retries⟩ := life
  cases place with
  | held worker stage => cases stage <;> simp_all [Life.Lost, Life.deliveries]
  | abandoned stage => cases stage <;> simp_all [Life.Lost, Life.deliveries]
  | unknown | pending | published | failed => simp_all [Life.Lost, Life.deliveries]

theorem Life.Lost.known {life : Life} (lost : life.Lost) : life.row ≠ none := by
  obtain ⟨place, retries⟩ := life
  cases place <;> simp_all [Life.Lost, Life.row]

theorem Valid.delivered_iff {system : System π} (valid : Valid system) {event : OutboxEvent π}
    (member : event ∈ system.store) :
    system.Delivered event ↔ 0 < system.deliveries event.eventId := by
  unfold System.deliveries System.count
  rw [List.countP_pos_iff]
  constructor
  · rintro ⟨attempt, made, identity, _, _, accepted⟩
    exact ⟨attempt, made, by simp [identity, accepted]⟩
  · rintro ⟨attempt, made, facts⟩
    obtain ⟨identity, accepted⟩ := of_decide_eq_true facts
    obtain ⟨stored, found, topic, payload⟩ := valid.messages attempt made
    rw [identity, lookup_of_mem valid.distinct member, Option.some.injEq] at found
    subst stored
    exact ⟨attempt, made, identity, topic.symm, payload.symm, accepted⟩

section Losses

variable {backend : Backend} {before after : System π} {action : Action π} {eventId : String}
  {life later : Life}

/-- A step that loses an event was not careful. -/
theorem not_careful_of_lost (step : Step backend before action after) (valid : Valid before)
    (tracked : Tracked before eventId life) (trackedAfter : Tracked after eventId later)
    (next : Life.Next action life later) (kept : ¬ life.Lost) (lost : later.Lost) :
    ¬ Careful ⟨before, action, after⟩ := by
  intro careful
  cases next with
  | stay => exact kept lost
  | saved | claimed | delivered | published | retried => cases lost
  | gaveUp last => exact kept last
  | @raised worker retries =>
      have facing := (trackedAfter.facing worker .raised (by simp)).mpr rfl
      cases step with
      | @publish _ event rest _ current =>
          rw [facing_update, if_pos rfl] at facing
          obtain ⟨_, _, ⟨⟩, same⟩ := facing
          have stored := valid.copies worker event (by rw [current]; simp)
          have row := tracked.row
          rw [← same, stored, Option.map_some] at row
          simp only [Life.row, Option.some.injEq, Prod.mk.injEq] at row
          have below : event.retryCount + 1 < maxAttempts :=
            careful event (by simp [current])
          have limit : maxAttempts ≤ retries + 1 := lost
          omega
  | @abandoned worker retries stage =>
      obtain ⟨event, inBatch, same⟩ := List.mem_map.mp ((tracked.holder worker).mpr rfl)
      have delivered : 0 < before.deliveries event.eventId := careful event inBatch
      rw [same, tracked.deliveries] at delivered
      cases stage with
      | delivered => exact lost rfl
      | ready | raised => cases delivered

/-- A step that is not careful loses an event. -/
theorem lost_of_not_careful (step : Step backend before action after) (valid : Valid before)
    (careless : ¬ Careful ⟨before, action, after⟩) :
    ∃ eventId, ∀ life later, Tracked before eventId life → Life.Next action life later →
      Tracked after eventId later → later.Lost := by
  cases step with
  | save | claim | markPublished | markFailed => exact absurd trivial careless
  | @publish worker event rest accepted current =>
      cases accepted with
      | true => exact absurd trivial careless
      | false =>
          have last : maxAttempts ≤ event.retryCount + 1 := by
            by_contra below
            refine careless ?_
            intro first isFirst
            rw [current] at isFirst
            cases isFirst
            exact Nat.lt_of_not_le below
          refine ⟨event.eventId, ?_⟩
          intro life later _ _ trackedAfter
          have place := (trackedAfter.facing worker .raised (by simp)).mp
            (by rw [facing_update, if_pos rfl]; exact ⟨event, rest, rfl, rfl⟩)
          have stored := valid.copies worker event (by rw [current]; simp)
          have row := trackedAfter.row
          rw [stored, Option.map_some] at row
          simp only [Life.row, place, Option.some.injEq, Prod.mk.injEq] at row
          unfold Life.Lost
          rw [place]
          exact row.2 ▸ last
  | @crash worker =>
      have abandoned : ∃ event ∈ (before.workers worker).batch,
          before.deliveries event.eventId = 0 := by
        by_contra none
        refine careless ?_
        intro event member
        exact Nat.pos_of_ne_zero fun zero => none ⟨event, member, zero⟩
      obtain ⟨event, member, undelivered⟩ := abandoned
      refine ⟨event.eventId, ?_⟩
      intro life later tracked next trackedAfter
      obtain ⟨stage, shape⟩ := Life.holder_eq_some
        ((tracked.holder worker).mp (List.mem_map_of_mem member))
      rw [shape] at tracked next
      rw [tracked.deliveries] at undelivered
      cases next with
      | stay =>
          have holds := (trackedAfter.holder worker).mpr rfl
          rw [holds_update, if_pos rfl] at holds
          cases holds
      | abandoned =>
          rintro rfl
          cases undelivered

end Losses

section Runs

variable {backend : Backend}

private theorem careful_of_reliable {transition : Transition (System π) (Action π)}
    (reliable : transition.label.isReliable = true) : Careful transition := by
  obtain ⟨before, action, after⟩ := transition
  cases action with
  | save | crash => cases reliable
  | claim | markPublished | markFailed => trivial
  | publish worker accepted =>
      cases accepted with
      | true => trivial
      | false => cases reliable

/-- Events are lost in a run exactly by the steps that are not careful, and stay lost. -/
theorem run_losses {start final : System π} {trace : List (Transition (System π) (Action π))}
    (run : Run (Step backend) start trace final) (valid : Valid start) {lives : String → Life}
    (tracked : ∀ eventId, Tracked start eventId (lives eventId)) :
    ∃ laters : String → Life, (∀ eventId, Tracked final eventId (laters eventId)) ∧
      ((∃ eventId, (laters eventId).Lost) ↔
        (∃ eventId, (lives eventId).Lost) ∨ ∃ transition ∈ trace, ¬ Careful transition) := by
  induction run with
  | nil => exact ⟨lives, tracked, by simp⟩
  | @snoc trace middle final action earlier taken ih =>
      obtain ⟨middles, trackedMiddle, losses⟩ := ih
      have validMiddle := run_valid earlier valid
      choose laters next trackedAfter using fun eventId =>
        taken.tracks validMiddle (trackedMiddle eventId)
      refine ⟨laters, trackedAfter, ?_⟩
      have stepLosses : (∃ eventId, (laters eventId).Lost) ↔
          (∃ eventId, (middles eventId).Lost) ∨ ¬ Careful ⟨middle, action, final⟩ := by
        constructor
        · rintro ⟨eventId, lost⟩
          by_cases earlierLost : (middles eventId).Lost
          · exact .inl ⟨eventId, earlierLost⟩
          · exact .inr (not_careful_of_lost taken validMiddle (trackedMiddle eventId)
              (trackedAfter eventId) (next eventId) earlierLost lost)
        · rintro (⟨eventId, lost⟩ | careless)
          · exact ⟨eventId, lost.next (next eventId)⟩
          · obtain ⟨eventId, loses⟩ := lost_of_not_careful taken validMiddle careless
            exact ⟨eventId, loses _ _ (trackedMiddle eventId) (next eventId)
              (trackedAfter eventId)⟩
      rw [stepLosses, losses, or_assoc]
      simp only [List.mem_append, List.mem_singleton, or_and_right, exists_or, exists_eq_left]

theorem ReliableRun.refl (system : System π) : ReliableRun backend system system :=
  ⟨[], .nil, by simp⟩

theorem ReliableRun.cons {system middle final : System π} {action : Action π}
    (taken : Step backend system action middle) (reliable : action.isReliable = true)
    (run : ReliableRun backend middle final) : ReliableRun backend system final := by
  obtain ⟨trace, steps, others⟩ := run
  refine ⟨_, steps.cons taken, ?_⟩
  intro transition member
  rcases List.mem_cons.mp member with rfl | later
  · exact reliable
  · exact others transition later

end Runs

section Progress

/-- Reliable steps an event still has to go through, at most. -/
def Life.weight (life : Life) : Nat :=
  match life.place with
  | .held _ .raised => 4
  | .pending => 3
  | .held _ .ready => 2
  | .held _ .delivered => 1
  | _ => 0

theorem Life.Next.weight {action : Action π} {life later : Life} (next : Life.Next action life later)
    (reliable : action.isReliable = true) :
    later.weight ≤ life.weight ∧ (later ≠ life → later.weight < life.weight) := by
  cases next with
  | stay => exact ⟨le_rfl, fun changed => absurd rfl changed⟩
  | saved | raised | abandoned => cases reliable
  | claimed | delivered | published | retried | gaveUp => simp [Life.weight]

private theorem exists_claims (backend : Backend) (store : List (OutboxEvent π))
    (distinct : (ids store).Nodup) : ∃ batch after, Claims backend store batch after := by
  cases backend with
  | inMemory => exact ⟨_, _, .inMemory store⟩
  | postgres =>
      have rows : (pendingEvents store).Nodup := distinct.of_map.filter _
      refine ⟨_, _, .postgres (rows.sublist (List.take_sublist batchLimit _)) ?_ ?_⟩
      · intro row member
        exact List.mem_of_mem_take member
      · exact List.length_take

theorem Step.ids_of_reliable {backend : Backend} {before after : System π} {action : Action π}
    (step : Step backend before action after) (valid : Valid before)
    (reliable : action.isReliable = true) : ids after.store = ids before.store := by
  cases step with
  | save | crash => cases reliable
  | claim free claims => exact (claims.claimed valid.distinct).sameIds
  | publish => rfl
  | markPublished => exact ids_markPublished
  | markFailed => exact ids_markFailed

/-- As long as there is work, some reliable step moves an event on. -/
theorem productive (backend : Backend) {system : System π} (valid : Valid system)
    (busy : ¬ Quiescent system) :
    ∃ action after, action.isReliable = true ∧ Step backend system action after ∧
      ∃ eventId ∈ ids system.store, ∀ life later, Tracked system eventId life →
        Tracked after eventId later → later ≠ life := by
  by_cases working : ∃ worker, (system.workers worker).batch ≠ []
  · obtain ⟨worker, loaded⟩ := working
    obtain ⟨event, rest, stage, current⟩ :
        ∃ event rest stage, system.workers worker = ⟨event :: rest, stage⟩ := by
      rcases state : system.workers worker with ⟨_ | ⟨event, rest⟩, stage⟩
      · exact absurd (by rw [state]) loaded
      · exact ⟨event, rest, stage, rfl⟩
    have stored := valid.copies worker event (by rw [current]; simp)
    have known : event.eventId ∈ ids system.store := List.mem_map_of_mem (lookup_some stored).1
    have batch := valid.batches worker
    rw [current, ids, List.map_cons, List.nodup_cons] at batch
    have released : ∀ store attempts life later, Tracked system event.eventId life →
        Tracked ⟨store, Function.update system.workers worker ⟨rest, .ready⟩, attempts⟩
          event.eventId later → later ≠ life := by
      rintro store attempts life later tracked trackedAfter rfl
      have holds := (trackedAfter.holder worker).mpr
        ((tracked.holder worker).mp ((holds_of_current current).mpr (.inl rfl)))
      rw [holds_update, if_pos rfl] at holds
      exact batch.1 holds
    cases stage with
    | ready =>
        refine ⟨.publish worker true, _, rfl, .publish current, event.eventId, known, ?_⟩
        rintro life later tracked trackedAfter rfl
        have place := (trackedAfter.facing worker .delivered (by simp)).mp
          (by rw [facing_update, if_pos rfl]; exact ⟨event, rest, rfl, rfl⟩)
        rw [tracked.current current] at place
        cases place
    | delivered =>
        exact ⟨.markPublished worker .min, _, rfl, .markPublished current, event.eventId, known,
          released _ _⟩
    | raised =>
        exact ⟨.markFailed worker, _, rfl, .markFailed current, event.eventId, known,
          released _ _⟩
  · have free : ∀ worker, (system.workers worker).batch = [] := by
      intro worker
      by_contra loaded
      exact working ⟨worker, loaded⟩
    obtain ⟨waiting, member, pending⟩ : ∃ event ∈ system.store, event.status = .pending := by
      by_contra none
      exact busy ⟨free, fun event member status => none ⟨event, member, status⟩⟩
    obtain ⟨batch, after, claims⟩ := exists_claims backend system.store valid.distinct
    have claimed := claims.claimed valid.distinct
    obtain ⟨event, inBatch⟩ : ∃ event, event ∈ batch := by
      apply List.exists_mem_of_ne_nil
      intro empty
      exact claimed.progress empty waiting member pending
    obtain ⟨row, stored, _, _⟩ := claimed.source event inBatch
    have known : event.eventId ∈ ids system.store :=
      (lookup_some stored).2 ▸ List.mem_map_of_mem (lookup_some stored).1
    refine ⟨.claim 0, _, rfl, .claim (free 0) claims, event.eventId, known, ?_⟩
    rintro life later tracked trackedAfter rfl
    have holds : system.Holds 0 event.eventId := (tracked.holder 0).mpr
      ((trackedAfter.holder 0).mp (by
        rw [holds_update, if_pos rfl]
        exact List.mem_map_of_mem inBatch))
    rw [System.Holds, free 0] at holds
    cases holds

/-- Relays over a working broker come to rest. -/
theorem reaches_quiescent (backend : Backend) (work : Nat) {system : System π}
    (valid : Valid system) {lives : String → Life}
    (tracked : ∀ eventId, Tracked system eventId (lives eventId))
    (left : ((ids system.store).map fun eventId => (lives eventId).weight).sum = work) :
    ∃ final, ReliableRun backend system final ∧ Quiescent final := by
  induction work using Nat.strong_induction_on generalizing system lives with
  | _ work ih =>
      by_cases quiet : Quiescent system
      · exact ⟨system, .refl system, quiet⟩
      · obtain ⟨action, middle, reliable, taken, moved, known, changes⟩ :=
          productive backend valid quiet
        choose laters next trackedAfter using fun eventId => taken.tracks valid (tracked eventId)
        have less : ((ids middle.store).map fun eventId => (laters eventId).weight).sum < work := by
          rw [taken.ids_of_reliable valid reliable, ← left]
          refine List.sum_lt_sum _ _ (fun eventId _ => ((next eventId).weight reliable).1) ?_
          exact ⟨moved, known, ((next moved).weight reliable).2
            (changes _ _ (tracked moved) (trackedAfter moved))⟩
        obtain ⟨final, run, rest⟩ := ih _ less (taken.valid valid) trackedAfter rfl
        exact ⟨final, run.cons taken reliable, rest⟩

end Progress

/-- The system can still deliver everything exactly when no event is lost. -/
theorem recovers_iff {backend : Backend} {system : System π} (valid : Valid system)
    {lives : String → Life} (tracked : ∀ eventId, Tracked system eventId (lives eventId)) :
    Recovers backend system ↔ ¬ ∃ eventId, (lives eventId).Lost := by
  constructor
  · rintro recovers ⟨eventId, lost⟩
    obtain ⟨⟨final, reachable, quiet⟩, _⟩ := recovers system (.refl system)
    have delivers := (recovers final reachable).2 quiet
    obtain ⟨trace, run, _⟩ := reachable
    obtain ⟨laters, trackedLater, losses⟩ := run_losses run valid tracked
    have validFinal := run_valid run valid
    obtain ⟨stillId, stillLost⟩ := losses.mpr (.inl ⟨eventId, lost⟩)
    have row := (trackedLater stillId).row
    cases found : lookup stillId final.store with
    | none =>
        rw [found] at row
        exact stillLost.known row.symm
    | some event =>
        obtain ⟨member, same⟩ := lookup_some found
        have delivered := (validFinal.delivered_iff member).mp (delivers event member)
        rw [same, (trackedLater stillId).deliveries, stillLost.undelivered] at delivered
        cases delivered
  · intro safe later reachable
    obtain ⟨trace, run, reliable⟩ := reachable
    obtain ⟨laters, trackedLater, losses⟩ := run_losses run valid tracked
    have validLater := run_valid run valid
    refine ⟨reaches_quiescent backend _ validLater trackedLater rfl, ?_⟩
    intro quiet event member
    rw [validLater.delivered_iff member, (trackedLater event.eventId).deliveries]
    have kept : ¬ (laters event.eventId).Lost := by
      intro lost
      rcases losses.mp ⟨event.eventId, lost⟩ with earlier | ⟨transition, taken, careless⟩
      · exact safe earlier
      · exact careless (careful_of_reliable (reliable transition taken))
    have row := (trackedLater event.eventId).row
    rw [lookup_of_mem validLater.distinct member, Option.map_some] at row
    have nobody : ∀ worker, (laters event.eventId).holder ≠ some worker := by
      intro worker held
      have holds := ((trackedLater event.eventId).holder worker).mpr held
      rw [System.Holds, quiet.free worker] at holds
      cases holds
    have drained := quiet.drained event member
    generalize laters event.eventId = life at kept row nobody
    obtain ⟨place, retries⟩ := life
    cases place with
    | unknown => cases row
    | pending =>
        simp only [Life.row, Option.some.injEq, Prod.mk.injEq] at row
        exact absurd row.1 drained
    | held worker stage => exact absurd rfl (nobody worker)
    | abandoned stage =>
        cases stage with
        | delivered => exact Nat.one_pos
        | ready | raised => exact absurd (by simp [Life.Lost]) kept
    | published => exact Nat.one_pos
    | failed => exact absurd trivial kept

theorem run_losses_empty {backend : Backend} {trace : List (Transition (System π) (Action π))}
    {final : System π} (run : Run (Step backend) System.empty trace final) :
    ∃ lives : String → Life, (∀ eventId, Tracked final eventId (lives eventId)) ∧
      ((∃ eventId, (lives eventId).Lost) ↔ ∃ transition ∈ trace, ¬ Careful transition) := by
  obtain ⟨lives, tracked, losses⟩ := run_losses run valid_empty tracked_empty
  refine ⟨lives, tracked, losses.trans (or_iff_right ?_)⟩
  rintro ⟨_, lost⟩
  cases lost

/-- A run leaves every event deliverable exactly when none of its steps loses one. -/
theorem run_recovers_iff_careful (backend : Backend)
    {trace : List (Transition (System π) (Action π))} {final : System π}
    (run : Run (Step backend) System.empty trace final) :
    Recovers backend final ↔ ∀ transition ∈ trace, Careful transition := by
  obtain ⟨lives, tracked, losses⟩ := run_losses_empty run
  rw [recovers_iff (run_valid run valid_empty) tracked, losses]
  push Not
  rfl

/-- A worker that crashes after its publish, before it marks the event. -/
def lateCrash : List (Action Unit) :=
  [.save "E1" "copy.issued" () .min, .claim 0, .publish 0 true, .crash 0]

theorem run_recovers_late_crash :
    ∃ trace final, Run (Step .inMemory) System.empty trace final ∧
      trace.map Transition.label = lateCrash ∧ Recovers .inMemory final := by
  have saved : Run (Step .inMemory) System.empty _ _ := Run.nil.snoc
    (.save List.not_mem_nil : Step .inMemory _ (.save "E1" "copy.issued" () .min) _)
  have claimed := saved.snoc (.claim rfl (.inMemory _) : Step _ _ (.claim 0) _)
  have published := claimed.snoc (.publish rfl : Step _ _ (.publish 0 true) _)
  have crashed := published.snoc (.crash : Step _ _ (.crash 0) _)
  refine ⟨_, _, crashed, rfl, (run_recovers_iff_careful .inMemory crashed).mpr ?_⟩
  intro transition member
  simp only [List.nil_append, List.cons_append, List.mem_cons, List.not_mem_nil, or_false] at member
  rcases member with rfl | rfl | rfl | rfl
  · trivial
  · trivial
  · trivial
  · intro event inBatch
    obtain rfl := List.mem_singleton.mp inBatch
    decide +kernel

/-- A worker that crashes right after its claim strands the event. -/
theorem early_crash_loses_event :
    ¬ ∀ (backend : Backend) (trace : List (Transition (System Unit) (Action Unit)))
      (final : System Unit), Run (Step backend) System.empty trace final →
        Recovers backend final := by
  intro always
  obtain ⟨final, ran⟩ : ∃ final, execAll System.empty
      [.save "E1" "copy.issued" () .min, .claim 0, .crash 0] = some final := ⟨_, rfl⟩
  obtain ⟨trace, run, _⟩ := execAll_run ran
  have recovers := always .inMemory trace final run
  have quiet : Quiescent final := by
    cases ran
    constructor
    · intro worker
      by_cases first : worker = 0 <;> simp [Function.update_apply, first, Worker.idle, System.empty]
    · decide +kernel
  have delivered := (recovers final (.refl final)).2 quiet
  cases ran
  obtain ⟨attempt, made, _⟩ := delivered _ (List.mem_singleton.mpr rfl)
  cases made

end Recovery

end LibraFlow.Storage.OutboxRelay
