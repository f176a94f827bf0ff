import LibraFlow.Distributed.Consumption
import LibraFlow.Storage.OutboxDelivery

/-! Events from the outbox to the handlers. Relay workers append the claimed events to the
streams of Redis and the consumer hands the messages to the handlers; the commands of both
may fail, after they reached Redis or before. Workers and consumer may crash between any
two steps. -/

set_option autoImplicit false

namespace LibraFlow.Distributed

open LibraFlow.Library LibraFlow.Storage LibraFlow.Storage.Outbox LibraFlow.Storage.OutboxRelay

variable {η π : Type}

/-- A codec with `json.dumps`, whose texts are not empty and are read back. -/
structure JsonCodec (π : Type) extends PayloadCodec π where
  dumps : π → List UInt8
  decode_dumps : ∀ payload, toPayloadCodec.decode (some (dumps payload)) = some payload

/-- Outbox, workers and bus, with the publish attempts that reached their stream. -/
structure Pipeline (η π : Type) where
  outbox : System π
  bus : EventBus η π
  sent : List (Attempt π)

namespace Pipeline

def empty : Pipeline η π := ⟨.empty, .empty, []⟩

/-- The attempts that reached the stream of the topic, in the order of its messages. -/
def sentTo (pipeline : Pipeline η π) (topic : String) : List (Attempt π) :=
  pipeline.sent.filter fun attempt => attempt.topic = topic

/-- The attempts whose messages the handler was called with, in the order of its calls. -/
def announced [DecidableEq η] (pipeline : Pipeline η π) (topic : String) (handler : η) :
    List (Attempt π) :=
  (pipeline.bus.calls topic handler).filterMap fun call => (pipeline.sentTo topic)[call.msgId]?

/-- Relays and consumer have nothing left to do for the topic. -/
structure AtRest (pipeline : Pipeline η π) (topic : String) : Prop where
  quiescent : Quiescent pipeline.outbox
  handedOut : (pipeline.bus.streams topic).delivered = (pipeline.bus.streams topic).entries.length
  between : pipeline.bus.consumer.messages = []

end Pipeline

/-- What happens next: a worker publishes an event, which reaches the stream or not,
another step of the outbox is taken, or one of the bus, or a command of the consumer
raises. -/
inductive PipelineAction (η π : Type) where
  | publish (worker : Nat) (accepted reached : Bool)
  | outbox (action : Action π)
  | bus (action : BusAction η)
  | interrupt (reached : Bool)

namespace PipelineAction

def outbox? : PipelineAction η π → Option (Action π)
  | .publish worker accepted _ => some (.publish worker accepted)
  | .outbox action => some action
  | .bus _ | .interrupt _ => none

/-- A publish whose message reached the stream is not reported as failed. -/
def Replied : PipelineAction η π → Prop
  | .publish _ accepted reached => accepted = reached
  | _ => True

end PipelineAction

/-- One step. `XADD` returns only after the message is in the stream. -/
inductive PipelineStep (backend : Backend) (codec : JsonCodec π) :
    Pipeline η π → PipelineAction η π → Pipeline η π → Prop where
  | publish {pipeline : Pipeline η π} {worker : Nat} {accepted reached : Bool}
      {event : OutboxEvent π} {rest : List (OutboxEvent π)} {after : System π}
      (current : pipeline.outbox.workers worker = ⟨event :: rest, .ready⟩)
      (taken : OutboxRelay.Step backend pipeline.outbox (.publish worker accepted) after)
      (appended : accepted = true → reached = true) :
      PipelineStep backend codec pipeline (.publish worker accepted reached)
        (if reached then
          ⟨after, pipeline.bus.publish event.topic (some (codec.dumps event.payload)),
            pipeline.sent ++ [⟨event.eventId, event.topic, event.payload, accepted⟩]⟩
        else ⟨after, pipeline.bus, pipeline.sent⟩)
  | outbox {pipeline : Pipeline η π} {action : Action π} {after : System π}
      (silent : ∀ worker accepted, action ≠ .publish worker accepted)
      (taken : OutboxRelay.Step backend pipeline.outbox action after) :
      PipelineStep backend codec pipeline (.outbox action) { pipeline with outbox := after }
  | bus {pipeline : Pipeline η π} {action : BusAction η} :
      PipelineStep backend codec pipeline (.bus action)
        { pipeline with bus := pipeline.bus.exec codec.toPayloadCodec action }
  | interrupt {pipeline : Pipeline η π} {reached : Bool} :
      PipelineStep backend codec pipeline (.interrupt reached)
        { pipeline with bus := pipeline.bus.interrupt reached }

/-- Only the relay appends to the stream of the topic, and no handler of the topic
subscribes to it again. -/
def Orderly (topic : String)
    (transition : Transition (Pipeline η π) (PipelineAction η π)) : Prop :=
  match transition.label with
  | .bus (.publish other _) => other ≠ topic
  | .bus action => transition.before.bus.Once topic action
  | _ => True

/-- The step loses no event: neither the relay nor the consumer drops one, nor does a
command of the consumer that raises. -/
def Harmless (codec : JsonCodec π)
    (transition : Transition (Pipeline η π) (PipelineAction η π)) : Prop :=
  match transition.label with
  | .publish worker accepted _ =>
      Careful ⟨transition.before.outbox, .publish worker accepted, transition.after.outbox⟩
  | .outbox action => Careful ⟨transition.before.outbox, action, transition.after.outbox⟩
  | .bus action => EventBus.Spared codec.toPayloadCodec transition.before.bus action
  | .interrupt reached => transition.before.bus.Unharmed reached

theorem Harmless.careful {codec : JsonCodec π}
    {transition : Transition (Pipeline η π) (PipelineAction η π)}
    (harmless : Harmless codec transition) {action : Action π}
    (taken : transition.label.outbox? = some action) :
    Careful ⟨transition.before.outbox, action, transition.after.outbox⟩ := by
  obtain ⟨before, label, after⟩ := transition
  cases label with
  | publish | outbox =>
      cases taken
      exact harmless
  | bus | interrupt => cases taken

/-- Streams and calls agree with what the workers have published. -/
structure Linked (codec : JsonCodec π) (topic : String) (pipeline : Pipeline η π) : Prop where
  accepted : (pipeline.outbox.attempts.filter Attempt.accepted).Sublist pipeline.sent
  made : pipeline.sent.Sublist pipeline.outbox.attempts
  stream : (pipeline.bus.streams topic).entries =
    (pipeline.sentTo topic).map fun attempt => some (codec.dumps attempt.payload)
  consistent : pipeline.bus.Consistent codec.toPayloadCodec topic
  inOrder : pipeline.bus.InOrder codec.toPayloadCodec topic

section Steps

variable {backend : Backend} {codec : JsonCodec π} {topic : String}
  {before after : Pipeline η π} {action : PipelineAction η π}

private theorem linked_empty : Linked codec topic (Pipeline.empty : Pipeline η π) where
  accepted := List.Sublist.refl _
  made := List.Sublist.refl _
  stream := rfl
  consistent := EventBus.consistent_empty
  inOrder := EventBus.inOrder_empty

/-- A publish adds the attempt of the event in hand, other steps add none. -/
theorem attempts_of_publish {outbox later : System π} {worker : Nat} {accepted : Bool}
    {event : OutboxEvent π} {rest : List (OutboxEvent π)}
    (current : outbox.workers worker = ⟨event :: rest, .ready⟩)
    (taken : OutboxRelay.Step backend outbox (.publish worker accepted) later) :
    later.attempts =
      outbox.attempts ++ [⟨event.eventId, event.topic, event.payload, accepted⟩] := by
  cases taken with
  | publish facing =>
      rw [current] at facing
      cases facing
      rfl

private theorem attempts_of_silent {outbox later : System π} {action : Action π}
    (silent : ∀ worker accepted, action ≠ .publish worker accepted)
    (taken : OutboxRelay.Step backend outbox action later) :
    later.attempts = outbox.attempts := by
  cases taken with
  | publish current => exact absurd rfl (silent _ _)
  | save | claim | markPublished | markFailed | crash => rfl

/-- Publishing an event, for the topic it belongs to and for the others. -/
theorem Linked.publish (linked : Linked codec topic before) {event : OutboxEvent π}
    {later : System π} {accepted reached : Bool} (appended : accepted = true → reached = true)
    (attempts : later.attempts =
      before.outbox.attempts ++ [⟨event.eventId, event.topic, event.payload, accepted⟩]) :
    Linked codec topic (if reached then
      ⟨later, before.bus.publish event.topic (some (codec.dumps event.payload)),
        before.sent ++ [⟨event.eventId, event.topic, event.payload, accepted⟩]⟩
      else ⟨later, before.bus, before.sent⟩) := by
  cases reached with
  | true =>
      refine ⟨?_, ?_, ?_, ?_, ?_⟩
      · simp only [if_true, attempts, List.filter_append]
        exact linked.accepted.append List.filter_sublist
      · simp only [if_true, attempts]
        exact linked.made.append (List.Sublist.refl _)
      · simp only [if_true, EventBus.publish, Pipeline.sentTo, Function.update_apply,
          List.filter_append, List.map_append]
        split
        · next same =>
            subst same
            simp [TopicStream.xadd, linked.stream, Pipeline.sentTo]
        · next different =>
            have other : ¬ event.topic = topic := fun same => different same.symm
            simp [linked.stream, Pipeline.sentTo, other]
      · exact linked.consistent.publish _ _
      · exact linked.inOrder.publish _ _
  | false =>
      have failed : accepted = false := by
        cases accepted with
        | true => cases appended rfl
        | false => rfl
      refine ⟨?_, ?_, linked.stream, linked.consistent, linked.inOrder⟩
      · simpa [attempts, failed] using linked.accepted
      · simp only [attempts, Bool.false_eq_true, if_false]
        exact linked.made.trans (List.sublist_append_left _ _)

theorem Linked.step (linked : Linked codec topic before)
    (taken : PipelineStep backend codec before action after)
    (orderly : Orderly topic ⟨before, action, after⟩) : Linked codec topic after := by
  cases taken with
  | publish current taken appended =>
      exact linked.publish appended (attempts_of_publish current taken)
  | outbox silent taken =>
      have attempts := attempts_of_silent silent taken
      refine ⟨?_, ?_, linked.stream, linked.consistent, linked.inOrder⟩
      · rw [attempts]
        exact linked.accepted
      · rw [attempts]
        exact linked.made
  | @interrupt reached =>
      exact ⟨linked.accepted, linked.made,
        (before.bus.entries_interrupt reached topic).trans linked.stream,
        linked.consistent.interrupt reached, linked.inOrder.interrupt reached⟩
  | @bus action =>
      have once : before.bus.Once topic action := by
        cases action with
        | publish other rawPayload => trivial
        | subscribe | advance | crash => exact orderly
      refine ⟨linked.accepted, linked.made, ?_, linked.consistent.step once rfl,
        linked.inOrder.step linked.consistent rfl⟩
      refine Eq.trans ?_ linked.stream
      cases action with
      | publish other rawPayload =>
          have different : topic ≠ other := fun same => orderly same.symm
          simp [EventBus.exec, EventBus.publish, different]
      | subscribe other handler => rfl
      | advance returns => exact (EventBus.consume_frame codec.toPayloadCodec _ returns).2 topic
      | crash => rfl

/-- A step that loses no event keeps the bus settled. -/
theorem settled_step (settled : before.bus.Settled)
    (taken : PipelineStep backend codec before action after)
    (harmless : Harmless codec ⟨before, action, after⟩) : after.bus.Settled := by
  cases taken with
  | @publish worker accepted reached event rest later current taken appended =>
      cases reached with
      | true => exact settled.publish event.topic _
      | false => exact settled
  | outbox silent taken => exact settled
  | @bus action =>
      have taken : BusStep codec.toPayloadCodec before.bus action
        (before.bus.exec codec.toPayloadCodec action) := rfl
      exact settled.step taken harmless
  | interrupt => exact settled.interrupt harmless

/-- Without lost replies exactly the accepted attempts reach their stream. -/
theorem sent_step (sent : before.sent = before.outbox.attempts.filter Attempt.accepted)
    (taken : PipelineStep backend codec before action after) (replied : action.Replied) :
    after.sent = after.outbox.attempts.filter Attempt.accepted := by
  cases taken with
  | @publish worker accepted reached event rest later current taken appended =>
      have attempts := attempts_of_publish current taken
      have same : accepted = reached := replied
      subst reached
      cases accepted with
      | true => simp [attempts, sent]
      | false => simp [attempts, sent]
  | outbox silent taken =>
      rw [attempts_of_silent silent taken]
      exact sent
  | bus | interrupt => exact sent

/-- The outbox takes the steps of its relays, whatever the bus does. -/
theorem outbox_moves (taken : PipelineStep backend codec before action after) :
    ∀ moved, action.outbox? = some moved →
      OutboxRelay.Step backend before.outbox moved after.outbox := by
  intro moved same
  cases taken with
  | @publish worker accepted reached event rest later current taken appended =>
      cases same
      cases reached <;> exact taken
  | outbox silent taken =>
      cases same
      exact taken
  | bus | interrupt => cases same

private theorem outbox_stays (taken : PipelineStep backend codec before action after)
    (other : action.outbox? = none) : after.outbox = before.outbox := by
  cases taken with
  | publish | outbox => cases other
  | bus | interrupt => rfl

end Steps

/-- Lists of distinct keys that carry the same values carry them equally often. -/
theorem perm_of_keys {α β κ ν : Type} {left : List α} {right : List β} {leftKey : α → κ}
    {rightKey : β → κ} {leftValue : α → ν} {rightValue : β → ν}
    (leftDistinct : (left.map leftKey).Nodup) (rightDistinct : (right.map rightKey).Nodup)
    (included : ∀ item ∈ left, ∃ other ∈ right,
      rightKey other = leftKey item ∧ rightValue other = leftValue item)
    (covered : ∀ other ∈ right, ∃ item ∈ left,
      leftKey item = rightKey other ∧ leftValue item = rightValue other) :
    (left.map leftValue).Perm (right.map rightValue) := by
  have leftPairs : (left.map fun item => (leftKey item, leftValue item)).Nodup := by
    apply List.Nodup.of_map Prod.fst
    rw [List.map_map]
    exact leftDistinct
  have rightPairs : (right.map fun other => (rightKey other, rightValue other)).Nodup := by
    apply List.Nodup.of_map Prod.fst
    rw [List.map_map]
    exact rightDistinct
  have pairs : (left.map fun item => (leftKey item, leftValue item)).Perm
      (right.map fun other => (rightKey other, rightValue other)) := by
    rw [List.perm_ext_iff_of_nodup leftPairs rightPairs]
    intro pair
    constructor
    · intro member
      obtain ⟨item, listed, rfl⟩ := List.mem_map.mp member
      obtain ⟨other, found, key, value⟩ := included item listed
      exact List.mem_map.mpr ⟨other, found, by rw [key, value]⟩
    · intro member
      obtain ⟨other, listed, rfl⟩ := List.mem_map.mp member
      obtain ⟨item, found, key, value⟩ := covered other listed
      exact List.mem_map.mpr ⟨item, found, by rw [key, value]⟩
  have values := pairs.map Prod.snd
  rw [List.map_map, List.map_map] at values
  exact values

section Runs

variable {backend : Backend} {codec : JsonCodec π} {topic : String}
  {trace : List (Transition (Pipeline η π) (PipelineAction η π))} {final : Pipeline η π}

private theorem outbox_run (run : Run (PipelineStep backend codec) Pipeline.empty trace final) :
    Run (OutboxRelay.Step backend) System.empty
      (Run.partTrail Pipeline.outbox PipelineAction.outbox? trace) final.outbox :=
  run.part Pipeline.outbox PipelineAction.outbox? (fun _ _ _ taken => outbox_moves taken)
    fun _ _ _ taken => outbox_stays taken

theorem run_sent (run : Run (PipelineStep backend codec) Pipeline.empty trace final)
    (replied : ∀ transition ∈ trace, transition.label.Replied) :
    final.sent = final.outbox.attempts.filter Attempt.accepted := by
  apply run.invariant replied
  · rfl
  · intro before action after sent taken answered
    exact sent_step sent taken answered

theorem run_linked (run : Run (PipelineStep backend codec) Pipeline.empty trace final)
    (orderly : ∀ transition ∈ trace, Orderly topic transition) : Linked codec topic final :=
  run.invariant orderly linked_empty fun _ _ _ linked taken ordered => linked.step taken ordered

/-- What is published belongs to a saved event of the topic. -/
theorem Linked.saved_of_sent (linked : Linked codec topic final) (valid : Valid final.outbox)
    {attempt : Attempt π} (member : attempt ∈ final.sentTo topic) :
    ∃ event ∈ final.outbox.store, event.eventId = attempt.eventId ∧ event.topic = topic ∧
      event.payload = attempt.payload := by
  obtain ⟨sent, addressed⟩ := List.mem_filter.mp member
  obtain ⟨event, found, sameTopic, payload⟩ := valid.messages attempt (linked.made.subset sent)
  obtain ⟨stored, identity⟩ := lookup_some found
  exact ⟨event, stored, identity, sameTopic.trans (of_decide_eq_true addressed), payload⟩

/-- A run that loses no event leaves none undelivered once the relays are at rest. -/
theorem run_delivered (run : Run (PipelineStep backend codec) Pipeline.empty trace final)
    (harmless : ∀ transition ∈ trace, Harmless codec transition)
    (quiescent : Quiescent final.outbox) :
    ∀ event ∈ final.outbox.store, final.outbox.Delivered event := by
  obtain ⟨lives, tracked, losses⟩ := run_losses_empty (outbox_run run)
  have recovers : Recovers backend final.outbox := by
    rw [recovers_iff (run_valid (outbox_run run) valid_empty) tracked, losses]
    rintro ⟨moved, member, careless⟩
    obtain ⟨transition, taken, relabelled⟩ := List.mem_filterMap.mp member
    obtain ⟨action, same, rfl⟩ := Option.map_eq_some_iff.mp relabelled
    exact careless ((harmless transition taken).careful same)
  exact (recovers final.outbox (.refl _)).2 quiescent

variable [DecidableEq η]

/-- The handler is called with what the workers published. -/
theorem Linked.payloads (linked : Linked codec topic final) (handler : η) :
    (final.bus.calls topic handler).map Handling.payload =
      (final.announced topic handler).map Attempt.payload := by
  have origin : ∀ call ∈ final.bus.calls topic handler, ∃ attempt,
      (final.sentTo topic)[call.msgId]? = some attempt ∧ attempt.payload = call.payload := by
    intro call member
    obtain ⟨rawPayload, stored, decoded⟩ := linked.inOrder.decoded_of_call member
    rw [linked.stream, List.getElem?_map, Option.map_eq_some_iff] at stored
    obtain ⟨attempt, found, rfl⟩ := stored
    rw [codec.decode_dumps, Option.some.injEq] at decoded
    exact ⟨attempt, found, decoded⟩
  rw [Pipeline.announced]
  generalize final.bus.calls topic handler = calls at origin
  induction calls with
  | nil => rfl
  | cons call rest ih =>
      obtain ⟨attempt, found, payload⟩ := origin call List.mem_cons_self
      simp only [List.filterMap_cons, found, List.map_cons, payload]
      rw [ih fun other member => origin other (List.mem_cons_of_mem _ member)]

/-- It is called in the order of the stream. -/
theorem Linked.announced_sublist (linked : Linked codec topic final) (handler : η) :
    (final.announced topic handler).Sublist (final.sentTo topic) :=
  sublist_of_positions _ _ (linked.inOrder.calls_increasing handler)

/-- At rest a registered handler has been called with everything that was published. -/
theorem Linked.announced_all (linked : Linked codec topic final) (settled : final.bus.Settled)
    (rest : final.AtRest topic) {handler : η} (registered : final.bus.Registered topic handler) :
    final.announced topic handler = final.sentTo topic := by
  refine (linked.announced_sublist handler).eq_of_length ?_
  calc (final.announced topic handler).length
      = (final.bus.calls topic handler).length := by
        simpa using (congrArg List.length (linked.payloads handler)).symm
    _ = (final.bus.streams topic).entries.length :=
        linked.inOrder.calls_length settled registered rest.handedOut rest.between
    _ = (final.sentTo topic).length := by simp [linked.stream]

/-- An event is tried as often as it may fail, and accepted once. -/
theorem attempts_of_tracked {system : System π} {eventId : String} {life : Life}
    (tracked : Tracked system eventId life) :
    system.deliveries eventId ≤ 1 ∧
      system.deliveries eventId + system.failures eventId ≤ maxAttempts := by
  rw [tracked.deliveries, tracked.failures]
  have bounded := tracked.bounded
  obtain ⟨place, retries⟩ := life
  cases place with
  | unknown | pending | published | failed =>
      simp only [Life.Bounded, Life.deliveries, Life.failures, maxAttempts] at bounded ⊢
      omega
  | held worker stage | abandoned stage =>
      cases stage <;>
        simp only [Life.Bounded, Life.deliveries, Life.failures, maxAttempts] at bounded ⊢ <;> omega

private theorem count_attempts (system : System π) (eventId : String) :
    (system.attempts.map Attempt.eventId).count eventId =
      system.deliveries eventId + system.failures eventId := by
  rw [System.deliveries, System.failures, System.count, System.count]
  induction system.attempts with
  | nil => rfl
  | cons attempt rest ih =>
      rw [List.map_cons, List.count_cons, ih, List.countP_cons, List.countP_cons]
      cases same : decide (attempt.eventId = eventId) with
      | true => cases accepted : attempt.accepted <;> simp_all <;> omega
      | false => simp_all

private theorem count_accepted (system : System π) (eventId : String) :
    ((system.attempts.filter Attempt.accepted).map Attempt.eventId).count eventId =
      system.deliveries eventId := by
  rw [List.count_eq_countP, List.countP_map, List.countP_filter]
  apply List.countP_congr
  simp

/-- Without lost replies no event is announced twice. -/
theorem run_distinct (run : Run (PipelineStep backend codec) Pipeline.empty trace final)
    (orderly : ∀ transition ∈ trace, Orderly topic transition)
    (replied : ∀ transition ∈ trace, transition.label.Replied) (handler : η) :
    ((final.announced topic handler).map Attempt.eventId).Nodup := by
  have ordered := (run_linked run orderly).announced_sublist handler
  have published : (final.announced topic handler).Sublist
      (final.outbox.attempts.filter Attempt.accepted) :=
    run_sent run replied ▸ ordered.trans List.filter_sublist
  rw [List.nodup_iff_count_le_one]
  intro eventId
  obtain ⟨life, tracked⟩ := (run_valid (outbox_run run) valid_empty).lives eventId
  calc ((final.announced topic handler).map Attempt.eventId).count eventId
      ≤ ((final.outbox.attempts.filter Attempt.accepted).map Attempt.eventId).count eventId :=
        (published.map _).count_le _
    _ = final.outbox.deliveries eventId := count_accepted _ _
    _ ≤ 1 := (attempts_of_tracked tracked).1

/-- In every run, whatever crashes and whatever is lost on the way, a handler is called in the
order of the stream with payloads of saved events of the topic: with each event at most
as often as the relay tries it, and without lost replies at most once. -/
theorem run_announced (run : Run (PipelineStep backend codec) Pipeline.empty trace final)
    (orderly : ∀ transition ∈ trace, Orderly topic transition) (handler : η) :
    ((final.bus.calls topic handler).map Handling.payload =
        (final.announced topic handler).map Attempt.payload ∧
      (final.announced topic handler).Sublist (final.sentTo topic)) ∧
    (∀ attempt ∈ final.announced topic handler, ∃ event ∈ final.outbox.store,
      event.eventId = attempt.eventId ∧ event.topic = topic ∧ event.payload = attempt.payload) ∧
    (∀ eventId, ((final.announced topic handler).map Attempt.eventId).count eventId ≤
      maxAttempts) ∧
    ((∀ transition ∈ trace, transition.label.Replied) →
      ((final.announced topic handler).map Attempt.eventId).Nodup) := by
  have linked := run_linked run orderly
  have valid := run_valid (outbox_run run) valid_empty
  have ordered := linked.announced_sublist handler
  have published : (final.announced topic handler).Sublist final.sent :=
    ordered.trans List.filter_sublist
  refine ⟨⟨linked.payloads handler, ordered⟩, ?_, ?_, ?_⟩
  · intro attempt member
    exact linked.saved_of_sent valid (ordered.subset member)
  · intro eventId
    obtain ⟨life, tracked⟩ := valid.lives eventId
    calc ((final.announced topic handler).map Attempt.eventId).count eventId
        ≤ (final.outbox.attempts.map Attempt.eventId).count eventId :=
          ((published.trans linked.made).map _).count_le _
      _ = final.outbox.deliveries eventId + final.outbox.failures eventId := count_attempts _ _
      _ ≤ maxAttempts := (attempts_of_tracked tracked).2
  · exact fun replied => run_distinct run orderly replied handler

/-- After a run that loses no event, once relays and consumer are at rest, every handler of
the topic has been called with every saved event of it, and where no reply was lost with
each exactly once. -/
theorem run_handledOnce (run : Run (PipelineStep backend codec) Pipeline.empty trace final)
    (orderly : ∀ transition ∈ trace, Orderly topic transition)
    (harmless : ∀ transition ∈ trace, Harmless codec transition) (rest : final.AtRest topic)
    {handler : η} (registered : final.bus.Registered topic handler) :
    (∀ event ∈ final.outbox.store, event.topic = topic →
      ∃ attempt ∈ final.announced topic handler,
        attempt.eventId = event.eventId ∧ attempt.payload = event.payload) ∧
    ((∀ transition ∈ trace, transition.label.Replied) →
      ((final.bus.calls topic handler).map Handling.payload).Perm
        ((final.outbox.store.filter fun event => event.topic = topic).map
          OutboxEvent.payload)) := by
  have linked := run_linked run orderly
  have valid := run_valid (outbox_run run) valid_empty
  have settled : final.bus.Settled :=
    run.invariant harmless EventBus.settled_empty fun _ _ _ earlier taken spared =>
      settled_step earlier taken spared
  have everything := linked.announced_all settled rest registered
  have complete : ∀ event ∈ final.outbox.store, event.topic = topic →
      ∃ attempt ∈ final.announced topic handler,
        attempt.eventId = event.eventId ∧ attempt.payload = event.payload := by
    intro event stored addressed
    obtain ⟨attempt, made, identity, sameTopic, payload, accepted⟩ :=
      run_delivered run harmless rest.quiescent event stored
    have sent := linked.accepted.subset (List.mem_filter.mpr ⟨made, accepted⟩)
    rw [everything]
    exact ⟨attempt, List.mem_filter.mpr ⟨sent, by simp [sameTopic, addressed]⟩, identity, payload⟩
  refine ⟨complete, ?_⟩
  intro replied
  rw [linked.payloads handler]
  have identities : ((final.outbox.store.filter fun event => event.topic = topic).map
      OutboxEvent.eventId).Nodup :=
    valid.distinct.sublist (List.filter_sublist.map OutboxEvent.eventId)
  refine perm_of_keys (run_distinct run orderly replied handler) identities ?_ ?_
  · intro attempt member
    obtain ⟨event, stored, identity, addressed, payload⟩ :=
      linked.saved_of_sent valid (everything ▸ member)
    exact ⟨event, List.mem_filter.mpr ⟨stored, by simp [addressed]⟩, identity, payload⟩
  · intro event member
    obtain ⟨stored, addressed⟩ := List.mem_filter.mp member
    exact complete event stored (of_decide_eq_true addressed)

end Runs

/-- `braces` with the text it reads. -/
def bracesText : JsonCodec Unit where
  toPayloadCodec := braces
  dumps _ := [123, 125]
  decode_dumps _ := rfl

section Replay

/-- The steps over the in-memory outbox, as a function. -/
def Pipeline.exec (pipeline : Pipeline Nat Unit) :
    PipelineAction Nat Unit → Option (Pipeline Nat Unit)
  | .publish worker accepted reached =>
      match pipeline.outbox.workers worker with
      | ⟨event :: _, .ready⟩ =>
          if accepted = true ∧ reached = false then none
          else (OutboxRelay.exec pipeline.outbox (.publish worker accepted)).map fun after =>
            if reached then
              ⟨after, pipeline.bus.publish event.topic (some (bracesText.dumps event.payload)),
                pipeline.sent ++ [⟨event.eventId, event.topic, event.payload, accepted⟩]⟩
            else ⟨after, pipeline.bus, pipeline.sent⟩
      | _ => none
  | .outbox (.publish _ _) => none
  | .outbox action =>
      (OutboxRelay.exec pipeline.outbox action).map fun after => { pipeline with outbox := after }
  | .bus action =>
      some { pipeline with bus := pipeline.bus.exec bracesText.toPayloadCodec action }
  | .interrupt reached => some { pipeline with bus := pipeline.bus.interrupt reached }

private theorem step_of_exec {before after : Pipeline Nat Unit} {action : PipelineAction Nat Unit}
    (ran : before.exec action = some after) : PipelineStep .inMemory bracesText before action after := by
  cases action with
  | publish worker accepted reached =>
      simp only [Pipeline.exec] at ran
      split at ran
      · next event rest current =>
          split at ran
          · cases ran
          · next possible =>
              obtain ⟨later, relayed, rfl⟩ := Option.map_eq_some_iff.mp ran
              refine .publish current (exec_step relayed) ?_
              intro accepts
              cases reached with
              | true => rfl
              | false => exact absurd ⟨accepts, rfl⟩ possible
      · cases ran
  | outbox action =>
      have silent : ∀ worker accepted, action ≠ .publish worker accepted := by
        rintro worker accepted rfl
        cases ran
      obtain ⟨later, relayed, rfl⟩ : ∃ later, OutboxRelay.exec before.outbox action = some later ∧
          { before with outbox := later } = after := by
        cases action with
        | publish => cases ran
        | save | claim | markPublished | markFailed | crash =>
            exact Option.map_eq_some_iff.mp ran
      exact .outbox silent (exec_step relayed)
  | bus action =>
      cases ran
      exact .bus
  | interrupt reached =>
      cases ran
      exact .interrupt

/-- Steps of a run in which at worst a publish or a read fails without reaching Redis. -/
def Pipeline.untroubled (pipeline : Pipeline Nat Unit) : PipelineAction Nat Unit → Bool
  | .publish worker accepted reached => accepted = reached ∧
      ∀ event ∈ (pipeline.outbox.workers worker).batch.head?, event.retryCount + 1 < maxAttempts
  | .outbox (.crash _) | .outbox (.publish _ _) | .bus (.publish _ _) | .bus .crash => false
  | .outbox _ => true
  | .bus (.subscribe topic handler) => handler ∉ pipeline.bus.handlersOf topic ∧
      pipeline.bus.spares braces (.subscribe topic handler) = true
  | .bus (.advance returns) => pipeline.bus.spares braces (.advance returns)
  | .interrupt reached => reached = false ∧ pipeline.bus.consumer.messages = []

private theorem permitted_of_untroubled {topic : String}
    {transition : Transition (Pipeline Nat Unit) (PipelineAction Nat Unit)}
    (checked : transition.before.untroubled transition.label = true) :
    Orderly topic transition ∧ Harmless bracesText transition ∧ transition.label.Replied := by
  obtain ⟨before, label, after⟩ := transition
  cases label with
  | publish worker accepted reached =>
      obtain ⟨replied, retried⟩ := of_decide_eq_true checked
      refine ⟨trivial, ?_, replied⟩
      cases accepted with
      | true => trivial
      | false => exact retried
  | outbox action =>
      refine ⟨trivial, ?_, trivial⟩
      cases action with
      | crash | publish => cases checked
      | save | claim | markPublished | markFailed => trivial
  | bus action =>
      cases action with
      | publish | crash => cases checked
      | subscribe other handler =>
          obtain ⟨fresh, spares⟩ := of_decide_eq_true checked
          refine ⟨?_, EventBus.spared_of_spares spares, trivial⟩
          intro same
          rw [← same]
          exact fresh
      | advance returns =>
          have spares : before.bus.spares braces (.advance returns) = true := checked
          exact ⟨trivial, EventBus.spared_of_spares spares, trivial⟩
  | interrupt reached =>
      obtain ⟨rfl, between⟩ := of_decide_eq_true checked
      refine ⟨trivial, ?_, trivial⟩
      simp only [Harmless, EventBus.Unharmed]
      split
      · simp
      · next phase =>
          rw [phase] at between
          cases between
      · trivial

/-- Two loans with two handlers: the first publish of one and the first read fail. -/
def announcedLoans : List (PipelineAction Nat Unit) :=
  [.bus (.subscribe "copy.issued" 0), .bus (.subscribe "copy.issued" 1),
    .outbox (.save "E1" "copy.issued" () .min), .outbox (.save "E2" "copy.issued" () .min),
    .outbox (.claim 0), .publish 0 false false, .outbox (.markFailed 0),
    .publish 0 true true, .outbox (.markPublished 0 .min),
    .bus (.advance true), .interrupt false,
    .outbox (.claim 0), .publish 0 true true, .outbox (.markPublished 0 .min)] ++
    List.replicate 11 (.bus (.advance true))

private theorem announcedLoans_run : ∃ trace, ∃ final : Pipeline Nat Unit,
    Run (PipelineStep .inMemory bracesText) Pipeline.empty trace final ∧
      trace.map Transition.label = announcedLoans ∧
      (∀ transition ∈ trace, Orderly "copy.issued" transition ∧
        Harmless bracesText transition ∧ transition.label.Replied) ∧
      final.AtRest "copy.issued" ∧ final.bus.Registered "copy.issued" 0 ∧
      (final.announced "copy.issued" 0).map Attempt.eventId = ["E2", "E1"] := by
  obtain ⟨final, replayed⟩ : ∃ final, Run.replay Pipeline.exec Pipeline.untroubled
      Pipeline.empty announcedLoans = some final := ⟨_, rfl⟩
  obtain ⟨trace, run, labels, checked⟩ := Run.of_replay replayed
  refine ⟨trace, final, run.mono fun _ _ _ => step_of_exec, labels, ?_, ?_, ?_, ?_⟩
  · exact fun transition member => permitted_of_untroubled (checked transition member)
  · cases replayed
    refine ⟨⟨?_, ?_⟩, rfl, rfl⟩
    · intro worker
      by_cases zero : worker = 0 <;>
        simp [zero, Pipeline.empty, System.empty, Worker.idle]
    · decide +kernel
  · cases replayed
    exact List.mem_cons_self
  · cases replayed
    decide +kernel

/-- Each loan is announced to the handler once, in the order of the stream. -/
theorem run_announced_loans : ∃ trace, ∃ final : Pipeline Nat Unit,
    Run (PipelineStep .inMemory bracesText) Pipeline.empty trace final ∧
      trace.map Transition.label = announcedLoans ∧
      (final.announced "copy.issued" 0).map Attempt.eventId = ["E2", "E1"] ∧
      (final.announced "copy.issued" 0).Sublist (final.sentTo "copy.issued") ∧
      (∀ eventId, ((final.announced "copy.issued" 0).map Attempt.eventId).count eventId ≤
        maxAttempts) ∧
      ((final.announced "copy.issued" 0).map Attempt.eventId).Nodup := by
  obtain ⟨trace, final, run, labels, permitted, _, _, announced⟩ := announcedLoans_run
  obtain ⟨⟨_, ordered⟩, _, often, once⟩ := run_announced run (fun transition member =>
    (permitted transition member).1) 0
  exact ⟨trace, final, run, labels, announced, ordered, often,
    once fun transition member => (permitted transition member).2.2⟩

theorem run_handledOnce_loans : ∃ trace, ∃ final : Pipeline Nat Unit,
    Run (PipelineStep .inMemory bracesText) Pipeline.empty trace final ∧
      trace.map Transition.label = announcedLoans ∧
      (final.announced "copy.issued" 0).map Attempt.eventId = ["E2", "E1"] ∧
      ((final.bus.calls "copy.issued" 0).map Handling.payload).Perm
        ((final.outbox.store.filter fun event => event.topic = "copy.issued").map
          OutboxEvent.payload) := by
  obtain ⟨trace, final, run, labels, permitted, rest, registered, announced⟩ :=
    announcedLoans_run
  have once := (run_handledOnce run (fun transition member => (permitted transition member).1)
    (fun transition member => (permitted transition member).2.1) rest registered).2
  exact ⟨trace, final, run, labels, announced,
    once fun transition member => (permitted transition member).2.2⟩

end Replay

end LibraFlow.Distributed
