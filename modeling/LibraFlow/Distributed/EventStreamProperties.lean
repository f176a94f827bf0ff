import LibraFlow.Distributed.EventStream
import Mathlib.Order.WellFounded
import Mathlib.Data.Prod.Lex

/-! Delivery to handlers. A message that the group has handed out never comes back:
it reaches a handler only if the batch it came in is worked off, the handler returns
and was subscribed in time. Runs in which this always happens are at-least-once. -/

set_option autoImplicit false

namespace LibraFlow.Distributed

open LibraFlow.Library

variable {η π : Type} {codec : PayloadCodec π}

namespace TopicStream

/-- The messages read are the next ones, each under its position. -/
theorem mem_unread {stream : TopicStream} {topic : String} {msgId : Nat}
    (undelivered : stream.delivered ≤ msgId)
    (read : msgId < stream.delivered + (stream.unread topic).length) :
    ∃ message ∈ stream.unread topic, message.topic = topic ∧ message.msgId = msgId := by
  obtain ⟨offset, rfl⟩ := Nat.exists_eq_add_of_le undelivered
  have inside : offset < (stream.unread topic).length := by omega
  refine ⟨(stream.unread topic)[offset], List.getElem_mem inside, ?_⟩
  simp [unread]

private theorem unread_ne_nil {stream : TopicStream} (topic : String)
    (undelivered : stream.delivered < stream.entries.length) : stream.unread topic ≠ [] := by
  simp [unread, readCount]
  omega

end TopicStream

namespace ConsumerPhase

/-- The messages of the batch that have not been taken up. -/
def waiting : ConsumerPhase η π → List StreamMessage
  | .processing batch => batch
  | .calling _ _ _ rest => rest
  | _ => []

/-- Handlers of the current message that are still to be called, counted from one. -/
def callsLeft : ConsumerPhase η π → Nat
  | .calling _ _ handlers _ => handlers.length + 1
  | _ => 0

/-- The consumer still has to bring the message to the handler. -/
def Owes (phase : ConsumerPhase η π) (topic : String) (msgId : Nat) (handler : η) : Prop :=
  (∃ message ∈ phase.waiting, message.topic = topic ∧ message.msgId = msgId) ∨
  ∃ message payload handlers rest, phase = .calling message payload handlers rest ∧
    message.topic = topic ∧ message.msgId = msgId ∧ handler ∈ handlers

end ConsumerPhase

namespace EventBus

def Registered (bus : EventBus η π) (topic : String) (handler : η) : Prop :=
  handler ∈ bus.handlersOf topic

def Published (bus : EventBus η π) (topic : String) (msgId : Nat) : Prop :=
  msgId < (bus.streams topic).entries.length

/-- The handler has returned from a call with the message. -/
def Handled (bus : EventBus η π) (topic : String) (msgId : Nat) (handler : η) : Prop :=
  ∃ handling ∈ bus.handled, handling.topic = topic ∧ handling.msgId = msgId ∧
    handling.handler = handler ∧ handling.returned = true

/-- The step does not lose a message: a subscribing handler has handled what the
group handed out before or will be brought it, payloads decode and handlers return. -/
def Spared (codec : PayloadCodec π) (bus : EventBus η π) : BusAction η → Prop
  | .subscribe topic handler => ∀ msgId < (bus.streams topic).delivered,
      bus.Handled topic msgId handler ∨ bus.consumer.Owes topic msgId handler
  | .advance returns =>
      match bus.consumer with
      | .processing (message :: _) => (codec.decode message.rawPayload).isSome = true
      | .calling _ _ (_ :: _) _ => returns = true
      | _ => True
  | _ => True

/-- Every message that has been handed out is handled, or the consumer still has it. -/
def Settled (bus : EventBus η π) : Prop :=
  ∀ topic handler msgId, bus.Registered topic handler →
    msgId < (bus.streams topic).delivered →
    bus.Handled topic msgId handler ∨ bus.consumer.Owes topic msgId handler

theorem settled_empty : Settled (empty : EventBus η π) := by
  intro topic handler msgId registered
  simp [Registered, handlersOf, empty] at registered

theorem handlersOf_subscribe (bus : EventBus η π) (topic other : String) (handler : η) :
    (bus.subscribe topic handler).handlersOf other =
      if topic = other then bus.handlersOf topic ++ [handler] else bus.handlersOf other := by
  simp only [handlersOf, subscribe, Dict.get?_set]
  split <;> rfl

/-- An acknowledgement changes neither what is in a stream nor what was handed out. -/
theorem delivered_xack (bus : EventBus η π) (message : StreamMessage) (topic : String) :
    ((bus.xack message).streams topic).delivered = (bus.streams topic).delivered := by
  simp only [xack, Function.update_apply]
  split
  · next same =>
      subst topic
      rfl
  · rfl

theorem entries_xack (bus : EventBus η π) (message : StreamMessage) (topic : String) :
    ((bus.xack message).streams topic).entries = (bus.streams topic).entries := by
  simp only [xack, Function.update_apply]
  split
  · next same =>
      subst topic
      rfl
  · rfl

/-- A step that neither reads nor subscribes keeps what is settled if it leaves the
messages owed with the consumer or brings them to their handlers. -/
theorem Settled.keep {before after : EventBus η π} (settled : before.Settled)
    (registered : ∀ topic handler, after.Registered topic handler →
      before.Registered topic handler)
    (delivered : ∀ topic, (after.streams topic).delivered = (before.streams topic).delivered)
    (handled : ∀ handling ∈ before.handled, handling ∈ after.handled)
    (owed : ∀ topic msgId handler, before.Registered topic handler →
      before.consumer.Owes topic msgId handler →
      after.Handled topic msgId handler ∨ after.consumer.Owes topic msgId handler) :
    after.Settled := by
  intro topic handler msgId subscribed read
  rw [delivered] at read
  have earlier := registered topic handler subscribed
  rcases settled topic handler msgId earlier read with ⟨handling, member, same⟩ | owes
  · exact .inl ⟨handling, handled handling member, same⟩
  · exact owed topic msgId handler earlier owes

theorem Settled.publish {bus : EventBus η π} (settled : bus.Settled) (topic : String)
    (rawPayload : Option (List UInt8)) : (bus.publish topic rawPayload).Settled := by
  apply settled.keep
  · exact fun _ _ registered => registered
  · intro other
    simp only [EventBus.publish, Function.update_apply]
    split
    · next same => rw [same]; rfl
    · rfl
  · exact fun _ member => member
  · exact fun _ _ _ _ owes => .inr owes

theorem Settled.subscribe {bus : EventBus η π} (settled : bus.Settled) {topic : String}
    {handler : η} (spared : Spared codec bus (.subscribe topic handler)) :
    (bus.subscribe topic handler).Settled := by
  intro other subscriber msgId registered read
  have known : bus.Registered other subscriber ∨ other = topic ∧ subscriber = handler := by
    rw [Registered, handlersOf_subscribe] at registered
    split at registered
    · next same =>
        subst same
        exact (List.mem_append.mp registered).imp id fun new => ⟨rfl, List.mem_singleton.mp new⟩
    · exact .inl registered
  rcases known with earlier | ⟨rfl, rfl⟩
  · exact settled other subscriber msgId earlier read
  · exact spared msgId read

/-- A read hands out messages that the consumer then has in its batch. -/
theorem Settled.xreadgroup {bus : EventBus η π} (settled : bus.Settled) {topics : List String}
    (phase : bus.consumer = .polling topics) : (bus.xreadgroup topics).Settled := by
  intro topic handler msgId registered read
  have idle : ¬ bus.consumer.Owes topic msgId handler := by
    simp [ConsumerPhase.Owes, ConsumerPhase.waiting, phase]
  by_cases old : msgId < (bus.streams topic).delivered
  · exact .inl ((settled topic handler msgId registered old).resolve_right idle)
  · simp only [EventBus.xreadgroup] at read
    split at read
    · next polled =>
        obtain ⟨message, member, same⟩ := TopicStream.mem_unread (Nat.le_of_not_lt old) read
        have batched : message ∈ topics.flatMap fun topic => (bus.streams topic).unread topic :=
          List.mem_flatMap.mpr ⟨topic, polled, member⟩
        have filled := List.ne_nil_of_mem batched
        refine .inr (.inl ⟨message, ?_, same⟩)
        simp only [EventBus.xreadgroup, if_neg filled]
        exact batched
    · exact absurd read old

theorem Settled.consume {bus : EventBus η π} (settled : bus.Settled) {returns : Bool}
    (spared : Spared codec bus (.advance returns)) : (bus.consume codec returns).Settled := by
  cases phase : bus.consumer with
  | reading =>
      have idle : ∀ topic msgId handler, ¬ bus.consumer.Owes topic msgId handler := by
        simp [ConsumerPhase.Owes, ConsumerPhase.waiting, phase]
      simp only [EventBus.consume, phase]
      split
      · exact settled
      · exact settled.keep (fun _ _ registered => registered) (fun _ => rfl)
          (fun _ member => member) fun topic msgId handler _ owes =>
            absurd owes (idle topic msgId handler)
  | polling topics =>
      simp only [EventBus.consume, phase]
      exact settled.xreadgroup phase
  | processing batch =>
      cases batch with
      | nil =>
          have idle : ∀ topic msgId handler, ¬ bus.consumer.Owes topic msgId handler := by
            simp [ConsumerPhase.Owes, ConsumerPhase.waiting, phase]
          simp only [EventBus.consume, phase]
          exact settled.keep (fun _ _ registered => registered) (fun _ => rfl)
            (fun _ member => member) fun topic msgId handler _ owes =>
              absurd owes (idle topic msgId handler)
      | cons message rest =>
          simp only [Spared, phase] at spared
          obtain ⟨payload, decoded⟩ := Option.isSome_iff_exists.mp spared
          simp only [EventBus.consume, phase, decoded]
          apply settled.keep
          · exact fun _ _ registered => registered
          · exact fun _ => rfl
          · exact fun _ member => member
          · intro topic msgId handler registered owes
            simp only [ConsumerPhase.Owes, ConsumerPhase.waiting, phase, reduceCtorEq, false_and,
              exists_false, or_false, List.mem_cons] at owes
            obtain ⟨owed, rfl | later, same⟩ := owes
            · refine .inr (.inr ⟨owed, payload, _, rest, rfl, same.1, same.2, ?_⟩)
              rw [same.1]
              exact registered
            · exact .inr (.inl ⟨owed, later, same⟩)
  | calling message payload handlers rest =>
      cases handlers with
      | nil =>
          simp only [EventBus.consume, phase]
          apply settled.keep
          · exact fun _ _ registered => registered
          · exact bus.delivered_xack message
          · exact fun _ member => member
          · intro topic msgId handler registered owes
            rw [phase] at owes
            rcases owes with waiting | ⟨_, _, _, _, same, _, _, called⟩
            · exact .inr (.inl waiting)
            · cases same
              cases called
      | cons next handlers =>
          simp only [Spared, phase] at spared
          simp only [EventBus.consume, phase, spared]
          apply settled.keep
          · exact fun _ _ registered => registered
          · exact fun _ => rfl
          · exact fun _ member => List.mem_append_left _ member
          · intro topic msgId handler registered owes
            rw [phase] at owes
            rcases owes with waiting | ⟨_, _, _, _, same, sameTopic, sameId, called⟩
            · exact .inr (.inl waiting)
            · cases same
              rcases List.mem_cons.mp called with rfl | later
              · exact .inl ⟨_, List.mem_append_right _ (List.mem_singleton_self _), sameTopic,
                  sameId, rfl, rfl⟩
              · exact .inr (.inr ⟨message, payload, handlers, rest, rfl, sameTopic, sameId, later⟩)

theorem Settled.step {before after : EventBus η π} {action : BusAction η}
    (settled : before.Settled) (taken : BusStep codec before action after)
    (spared : Spared codec before action) : after.Settled := by
  subst taken
  cases action with
  | publish topic rawPayload => exact settled.publish topic rawPayload
  | subscribe topic handler => exact settled.subscribe spared
  | advance returns => exact settled.consume spared
  | crash =>
      intro topic handler msgId registered
      simp [Registered, handlersOf, exec] at registered

theorem Registered.mem_keys {bus : EventBus η π} {topic : String} {handler : η}
    (registered : bus.Registered topic handler) : topic ∈ bus.subscribers.keys := by
  apply (Dict.mem_keys_iff bus.subscribers topic).mpr
  cases found : bus.subscribers.get? topic with
  | none => simp [Registered, handlersOf, found] at registered
  | some handlers => exact ⟨handlers, rfl⟩

/-- How far the consumer is from the next read of the topic; a read that was begun
before the topic was subscribed does not count. -/
def stage (bus : EventBus η π) (topic : String) : Nat :=
  match bus.consumer with
  | .polling topics => if topic ∈ topics then 0 else 3
  | .reading => 1
  | .processing _ | .calling _ _ _ _ => 2

/-- The work between the consumer and a message: reads of its topic, the way to the
next read, the batch in hand, and the current message. -/
def distance (topic : String) (msgId : Nat) (bus : EventBus η π) : ℕ ×ₗ ℕ ×ₗ ℕ ×ₗ ℕ :=
  toLex (msgId + 1 - (bus.streams topic).delivered,
    toLex (bus.stage topic, toLex (bus.consumer.waiting.length, bus.consumer.callsLeft)))

private theorem distance_lt_of_delivered {before after : EventBus η π} {topic : String}
    {msgId : Nat} (undelivered : (before.streams topic).delivered ≤ msgId)
    (read : (before.streams topic).delivered < (after.streams topic).delivered) :
    distance topic msgId after < distance topic msgId before := by
  apply Prod.Lex.toLex_lt_toLex.mpr
  left
  simp only
  omega

private theorem distance_lt_of_stage {before after : EventBus η π} {topic : String} {msgId : Nat}
    (same : (after.streams topic).delivered = (before.streams topic).delivered)
    (nearer : after.stage topic < before.stage topic) :
    distance topic msgId after < distance topic msgId before := by
  apply Prod.Lex.toLex_lt_toLex.mpr
  right
  refine ⟨by rw [same], ?_⟩
  exact Prod.Lex.toLex_lt_toLex.mpr (.inl nearer)

private theorem distance_lt_of_work {before after : EventBus η π} {topic : String} {msgId : Nat}
    (same : (after.streams topic).delivered = (before.streams topic).delivered)
    (level : after.stage topic = before.stage topic)
    (less : after.consumer.waiting.length < before.consumer.waiting.length ∨
      after.consumer.waiting.length = before.consumer.waiting.length ∧
      after.consumer.callsLeft < before.consumer.callsLeft) :
    distance topic msgId after < distance topic msgId before := by
  apply Prod.Lex.toLex_lt_toLex.mpr
  right
  refine ⟨by rw [same], Prod.Lex.toLex_lt_toLex.mpr (.inr ⟨level, ?_⟩)⟩
  exact Prod.Lex.toLex_lt_toLex.mpr less

/-- Every step of the consumer brings it nearer to a message that is not handled. -/
theorem distance_consume {bus : EventBus η π} {topic : String} {handler : η} {msgId : Nat}
    (settled : bus.Settled) (registered : bus.Registered topic handler)
    (published : bus.Published topic msgId) {returns : Bool}
    (spared : Spared codec bus (.advance returns)) (unhandled : ¬ bus.Handled topic msgId handler) :
    distance topic msgId (bus.consume codec returns) < distance topic msgId bus := by
  cases phase : bus.consumer with
  | reading =>
      have subscribed := registered.mem_keys
      have some : bus.subscribers.keys ≠ [] := List.ne_nil_of_mem subscribed
      simp only [EventBus.consume, phase, if_neg some]
      refine distance_lt_of_stage rfl ?_
      simp [stage, phase, subscribed]
  | polling topics =>
      simp only [EventBus.consume, phase]
      by_cases polled : topic ∈ topics
      · have undelivered : (bus.streams topic).delivered ≤ msgId := by
          apply Nat.le_of_not_lt
          intro read
          have owes := (settled topic handler msgId registered read).resolve_left unhandled
          simp [ConsumerPhase.Owes, ConsumerPhase.waiting, phase] at owes
        apply distance_lt_of_delivered undelivered
        have nonempty := TopicStream.unread_ne_nil topic (Nat.lt_of_le_of_lt undelivered published)
        simp only [EventBus.xreadgroup, if_pos polled, TopicStream.deliver]
        exact Nat.lt_add_of_pos_right (List.length_pos_of_ne_nil nonempty)
      · apply distance_lt_of_stage
        · simp [EventBus.xreadgroup, polled]
        · have far : bus.stage topic = 3 := by simp [stage, phase, polled]
          rw [far]
          simp only [stage, EventBus.xreadgroup]
          by_cases nothing : (topics.flatMap fun other => (bus.streams other).unread other) = []
          · simp [nothing]
          · simp [nothing]
  | processing batch =>
      cases batch with
      | nil =>
          simp only [EventBus.consume, phase]
          refine distance_lt_of_stage rfl ?_
          simp [stage, phase]
      | cons message rest =>
          simp only [Spared, phase] at spared
          obtain ⟨payload, decoded⟩ := Option.isSome_iff_exists.mp spared
          simp only [EventBus.consume, phase, decoded]
          refine distance_lt_of_work rfl ?_ ?_
          · simp [stage, phase]
          · simp [ConsumerPhase.waiting, phase]
  | calling message payload handlers rest =>
      cases handlers with
      | nil =>
          simp only [EventBus.consume, phase]
          apply distance_lt_of_work
          · exact bus.delivered_xack message topic
          · simp [stage, phase]
          · simp [ConsumerPhase.waiting, ConsumerPhase.callsLeft, phase]
      | cons next handlers =>
          simp only [Spared, phase] at spared
          simp only [EventBus.consume, phase]
          refine distance_lt_of_work rfl ?_ ?_
          · simp [stage, phase]
          · simp [ConsumerPhase.waiting, ConsumerPhase.callsLeft, phase]

/-- The consumer neither subscribes nor publishes. -/
theorem consume_frame (codec : PayloadCodec π) (bus : EventBus η π) (returns : Bool) :
    (bus.consume codec returns).subscribers = bus.subscribers ∧
      ∀ topic, ((bus.consume codec returns).streams topic).entries =
        (bus.streams topic).entries := by
  unfold EventBus.consume
  split
  · split
    · exact ⟨rfl, fun _ => rfl⟩
    · exact ⟨rfl, fun _ => rfl⟩
  · refine ⟨rfl, ?_⟩
    intro topic
    simp only [EventBus.xreadgroup]
    split
    · rfl
    · rfl
  · exact ⟨rfl, fun _ => rfl⟩
  · split
    · exact ⟨rfl, fun _ => rfl⟩
    · exact ⟨rfl, fun _ => rfl⟩
  · exact ⟨rfl, fun _ => rfl⟩
  · exact ⟨rfl, bus.entries_xack _⟩

/-- Without a crash, handlers stay registered and messages stay in their stream. -/
theorem exec_keeps {bus : EventBus η π} {action : BusAction η} (alive : action ≠ .crash)
    {topic : String} {handler : η} {msgId : Nat} (registered : bus.Registered topic handler)
    (published : bus.Published topic msgId) :
    (bus.exec codec action).Registered topic handler ∧
      (bus.exec codec action).Published topic msgId := by
  cases action with
  | publish other rawPayload =>
      refine ⟨registered, ?_⟩
      simp only [Published, exec, EventBus.publish, Function.update_apply]
      split
      · next same =>
          subst same
          simp only [TopicStream.xadd, List.length_append]
          exact Nat.lt_add_right _ published
      · exact published
  | subscribe other subscriber =>
      refine ⟨?_, published⟩
      simp only [Registered, exec, handlersOf_subscribe]
      split
      · next same =>
          subst same
          exact List.mem_append_left _ registered
      · exact registered
  | advance returns =>
      obtain ⟨subscribers, entries⟩ := consume_frame codec bus returns
      simp only [Registered, Published, handlersOf, exec, subscribers, entries]
      exact ⟨registered, published⟩
  | crash => exact absurd rfl alive

/-- Steps outside the consumer leave it where it is. -/
theorem distance_exec {bus : EventBus η π} {action : BusAction η} (alive : action ≠ .crash)
    (other : ∀ returns, action ≠ .advance returns) (topic : String) (msgId : Nat) :
    distance topic msgId (bus.exec codec action) = distance topic msgId bus := by
  cases action with
  | publish published rawPayload =>
      have delivered : ((bus.publish published rawPayload).streams topic).delivered =
          (bus.streams topic).delivered := by
        simp only [EventBus.publish, Function.update_apply]
        split
        · next same => rw [same]; rfl
        · rfl
      simp only [distance, exec, delivered]
      rfl
  | subscribe subscribed handler => rfl
  | advance returns => exact absurd rfl (other returns)
  | crash => exact absurd rfl alive

end EventBus

open EventBus

/-- The executions of one process over one Redis, restarts included. -/
abbrev BusExecution (η : Type) (codec : PayloadCodec π) : Type :=
  Execution (BusStep codec : EventBus η π → BusAction η → EventBus η π → Prop)

/-- From some time on the process does not crash, handlers return, and the consumer
takes its next step again and again. -/
structure KeepsRunning (execution : BusExecution η codec) (start : Nat) : Prop where
  alive : ∀ time, start ≤ time → execution.labels time ≠ .crash
  returning : ∀ time, start ≤ time → execution.labels time ≠ .advance false
  running : ∀ time, start ≤ time → ∃ later, time ≤ later ∧ execution.labels later = .advance true

/-- Whenever the consumer keeps running, every message published until then is
handled by every handler of its topic. -/
def AtLeastOnce (execution : BusExecution η codec) : Prop :=
  ∀ start, KeepsRunning execution start → ∀ topic handler msgId,
    (execution.states start).Registered topic handler →
    (execution.states start).Published topic msgId →
    ∃ time, start ≤ time ∧ (execution.states time).Handled topic msgId handler

theorem execution_atLeastOnce (codec : PayloadCodec π) (execution : BusExecution η codec)
    (fresh : execution.states 0 = (.empty : EventBus η π))
    (spared : ∀ time, Spared codec (execution.states time) (execution.labels time)) :
    AtLeastOnce execution := by
  intro start running topic handler msgId registered published
  have settled : ∀ time, (execution.states time).Settled := by
    intro time
    apply execution.invariant (Nat.zero_le time)
    · rw [fresh]
      exact settled_empty
    · intro moment _ earlier
      exact earlier.step (execution.taken moment) (spared moment)
  have progress : ∀ time, start ≤ time → execution.Progress (distance topic msgId)
      (fun bus => bus.Registered topic handler ∧ bus.Published topic msgId)
      (fun bus => bus.Handled topic msgId handler) (fun label => label = .advance true) time := by
    rintro time later ⟨registered, published⟩
    by_cases handled : (execution.states time).Handled topic msgId handler
    · exact .inl handled
    refine .inr (.inr ?_)
    have taken : (execution.states time).exec codec (execution.labels time) =
        execution.states (time + 1) := execution.taken time
    have alive := running.alive time later
    rw [← taken]
    refine ⟨exec_keeps alive registered published, ?_⟩
    by_cases other : ∀ returns, execution.labels time ≠ .advance returns
    · refine ⟨le_of_eq (distance_exec alive other topic msgId), ?_⟩
      intro fair
      exact absurd fair (other true)
    · obtain ⟨returns, advanced⟩ := not_forall_not.mp other
      have consumed := spared time
      rw [advanced] at consumed ⊢
      have nearer := distance_consume (settled time) registered published consumed handled
      exact ⟨le_of_lt nearer, fun _ => nearer⟩
  exact execution.reaches ⟨registered, published⟩ running.running progress

namespace EventBus

/-- Everything published to the subscribed topics has been handed out, and no batch
is in hand. -/
structure Calm (bus : EventBus η π) : Prop where
  delivered : ∀ topic ∈ bus.subscribers.keys,
    (bus.streams topic).delivered = (bus.streams topic).entries.length
  between : bus.consumer = .reading ∨ bus.consumer = .polling bus.subscribers.keys

theorem Calm.consume {bus : EventBus η π} (codec : PayloadCodec π) (calm : bus.Calm)
    (returns : Bool) :
    (bus.consume codec returns).Calm ∧ (bus.consume codec returns).handled = bus.handled := by
  have nothing : ∀ topic ∈ bus.subscribers.keys, (bus.streams topic).unread topic = [] := by
    intro topic subscribed
    simp [TopicStream.unread, calm.delivered topic subscribed]
  rcases calm.between with phase | phase
  · simp only [EventBus.consume, phase]
    split
    · exact ⟨calm, rfl⟩
    · exact ⟨⟨calm.delivered, .inr rfl⟩, rfl⟩
  · simp only [EventBus.consume, phase, EventBus.xreadgroup]
    refine ⟨⟨?_, .inl ?_⟩, trivial⟩
    · intro topic subscribed
      simp only at subscribed
      simp [subscribed, TopicStream.deliver, nothing, calm.delivered]
    · simp only [List.flatMap_eq_nil_iff, ite_eq_left_iff]
      exact fun remains => absurd nothing remains

theorem Calm.spared {bus : EventBus η π} (calm : bus.Calm) (returns : Bool) :
    Spared codec bus (.advance returns) := by
  rcases calm.between with phase | phase <;> simp [Spared, phase]

end EventBus

/-- The empty dictionary is the only payload this codec knows. -/
def braces : PayloadCodec Unit where
  loads bytes := if bytes = [123, 125] then some () else none
  emptyPayload := ()

/-- The given actions, and then steps of the consumer for ever. -/
def thenAdvance (actions : List (BusAction Nat)) (time : Nat) : BusAction Nat :=
  (actions[time]?).getD (.advance true)

/-- The execution of a fresh process under the given actions. -/
def busAfter (actions : List (BusAction Nat)) : BusExecution Nat braces :=
  Execution.ofLabels .empty (thenAdvance actions) fun _ _ => rfl

private theorem busAfter_advances {actions : List (BusAction Nat)} {time : Nat}
    (reached : actions.length ≤ time) : (busAfter actions).labels time = .advance true := by
  simp [busAfter, Execution.ofLabels, thenAdvance, List.getElem?_eq_none reached]

private theorem busAfter_calm {actions : List (BusAction Nat)} {start : Nat}
    (later : actions.length ≤ start) (calm : ((busAfter actions).states start).Calm) {time : Nat}
    (reached : start ≤ time) : ((busAfter actions).states time).Calm ∧
      ((busAfter actions).states time).handled = ((busAfter actions).states start).handled := by
  induction time, reached using Nat.le_induction with
  | base => exact ⟨calm, rfl⟩
  | succ time reached ih =>
      have taken : ((busAfter actions).states time).exec braces ((busAfter actions).labels time) =
          (busAfter actions).states (time + 1) := (busAfter actions).taken time
      rw [← taken, busAfter_advances (Nat.le_trans later reached)]
      obtain ⟨stays, same⟩ := ih.1.consume braces true
      exact ⟨stays, same.trans ih.2⟩

private theorem busAfter_keepsRunning (actions : List (BusAction Nat)) :
    KeepsRunning (busAfter actions) actions.length := by
  refine ⟨?_, ?_, ?_⟩
  · intro time reached
    simp [busAfter_advances reached]
  · intro time reached
    simp [busAfter_advances reached]
  · intro time reached
    exact ⟨time, Nat.le_refl time, busAfter_advances reached⟩

/-- A check for `Spared` that can be evaluated: handlers that subscribe have handled
everything that was handed out. -/
def EventBus.spares (codec : PayloadCodec π) (bus : EventBus Nat π) : BusAction Nat → Bool
  | .subscribe topic handler => ∀ msgId < (bus.streams topic).delivered,
      ∃ handling ∈ bus.handled, handling.topic = topic ∧ handling.msgId = msgId ∧
        handling.handler = handler ∧ handling.returned = true
  | .advance returns =>
      match bus.consumer with
      | .processing (message :: _) => (codec.decode message.rawPayload).isSome
      | .calling _ _ (_ :: _) _ => returns
      | _ => true
  | _ => true

theorem EventBus.spared_of_spares {bus : EventBus Nat π} {action : BusAction Nat}
    (checked : bus.spares codec action = true) : Spared codec bus action := by
  cases action with
  | subscribe topic handler => exact fun msgId read => .inl (of_decide_eq_true checked msgId read)
  | advance returns =>
      simp only [spares] at checked
      simp only [Spared]
      split
      · next phase => rwa [phase] at checked
      · next phase => rwa [phase] at checked
      · trivial
  | publish | crash => trivial

/-- Two loans for two handlers, a restart when they are handled, and one more loan. -/
def loansAndRestart : List (BusAction Nat) :=
  [.subscribe "loans" 0, .subscribe "loans" 1, .publish "loans" (some [123, 125]),
    .publish "loans" none] ++ List.replicate 11 (.advance true) ++
  [.crash, .subscribe "loans" 0, .subscribe "loans" 1, .publish "loans" (some [123, 125])]

private theorem loansAndRestart_calm : ((busAfter loansAndRestart).states 26).Calm :=
  ⟨by decide +kernel, .inl rfl⟩

theorem loansAndRestart_spared (time : Nat) :
    Spared braces ((busAfter loansAndRestart).states time)
      ((busAfter loansAndRestart).labels time) := by
  have early : ∀ time < 26, ((busAfter loansAndRestart).states time).spares braces
      ((busAfter loansAndRestart).labels time) = true := by decide +kernel
  rcases Nat.lt_or_ge time 26 with before | later
  · exact spared_of_spares (early time before)
  · rw [busAfter_advances (Nat.le_trans (by decide) later)]
    exact (busAfter_calm (by decide) loansAndRestart_calm later).1.spared true

/-- Every loan is announced to both handlers, the last one after the restart. -/
theorem execution_atLeastOnce_restart :
    (∃ time, 19 ≤ time ∧ ((busAfter loansAndRestart).states time).Handled "loans" 1 0) ∧
      (∃ time, 19 ≤ time ∧ ((busAfter loansAndRestart).states time).Handled "loans" 2 0) ∧
      ∃ time, 19 ≤ time ∧ ((busAfter loansAndRestart).states time).Handled "loans" 2 1 := by
  have delivers : AtLeastOnce (busAfter loansAndRestart) :=
    execution_atLeastOnce braces (busAfter loansAndRestart) rfl loansAndRestart_spared
  have running := busAfter_keepsRunning loansAndRestart
  have handlers : ((busAfter loansAndRestart).states 19).handlersOf "loans" = [0, 1] := by
    decide +kernel
  have first : ((busAfter loansAndRestart).states 19).Registered "loans" 0 := by
    simp [Registered, handlers]
  have second : ((busAfter loansAndRestart).states 19).Registered "loans" 1 := by
    simp [Registered, handlers]
  have published : (((busAfter loansAndRestart).states 19).streams "loans").entries.length = 3 := by
    decide +kernel
  refine ⟨delivers 19 running "loans" 0 1 first ?_, delivers 19 running "loans" 0 2 first ?_,
    delivers 19 running "loans" 1 2 second ?_⟩ <;>
    simp [Published, published]

def lostLoan : List (BusAction Nat) :=
  [.subscribe "loans" 0, .publish "loans" (some [123, 125]), .advance true, .advance true, .crash,
    .subscribe "loans" 0]

private theorem lostLoan_calm : ((busAfter lostLoan).states 6).Calm :=
  ⟨by decide +kernel, .inl rfl⟩

/-- The process crashes with the message in its batch: the message stays pending and
is never read again. -/
theorem crash_loses_batch :
    ∃ (codec : PayloadCodec Unit) (execution : BusExecution Nat codec),
      execution.states 0 = .empty ∧ ¬ AtLeastOnce execution := by
  refine ⟨braces, busAfter lostLoan, rfl, ?_⟩
  intro delivers
  obtain ⟨time, later, handling, member, _⟩ := delivers 6 (busAfter_keepsRunning lostLoan)
    "loans" 0 0 List.mem_cons_self Nat.zero_lt_one
  have unchanged := (busAfter_calm (by decide) lostLoan_calm later).2
  rw [unchanged] at member
  cases member

end LibraFlow.Distributed
