import LibraFlow.Distributed.EventStreamProperties

/-! How often and in which order handlers are called. A message that is handed out never
comes back, so that over any run, crashes and failing commands included, each handler sees
the messages of a topic in their order, with their payloads, and none of them twice. -/

set_option autoImplicit false

namespace LibraFlow.Distributed

open LibraFlow.Library

variable {η π : Type} {codec : PayloadCodec π}

/-- The messages of the batch that have not been dealt with, the current one first. -/
def ConsumerPhase.messages : ConsumerPhase η π → List StreamMessage
  | .processing batch => batch
  | .calling message _ _ rest => message :: rest
  | _ => []

/-- What stands at increasing positions of a list occurs in it in that order. -/
theorem sublist_of_positions {α β : Type} (position : α → Nat) (list : List β) {items : List α}
    (increasing : items.Pairwise fun first second => position first < position second) :
    (items.filterMap fun item => list[position item]?).Sublist list := by
  have dropped : ∀ count, (∀ item ∈ items, count ≤ position item) →
      (items.filterMap fun item => list[position item]?).Sublist (list.drop count) := by
    induction items with
    | nil => exact fun count _ => List.nil_sublist _
    | cons item rest ih =>
        intro count beyond
        obtain ⟨first, later⟩ := List.pairwise_cons.mp increasing
        have remaining := ih later (position item + 1) first
        have further := beyond item List.mem_cons_self
        cases found : list[position item]? with
        | none =>
            simp only [List.filterMap_cons, found]
            exact remaining.trans (List.drop_sublist_drop_left list (by omega))
        | some value =>
            obtain ⟨inside, rfl⟩ := List.getElem?_eq_some_iff.mp found
            simp only [List.filterMap_cons, found]
            refine List.Sublist.trans ?_ (List.drop_sublist_drop_left list further)
            rw [List.drop_eq_getElem_cons inside]
            exact remaining.cons_cons _
  exact dropped 0 fun item _ => Nat.zero_le _

namespace TopicStream

/-- A message that is read is in its stream and has not been handed out. -/
theorem unread_spec {stream : TopicStream} {topic : String} {message : StreamMessage}
    (member : message ∈ stream.unread topic) :
    message.topic = topic ∧ stream.entries[message.msgId]? = some message.rawPayload ∧
      stream.delivered ≤ message.msgId ∧
      message.msgId < stream.delivered + (stream.unread topic).length := by
  obtain ⟨position, inside, rfl⟩ := List.getElem_of_mem member
  have bound := inside
  simp only [unread, List.length_map, List.length_take, List.length_drop, List.length_zipIdx] at bound
  have stored : stream.delivered + position < stream.entries.length := by omega
  simp [unread, stored]
  omega

/-- Messages are read in the order of their stream. -/
theorem unread_increasing (stream : TopicStream) (topic : String) :
    (stream.unread topic).Pairwise fun first second => first.msgId < second.msgId := by
  rw [List.pairwise_iff_getElem]
  intro first second firstInside secondInside before
  simp [unread, before]

private theorem delivered_le_of_deliver {stream : TopicStream} (topic : String)
    (within : stream.delivered ≤ stream.entries.length) :
    (stream.deliver topic).delivered ≤ (stream.deliver topic).entries.length := by
  simp only [deliver, unread, List.length_map, List.length_take, List.length_drop,
    List.length_zipIdx]
  omega

end TopicStream

namespace EventBus

/-- No handler is subscribed to the topic if it is subscribed to it already. -/
def Once (topic : String) (bus : EventBus η π) : BusAction η → Prop
  | .subscribe other handler => other = topic → handler ∉ bus.handlersOf topic
  | _ => True

/-- Where the consumer stands is consistent with the streams, and every handler is
subscribed to the topic once. -/
structure Consistent (codec : PayloadCodec π) (topic : String) (bus : EventBus η π) : Prop where
  handlers : (bus.handlersOf topic).Nodup
  polled : ∀ topics, bus.consumer = .polling topics → topics.Nodup
  read : ∀ other, (bus.streams other).delivered ≤ (bus.streams other).entries.length
  order : bus.consumer.messages.Pairwise fun first second =>
    first.topic = second.topic → first.msgId < second.msgId
  stored : ∀ message ∈ bus.consumer.messages,
    message.msgId < (bus.streams message.topic).delivered ∧
      (bus.streams message.topic).entries[message.msgId]? = some message.rawPayload
  current : ∀ message payload handlers rest,
    bus.consumer = .calling message payload handlers rest →
      codec.decode message.rawPayload = some payload ∧ (message.topic = topic → handlers.Nodup)

/-- What handlers have been called with lies before what the consumer has in hand. -/
structure InOrder (codec : PayloadCodec π) (topic : String) (bus : EventBus η π) : Prop where
  past : ∀ handling ∈ bus.handled, handling.msgId < (bus.streams handling.topic).delivered
  payloads : ∀ handling ∈ bus.handled, ∃ rawPayload,
    (bus.streams handling.topic).entries[handling.msgId]? = some rawPayload ∧
      codec.decode rawPayload = some handling.payload
  waiting : ∀ handling ∈ bus.handled, ∀ message ∈ bus.consumer.waiting,
    message.topic = handling.topic → handling.msgId < message.msgId
  calling : ∀ message payload handlers rest,
    bus.consumer = .calling message payload handlers rest →
      ∀ handling ∈ bus.handled, handling.topic = message.topic →
        handling.msgId ≤ message.msgId ∧ (message.topic = topic →
          handling.msgId = message.msgId → handling.handler ∉ handlers)
  increasing : bus.handled.Pairwise fun first second => first.topic = topic →
    second.topic = topic → first.handler = second.handler → first.msgId < second.msgId

section Empty

variable {topic : String}

theorem consistent_empty : Consistent codec topic (empty : EventBus η π) where
  handlers := by simp [handlersOf, empty]
  polled topics impossible := by cases impossible
  read other := le_refl _
  order := .nil
  stored message member := by cases member
  current message payload handlers rest impossible := by cases impossible

theorem inOrder_empty : InOrder codec topic (empty : EventBus η π) where
  past handling member := by cases member
  payloads handling member := by cases member
  waiting handling member := by cases member
  calling message payload handlers rest impossible := by cases impossible
  increasing := .nil

end Empty

/-- Streams only grow, and what has been handed out stays so. -/
def Grows (before after : EventBus η π) : Prop :=
  ∀ topic, (before.streams topic).delivered ≤ (after.streams topic).delivered ∧
    (before.streams topic).entries <+: (after.streams topic).entries

theorem Grows.still {before after : EventBus η π} (same : after.streams = before.streams) :
    Grows before after := by
  intro topic
  rw [same]
  exact ⟨le_refl _, List.prefix_refl _⟩

theorem Grows.stored {before after : EventBus η π} (grows : Grows before after) {topic : String}
    {msgId : Nat} {rawPayload : Option (List UInt8)}
    (stored : (before.streams topic).entries[msgId]? = some rawPayload) :
    (after.streams topic).entries[msgId]? = some rawPayload := by
  obtain ⟨inside, same⟩ := List.getElem?_eq_some_iff.mp stored
  obtain ⟨_, entries⟩ := grows topic
  rw [← same]
  exact (entries.getElem inside).symm ▸ List.getElem?_eq_getElem _

section Frames

variable {before after : EventBus η π} {topic : String}

/-- A step after which the consumer has no message in hand that it did not have. -/
theorem Consistent.frame (consistent : Consistent codec topic before)
    (grows : Grows before after) (handlers : (after.handlersOf topic).Nodup)
    (read : ∀ other, (after.streams other).delivered ≤ (after.streams other).entries.length)
    (messages : after.consumer.messages.Sublist before.consumer.messages)
    (polled : ∀ topics, after.consumer = .polling topics → topics.Nodup)
    (current : ∀ message payload called rest,
      after.consumer = .calling message payload called rest →
        codec.decode message.rawPayload = some payload ∧ (message.topic = topic → called.Nodup)) :
    Consistent codec topic after where
  handlers := handlers
  polled := polled
  read := read
  order := consistent.order.sublist messages
  stored message member := by
    obtain ⟨handed, stored⟩ := consistent.stored message (messages.subset member)
    exact ⟨handed.trans_le (grows message.topic).1, grows.stored stored⟩
  current := current

/-- A step without a call of a handler, after which the consumer waits with no message that
it did not wait with. -/
theorem InOrder.frame (inOrder : InOrder codec topic before) (grows : Grows before after)
    (handled : after.handled = before.handled)
    (waiting : ∀ message ∈ after.consumer.waiting, message ∈ before.consumer.waiting)
    (calling : ∀ message payload handlers rest,
      after.consumer = .calling message payload handlers rest →
        message ∈ before.consumer.waiting ∨ ∃ earlier, handlers ⊆ earlier ∧
          before.consumer = .calling message payload earlier rest) :
    InOrder codec topic after where
  past handling member := by
    rw [handled] at member
    exact (inOrder.past handling member).trans_le (grows _).1
  payloads handling member := by
    rw [handled] at member
    obtain ⟨rawPayload, stored, decoded⟩ := inOrder.payloads handling member
    exact ⟨rawPayload, grows.stored stored, decoded⟩
  waiting handling member message listed := by
    rw [handled] at member
    exact inOrder.waiting handling member message (waiting message listed)
  calling message payload handlers rest phase handling member same := by
    rw [handled] at member
    rcases calling message payload handlers rest phase with listed | ⟨earlier, fewer, was⟩
    · have before := inOrder.waiting handling member message listed same.symm
      exact ⟨before.le, fun _ equal => absurd equal before.ne⟩
    · obtain ⟨bound, fresh⟩ := inOrder.calling message payload earlier rest was handling member same
      exact ⟨bound, fun given equal called => fresh given equal (fewer called)⟩
  increasing := by
    rw [handled]
    exact inOrder.increasing

end Frames

section Steps

variable {bus before after : EventBus η π} {topic : String}

private theorem grows_publish (bus : EventBus η π) (topic : String)
    (rawPayload : Option (List UInt8)) :
    Grows bus (bus.publish topic rawPayload) := by
  intro other
  simp only [EventBus.publish, Function.update_apply]
  split
  · next same =>
      subst other
      exact ⟨le_refl _, List.prefix_append _ _⟩
  · exact ⟨le_refl _, List.prefix_refl _⟩

private theorem grows_xreadgroup (bus : EventBus η π) (topics : List String) :
    Grows bus (bus.xreadgroup topics) := by
  intro topic
  simp only [EventBus.xreadgroup]
  split
  · exact ⟨Nat.le_add_right _ _, List.prefix_refl _⟩
  · exact ⟨le_refl _, List.prefix_refl _⟩

private theorem grows_xack (bus : EventBus η π) (message : StreamMessage) :
    Grows bus (bus.xack message) := by
  intro topic
  rw [delivered_xack, entries_xack]
  exact ⟨le_refl _, List.prefix_refl _⟩

/-- What a read puts into the batch. -/
theorem mem_batch {topics : List String} {message : StreamMessage}
    (member : message ∈ topics.flatMap fun topic => (bus.streams topic).unread topic) :
    message.topic ∈ topics ∧
      (bus.streams message.topic).entries[message.msgId]? = some message.rawPayload ∧
      (bus.streams message.topic).delivered ≤ message.msgId ∧
      message.msgId < ((bus.streams message.topic).deliver message.topic).delivered := by
  obtain ⟨topic, polled, unread⟩ := List.mem_flatMap.mp member
  obtain ⟨rfl, stored, fresh, inside⟩ := TopicStream.unread_spec unread
  exact ⟨polled, stored, fresh, inside⟩

private theorem messages_xreadgroup (bus : EventBus η π) (topics : List String) :
    (bus.xreadgroup topics).consumer.messages =
        topics.flatMap (fun topic => (bus.streams topic).unread topic) ∧
      (bus.xreadgroup topics).consumer.waiting = (bus.xreadgroup topics).consumer.messages := by
  simp only [EventBus.xreadgroup]
  split
  · next nothing =>
      rw [nothing]
      exact ⟨rfl, rfl⟩
  · exact ⟨rfl, rfl⟩

private theorem delivered_le_xreadgroup (consistent : Consistent codec topic bus)
    (topics : List String) (other : String) : ((bus.xreadgroup topics).streams other).delivered ≤
      ((bus.xreadgroup topics).streams other).entries.length := by
  simp only [EventBus.xreadgroup]
  split
  · exact TopicStream.delivered_le_of_deliver other (consistent.read other)
  · exact consistent.read other

private theorem delivered_le_xack (consistent : Consistent codec topic bus)
    (message : StreamMessage) (other : String) : ((bus.xack message).streams other).delivered ≤
      ((bus.xack message).streams other).entries.length := by
  rw [delivered_xack, entries_xack]
  exact consistent.read other

theorem Consistent.xreadgroup (consistent : Consistent codec topic bus) {topics : List String}
    (polled : topics.Nodup) : Consistent codec topic (bus.xreadgroup topics) where
  handlers := consistent.handlers
  polled others impossible := by
    simp only [EventBus.xreadgroup] at impossible
    split at impossible <;> cases impossible
  read := delivered_le_xreadgroup consistent topics
  order := by
    rw [(messages_xreadgroup bus topics).1, List.pairwise_flatMap]
    constructor
    · intro topic _
      refine (TopicStream.unread_increasing _ topic).imp ?_
      intro first second before _
      exact before
    · refine polled.imp ?_
      intro first second different one inFirst two inSecond same
      have firstTopic := (TopicStream.unread_spec inFirst).1
      have secondTopic := (TopicStream.unread_spec inSecond).1
      exact absurd (firstTopic.symm.trans (same.trans secondTopic)) different
  stored message member := by
    rw [(messages_xreadgroup bus topics).1] at member
    obtain ⟨read, stored, _, inside⟩ := mem_batch member
    simp only [EventBus.xreadgroup, if_pos read]
    exact ⟨inside, stored⟩
  current message payload handlers rest impossible := by
    simp only [EventBus.xreadgroup] at impossible
    split at impossible <;> cases impossible

theorem InOrder.xreadgroup (inOrder : InOrder codec topic bus) (topics : List String) :
    InOrder codec topic (bus.xreadgroup topics) where
  past handling member := (inOrder.past handling member).trans_le (grows_xreadgroup bus topics _).1
  payloads handling member := by
    obtain ⟨rawPayload, stored, decoded⟩ := inOrder.payloads handling member
    exact ⟨rawPayload, (grows_xreadgroup bus topics).stored stored, decoded⟩
  waiting handling member message listed same := by
    rw [(messages_xreadgroup bus topics).2, (messages_xreadgroup bus topics).1] at listed
    obtain ⟨_, _, fresh, _⟩ := mem_batch listed
    rw [same] at fresh
    exact (inOrder.past handling member).trans_le fresh
  calling message payload handlers rest impossible := by
    simp only [EventBus.xreadgroup] at impossible
    split at impossible <;> cases impossible
  increasing := inOrder.increasing

/-- A handler is called with the current message. -/
theorem InOrder.call (inOrder : InOrder codec topic bus) (consistent : Consistent codec topic bus)
    {message : StreamMessage} {payload : π} {handler : η} {handlers : List η}
    {rest : List StreamMessage}
    (phase : bus.consumer = .calling message payload (handler :: handlers) rest)
    (returns : Bool) :
    InOrder codec topic { bus with
      consumer := .calling message payload handlers rest
      handled := bus.handled ++ [⟨message.topic, message.msgId, handler, payload, returns⟩] } := by
  obtain ⟨decoded, distinct⟩ := consistent.current _ _ _ _ phase
  have inHand : message ∈ bus.consumer.messages := by
    rw [phase]
    exact List.mem_cons_self
  obtain ⟨handed, stored⟩ := consistent.stored message inHand
  have order := consistent.order
  rw [phase] at order
  have later := (List.pairwise_cons.mp order).1
  have old := inOrder.calling _ _ _ _ phase
  refine ⟨?_, ?_, ?_, ?_, ?_⟩
  · intro handling member
    rcases List.mem_append.mp member with earlier | new
    · exact inOrder.past handling earlier
    · rw [List.mem_singleton] at new
      subst handling
      exact handed
  · intro handling member
    rcases List.mem_append.mp member with earlier | new
    · exact inOrder.payloads handling earlier
    · rw [List.mem_singleton] at new
      subst handling
      exact ⟨message.rawPayload, stored, decoded⟩
  · intro handling member other listed same
    rcases List.mem_append.mp member with earlier | new
    · refine inOrder.waiting handling earlier other ?_ same
      rw [phase]
      exact listed
    · rw [List.mem_singleton] at new
      subst handling
      exact later other listed same.symm
  · intro current given called others same handling member sameTopic
    cases same
    rcases List.mem_append.mp member with earlier | new
    · obtain ⟨bound, fresh⟩ := old handling earlier sameTopic
      exact ⟨bound, fun asked equal called => fresh asked equal (List.mem_cons_of_mem _ called)⟩
    · rw [List.mem_singleton] at new
      subst handling
      exact ⟨le_refl _, fun asked _ => (List.nodup_cons.mp (distinct asked)).1⟩
  · refine List.pairwise_append.mpr ⟨inOrder.increasing, List.pairwise_singleton _ _, ?_⟩
    intro first member second new firstTopic secondTopic same
    rw [List.mem_singleton] at new
    subst second
    obtain ⟨bound, fresh⟩ := old first member (firstTopic.trans secondTopic.symm)
    refine lt_of_le_of_ne bound fun equal => fresh secondTopic equal ?_
    rw [same]
    exact List.mem_cons_self

theorem Consistent.publish (consistent : Consistent codec topic bus) (other : String)
    (rawPayload : Option (List UInt8)) : Consistent codec topic (bus.publish other rawPayload) := by
  refine consistent.frame (grows_publish bus other rawPayload) consistent.handlers ?_
    (List.Sublist.refl _) consistent.polled consistent.current
  intro published
  have within := consistent.read published
  simp only [EventBus.publish, Function.update_apply]
  split
  · next same =>
      subst published
      simp only [TopicStream.xadd, List.length_append]
      omega
  · exact within

theorem Consistent.subscribe (consistent : Consistent codec topic bus) {other : String}
    {handler : η} (once : Once topic bus (.subscribe other handler)) :
    Consistent codec topic (bus.subscribe other handler) := by
  refine consistent.frame (Grows.still rfl) ?_ consistent.read (List.Sublist.refl _)
    consistent.polled consistent.current
  rw [handlersOf_subscribe]
  split
  · next same =>
      subst other
      refine List.nodup_append.mpr ⟨consistent.handlers, List.nodup_singleton _, ?_⟩
      intro earlier member last new equal
      rw [List.mem_singleton] at new
      rw [equal, new] at member
      exact once rfl member
  · exact consistent.handlers

/-- A consumer that has no message in hand, and no topics to read, is consistent. -/
theorem Consistent.idle (consistent : Consistent codec topic before) (grows : Grows before after)
    (handlers : (after.handlersOf topic).Nodup)
    (read : ∀ other, (after.streams other).delivered ≤ (after.streams other).entries.length)
    (reading : after.consumer = .reading) : Consistent codec topic after := by
  refine consistent.frame grows handlers read ?_ ?_ ?_
  · rw [reading]
    exact List.nil_sublist _
  · intro topics polling
    rw [reading] at polling
    cases polling
  · intro message payload called rest calling
    rw [reading] at calling
    cases calling

theorem InOrder.idle (inOrder : InOrder codec topic before) (grows : Grows before after)
    (handled : after.handled = before.handled) (reading : after.consumer = .reading) :
    InOrder codec topic after := by
  refine inOrder.frame grows handled ?_ ?_
  · intro message member
    rw [reading] at member
    cases member
  · intro message payload handlers rest calling
    rw [reading] at calling
    cases calling

/-- A failing command leaves the consumer with nothing in hand. -/
theorem Consistent.interrupt (consistent : Consistent codec topic bus) (reached : Bool) :
    Consistent codec topic (bus.interrupt reached) := by
  cases phase : bus.consumer with
  | reading | processing batch =>
      simp only [EventBus.interrupt, phase]
      exact consistent
  | polling topics =>
      simp only [EventBus.interrupt, phase]
      cases reached with
      | true =>
          exact consistent.idle (grows_xreadgroup bus topics) consistent.handlers
            (delivered_le_xreadgroup consistent topics) rfl
      | false => exact consistent.idle (Grows.still rfl) consistent.handlers consistent.read rfl
  | calling message payload handlers rest =>
      simp only [EventBus.interrupt, phase]
      cases handlers with
      | cons handler handlers => exact consistent
      | nil =>
          cases reached with
          | true =>
              exact consistent.idle (grows_xack bus message) consistent.handlers
                (delivered_le_xack consistent message) rfl
          | false => exact consistent.idle (Grows.still rfl) consistent.handlers consistent.read rfl

theorem InOrder.interrupt (inOrder : InOrder codec topic bus) (reached : Bool) :
    InOrder codec topic (bus.interrupt reached) := by
  cases phase : bus.consumer with
  | reading | processing batch =>
      simp only [EventBus.interrupt, phase]
      exact inOrder
  | polling topics =>
      simp only [EventBus.interrupt, phase]
      cases reached with
      | true => exact inOrder.idle (grows_xreadgroup bus topics) rfl rfl
      | false => exact inOrder.idle (Grows.still rfl) rfl rfl
  | calling message payload handlers rest =>
      simp only [EventBus.interrupt, phase]
      cases handlers with
      | cons handler handlers => exact inOrder
      | nil =>
          cases reached with
          | true => exact inOrder.idle (grows_xack bus message) rfl rfl
          | false => exact inOrder.idle (Grows.still rfl) rfl rfl

/-- The next step of the loop, for the consistency of the consumer with the streams. -/
theorem Consistent.consume (consistent : Consistent codec topic bus) (returns : Bool) :
    Consistent codec topic (bus.consume codec returns) := by
  cases phase : bus.consumer with
  | reading =>
      simp only [EventBus.consume, phase]
      split
      · exact consistent
      · refine consistent.frame (Grows.still rfl) consistent.handlers consistent.read
          (List.nil_sublist _) ?_ ?_
        · intro topics same
          cases same
          exact bus.subscribers.keysNodup
        · intro message payload called rest impossible
          cases impossible
  | polling topics =>
      simp only [EventBus.consume, phase]
      exact consistent.xreadgroup (consistent.polled topics phase)
  | processing batch =>
      cases batch with
      | nil =>
          simp only [EventBus.consume, phase]
          exact consistent.idle (Grows.still rfl) consistent.handlers consistent.read rfl
      | cons message rest =>
          simp only [EventBus.consume, phase]
          cases decoded : codec.decode message.rawPayload with
          | none => exact consistent.idle (Grows.still rfl) consistent.handlers consistent.read rfl
          | some payload =>
              refine consistent.frame (Grows.still rfl) consistent.handlers consistent.read ?_ ?_ ?_
              · rw [phase]
                exact List.Sublist.refl _
              · intro topics impossible
                cases impossible
              · intro current given called others same
                cases same
                refine ⟨decoded, ?_⟩
                intro asked
                rw [asked]
                exact consistent.handlers
  | calling message payload handlers rest =>
      obtain ⟨decoded, distinct⟩ := consistent.current _ _ _ _ phase
      cases handlers with
      | nil =>
          simp only [EventBus.consume, phase]
          refine consistent.frame (grows_xack bus message) consistent.handlers
            (delivered_le_xack consistent message) ?_ ?_ ?_
          · rw [phase]
            exact List.sublist_cons_self _ _
          · intro topics impossible
            cases impossible
          · intro current given called others impossible
            cases impossible
      | cons handler handlers =>
          simp only [EventBus.consume, phase]
          refine consistent.frame (Grows.still rfl) consistent.handlers consistent.read ?_ ?_ ?_
          · rw [phase]
            exact List.Sublist.refl _
          · intro topics impossible
            cases impossible
          · intro current given called others same
            cases same
            exact ⟨decoded, fun asked => (List.nodup_cons.mp (distinct asked)).2⟩

/-- The next step of the loop, for the order of the calls. -/
theorem InOrder.consume (inOrder : InOrder codec topic bus)
    (consistent : Consistent codec topic bus) (returns : Bool) :
    InOrder codec topic (bus.consume codec returns) := by
  cases phase : bus.consumer with
  | reading =>
      simp only [EventBus.consume, phase]
      split
      · exact inOrder
      · refine inOrder.frame (Grows.still rfl) rfl ?_ ?_
        · intro message member
          cases member
        · intro message payload handlers rest impossible
          cases impossible
  | polling topics =>
      simp only [EventBus.consume, phase]
      exact inOrder.xreadgroup topics
  | processing batch =>
      cases batch with
      | nil =>
          simp only [EventBus.consume, phase]
          exact inOrder.idle (Grows.still rfl) rfl rfl
      | cons message rest =>
          simp only [EventBus.consume, phase]
          cases decoded : codec.decode message.rawPayload with
          | none => exact inOrder.idle (Grows.still rfl) rfl rfl
          | some payload =>
              refine inOrder.frame (Grows.still rfl) rfl ?_ ?_
              · intro other member
                rw [phase]
                exact List.mem_cons_of_mem _ member
              · intro current given handlers others same
                cases same
                rw [phase]
                exact .inl List.mem_cons_self
  | calling message payload handlers rest =>
      cases handlers with
      | nil =>
          simp only [EventBus.consume, phase]
          refine inOrder.frame (grows_xack bus message) rfl ?_ ?_
          · intro other member
            rw [phase]
            exact member
          · intro current given handlers others impossible
            cases impossible
      | cons handler handlers =>
          simp only [EventBus.consume, phase]
          exact inOrder.call consistent phase returns

theorem Consistent.step {action : BusAction η} (consistent : Consistent codec topic before)
    (once : Once topic before action) (taken : BusStep codec before action after) :
    Consistent codec topic after := by
  subst taken
  cases action with
  | publish other rawPayload => exact consistent.publish other rawPayload
  | subscribe other handler => exact consistent.subscribe once
  | advance returns => exact consistent.consume returns
  | crash => exact consistent.idle (Grows.still rfl) List.nodup_nil consistent.read rfl

theorem InOrder.publish (inOrder : InOrder codec topic bus) (other : String)
    (rawPayload : Option (List UInt8)) : InOrder codec topic (bus.publish other rawPayload) :=
  inOrder.frame (grows_publish bus other rawPayload) rfl (fun _ member => member)
    fun _ _ handlers _ phase => .inr ⟨handlers, List.Subset.refl _, phase⟩

theorem InOrder.step {action : BusAction η} (inOrder : InOrder codec topic before)
    (consistent : Consistent codec topic before) (taken : BusStep codec before action after) :
    InOrder codec topic after := by
  subst taken
  cases action with
  | publish other rawPayload => exact inOrder.publish other rawPayload
  | subscribe other handler =>
      exact inOrder.frame (Grows.still rfl) rfl (fun _ member => member)
        fun _ _ handlers _ phase => .inr ⟨handlers, List.Subset.refl _, phase⟩
  | advance returns => exact inOrder.consume consistent returns
  | crash => exact inOrder.idle (Grows.still rfl) rfl rfl

end Steps

section Interruptions

variable {bus : EventBus η π}

/-- The command that raises takes no message from the handlers: a read that reached Redis
had nothing to hand out, and an acknowledgement is the last of its batch. -/
def Unharmed (bus : EventBus η π) (reached : Bool) : Prop :=
  match bus.consumer with
  | .polling topics => reached = true → ∀ topic ∈ topics, (bus.streams topic).unread topic = []
  | .calling _ _ [] rest => rest = []
  | _ => True

theorem Settled.interrupt (settled : bus.Settled) {reached : Bool}
    (unharmed : bus.Unharmed reached) : (bus.interrupt reached).Settled := by
  cases phase : bus.consumer with
  | reading | processing batch =>
      simp only [EventBus.interrupt, phase]
      exact settled
  | polling topics =>
      have idle : ∀ topic msgId handler, ¬ bus.consumer.Owes topic msgId handler := by
        simp [ConsumerPhase.Owes, ConsumerPhase.waiting, phase]
      simp only [Unharmed, phase] at unharmed
      simp only [EventBus.interrupt, phase]
      refine settled.keep ?_ ?_ ?_ ?_
      · intro topic handler registered
        cases reached <;> exact registered
      · intro topic
        cases reached with
        | false => rfl
        | true =>
            simp only [if_true, EventBus.xreadgroup]
            split
            · next polled => simp [TopicStream.deliver, unharmed rfl topic polled]
            · rfl
      · intro handling member
        cases reached <;> exact member
      · exact fun topic msgId handler _ owes => absurd owes (idle topic msgId handler)
  | calling message payload handlers rest =>
      cases handlers with
      | cons handler handlers =>
          simp only [EventBus.interrupt, phase]
          exact settled
      | nil =>
          simp only [Unharmed, phase] at unharmed
          subst unharmed
          have idle : ∀ topic msgId handler, ¬ bus.consumer.Owes topic msgId handler := by
            intro topic msgId handler owes
            rw [phase] at owes
            rcases owes with ⟨_, waiting, _⟩ | ⟨_, _, _, _, same, _, _, called⟩
            · cases waiting
            · cases same
              cases called
          simp only [EventBus.interrupt, phase]
          refine settled.keep ?_ ?_ ?_ ?_
          · intro topic handler registered
            cases reached <;> exact registered
          · intro topic
            cases reached with
            | false => rfl
            | true => exact bus.delivered_xack message topic
          · intro handling member
            cases reached <;> exact member
          · exact fun topic msgId handler _ owes => absurd owes (idle topic msgId handler)

/-- No message is added or lost in a stream by a command of the consumer that raises. -/
theorem entries_interrupt (bus : EventBus η π) (reached : Bool) (topic : String) :
    ((bus.interrupt reached).streams topic).entries = (bus.streams topic).entries := by
  unfold EventBus.interrupt
  split
  · cases reached with
    | false => rfl
    | true =>
        simp only [if_true, EventBus.xreadgroup]
        split
        · rfl
        · rfl
  · cases reached with
    | false => rfl
    | true => exact bus.entries_xack _ topic
  · rfl

end Interruptions

section Calls

variable [DecidableEq η] {bus : EventBus η π} {topic : String} {handler : η}

/-- The calls of the handler with messages of the topic, in their order. -/
def calls (bus : EventBus η π) (topic : String) (handler : η) : List (Handling η π) :=
  bus.handled.filter fun handling => handling.topic = topic ∧ handling.handler = handler

private theorem mem_calls {handling : Handling η π} : handling ∈ bus.calls topic handler ↔
    handling ∈ bus.handled ∧ handling.topic = topic ∧ handling.handler = handler := by
  simp [calls]

theorem InOrder.calls_increasing (inOrder : InOrder codec topic bus) (handler : η) :
    (bus.calls topic handler).Pairwise fun first second => first.msgId < second.msgId := by
  refine List.Pairwise.imp_of_mem ?_ (inOrder.increasing.filter _)
  intro first second firstMember secondMember before
  obtain ⟨_, firstTopic, firstHandler⟩ := mem_calls.mp firstMember
  obtain ⟨_, secondTopic, secondHandler⟩ := mem_calls.mp secondMember
  exact before firstTopic secondTopic (firstHandler.trans secondHandler.symm)

/-- A handler is called with what its message carries. -/
theorem InOrder.decoded_of_call (inOrder : InOrder codec topic bus) {handling : Handling η π}
    (member : handling ∈ bus.calls topic handler) : ∃ rawPayload,
      (bus.streams topic).entries[handling.msgId]? = some rawPayload ∧
        codec.decode rawPayload = some handling.payload := by
  obtain ⟨handled, rfl, _⟩ := mem_calls.mp member
  exact inOrder.payloads handling handled

/-- Where every message is handed out and none is in hand, a handler that nothing was kept
from has been called once for each of them. -/
theorem InOrder.calls_length (inOrder : InOrder codec topic bus) (settled : bus.Settled)
    (registered : bus.Registered topic handler) (handedOut :
      (bus.streams topic).delivered = (bus.streams topic).entries.length)
    (between : bus.consumer.messages = []) :
    (bus.calls topic handler).length = (bus.streams topic).entries.length := by
  have idle : ∀ msgId, ¬ bus.consumer.Owes topic msgId handler := by
    rintro msgId (⟨message, waiting, _⟩ | ⟨message, payload, handlers, rest, phase, _⟩)
    · cases phase : bus.consumer with
      | reading | polling topics => simp [ConsumerPhase.waiting, phase] at waiting
      | processing batch =>
          rw [phase] at between waiting
          exact absurd between (List.ne_nil_of_mem waiting)
      | calling message payload handlers rest =>
          rw [phase] at between
          cases between
    · rw [phase] at between
      cases between
  have distinct : ((bus.calls topic handler).map Handling.msgId).Nodup := by
    rw [List.nodup_iff_pairwise_ne, List.pairwise_map]
    exact (inOrder.calls_increasing handler).imp fun before => before.ne
  have all : ((bus.calls topic handler).map Handling.msgId).Perm
      (List.range (bus.streams topic).entries.length) := by
    rw [List.perm_ext_iff_of_nodup distinct List.nodup_range]
    intro msgId
    rw [List.mem_range, ← handedOut, List.mem_map]
    constructor
    · rintro ⟨handling, member, rfl⟩
      obtain ⟨handled, rfl, _⟩ := mem_calls.mp member
      exact inOrder.past handling handled
    · intro read
      obtain ⟨handling, handled, sameTopic, sameId, sameHandler, _⟩ :=
        (settled topic handler msgId registered read).resolve_right (idle msgId)
      exact ⟨handling, mem_calls.mpr ⟨handled, sameTopic, sameHandler⟩, sameId⟩
  simpa using all.length_eq

end Calls

end EventBus

end LibraFlow.Distributed
