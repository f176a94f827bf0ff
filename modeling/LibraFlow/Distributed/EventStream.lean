import LibraFlow.Library.Dict
import LibraFlow.Library.Execution
import Mathlib.Logic.Function.Basic

/-! Events over Redis Streams. Messages are appended to one stream per topic; a
consumer group hands each of them out once, in batches, to the loop of one
consumer, which calls the handlers of the topic and acknowledges the message. The
process of the consumer may crash between any two steps and be started again. -/

set_option autoImplicit false

namespace LibraFlow.Distributed

open LibraFlow.Library

variable {η π : Type}

/-- Decoding of payloads: `loads` is `json.loads` after decoding the bytes as UTF-8,
and `emptyPayload` is the empty dictionary. -/
structure PayloadCodec (π : Type) where
  loads : List UInt8 → Option π
  emptyPayload : π

/-- A missing or empty field stands for the empty dictionary. -/
def PayloadCodec.decode (codec : PayloadCodec π) : Option (List UInt8) → Option π
  | none | some [] => some codec.emptyPayload
  | some (byte :: bytes) => codec.loads (byte :: bytes)

/-- A message as the consumer reads it, with the `payload` field if it has one. -/
structure StreamMessage where
  topic : String
  msgId : Nat
  rawPayload : Option (List UInt8)
  deriving DecidableEq

/-- The stream of a topic with its consumer group. The group starts at the first
message; `delivered` counts the messages it has handed out. -/
structure TopicStream where
  entries : List (Option (List UInt8)) := []
  delivered : Nat := 0
  pending : List Nat := []
  deriving DecidableEq

namespace TopicStream

/-- At most this many messages of a stream are read at a time. -/
def readCount : Nat := 10

def xadd (stream : TopicStream) (rawPayload : Option (List UInt8)) : TopicStream :=
  { stream with entries := stream.entries ++ [rawPayload] }

/-- The messages that a read with `>` returns: the next ones not handed out yet. -/
def unread (stream : TopicStream) (topic : String) : List StreamMessage :=
  ((stream.entries.zipIdx.drop stream.delivered).take readCount).map fun (rawPayload, msgId) =>
    ⟨topic, msgId, rawPayload⟩

def deliver (stream : TopicStream) (topic : String) : TopicStream :=
  { stream with
    delivered := stream.delivered + (stream.unread topic).length
    pending := stream.pending ++ (stream.unread topic).map StreamMessage.msgId }

def xack (stream : TopicStream) (msgId : Nat) : TopicStream :=
  { stream with pending := stream.pending.filter fun other => other ≠ msgId }

end TopicStream

/-- Where the loop of the consumer stands. A batch is kept without the messages that
have been dealt with; the handlers of a message are listed when it is taken up. -/
inductive ConsumerPhase (η π : Type) where
  | reading
  | polling (topics : List String)
  | processing (batch : List StreamMessage)
  | calling (message : StreamMessage) (payload : π) (handlers : List η)
      (rest : List StreamMessage)

/-- A call of a handler, which returned or raised. -/
structure Handling (η π : Type) where
  topic : String
  msgId : Nat
  handler : η
  payload : π
  returned : Bool

inductive BusAction (η : Type) where
  | publish (topic : String) (rawPayload : Option (List UInt8))
  | subscribe (topic : String) (handler : η)
  | advance (returns : Bool)
  | crash
  deriving DecidableEq

/-- Redis, the process with its subscribers and its consumer, and the calls of handlers
so far. -/
structure EventBus (η π : Type) where
  streams : String → TopicStream
  subscribers : Dict String (List η)
  consumer : ConsumerPhase η π
  handled : List (Handling η π)

namespace EventBus

def empty : EventBus η π := ⟨fun _ => {}, .empty, .reading, []⟩

def publish (bus : EventBus η π) (topic : String) (rawPayload : Option (List UInt8)) :
    EventBus η π :=
  { bus with streams := Function.update bus.streams topic ((bus.streams topic).xadd rawPayload) }

/-- The handlers of a topic, in the order of their subscription. -/
def handlersOf (bus : EventBus η π) (topic : String) : List η :=
  (bus.subscribers.get? topic).getD []

def subscribe (bus : EventBus η π) (topic : String) (handler : η) : EventBus η π :=
  { bus with subscribers := bus.subscribers.set topic (bus.handlersOf topic ++ [handler]) }

/-- `XREADGROUP` over the given topics, each from `>`. -/
def xreadgroup (bus : EventBus η π) (topics : List String) : EventBus η π :=
  let batch := topics.flatMap fun topic => (bus.streams topic).unread topic
  { bus with
    streams := fun topic =>
      if topic ∈ topics then (bus.streams topic).deliver topic else bus.streams topic
    consumer := if batch = [] then .reading else .processing batch }

def xack (bus : EventBus η π) (message : StreamMessage) : EventBus η π :=
  { bus with
    streams := Function.update bus.streams message.topic
      ((bus.streams message.topic).xack message.msgId) }

/-- The next step of `_consume_loop`. An exception while a batch is processed ends
the batch; a handler that raises is passed over. -/
def consume (codec : PayloadCodec π) (bus : EventBus η π) (returns : Bool) : EventBus η π :=
  match bus.consumer with
  | .reading =>
      if bus.subscribers.keys = [] then bus
      else { bus with consumer := .polling bus.subscribers.keys }
  | .polling topics => bus.xreadgroup topics
  | .processing [] => { bus with consumer := .reading }
  | .processing (message :: rest) =>
      match codec.decode message.rawPayload with
      | none => { bus with consumer := .reading }
      | some payload =>
          { bus with consumer := .calling message payload (bus.handlersOf message.topic) rest }
  | .calling message payload (handler :: handlers) rest =>
      { bus with
        consumer := .calling message payload handlers rest
        handled := bus.handled ++ [⟨message.topic, message.msgId, handler, payload, returns⟩] }
  | .calling message _ [] rest => { bus.xack message with consumer := .processing rest }

/-- `XREADGROUP` or `XACK` raises, after it reached Redis or before. The exception ends
the batch. -/
def interrupt (bus : EventBus η π) (reached : Bool) : EventBus η π :=
  match bus.consumer with
  | .polling topics =>
      { if reached then bus.xreadgroup topics else bus with consumer := .reading }
  | .calling message _ [] _ =>
      { if reached then bus.xack message else bus with consumer := .reading }
  | _ => bus

/-- A crash loses the subscribers and the batch of the process. -/
def exec (codec : PayloadCodec π) (bus : EventBus η π) : BusAction η → EventBus η π
  | .publish topic rawPayload => bus.publish topic rawPayload
  | .subscribe topic handler => bus.subscribe topic handler
  | .advance returns => bus.consume codec returns
  | .crash => { bus with subscribers := .empty, consumer := .reading }

end EventBus

def BusStep (codec : PayloadCodec π) (before : EventBus η π) (action : BusAction η)
    (after : EventBus η π) : Prop :=
  before.exec codec action = after

end LibraFlow.Distributed
