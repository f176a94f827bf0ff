import LibraFlow.Library.Dict
import LibraFlow.Storage.CircuitBreaker
import Mathlib.Algebra.Order.Floor.Ring
import Mathlib.Data.Rat.Floor

/-! The cache kept in Redis. Lookups and writes go through a circuit breaker and turn
into misses and no-ops when Redis fails. Deletions go past the breaker, and a failed one
leaves the entry where it is. -/

set_option autoImplicit false

namespace LibraFlow.Storage

open LibraFlow.Library

/-- What becomes of a command. In the last two cases the client gets an exception. -/
inductive CommandFate where
  | answered
  | replyLost
  | notExecuted
  deriving DecidableEq

/-- The exceptions that Redis raises: it does not answer, or refuses a time to live. -/
inductive RedisError where
  | connection
  | invalidExpire
  deriving DecidableEq

structure RedisEntry where
  payload : String
  expiresAt : Option ℚ
  deriving DecidableEq

def RedisEntry.isLive (entry : RedisEntry) (now : ℚ) : Bool :=
  match entry.expiresAt with
  | none => true
  | some deadline => now < deadline

/-- The keys of a Redis with their entries. -/
abbrev Keyspace := Dict String RedisEntry

namespace Keyspace

/-- The payload under a key, unless it has expired. -/
def find? (keyspace : Keyspace) (key : String) (now : ℚ) : Option String :=
  ((Dict.get? keyspace key).filter fun entry => entry.isLive now).map RedisEntry.payload

def get (keyspace : Keyspace) (key : String) (now : ℚ) (fate : CommandFate) :
    Except RedisError (Option String) :=
  match fate with
  | .answered => .ok (keyspace.find? key now)
  | .replyLost | .notExecuted => .error .connection

/-- `SETEX`, or `SET` without a time to live. A time to live has to be positive. -/
def write (keyspace : Keyspace) (key payload : String) (seconds : Option Int) (now : ℚ)
    (fate : CommandFate) : Except RedisError Unit × Keyspace :=
  let refused := seconds.any fun seconds => decide (seconds ≤ 0)
  let entry : RedisEntry := ⟨payload, seconds.map fun seconds => now + seconds⟩
  let stored := if refused then keyspace else Dict.set keyspace key entry
  match fate with
  | .answered => (if refused then .error .invalidExpire else .ok (), stored)
  | .replyLost => (.error .connection, stored)
  | .notExecuted => (.error .connection, keyspace)

/-- `DEL`, with whether the client learns that a key was there. -/
def delete (keyspace : Keyspace) (keys : List String) (now : ℚ) (fate : CommandFate) :
    Bool × Keyspace :=
  match fate with
  | .answered => (keys.any fun key => (keyspace.find? key now).isSome,
      keys.foldl Dict.erase keyspace)
  | .replyLost => (false, keys.foldl Dict.erase keyspace)
  | .notExecuted => (false, keyspace)

/-- The keys that start with the given text. -/
def scan (keyspace : Keyspace) (start : String) : List String :=
  keyspace.keys.filter fun key => start.toList.isPrefixOf key.toList

end Keyspace

namespace Keyspace

variable {keyspace : Keyspace} {key other start : String} {entry : RedisEntry} {now : ℚ}

theorem find?_eq_some {payload : String} (found : keyspace.find? key now = some payload) :
    ∃ entry, Dict.get? keyspace key = some entry ∧ entry.isLive now = true ∧
      entry.payload = payload := by
  obtain ⟨entry, kept, same⟩ := Option.map_eq_some_iff.mp found
  obtain ⟨present, live⟩ := Option.filter_eq_some_iff.mp kept
  exact ⟨entry, present, live, same⟩

/-- Deleting keys leaves no entry that was not there. -/
theorem delete_subset {keys : List String} {fate : CommandFate}
    (present : Dict.get? (keyspace.delete keys now fate).2 key = some entry) :
    Dict.get? keyspace key = some entry := by
  have erased : Dict.get? (keys.foldl Dict.erase keyspace) key = some entry →
      Dict.get? keyspace key = some entry := by
    intro kept
    rw [Dict.get?_foldl_erase] at kept
    split at kept
    · cases kept
    · exact kept
  cases fate with
  | answered | replyLost => exact erased present
  | notExecuted => exact present

/-- After a write an entry is an old one or the one written. -/
theorem write_subset {payload : String} {seconds : Option Int} {fate : CommandFate}
    (present : Dict.get? (keyspace.write key payload seconds now fate).2 other = some entry) :
    Dict.get? keyspace other = some entry ∨
      other = key ∧ entry = ⟨payload, seconds.map fun seconds => now + seconds⟩ := by
  have stored : ∀ refused : Bool, Dict.get? (if refused then keyspace else
        Dict.set keyspace key ⟨payload, seconds.map fun seconds => now + seconds⟩) other =
        some entry → Dict.get? keyspace other = some entry ∨
      other = key ∧ entry = ⟨payload, seconds.map fun seconds => now + seconds⟩ := by
    intro refused kept
    cases refused with
    | true => exact .inl kept
    | false =>
        rw [if_neg Bool.false_ne_true, Dict.get?_set] at kept
        split at kept
        · next same => exact .inr ⟨same.symm, (Option.some.inj kept).symm⟩
        · exact .inl kept
  cases fate with
  | answered | replyLost => exact stored _ present
  | notExecuted => exact .inl present

end Keyspace

/-- How values are written as text and read back; `none` stands for `None`. -/
structure Codec (ν : Type) where
  serialize : Option ν → String
  deserialize : String → Option ν

/-- A value that survives being written and read back. -/
def Codec.Faithful {ν : Type} (codec : Codec ν) (value : ν) : Prop :=
  codec.deserialize (codec.serialize (some value)) = some value

/-- A command: when it is sent, when the client is done with it, and what becomes of it. -/
structure Exchange where
  now : ℚ
  later : ℚ
  fate : CommandFate

/-- The client of one process. The settings of its breaker never change. -/
structure RedisCache where
  hits : Nat
  misses : Nat
  breaker : CircuitBreaker RedisError
  settings : breaker.settings = (3, 5, fun _ => true)

/-- `int()` of a number of seconds. -/
def truncate (seconds : ℚ) : Int := if 0 ≤ seconds then ⌊seconds⌋ else ⌈seconds⌉

namespace RedisCache

open CircuitBreaker

variable {ν : Type}

def new (now : ℚ) : RedisCache where
  hits := 0
  misses := 0
  breaker := .new "redis_cache" 3 5 (fun _ => true) now
  settings := rfl

private theorem settings_call {α ε : Type} (breaker : CircuitBreaker ε) (request : Call α ε) :
    (breaker.call request).2.settings = breaker.settings :=
  (Step.called (rfl : Step breaker request _)).settings

/-- The cache after a call of its breaker. -/
def afterCall {α : Type} (cache : RedisCache) (request : Call α RedisError) : RedisCache :=
  { cache with
    breaker := (cache.breaker.call request).2
    settings := (settings_call cache.breaker request).trans cache.settings }

def readRequest (keyspace : Keyspace) (key : String) (exchange : Exchange) :
    Call (Option String) RedisError where
  now := exchange.now
  later := exchange.later
  operation := keyspace.get key exchange.now exchange.fate
  fallback := some (.ok none)

/-- A lookup counts as a hit when Redis answers with a payload, whatever it stands for. -/
def isHit (cache : RedisCache) (request : Call (Option String) RedisError) : Bool :=
  match request.operation with
  | .ok (some _) => cache.breaker.executes request
  | _ => false

def get (codec : Codec ν) (cache : RedisCache) (keyspace : Keyspace) (key : String)
    (exchange : Exchange) : Except (CallError RedisError) (Option ν) × RedisCache :=
  let request := readRequest keyspace key exchange
  let after := cache.afterCall request
  ((cache.breaker.call request).1.map fun raw => raw.bind codec.deserialize,
    if cache.isHit request then { after with hits := after.hits + 1 }
    else { after with misses := after.misses + 1 })

def writeRequest (operation : Except RedisError Unit) (exchange : Exchange) :
    Call Unit RedisError where
  now := exchange.now
  later := exchange.later
  operation := operation
  fallback := some (.ok ())

def set (codec : Codec ν) (cache : RedisCache) (keyspace : Keyspace) (key : String)
    (value : Option ν) (ttlSeconds : Option ℚ) (exchange : Exchange) :
    Except (CallError RedisError) Unit × RedisCache × Keyspace :=
  let written := keyspace.write key (codec.serialize value) (ttlSeconds.map truncate)
    exchange.now exchange.fate
  let request := writeRequest written.1 exchange
  ((cache.breaker.call request).1, cache.afterCall request,
    if cache.breaker.executes request then written.2 else keyspace)

def invalidate (keyspace : Keyspace) (key : String) (now : ℚ) (fate : CommandFate) :
    Bool × Keyspace :=
  keyspace.delete [key] now fate

/-- Delete the keys that a scan finds; an exception of the scan ends the call. -/
def invalidatePrefix (keyspace : Keyspace) (start : String) (now : ℚ)
    (scanFate deleteFate : CommandFate) : Bool × Keyspace :=
  match scanFate, keyspace.scan start with
  | .answered, first :: rest => keyspace.delete (first :: rest) now deleteFate
  | _, _ => (false, keyspace)

/-- Serve what Redis has, or compute the value and keep it when there is one. -/
def getOrCompute (codec : Codec ν) (cache : RedisCache) (keyspace : Keyspace) (key : String)
    (compute : Option ν) (ttlSeconds : ℚ) (lookup store : Exchange) :
    Except (CallError RedisError) (Option ν) × RedisCache × Keyspace :=
  match cache.get codec keyspace key lookup with
  | (.error error, looked) => (.error error, looked, keyspace)
  | (.ok (some value), looked) => (.ok (some value), looked, keyspace)
  | (.ok none, looked) =>
      match compute with
      | none => (.ok none, looked, keyspace)
      | some value =>
          match looked.set codec keyspace key (some value) (some ttlSeconds) store with
          | (.error error, after) => (.error error, after)
          | (.ok (), after) => (.ok (some value), after)

section Laws

variable {codec : Codec ν} {cache : RedisCache} {keyspace : Keyspace} {key : String}

theorem expectedExceptions (cache : RedisCache) (error : RedisError) :
    cache.breaker.expectedExceptions error = true :=
  congrArg (fun settings => settings.2.2 error) cache.settings

/-- A call that has a fallback and fails with expected exceptions only never raises. -/
theorem call_answer {α : Type} (cache : RedisCache) (request : Call α RedisError) {default : α}
    (fallback : request.fallback = some (.ok default)) :
    (cache.breaker.call request).1 = .ok
      (match request.operation with
        | .ok value => if cache.breaker.executes request then value else default
        | .error _ => default) := by
  have admitted : ∀ error, (cache.breaker.allow request.now).2.expectedExceptions error = true := by
    intro error
    rw [allow_settings]
    exact cache.expectedExceptions error
  unfold CircuitBreaker.call executes
  rcases admission : cache.breaker.allow request.now with ⟨allowed, breaker⟩
  rw [admission] at admitted
  cases allowed with
  | false =>
      cases request.operation with
      | ok value => simp [fallBack, fallback]
      | error error => simp [fallBack, fallback]
  | true =>
      cases operation : request.operation with
      | ok value => simp
      | error error =>
          have expected : breaker.expectedExceptions error = true := admitted error
          simp [expected, fallBack, fallback]

/-- What a lookup answers: it never raises. -/
theorem get_answer (exchange : Exchange) : (cache.get codec keyspace key exchange).1 = .ok
    (if cache.isHit (readRequest keyspace key exchange) then
      (keyspace.find? key exchange.now).bind codec.deserialize
    else none) := by
  unfold get isHit
  simp only [call_answer cache (readRequest keyspace key exchange) rfl, Except.map]
  cases fate : exchange.fate with
  | answered =>
      simp only [readRequest, Keyspace.get, fate]
      cases found : keyspace.find? key exchange.now with
      | none => simp
      | some payload => split <;> simp
  | replyLost | notExecuted => simp [readRequest, Keyspace.get, fate]

theorem set_answer (value : Option ν) (ttlSeconds : Option ℚ) (exchange : Exchange) :
    (cache.set codec keyspace key value ttlSeconds exchange).1 = .ok () := by
  unfold set
  simp only [call_answer cache (writeRequest _ exchange) rfl]

theorem invalidatePrefix_subset {start : String} {now : ℚ} {scanFate deleteFate : CommandFate}
    {entry : RedisEntry}
    (present : Dict.get? (invalidatePrefix keyspace start now scanFate deleteFate).2 key =
      some entry) : Dict.get? keyspace key = some entry := by
  unfold invalidatePrefix at present
  split at present
  · exact Keyspace.delete_subset present
  · exact present

theorem set_subset {value : Option ν} {ttlSeconds : Option ℚ} {exchange : Exchange}
    {other : String} {entry : RedisEntry}
    (present : Dict.get? (cache.set codec keyspace key value ttlSeconds exchange).2.2 other =
      some entry) :
    Dict.get? keyspace other = some entry ∨
      other = key ∧ entry = ⟨codec.serialize value,
        (ttlSeconds.map truncate).map fun seconds => exchange.now + seconds⟩ := by
  simp only [set] at present
  split at present
  · exact Keyspace.write_subset present
  · exact .inl present

end Laws

end RedisCache

end LibraFlow.Storage
