import LibraFlow.Storage.RedisCache

/-! How much a Redis that is away is still asked by one call after another. The breaker lets
its threshold of lookups and writes through, and after that one for each time it has
waited; deletions go past it. -/

set_option autoImplicit false

namespace LibraFlow.Storage

open LibraFlow.Library

namespace CircuitBreaker

variable {α ε : Type}

/-- A call whose answers are turned into others. -/
def Call.map {β : Type} (request : Call α ε) (f : α → β) : Call β ε where
  now := request.now
  later := request.later
  operation := request.operation.map f
  fallback := request.fallback.map fun given => given.map f

/-- The operations that the calls of a run have executed. -/
def executions (trace : List (Transition (CircuitBreaker ε) (Call α ε))) : Nat :=
  trace.countP fun taken => taken.before.executes taken.label

/-- A call that lies in a period, and fails as expected when it is executed. -/
structure FailsWithin (since latest : ℚ) (taken : Transition (CircuitBreaker ε) (Call α ε)) :
    Prop where
  begins : since ≤ taken.label.now
  forward : taken.label.now ≤ taken.label.later
  ends : taken.label.later ≤ latest
  fails : taken.before.failsExpectedly taken.label = true

/-- A closed breaker has failures left, and none has tripped after the given time. -/
structure Sound (latest : ℚ) (breaker : CircuitBreaker ε) : Prop where
  positive : 1 ≤ breaker.failureThreshold
  patient : 0 ≤ breaker.recoveryTimeout
  closed : breaker.state = .closed → breaker.failureCount < breaker.failureThreshold
  past : breaker.lastStateChange ≤ latest

/-- What the operations executed in a period have done to the breaker. -/
def Loaded (since : ℚ) (executed : Nat) (breaker : CircuitBreaker ε) : Prop :=
  match breaker.state with
  | .closed => executed ≤ breaker.failureCount
  | .opened => executed = 0 ∨ executed * breaker.recoveryTimeout ≤
      breaker.failureThreshold * breaker.recoveryTimeout + (breaker.lastStateChange - since)
  | .halfOpen => executed = 0

section Calls

variable {since latest : ℚ} {executed : Nat} {before after : CircuitBreaker ε}
  {request : Call α ε}

private theorem allow_opened (opened : before.state = .opened)
    (executed : before.executes request = true) :
    before.recoveryTimeout ≤ request.now - before.lastStateChange ∧
      (before.allow request.now).2 = { before with state := .halfOpen } := by
  unfold executes allow at executed
  unfold allow
  rw [if_pos opened] at executed ⊢
  split at executed
  · next waited =>
      rw [if_pos waited]
      exact ⟨waited, rfl⟩
  · cases executed

private theorem allow_not_opened (notOpened : before.state ≠ .opened) (now : ℚ) :
    (before.allow now).2 = before := by
  rw [allow, if_neg notOpened]

/-- An expected failure keeps the counter below the threshold, or trips the breaker. -/
theorem onFailure_cases (breaker : CircuitBreaker ε) (now : ℚ) :
    (breaker.state ≠ .halfOpen ∧ breaker.failureCount + 1 < breaker.failureThreshold ∧
        breaker.onFailure now = { breaker with failureCount := breaker.failureCount + 1 }) ∨
      breaker.onFailure now = { breaker with
        failureCount := breaker.failureCount + 1
        state := .opened
        lastStateChange := now } := by
  simp only [onFailure]
  split
  · exact .inr rfl
  · next continues =>
      rw [not_or, not_le] at continues
      exact .inl ⟨continues.2, continues.1, rfl⟩

theorem Sound.onFailure (sound : before.Sound latest) (reached : request.later ≤ latest)
    (executed : before.executes request = true) :
    ((before.allow request.now).2.onFailure request.later).Sound latest := by
  have settings := allow_settings before request.now
  obtain ⟨notOpened, _⟩ := allow_executed executed
  generalize (before.allow request.now).2 = admitted at settings notOpened ⊢
  obtain ⟨_, count, same⟩ | same := onFailure_cases admitted request.later
  · rw [same]
    refine ⟨?_, ?_, fun _ => count, ?_⟩
    all_goals rw [settings]
    · exact sound.positive
    · exact sound.patient
    · exact sound.past
  · rw [same]
    refine ⟨?_, ?_, fun impossible => (by cases impossible), reached⟩
    all_goals rw [settings]
    · exact sound.positive
    · exact sound.patient

theorem Sound.called (sound : before.Sound latest) (called : Called before request after)
    (reached : request.later ≤ latest) : after.Sound latest := by
  cases called with
  | refused => exact sound
  | succeeded executed returned =>
      have settings := allow_settings before request.now
      generalize (before.allow request.now).2 = admitted at settings ⊢
      have positive : 1 ≤ admitted.failureThreshold := settings ▸ sound.positive
      refine ⟨positive, ?_, fun _ => positive, ?_⟩
      · exact settings ▸ sound.patient
      · exact settings ▸ sound.past
  | failed executed => exact sound.onFailure reached executed
  | unexpected executed =>
      obtain ⟨_, closed⟩ := allow_executed executed
      have settings := allow_settings before request.now
      generalize (before.allow request.now).2 = admitted at settings closed ⊢
      refine ⟨?_, ?_, fun still => ?_, ?_⟩
      · exact settings ▸ sound.positive
      · exact settings ▸ sound.patient
      · rw [settings]
        exact sound.closed (closed.mp still)
      · exact settings ▸ sound.past

theorem Loaded.zero (since : ℚ) (breaker : CircuitBreaker ε) : Loaded since 0 breaker := by
  unfold Loaded
  cases breaker.state with
  | closed => exact Nat.zero_le _
  | opened => exact .inl rfl
  | halfOpen => rfl

/-- An operation that is executed and fails. Only the breaker's own waiting time separates
two executions after the threshold is reached. -/
theorem Loaded.execute (loaded : Loaded since executed before) (sound : before.Sound latest)
    (begins : since ≤ request.now) (forward : request.now ≤ request.later)
    (runs : before.executes request = true) :
    Loaded since (executed + 1) ((before.allow request.now).2.onFailure request.later) := by
  have patient := sound.patient
  have positive : (1 : ℚ) ≤ before.failureThreshold := mod_cast sound.positive
  have first : before.recoveryTimeout ≤ before.failureThreshold * before.recoveryTimeout :=
    le_mul_of_one_le_left patient positive
  cases state : before.state with
  | closed =>
      rw [allow_not_opened (by simp [state])]
      simp only [Loaded, state] at loaded
      obtain ⟨_, _, same⟩ | same := onFailure_cases before request.later
      · simp only [same, Loaded, state]
        exact Nat.succ_le_succ loaded
      · simp only [same, Loaded]
        have left := sound.closed state
        have counted : ((executed + 1 : Nat) : ℚ) ≤ before.failureThreshold := by
          exact_mod_cast (by omega : executed + 1 ≤ before.failureThreshold)
        have scaled := mul_le_mul_of_nonneg_right counted patient
        exact .inr (by linarith)
  | opened =>
      obtain ⟨waited, admitted⟩ := allow_opened state runs
      simp only [Loaded, state] at loaded
      rw [admitted]
      obtain ⟨impossible, _⟩ | same := onFailure_cases
        { before with state := .halfOpen } request.later
      · exact absurd rfl impossible
      · simp only [same, Loaded]
        refine .inr ?_
        push_cast
        obtain rfl | spent := loaded
        · simp only [Nat.cast_zero, zero_add, one_mul]
          linarith
        · linarith
  | halfOpen =>
      rw [allow_not_opened (by simp [state])]
      simp only [Loaded, state] at loaded
      subst executed
      obtain ⟨impossible, _⟩ | same := onFailure_cases before request.later
      · exact absurd state impossible
      · simp only [same, Loaded]
        refine .inr ?_
        simp only [zero_add, Nat.cast_one, one_mul]
        linarith

theorem Loaded.bound (loaded : Loaded since executed before) (sound : before.Sound latest)
    (order : since ≤ latest) :
    executed * before.recoveryTimeout ≤
      before.failureThreshold * before.recoveryTimeout + (latest - since) := by
  have patient := sound.patient
  have product : 0 ≤ before.failureThreshold * before.recoveryTimeout := by positivity
  have past := sound.past
  cases state : before.state with
  | closed =>
      simp only [Loaded, state] at loaded
      have counted : (executed : ℚ) ≤ before.failureThreshold := by
        exact_mod_cast loaded.trans (sound.closed state).le
      have scaled := mul_le_mul_of_nonneg_right counted patient
      linarith
  | opened =>
      simp only [Loaded, state] at loaded
      obtain rfl | spent := loaded
      · simp only [Nat.cast_zero, zero_mul]
        linarith
      · linarith
  | halfOpen =>
      simp only [Loaded, state] at loaded
      subst executed
      simp only [Nat.cast_zero, zero_mul]
      linarith

/-- Once the waiting time is over, the next call runs its operation. -/
theorem Sound.recovers (sound : before.Sound latest)
    (waited : latest + before.recoveryTimeout ≤ request.now) :
    before.executes request = true := by
  have past := sound.past
  unfold executes allow
  split
  · rw [if_pos (by linarith)]
  · rfl

end Calls

section Runs

variable {since latest : ℚ} {start final : CircuitBreaker ε}
  {trace : List (Transition (CircuitBreaker ε) (Call α ε))}

theorem Sound.run (sound : start.Sound latest) (run : Run Step start trace final)
    (reached : ∀ taken ∈ trace, taken.label.later ≤ latest) : final.Sound latest := by
  refine run.invariant reached sound ?_
  intro before request after sound taken ends
  exact sound.called taken.called ends

private theorem executions_snoc (taken : Transition (CircuitBreaker ε) (Call α ε)) :
    executions (trace ++ [taken]) =
      executions trace + if taken.before.executes taken.label then 1 else 0 := by
  simp [executions, List.countP_append, List.countP_cons]

/-- The load of a period in which everything fails. -/
theorem Loaded.run (sound : start.Sound latest) (run : Run Step start trace final)
    (fails : ∀ taken ∈ trace, FailsWithin since latest taken) :
    Loaded since (executions trace) final := by
  induction run with
  | nil => exact .zero since start
  | @snoc trace before after request earlier taken ih =>
      have passed := fun taken member => fails taken (List.mem_append_left _ member)
      have loaded := ih passed
      have sound : before.Sound latest := sound.run earlier fun taken member =>
        (passed taken member).ends
      have last := fails ⟨before, request, after⟩ (by simp)
      rw [executions_snoc]
      cases taken.called with
      | refused executed =>
          simp only [executed, Bool.false_eq_true, ↓reduceIte, Nat.add_zero]
          exact loaded
      | succeeded executed returned =>
          have failing := last.fails
          simp [failsExpectedly, returned] at failing
      | failed executed raised expected =>
          simp only [executed, ↓reduceIte]
          exact loaded.execute sound last.begins last.forward executed
      | unexpected executed raised unexpected =>
          have failing := last.fails
          simp [failsExpectedly, raised, unexpected] at failing

end Runs

end CircuitBreaker

/-- A call of one process, and the keys that Redis has at the time. A deletion by prefix
sends a scan and, when that finds keys, the deletion of them. -/
inductive CacheRequest (ν : Type) where
  | lookUp (key : String) (keyspace : Keyspace) (exchange : Exchange)
  | store (key : String) (value : Option ν) (ttlSeconds : Option ℚ) (keyspace : Keyspace)
      (exchange : Exchange)
  | invalidate (key : String) (keyspace : Keyspace) (exchange : Exchange)
  | invalidatePrefix (start : String) (keyspace : Keyspace) (exchange : Exchange)
      (deleteFate : CommandFate)

namespace CacheRequest

variable {ν : Type}

def exchange : CacheRequest ν → Exchange
  | .lookUp _ _ exchange | .store _ _ _ _ exchange | .invalidate _ _ exchange
  | .invalidatePrefix _ _ exchange _ => exchange

/-- What the breaker gets to see of a request; it sees nothing of a deletion. -/
def call? (codec : Codec ν) :
    CacheRequest ν → Option (CircuitBreaker.Call (Option String) RedisError)
  | .lookUp key keyspace exchange => some (RedisCache.readRequest keyspace key exchange)
  | .store key value ttlSeconds keyspace exchange =>
      some ((RedisCache.writeRequest (keyspace.write key (codec.serialize value)
        (ttlSeconds.map truncate) exchange.now exchange.fate).1 exchange).map fun _ => none)
  | .invalidate .. | .invalidatePrefix .. => none

/-- A deletion reports that a key was there; the other calls report nothing. -/
def deleted : CacheRequest ν → Bool
  | .lookUp .. | .store .. => false
  | .invalidate key keyspace exchange =>
      (RedisCache.invalidate keyspace key exchange.now exchange.fate).1
  | .invalidatePrefix start keyspace exchange deleteFate =>
      (RedisCache.invalidatePrefix keyspace start exchange.now exchange.fate deleteFate).1

variable {codec : Codec ν} {request : CacheRequest ν}
  {call : CircuitBreaker.Call (Option String) RedisError}

end CacheRequest

namespace RedisCache

variable {ν : Type} {codec : Codec ν} {start before after final : RedisCache}
  {request : CacheRequest ν} {trace : List (Transition RedisCache (CacheRequest ν))}

/-- Whether a lookup or a write reaches Redis. -/
def sends (codec : Codec ν) (cache : RedisCache) (request : CacheRequest ν) : Bool :=
  ((request.call? codec).map cache.breaker.executes).getD false

/-- The calls of a run as the breaker goes through them. -/
def guarded (codec : Codec ν) (trace : List (Transition RedisCache (CacheRequest ν))) :
    List (Transition (CircuitBreaker RedisError)
      (CircuitBreaker.Call (Option String) RedisError)) :=
  Run.partTrail RedisCache.breaker (CacheRequest.call? codec) trace

end RedisCache

end LibraFlow.Storage
