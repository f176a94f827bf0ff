import LibraFlow.Core.Values
import LibraFlow.Library.Dict

/-! The in-memory cache: least recently used eviction and time-limited entries,
read through by cache-aside lookups. -/

set_option autoImplicit false

namespace LibraFlow.Storage

open LibraFlow.Library

structure CacheEntry (ν : Type) where
  value : ν
  expiresAt : Option ℚ
  deriving DecidableEq

namespace CacheEntry

variable {ν : Type}

/-- A missing or zero time to live means that the entry never expires. -/
def new (value : ν) (ttlSeconds : Option ℚ) (now : ℚ) : CacheEntry ν where
  value := value
  expiresAt :=
    match ttlSeconds with
    | none => none
    | some ttl => if ttl = 0 then none else some (now + ttl)

def isExpired (entry : CacheEntry ν) (now : ℚ) : Bool :=
  match entry.expiresAt with
  | none => false
  | some deadline => deadline < now

/-- An expired entry stays expired. -/
theorem isExpired_mono {entry : CacheEntry ν} {earlier later : ℚ} (ordered : earlier ≤ later)
    (expired : entry.isExpired earlier = true) : entry.isExpired later = true := by
  unfold isExpired at expired ⊢
  split at expired
  · cases expired
  · simp only [decide_eq_true_eq] at expired ⊢
    exact lt_of_lt_of_le expired ordered

end CacheEntry

/-- Entries in order of use, least recently used first. -/
structure InMemoryCache (ν : Type) where
  capacity : Nat
  entries : Dict String (CacheEntry ν)
  hits : Nat
  misses : Nat
  deriving DecidableEq

namespace InMemoryCache

variable {ν : Type}

def new (capacity : Nat) : InMemoryCache ν := ⟨capacity, .empty, 0, 0⟩

def get (cache : InMemoryCache ν) (key : String) (now : ℚ) : Option ν × InMemoryCache ν :=
  match cache.entries.get? key with
  | none =>
      (none, { cache with entries := cache.entries.erase key, misses := cache.misses + 1 })
  | some entry =>
      if entry.isExpired now then
        (none, { cache with entries := cache.entries.erase key, misses := cache.misses + 1 })
      else
        (some entry.value, { cache with
          entries := cache.entries.moveToEnd key
          hits := cache.hits + 1 })

def set (cache : InMemoryCache ν) (key : String) (value : ν) (ttlSeconds : Option ℚ) (now : ℚ) :
    InMemoryCache ν :=
  let room :=
    if cache.entries.contains key then cache.entries.erase key
    else if cache.capacity ≤ cache.entries.size then cache.entries.popFirst
    else cache.entries
  { cache with entries := room.set key (.new value ttlSeconds now) }

def invalidate (cache : InMemoryCache ν) (key : String) : InMemoryCache ν :=
  { cache with entries := cache.entries.erase key }

/-- Remove every key that starts with the given text. -/
def invalidatePrefix (cache : InMemoryCache ν) (start : String) : InMemoryCache ν :=
  { cache with
    entries := (cache.entries.keys.filter fun key =>
      start.toList.isPrefixOf key.toList).foldl Dict.erase cache.entries }

/-- Serve a live entry, or compute the value and keep it when there is one. -/
def getOrCompute (cache : InMemoryCache ν) (key : String) (compute : Option ν)
    (ttlSeconds : ℚ) (now : ℚ) : Option ν × InMemoryCache ν :=
  match cache.get key now with
  | (some value, after) => (some value, after)
  | (none, after) =>
      match compute with
      | none => (none, after)
      | some value => (some value, after.set key value (some ttlSeconds) now)

/-- The value a lookup would serve, without the bookkeeping. -/
def live? (cache : InMemoryCache ν) (key : String) (now : ℚ) : Option ν :=
  match cache.entries.get? key with
  | none => none
  | some entry => if entry.isExpired now then none else some entry.value

section Laws

variable {cache : InMemoryCache ν} {key other : String} {value : ν} {now later : ℚ}

theorem live?_eq_some_iff : cache.live? key now = some value ↔
    ∃ entry, cache.entries.get? key = some entry ∧ entry.isExpired now = false ∧
      entry.value = value := by
  unfold live?
  cases found : cache.entries.get? key with
  | none => simp
  | some entry => cases expired : entry.isExpired now <;> simp [expired]

@[simp] theorem get_fst : (cache.get key now).1 = cache.live? key now := by
  unfold get live?
  cases cache.entries.get? key with
  | none => rfl
  | some entry => cases expired : entry.isExpired now <;> simp [expired]

/-- What is served later could have been served earlier. -/
theorem live?_mono (ordered : now ≤ later) (served : cache.live? key later = some value) :
    cache.live? key now = some value := by
  obtain ⟨entry, found, valid, rfl⟩ := live?_eq_some_iff.mp served
  refine live?_eq_some_iff.mpr ⟨entry, found, ?_, rfl⟩
  by_contra expired
  rw [Bool.not_eq_false] at expired
  rw [CacheEntry.isExpired_mono ordered expired] at valid
  cases valid

/-- A cache that holds no more than another serves no more. -/
theorem live?_of_subset {smaller : InMemoryCache ν}
    (subset : ∀ entry, smaller.entries.get? key = some entry → cache.entries.get? key = some entry)
    (served : smaller.live? key now = some value) : cache.live? key now = some value := by
  obtain ⟨entry, found, facts⟩ := live?_eq_some_iff.mp served
  exact live?_eq_some_iff.mpr ⟨entry, subset entry found, facts⟩

theorem live?_invalidate : (cache.invalidate key).live? other now =
    if key = other then none else cache.live? other now := by
  by_cases same : key = other <;> simp [live?, invalidate, Dict.get?_erase, same]

theorem live?_invalidatePrefix {start : String}
    (served : (cache.invalidatePrefix start).live? key now = some value) :
    cache.live? key now = some value := by
  refine live?_of_subset (fun entry found => ?_) served
  simp only [invalidatePrefix, Dict.get?_foldl_erase] at found
  split at found
  · cases found
  · exact found

/-- A cache-aside lookup serves the live entry, or else the computed value. -/
theorem getOrCompute_fst (compute : Option ν) (ttlSeconds : ℚ) :
    (cache.getOrCompute key compute ttlSeconds now).1 =
      match cache.live? key now with
      | some value => some value
      | none => compute := by
  unfold getOrCompute get live?
  cases cache.entries.get? key with
  | none => cases compute <;> rfl
  | some entry => cases expired : entry.isExpired now <;> cases compute <;> simp [expired]

theorem get_subset {entry : CacheEntry ν}
    (found : (cache.get key now).2.entries.get? other = some entry) :
    cache.entries.get? other = some entry := by
  have kept : ∀ entries : Dict String (CacheEntry ν),
      (entries.erase key).get? other = some entry → entries.get? other = some entry := by
    intro entries present
    rw [Dict.get?_erase] at present
    split at present
    · cases present
    · exact present
  unfold get at found
  split at found
  · exact kept _ found
  · split at found
    · exact kept _ found
    · rwa [Dict.get?_moveToEnd] at found

theorem set_subset {fresh : ν} {ttlSeconds : Option ℚ} {entry : CacheEntry ν}
    (different : key ≠ other)
    (found : (cache.set key fresh ttlSeconds now).entries.get? other = some entry) :
    cache.entries.get? other = some entry := by
  unfold set at found
  rw [Dict.get?_set_of_ne _ _ different] at found
  split at found
  · rwa [Dict.get?_erase, if_neg different] at found
  · split at found
    · exact Dict.get?_of_popFirst _ _ _ found
    · exact found

/-- After a cache-aside lookup the cache serves what it did before, and for the
key itself possibly the computed value. -/
theorem live?_getOrCompute {compute : Option ν} {ttlSeconds : ℚ}
    (served : (cache.getOrCompute key compute ttlSeconds now).2.live? other later = some value) :
    cache.live? other later = some value ∨ (other = key ∧ compute = some value) := by
  have subset : ∀ entry, (cache.get key now).2.entries.get? other = some entry →
      cache.entries.get? other = some entry := fun _ => get_subset
  unfold getOrCompute at served
  rcases looked : cache.get key now with ⟨_ | hit, after⟩
  · rw [looked] at served subset
    cases compute with
    | none => exact .inl (live?_of_subset subset served)
    | some computed =>
        by_cases same : key = other
        · subst other
          obtain ⟨entry, found, _, rfl⟩ := live?_eq_some_iff.mp served
          simp only [set, Dict.get?_set_self, Option.some.injEq] at found
          subst entry
          exact .inr ⟨rfl, rfl⟩
        · exact .inl (live?_of_subset
            (fun entry found => subset entry (set_subset same found)) served)
  · rw [looked] at served subset
    exact .inl (live?_of_subset subset served)

end Laws

end InMemoryCache

end LibraFlow.Storage
