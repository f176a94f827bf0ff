import LibraFlow.Library.Recency
import LibraFlow.Library.Run
import LibraFlow.Storage.Cache
import Mathlib.Data.Finset.Card

/-! Sequences of calls on the in-memory cache. The keys it holds are in the order of
their last touch, and each entry comes from the latest call that set its key. -/

set_option autoImplicit false

namespace LibraFlow.Storage

open LibraFlow.Library

inductive CacheCall (ν : Type) where
  | get (key : String) (now : ℚ)
  | set (key : String) (value : ν) (ttlSeconds : Option ℚ) (now : ℚ)
  | invalidate (key : String) (now : ℚ)
  | invalidatePrefix (start : String) (now : ℚ)

abbrev CacheTrace (ν : Type) := List (Transition (InMemoryCache ν) (CacheCall ν))

namespace CacheCall

variable {ν : Type}

def now : CacheCall ν → ℚ
  | get _ now | set _ _ _ now | invalidate _ now | invalidatePrefix _ now => now

def exec (cache : InMemoryCache ν) : CacheCall ν → InMemoryCache ν
  | get key now => (cache.get key now).2
  | set key value ttlSeconds now => cache.set key value ttlSeconds now
  | invalidate key _ => cache.invalidate key
  | invalidatePrefix start _ => cache.invalidatePrefix start

def isGet : CacheCall ν → Bool
  | get .. => true
  | _ => false

def keySet? : CacheCall ν → Option String
  | set key .. => some key
  | _ => none

def answer (cache : InMemoryCache ν) : CacheCall ν → Option ν
  | get key now => (cache.get key now).1
  | _ => none

/-- The key that a call sets or hits: a hit is a get that answers. -/
def touched? (cache : InMemoryCache ν) : CacheCall ν → Option String
  | get key now => (cache.get key now).1.map fun _ => key
  | set key .. => some key
  | _ => none

def Invalidates (key : String) : CacheCall ν → Prop
  | invalidate other _ => other = key
  | invalidatePrefix start _ => start.toList <+: key.toList
  | _ => False

/-- What an earlier call set under the key is no longer to be served. -/
def Supersedes (key : String) (call : CacheCall ν) : Prop :=
  call.keySet? = some key ∨ call.Invalidates key

/-- A time to live is missing or positive. -/
def TtlAllowed : CacheCall ν → Prop
  | set _ _ ttlSeconds _ => ∀ seconds, ttlSeconds = some seconds → 0 < seconds
  | _ => True

/-- The call neither invalidates nor finds an expired entry. -/
def Quiet (cache : InMemoryCache ν) : CacheCall ν → Prop
  | get key now => ∀ entry, cache.entries.get? key = some entry → entry.isExpired now = false
  | set .. => True
  | _ => False

end CacheCall

section Histories

variable {ν : Type}

def CacheStep (before : InMemoryCache ν) (call : CacheCall ν) (after : InMemoryCache ν) : Prop :=
  call.exec before = after

def calls (trace : CacheTrace ν) : List (CacheCall ν) := trace.map Transition.label

def keysSet (trace : CacheTrace ν) : List String := (calls trace).filterMap CacheCall.keySet?

/-- The keys set or hit, one entry for each time. -/
def touches (trace : CacheTrace ν) : List String :=
  trace.filterMap fun transition => transition.label.touched? transition.before

/-- The latest call that set the key, with no invalidation after it. -/
def LastSet (history : List (CacheCall ν)) (key : String) (value : ν) (ttlSeconds : Option ℚ)
    (time : ℚ) : Prop :=
  ∃ earlier since, history = earlier ++ .set key value ttlSeconds time :: since ∧
    ∀ call ∈ since, ¬ call.Supersedes key

/-- The value was set last under the key and its time to live has not passed. -/
def Current (history : List (CacheCall ν)) (key : String) (value : ν) (now : ℚ) : Prop :=
  ∃ ttlSeconds time, LastSet history key value ttlSeconds time ∧
    ∀ seconds, ttlSeconds = some seconds → now ≤ time + seconds

/-- A new key is set while the cache is full, and the evicted key is the one whose last
touch is oldest. -/
def Evicts (leading : CacheTrace ν) (cache : InMemoryCache ν) (key : String)
    (call : CacheCall ν) : Prop :=
  (∃ fresh, call.keySet? = some fresh ∧ cache.entries.get? fresh = none) ∧
    cache.entries.size = cache.capacity ∧
    ∀ other ∈ cache.entries.keys, other ≠ key → Recency.TouchedBefore (touches leading) key other

private theorem touches_snoc (trace : CacheTrace ν)
    (transition : Transition (InMemoryCache ν) (CacheCall ν)) :
    touches (trace ++ [transition]) =
      touches trace ++ (transition.label.touched? transition.before).toList := by
  rw [touches, List.filterMap_append]
  cases found : transition.label.touched? transition.before <;> simp [touches, found]

theorem LastSet.snoc {history : List (CacheCall ν)} {key : String} {value : ν}
    {ttlSeconds : Option ℚ} {time : ℚ} {call : CacheCall ν}
    (last : LastSet history key value ttlSeconds time) (keeps : ¬ call.Supersedes key) :
    LastSet (history ++ [call]) key value ttlSeconds time := by
  obtain ⟨earlier, since, same, kept⟩ := last
  refine ⟨earlier, since ++ [call], by rw [same, List.append_assoc, List.cons_append], ?_⟩
  intro other member
  rcases List.mem_append.mp member with old | new
  · exact kept other old
  · rw [List.mem_singleton.mp new]
    exact keeps

end Histories

section Steps

variable {ν : Type} {cache : InMemoryCache ν} {key : String} {now : ℚ}

private theorem keys_get_hit {entry : CacheEntry ν} (found : cache.entries.get? key = some entry)
    (valid : entry.isExpired now = false) :
    (cache.get key now).2.entries.keys = Recency.touch key cache.entries.keys := by
  simp only [InMemoryCache.get, found, valid, Bool.false_eq_true, ↓reduceIte]
  exact Dict.keys_moveToEnd _ found

private theorem keys_get_miss (missed : cache.live? key now = none) :
    (cache.get key now).2.entries.keys =
      cache.entries.keys.filter fun other => decide (other ≠ key) := by
  unfold InMemoryCache.live? at missed
  unfold InMemoryCache.get
  cases found : cache.entries.get? key with
  | none => exact Dict.keys_erase _ _
  | some entry =>
      cases expired : entry.isExpired now with
      | true =>
          simp only [expired, ↓reduceIte]
          exact Dict.keys_erase _ _
      | false => simp [found, expired] at missed

private theorem keys_set_held {value : ν} {ttlSeconds : Option ℚ}
    (held : key ∈ cache.entries.keys) :
    (cache.set key value ttlSeconds now).entries.keys = Recency.touch key cache.entries.keys := by
  have contained : cache.entries.contains key = true := by
    rwa [Dict.contains_iff, ← Dict.mem_keys_iff]
  have gone : (cache.entries.erase key).get? key = none := by simp [Dict.get?_erase]
  simp only [InMemoryCache.set, contained, ↓reduceIte]
  rw [Dict.keys_set_fresh _ _ gone, Dict.keys_erase]
  rfl

private theorem entries_set_new {value : ν} {ttlSeconds : Option ℚ}
    (absent : key ∉ cache.entries.keys) :
    (cache.set key value ttlSeconds now).entries =
      (if cache.capacity ≤ cache.entries.size then cache.entries.popFirst
        else cache.entries).set key (.new value ttlSeconds now) := by
  have missing : cache.entries.contains key = false := by
    rw [← Bool.not_eq_true, Dict.contains_iff, ← Dict.mem_keys_iff]
    exact absent
  simp only [InMemoryCache.set, missing, Bool.false_eq_true, ↓reduceIte]

private theorem keys_set_new {value : ν} {ttlSeconds : Option ℚ}
    (absent : key ∉ cache.entries.keys) :
    (cache.set key value ttlSeconds now).entries.keys =
      (if cache.capacity ≤ cache.entries.size then cache.entries.keys.tail
        else cache.entries.keys) ++ [key] := by
  rw [entries_set_new absent]
  split
  · rw [Dict.keys_set_fresh, Dict.keys_popFirst]
    rw [Dict.get?_eq_none_iff, Dict.keys_popFirst]
    exact fun member => absent (List.mem_of_mem_tail member)
  · rw [Dict.keys_set_fresh]
    exact (Dict.get?_eq_none_iff _ _).mpr absent

private theorem keys_foldl_erase_sublist (keys : List String)
    (entries : Dict String (CacheEntry ν)) :
    (keys.foldl Dict.erase entries).keys.Sublist entries.keys := by
  induction keys generalizing entries with
  | nil => exact List.Sublist.refl _
  | cons first rest ih =>
      refine (ih (entries.erase first)).trans ?_
      rw [Dict.keys_erase]
      exact List.filter_sublist

/-- The keys in the order of use after a call that touches a key. -/
def reordered (keys : List String) : Option String → List String
  | none => keys
  | some key => Recency.touch key keys

private theorem keys_exec_sublist (call : CacheCall ν) :
    (call.exec cache).entries.keys.Sublist
      (reordered cache.entries.keys (call.touched? cache)) := by
  cases call with
  | get key now =>
      simp only [CacheCall.exec, CacheCall.touched?, InMemoryCache.get_fst]
      cases served : cache.live? key now with
      | none =>
          rw [keys_get_miss served]
          exact List.filter_sublist
      | some value =>
          obtain ⟨entry, found, valid, _⟩ := InMemoryCache.live?_eq_some_iff.mp served
          rw [keys_get_hit found valid]
          exact List.Sublist.refl _
  | set key value ttlSeconds now =>
      simp only [CacheCall.exec, CacheCall.touched?, reordered]
      by_cases held : key ∈ cache.entries.keys
      · rw [keys_set_held held]
      · rw [keys_set_new held, Recency.touch_fresh held]
        refine List.Sublist.append ?_ (List.Sublist.refl _)
        split
        · exact List.tail_sublist _
        · exact List.Sublist.refl _
  | invalidate key now =>
      simp only [CacheCall.exec, InMemoryCache.invalidate, CacheCall.touched?, reordered]
      rw [Dict.keys_erase]
      exact List.filter_sublist
  | invalidatePrefix start now => exact keys_foldl_erase_sublist _ _

/-- An entry is new, or was there and has not been superseded. -/
theorem entry_exec {call : CacheCall ν} {entry : CacheEntry ν}
    (found : (call.exec cache).entries.get? key = some entry) :
    (∃ value ttlSeconds time, call = .set key value ttlSeconds time ∧
      entry = .new value ttlSeconds time) ∨
    (cache.entries.get? key = some entry ∧ ¬ call.Supersedes key) := by
  cases call with
  | get other time =>
      refine .inr ⟨InMemoryCache.get_subset found, ?_⟩
      simp [CacheCall.Supersedes, CacheCall.keySet?, CacheCall.Invalidates]
  | set other value ttlSeconds time =>
      by_cases same : other = key
      · subst same
        simp only [CacheCall.exec, InMemoryCache.set, Dict.get?_set_self, Option.some.injEq] at found
        exact .inl ⟨value, ttlSeconds, time, rfl, found.symm⟩
      · refine .inr ⟨InMemoryCache.set_subset same found, ?_⟩
        simp [CacheCall.Supersedes, CacheCall.keySet?, CacheCall.Invalidates, same]
  | invalidate other time =>
      simp only [CacheCall.exec, InMemoryCache.invalidate, Dict.get?_erase] at found
      split at found
      · cases found
      · next differ =>
          refine .inr ⟨found, ?_⟩
          simp [CacheCall.Supersedes, CacheCall.keySet?, CacheCall.Invalidates, differ]
  | invalidatePrefix start time =>
      simp only [CacheCall.exec, InMemoryCache.invalidatePrefix, Dict.get?_foldl_erase] at found
      split at found
      · cases found
      · next kept =>
          refine .inr ⟨found, ?_⟩
          have held : key ∈ cache.entries.keys := (Dict.mem_keys_iff _ _).mpr ⟨entry, found⟩
          simpa [CacheCall.Supersedes, CacheCall.keySet?, CacheCall.Invalidates, held] using kept

/-- A call takes an unexpired entry away by invalidating it, or by setting a new key
while the cache is full. -/
theorem exec_gone {call : CacheCall ν} {entry : CacheEntry ν}
    (found : cache.entries.get? key = some entry) (valid : entry.isExpired call.now = false)
    (gone : (call.exec cache).entries.get? key = none) :
    call.Invalidates key ∨
      (∃ fresh, call.keySet? = some fresh ∧ cache.entries.get? fresh = none) ∧
        cache.capacity ≤ cache.entries.size ∧ ∃ rest, cache.entries.keys = key :: rest := by
  have held : key ∈ cache.entries.keys := (Dict.mem_keys_iff _ _).mpr ⟨entry, found⟩
  rw [Dict.get?_eq_none_iff] at gone
  cases call with
  | get other time =>
      exfalso
      apply gone
      simp only [CacheCall.exec]
      cases served : cache.live? other time with
      | none =>
          rw [keys_get_miss served, List.mem_filter]
          refine ⟨held, decide_eq_true fun same => ?_⟩
          subst same
          have live : cache.live? key time = some entry.value :=
            InMemoryCache.live?_eq_some_iff.mpr ⟨entry, found, valid, rfl⟩
          rw [live] at served
          cases served
      | some value =>
          obtain ⟨shown, present, live, _⟩ := InMemoryCache.live?_eq_some_iff.mp served
          rw [keys_get_hit present live]
          by_cases same : key = other <;> simp [Recency.touch, same, held]
  | set other value ttlSeconds time =>
      by_cases known : other ∈ cache.entries.keys
      · exfalso
        apply gone
        simp only [CacheCall.exec]
        rw [keys_set_held known]
        by_cases same : key = other <;> simp [Recency.touch, same, held]
      · right
        simp only [CacheCall.exec] at gone
        rw [keys_set_new known] at gone
        refine ⟨⟨other, rfl, (Dict.get?_eq_none_iff _ _).mpr known⟩, ?_⟩
        split at gone
        · next full =>
            refine ⟨full, ?_⟩
            cases listed : cache.entries.keys with
            | nil =>
                rw [listed] at held
                cases held
            | cons oldest rest =>
                rw [listed] at held gone
                rcases List.mem_cons.mp held with first | later
                · exact ⟨rest, by rw [first]⟩
                · exact absurd (List.mem_append_left _ later) gone
        · exact absurd (List.mem_append_left _ held) gone
  | invalidate other time =>
      left
      simp only [CacheCall.exec, InMemoryCache.invalidate] at gone
      rw [Dict.keys_erase, List.mem_filter, not_and, decide_eq_true_eq, not_not] at gone
      exact (gone held).symm
  | invalidatePrefix start time =>
      left
      simp only [CacheCall.exec, InMemoryCache.invalidatePrefix] at gone
      rw [← Dict.get?_eq_none_iff, Dict.get?_foldl_erase, found] at gone
      simpa [CacheCall.Invalidates, held] using gone

private theorem capacity_exec (call : CacheCall ν) :
    (call.exec cache).capacity = cache.capacity := by
  cases call with
  | get key now =>
      simp only [CacheCall.exec, InMemoryCache.get]
      split
      · rfl
      · split <;> rfl
  | set key value ttlSeconds now => rfl
  | invalidate key now => rfl
  | invalidatePrefix start now => rfl

private theorem lookups_exec (call : CacheCall ν) :
    (call.exec cache).hits + (call.exec cache).misses =
      cache.hits + cache.misses + if call.isGet then 1 else 0 := by
  cases call with
  | get key now =>
      simp only [CacheCall.exec, InMemoryCache.get, CacheCall.isGet]
      split
      · exact (Nat.add_assoc _ _ _).symm
      · split
        · exact (Nat.add_assoc _ _ _).symm
        · simp only [↓reduceIte]
          omega
  | set key value ttlSeconds now => rfl
  | invalidate key now => rfl
  | invalidatePrefix start now => rfl

private theorem hits_exec (call : CacheCall ν) :
    (call.exec cache).hits = cache.hits + if (call.answer cache).isSome then 1 else 0 := by
  cases call with
  | get key now =>
      have counted : (cache.get key now).2.hits =
          cache.hits + (cache.live? key now).isSome.toNat := by
        unfold InMemoryCache.get InMemoryCache.live?
        cases cache.entries.get? key with
        | none => rfl
        | some entry => cases expired : entry.isExpired now <;> simp [expired]
      simp only [CacheCall.exec, CacheCall.answer, InMemoryCache.get_fst, counted, Bool.toNat]
      cases (cache.live? key now).isSome <;> rfl
  | set key value ttlSeconds now => rfl
  | invalidate key now => rfl
  | invalidatePrefix start now => rfl

private theorem size_eq_length_keys (entries : Dict String (CacheEntry ν)) :
    entries.size = entries.keys.length :=
  (List.length_map Prod.fst).symm

private theorem size_exec_le (call : CacheCall ν) (positive : 1 ≤ cache.capacity)
    (bounded : cache.entries.size ≤ cache.capacity) :
    (call.exec cache).entries.size ≤ cache.capacity := by
  rw [size_eq_length_keys] at bounded ⊢
  have distinct : cache.entries.keys.Nodup := cache.entries.keysNodup
  have smaller := (@keys_exec_sublist _ cache call).length_le
  cases call with
  | get key now =>
      simp only [CacheCall.touched?, InMemoryCache.get_fst] at smaller
      cases served : cache.live? key now with
      | none =>
          rw [served] at smaller
          exact smaller.trans bounded
      | some value =>
          obtain ⟨entry, found, _⟩ := InMemoryCache.live?_eq_some_iff.mp served
          have held : key ∈ cache.entries.keys := (Dict.mem_keys_iff _ _).mpr ⟨entry, found⟩
          rw [served] at smaller
          simp only [Option.map_some, reordered, Recency.length_touch distinct held] at smaller
          exact smaller.trans bounded
  | set key value ttlSeconds now =>
      simp only [CacheCall.exec]
      by_cases held : key ∈ cache.entries.keys
      · rw [keys_set_held held, Recency.length_touch distinct held]
        exact bounded
      · rw [keys_set_new held, List.length_append, List.length_singleton, size_eq_length_keys]
        split
        · rw [List.length_tail]
          omega
        · omega
  | invalidate key now => exact smaller.trans bounded
  | invalidatePrefix start now => exact smaller.trans bounded

/-- The keys held stay the most recently touched ones. -/
theorem stack_exec {call : CacheCall ν} {order : List String} (positive : 1 ≤ cache.capacity)
    (distinct : order.Nodup) (stack : Recency.Stack cache.capacity order cache.entries.keys)
    (quiet : call.Quiet cache) :
    Recency.Stack cache.capacity (reordered order (call.touched? cache))
      (call.exec cache).entries.keys := by
  cases call with
  | get key now =>
      simp only [CacheCall.exec, CacheCall.touched?, InMemoryCache.get_fst]
      cases served : cache.live? key now with
      | none =>
          have absent : key ∉ cache.entries.keys := by
            intro held
            obtain ⟨entry, found⟩ := (Dict.mem_keys_iff _ _).mp held
            rw [InMemoryCache.live?_eq_some_iff.mpr ⟨entry, found, quiet entry found, rfl⟩] at served
            cases served
          rw [keys_get_miss served, Recency.filter_ne_self absent]
          exact stack
      | some value =>
          obtain ⟨entry, found, valid, _⟩ := InMemoryCache.live?_eq_some_iff.mp served
          have held : key ∈ cache.entries.keys := (Dict.mem_keys_iff _ _).mpr ⟨entry, found⟩
          rw [keys_get_hit found valid]
          exact stack.touch_held distinct held
  | set key value ttlSeconds now =>
      simp only [CacheCall.exec, CacheCall.touched?, reordered]
      by_cases held : key ∈ cache.entries.keys
      · rw [keys_set_held held]
        exact stack.touch_held distinct held
      · rw [keys_set_new held, size_eq_length_keys]
        split
        · next full =>
            cases listed : cache.entries.keys with
            | nil =>
                rw [listed, List.length_nil] at full
                omega
            | cons oldest rest =>
                rw [listed] at stack held full
                exact stack.replace held full
        · next room => exact stack.push held (Nat.lt_of_not_le room)
  | invalidate key now => cases quiet
  | invalidatePrefix start now => cases quiet

end Steps

section Runs

variable {ν : Type} {capacity : Nat} {trace : CacheTrace ν} {cache : InMemoryCache ν}

/-- A bounded cache whose keys are in the order of their last touch, and whose entries
were set last. -/
structure Follows (capacity : Nat) (trace : CacheTrace ν) (cache : InMemoryCache ν) : Prop where
  fixed : cache.capacity = capacity
  bounded : cache.entries.size ≤ capacity
  recency : cache.entries.keys.Sublist (touches trace).dedup
  sources : ∀ key entry, cache.entries.get? key = some entry →
    ∃ value ttlSeconds time, LastSet (calls trace) key value ttlSeconds time ∧
      entry = .new value ttlSeconds time
  counted : cache.hits + cache.misses = (calls trace).countP CacheCall.isGet
  answered : cache.hits = trace.countP fun transition =>
    (transition.label.answer transition.before).isSome
  known : ∀ key, key ∈ touches trace ↔ key ∈ keysSet trace

private theorem follows_new : Follows capacity []
    (InMemoryCache.new capacity : InMemoryCache ν) where
  fixed := rfl
  bounded := Nat.zero_le _
  recency := List.Sublist.refl _
  sources _ _ found := by cases found
  counted := rfl
  answered := rfl
  known _ := Iff.rfl

private theorem calls_snoc (trace : CacheTrace ν)
    (transition : Transition (InMemoryCache ν) (CacheCall ν)) :
    calls (trace ++ [transition]) = calls trace ++ [transition.label] := by
  rw [calls, List.map_append]
  rfl

private theorem keysSet_snoc (trace : CacheTrace ν)
    (transition : Transition (InMemoryCache ν) (CacheCall ν)) :
    keysSet (trace ++ [transition]) = keysSet trace ++ transition.label.keySet?.toList := by
  rw [keysSet, calls_snoc, List.filterMap_append]
  cases found : transition.label.keySet? <;> simp [keysSet, found]

private theorem mem_keysSet_of_lastSet {key : String} {value : ν} {ttlSeconds : Option ℚ} {time : ℚ}
    (last : LastSet (calls trace) key value ttlSeconds time) : key ∈ keysSet trace := by
  obtain ⟨earlier, since, same, _⟩ := last
  rw [keysSet, same, List.filterMap_append]
  exact List.mem_append_right _ (List.mem_cons_self ..)

private theorem dedup_touches_snoc (trace : CacheTrace ν) (call : CacheCall ν)
    (after : InMemoryCache ν) :
    (touches (trace ++ [⟨cache, call, after⟩])).dedup =
      reordered (touches trace).dedup (call.touched? cache) := by
  rw [touches_snoc]
  cases call.touched? cache with
  | none =>
      rw [Option.toList_none, List.append_nil]
      rfl
  | some key => exact Recency.dedup_concat _ _

private theorem reordered_sublist {smaller larger : List String} (sublist : smaller.Sublist larger)
    (touched : Option String) : (reordered smaller touched).Sublist (reordered larger touched) := by
  cases touched with
  | none => exact sublist
  | some key => exact (sublist.filter _).append (List.Sublist.refl _)

/-- A key that is hit was set. -/
theorem Follows.mem_keysSet (follows : Follows capacity trace cache) {call : CacheCall ν}
    {key : String} (touched : call.touched? cache = some key) :
    key ∈ keysSet trace ∨ call.keySet? = some key := by
  cases call with
  | get other now =>
      left
      obtain ⟨value, served, same⟩ := Option.map_eq_some_iff.mp touched
      subst same
      rw [InMemoryCache.get_fst] at served
      obtain ⟨entry, found, _⟩ := InMemoryCache.live?_eq_some_iff.mp served
      obtain ⟨_, _, _, last, _⟩ := follows.sources other entry found
      exact mem_keysSet_of_lastSet last
  | set other value ttlSeconds now => exact .inr touched
  | invalidate other now => cases touched
  | invalidatePrefix start now => cases touched

private theorem touched?_of_keySet? {call : CacheCall ν} {key : String}
    (set : call.keySet? = some key) :
    call.touched? cache = some key := by
  cases call with
  | set other value ttlSeconds now => exact set
  | get other now => cases set
  | invalidate other now => cases set
  | invalidatePrefix start now => cases set

theorem Follows.step (follows : Follows capacity trace cache) (positive : 1 ≤ capacity)
    (call : CacheCall ν) :
    Follows capacity (trace ++ [⟨cache, call, call.exec cache⟩]) (call.exec cache) where
  fixed := (capacity_exec call).trans follows.fixed
  bounded := by
    have size := @size_exec_le _ cache call (follows.fixed ▸ positive)
      (follows.fixed ▸ follows.bounded)
    rwa [follows.fixed] at size
  recency := by
    rw [dedup_touches_snoc]
    exact (keys_exec_sublist call).trans (reordered_sublist follows.recency _)
  sources key entry found := by
    rw [calls_snoc]
    rcases entry_exec found with ⟨value, ttlSeconds, time, rfl, same⟩ | ⟨old, keeps⟩
    · exact ⟨value, ttlSeconds, time, ⟨calls trace, [], rfl, by simp⟩, same⟩
    · obtain ⟨value, ttlSeconds, time, last, same⟩ := follows.sources key entry old
      exact ⟨value, ttlSeconds, time, last.snoc keeps, same⟩
  counted := by
    rw [calls_snoc, List.countP_append, ← follows.counted, lookups_exec]
    cases get : call.isGet <;> simp [get]
  answered := by
    rw [List.countP_append, ← follows.answered, hits_exec]
    cases answered : (call.answer cache).isSome <;> simp [answered]
  known key := by
    rw [touches_snoc, keysSet_snoc, List.mem_append, List.mem_append, Option.mem_toList,
      Option.mem_toList, follows.known key]
    constructor
    · intro either
      rcases either with old | touched
      · exact .inl old
      · exact follows.mem_keysSet touched
    · intro either
      exact either.imp_right touched?_of_keySet?

theorem Follows.of_run (positive : 1 ≤ capacity)
    (run : Run CacheStep (InMemoryCache.new capacity) trace cache) :
    Follows capacity trace cache := by
  induction run with
  | nil => exact follows_new
  | snoc _ taken ih =>
      rw [← taken]
      exact ih.step positive _

/-- Without invalidation and expiry the keys held are the last ones touched. -/
theorem stack_of_run (positive : 1 ≤ capacity)
    (run : Run CacheStep (InMemoryCache.new capacity) trace cache)
    (quiet : ∀ transition ∈ trace, transition.label.Quiet transition.before) :
    Recency.Stack capacity (touches trace).dedup cache.entries.keys := by
  induction run with
  | nil => exact ⟨List.suffix_refl _, (Nat.min_zero _).symm⟩
  | @snoc trace middle final label earlier taken ih =>
      have same := (Follows.of_run positive earlier).fixed
      have stack := ih fun transition member => quiet transition (List.mem_append_left _ member)
      have last : label.Quiet middle := quiet ⟨middle, label, final⟩ (by simp)
      rw [dedup_touches_snoc, ← taken]
      rw [← same] at positive stack ⊢
      exact stack_exec positive (List.nodup_dedup _) stack last

/-- A lookup serves what was set last and is still valid. -/
theorem Follows.current (follows : Follows capacity trace cache)
    (allowed : ∀ call ∈ calls trace, call.TtlAllowed) {key : String} {value : ν} {now : ℚ}
    (served : (cache.get key now).1 = some value) : Current (calls trace) key value now := by
  rw [InMemoryCache.get_fst] at served
  obtain ⟨entry, found, valid, same⟩ := InMemoryCache.live?_eq_some_iff.mp served
  obtain ⟨stored, ttlSeconds, time, last, built⟩ := follows.sources key entry found
  subst built same
  refine ⟨ttlSeconds, time, last, fun seconds given => ?_⟩
  subst given
  obtain ⟨earlier, since, split, _⟩ := last
  have positive : 0 < seconds :=
    allowed (.set key stored (some seconds) time) (by rw [split]; simp) seconds rfl
  simpa [CacheEntry.new, CacheEntry.isExpired, positive.ne'] using valid

theorem Follows.evicts (follows : Follows capacity trace cache) {call : CacheCall ν} {key : String}
    {entry : CacheEntry ν} (found : cache.entries.get? key = some entry)
    (valid : entry.isExpired call.now = false)
    (gone : (call.exec cache).entries.get? key = none) :
    call.Invalidates key ∨ Evicts trace cache key call := by
  rcases exec_gone found valid gone with invalidated | ⟨fresh, full, rest, oldest⟩
  · exact .inl invalidated
  · right
    have bounded := follows.bounded
    rw [← follows.fixed] at bounded
    refine ⟨fresh, Nat.le_antisymm bounded full, fun other member differ => ?_⟩
    have ordered := (Recency.dedup_touchedBefore (touches trace)).sublist follows.recency
    rw [oldest] at ordered member
    rcases List.mem_cons.mp member with same | later
    · exact absurd same differ
    · exact (List.pairwise_cons.mp ordered).1 other later

/-- Over every sequence of calls the cache stays within its capacity; a get answers with
an unexpired entry whenever there is one, and only with what is current; an entry that is still valid leaves by invalidation or by eviction of
the least recently touched key; without invalidation and expiry the keys held are the
most recently touched ones; and every lookup is counted once. -/
theorem run_leastRecentlyUsed (positive : 1 ≤ capacity) {final : InMemoryCache ν}
    (run : Run CacheStep (InMemoryCache.new capacity) trace final)
    (allowed : ∀ call ∈ calls trace, call.TtlAllowed) :
    final.entries.size ≤ capacity ∧
    (∀ leading transition trailing, trace = leading ++ transition :: trailing →
      (∀ key now, transition.label = .get key now →
        (transition.before.get key now).1 = transition.before.live? key now ∧
        ∀ value, (transition.before.get key now).1 = some value →
          Current (calls leading) key value now) ∧
      ∀ key entry, transition.before.entries.get? key = some entry →
        entry.isExpired transition.label.now = false →
        transition.after.entries.get? key = none →
        transition.label.Invalidates key ∨
          Evicts leading transition.before key transition.label) ∧
    ((∀ transition ∈ trace, transition.label.Quiet transition.before) →
      final.entries.keys <:+ (touches trace).dedup ∧
        final.entries.size = min capacity (keysSet trace).toFinset.card ∧
        ∀ key, key ∈ touches trace ↔ key ∈ keysSet trace) ∧
    final.hits = trace.countP (fun transition =>
      (transition.label.answer transition.before).isSome) ∧
    final.hits + final.misses = (calls trace).countP CacheCall.isGet := by
  have follows := Follows.of_run positive run
  refine ⟨follows.bounded, ?_, ?_, follows.answered, follows.counted⟩
  · intro leading transition trailing split
    have earlier : ∀ call ∈ calls leading, call.TtlAllowed := by
      intro call member
      refine allowed call ?_
      rw [split, calls, List.map_append]
      exact List.mem_append_left _ member
    rw [split, List.append_cons] at run
    obtain ⟨middle, first, _⟩ := run.split
    obtain ⟨before, taken, _⟩ := first.last
    have reached := Follows.of_run positive before
    refine ⟨fun key now _ => ⟨InMemoryCache.get_fst, fun value served =>
      reached.current earlier served⟩, ?_⟩
    intro key entry found valid gone
    rw [← taken] at gone
    exact reached.evicts found valid gone
  · intro quiet
    obtain ⟨suffix, length⟩ := stack_of_run positive run quiet
    refine ⟨suffix, ?_, follows.known⟩
    have same : (touches trace).toFinset = (keysSet trace).toFinset := by
      ext key
      rw [List.mem_toFinset, List.mem_toFinset]
      exact follows.known key
    rw [size_eq_length_keys, length, ← same, List.card_toFinset]

theorem run_leastRecentlyUsed_eviction :
    let history : List (CacheCall Nat) := [.set "a" 1 none 0, .set "b" 2 (some 5) 1, .get "a" 2,
      .set "c" 3 none 3, .get "b" 4]
    let final := history.foldl (fun cache call => call.exec cache) (InMemoryCache.new 2)
    final.entries.keys = ["a", "c"] ∧ final.entries.size ≤ 2 ∧ final.hits = 1 ∧
      final.hits + final.misses = 2 := by
  intro history final
  refine ⟨by decide +kernel, ?_⟩
  have run : Run CacheStep (InMemoryCache.new 2) _ final :=
    Run.of_exec (fun _ _ => rfl) (InMemoryCache.new 2) history
  have facts := run_leastRecentlyUsed (by decide) run (by
    intro call member
    have listed : call ∈ history := member
    simp only [history, List.mem_cons, List.not_mem_nil, or_false] at listed
    rcases listed with rfl | rfl | rfl | rfl | rfl <;> simp [CacheCall.TtlAllowed])
  exact ⟨facts.1, facts.2.2.2.1.trans (by decide +kernel), facts.2.2.2.2⟩

end Runs

end LibraFlow.Storage
