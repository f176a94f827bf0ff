import Mathlib.Data.Finset.Dedup
import Mathlib.Data.List.Nodup
import Mathlib.Data.List.Perm.Basic

/-! Insertion-ordered dictionaries. Storing under a key that is present keeps
the key's position, storing under a new key appends it, and iteration follows
the order of first insertion. Keys are distinct by construction. -/

set_option autoImplicit false

namespace LibraFlow.Library

/-- A finite map that remembers the order in which its keys were inserted. -/
structure Dict (κ ν : Type) where
  entries : List (κ × ν)
  keysNodup : (entries.map Prod.fst).Nodup

namespace Dict

variable {κ ν : Type}

def empty : Dict κ ν := ⟨[], List.nodup_nil⟩

def keys (dict : Dict κ ν) : List κ := dict.entries.map Prod.fst

def values (dict : Dict κ ν) : List ν := dict.entries.map Prod.snd

def size (dict : Dict κ ν) : Nat := dict.entries.length

@[ext] theorem ext {left right : Dict κ ν} (same : left.entries = right.entries) :
    left = right := by
  cases left
  cases right
  cases same
  rfl

instance [DecidableEq κ] [DecidableEq ν] : DecidableEq (Dict κ ν) := fun left right =>
  decidable_of_iff (left.entries = right.entries) ⟨ext, fun same => same ▸ rfl⟩

/-- Drop the least recently inserted entry. -/
def popFirst (dict : Dict κ ν) : Dict κ ν :=
  ⟨dict.entries.tail, by
    rw [List.map_tail]
    exact dict.keysNodup.tail⟩

theorem keys_popFirst (dict : Dict κ ν) : dict.popFirst.keys = dict.keys.tail :=
  List.map_tail

section Lookup

variable [DecidableEq κ]

def lookup (key : κ) : List (κ × ν) → Option ν
  | [] => none
  | (candidate, value) :: rest => if candidate = key then some value else lookup key rest

def get? (dict : Dict κ ν) (key : κ) : Option ν := lookup key dict.entries

def contains (dict : Dict κ ν) (key : κ) : Bool := (dict.get? key).isSome

def store (key : κ) (value : ν) : List (κ × ν) → List (κ × ν)
  | [] => [(key, value)]
  | (candidate, old) :: rest =>
      if candidate = key then (key, value) :: rest else (candidate, old) :: store key value rest

theorem store_keys (key : κ) (value : ν) (entries : List (κ × ν)) :
    (store key value entries).map Prod.fst =
      if key ∈ entries.map Prod.fst then entries.map Prod.fst
      else entries.map Prod.fst ++ [key] := by
  induction entries with
  | nil => simp [store]
  | cons entry rest ih =>
      rcases entry with ⟨candidate, old⟩
      by_cases same : candidate = key
      · simp [store, same]
      · have different : key ≠ candidate := fun equal => same equal.symm
        by_cases present : key ∈ rest.map Prod.fst
        · simp only [store, same, ↓reduceIte, List.map_cons, ih, present, List.mem_cons,
            or_true]
        · simp only [store, same, ↓reduceIte, List.map_cons, ih, present, List.mem_cons,
            different, or_false, List.cons_append]

/-- Store a value under a key, in place when the key is present. -/
def set (dict : Dict κ ν) (key : κ) (value : ν) : Dict κ ν :=
  ⟨store key value dict.entries, by
    rw [store_keys]
    split
    · exact dict.keysNodup
    · next absent =>
        exact List.nodup_append.mpr ⟨dict.keysNodup, List.nodup_singleton key, by
          intro left leftMember right rightMember equal
          rw [List.mem_singleton] at rightMember
          exact absent (rightMember ▸ equal ▸ leftMember)⟩⟩

/-- Remove a key, keeping the order of the others. -/
def erase (dict : Dict κ ν) (key : κ) : Dict κ ν :=
  ⟨dict.entries.filter (fun entry => decide (entry.1 ≠ key)),
    dict.keysNodup.sublist (List.filter_sublist.map Prod.fst)⟩

/-- Make a present key the most recently inserted one. -/
def moveToEnd (dict : Dict κ ν) (key : κ) : Dict κ ν :=
  match dict.get? key with
  | none => dict
  | some value => (dict.erase key).set key value

@[simp] theorem get?_empty (key : κ) : (empty : Dict κ ν).get? key = none := rfl

theorem lookup_store (key other : κ) (value : ν) (entries : List (κ × ν)) :
    lookup other (store key value entries) =
      if key = other then some value else lookup other entries := by
  induction entries with
  | nil => simp [store, lookup]
  | cons entry rest ih =>
      rcases entry with ⟨candidate, old⟩
      by_cases stored : candidate = key
      · subst candidate
        by_cases asked : key = other <;> simp [store, lookup, asked]
      · by_cases asked : candidate = other
        · subst candidate
          have different : key ≠ other := fun equal => stored equal.symm
          simp [store, stored, lookup, different]
        · simp [store, stored, lookup, asked, ih]

theorem get?_set (dict : Dict κ ν) (key other : κ) (value : ν) :
    (dict.set key value).get? other = if key = other then some value else dict.get? other :=
  lookup_store key other value dict.entries

@[simp] theorem get?_set_self (dict : Dict κ ν) (key : κ) (value : ν) :
    (dict.set key value).get? key = some value := by
  simp [get?_set]

@[simp] theorem get?_set_of_ne (dict : Dict κ ν) {key other : κ} (value : ν)
    (different : key ≠ other) : (dict.set key value).get? other = dict.get? other := by
  simp [get?_set, different]

theorem store_store (key : κ) (first second : ν) (entries : List (κ × ν)) :
    store key second (store key first entries) = store key second entries := by
  induction entries with
  | nil => simp [store]
  | cons entry rest ih =>
      rcases entry with ⟨candidate, old⟩
      by_cases same : candidate = key
      · simp [store, same]
      · simp [store, same, ih]

theorem set_set (dict : Dict κ ν) (key : κ) (first second : ν) :
    (dict.set key first).set key second = dict.set key second :=
  ext (store_store key first second dict.entries)

private theorem store_fresh {key : κ} {value : ν} (entries : List (κ × ν))
    (fresh : lookup key entries = none) :
    store key value entries = entries ++ [(key, value)] := by
  induction entries with
  | nil => rfl
  | cons entry rest ih =>
      rcases entry with ⟨candidate, old⟩
      by_cases same : candidate = key
      · simp [lookup, same] at fresh
      · simp only [lookup, same, ↓reduceIte] at fresh
        simp [store, same, ih fresh]

/-- A new key goes to the end. -/
theorem entries_set_fresh (dict : Dict κ ν) {key : κ} (value : ν) (fresh : dict.get? key = none) :
    (dict.set key value).entries = dict.entries ++ [(key, value)] :=
  store_fresh dict.entries fresh

theorem values_set_fresh (dict : Dict κ ν) {key : κ} (value : ν) (fresh : dict.get? key = none) :
    (dict.set key value).values = dict.values ++ [value] := by
  unfold values
  rw [entries_set_fresh dict value fresh, List.map_append]
  rfl

private theorem store_present {key : κ} {value : ν} (entries : List (κ × ν))
    (distinct : (entries.map Prod.fst).Nodup) (present : key ∈ entries.map Prod.fst) :
    store key value entries =
      entries.map fun entry => if entry.1 = key then (key, value) else entry := by
  induction entries with
  | nil => cases present
  | cons entry rest ih =>
      rcases entry with ⟨candidate, old⟩
      simp only [List.map_cons, List.nodup_cons] at distinct
      by_cases same : candidate = key
      · subst candidate
        have unchanged : (rest.map fun entry => if entry.1 = key then (key, value) else entry) =
            rest := by
          rw [List.map_congr_left, List.map_id]
          intro entry member
          have different : entry.1 ≠ key := fun equal =>
            distinct.1 (equal ▸ List.mem_map_of_mem member)
          simp [different]
        simp [store, unchanged]
      · have later : key ∈ rest.map Prod.fst := by
          simpa [Ne.symm same] using present
        simp [store, same, ih distinct.2 later]

/-- A present key is overwritten in place. -/
theorem entries_set_present (dict : Dict κ ν) {key : κ} (value : ν) (present : key ∈ dict.keys) :
    (dict.set key value).entries =
      dict.entries.map fun entry => if entry.1 = key then (key, value) else entry :=
  store_present dict.entries dict.keysNodup present

private theorem store_filter {key : κ} {value : ν} {keep : ν → Bool} (entries : List (κ × ν))
    (dropped : keep value = false)
    (droppedBefore : ∀ old, lookup key entries = some old → keep old = false) :
    ((store key value entries).map Prod.snd).filter keep =
      (entries.map Prod.snd).filter keep := by
  induction entries with
  | nil => simp [store, dropped]
  | cons entry rest ih =>
      rcases entry with ⟨candidate, old⟩
      by_cases same : candidate = key
      · have before := droppedBefore old (by simp [lookup, same])
        simp [store, same, dropped, before]
      · have later := ih fun older found => droppedBefore older (by simp [lookup, same, found])
        simp only [store, same, ↓reduceIte, List.map_cons, List.filter_cons, later]

/-- A selection of values does not see a store that replaces an unselected value
by another one. -/
theorem values_set_filter (dict : Dict κ ν) {key : κ} {value : ν} {keep : ν → Bool}
    (dropped : keep value = false)
    (droppedBefore : ∀ old, dict.get? key = some old → keep old = false) :
    (dict.set key value).values.filter keep = dict.values.filter keep :=
  store_filter dict.entries dropped droppedBefore

private theorem store_lookup {key : κ} {value : ν} (entries : List (κ × ν))
    (found : lookup key entries = some value) : store key value entries = entries := by
  induction entries with
  | nil => cases found
  | cons entry rest ih =>
      rcases entry with ⟨candidate, old⟩
      by_cases same : candidate = key
      · simp only [lookup, same, ↓reduceIte, Option.some.injEq] at found
        simp [store, same, found]
      · simp only [lookup, same, ↓reduceIte] at found
        simp [store, same, ih found]

/-- Storing what is there already changes nothing. -/
theorem set_of_get? {dict : Dict κ ν} {key : κ} {value : ν} (found : dict.get? key = some value) :
    dict.set key value = dict :=
  ext (store_lookup dict.entries found)

private theorem lookup_filter (key other : κ) (entries : List (κ × ν)) :
    lookup other (entries.filter (fun entry => decide (entry.1 ≠ key))) =
      if key = other then none else lookup other entries := by
  induction entries with
  | nil => simp [lookup]
  | cons entry rest ih =>
      rcases entry with ⟨candidate, value⟩
      by_cases removed : candidate = key
      · subst candidate
        by_cases asked : key = other
        · simpa [asked] using ih
        · simpa [asked, lookup] using ih
      · by_cases asked : candidate = other
        · subst candidate
          have different : key ≠ other := fun equal => removed equal.symm
          simp [removed, lookup, different]
        · simpa [removed, asked, lookup] using ih

theorem get?_erase (dict : Dict κ ν) (key other : κ) :
    (dict.erase key).get? other = if key = other then none else dict.get? other :=
  lookup_filter key other dict.entries

theorem keys_erase (dict : Dict κ ν) (key : κ) :
    (dict.erase key).keys = dict.keys.filter fun other => decide (other ≠ key) := by
  rw [keys, keys, List.filter_map]
  rfl

/-- Erasing a list of keys. -/
theorem get?_foldl_erase (dict : Dict κ ν) (keys : List κ) (other : κ) :
    (keys.foldl erase dict).get? other = if other ∈ keys then none else dict.get? other := by
  induction keys generalizing dict with
  | nil => simp
  | cons key rest ih =>
      rw [List.foldl_cons, ih, get?_erase]
      by_cases later : other ∈ rest
      · simp [later]
      · by_cases same : key = other
        · simp [same]
        · simp [later, same, Ne.symm same]

theorem lookup_eq_some_iff (key : κ) (value : ν) (entries : List (κ × ν))
    (distinct : (entries.map Prod.fst).Nodup) :
    lookup key entries = some value ↔ (key, value) ∈ entries := by
  induction entries with
  | nil => simp [lookup]
  | cons entry rest ih =>
      rcases entry with ⟨candidate, old⟩
      simp only [List.map_cons, List.nodup_cons] at distinct
      by_cases same : candidate = key
      · subst candidate
        have absent : (key, value) ∉ rest := fun member =>
          distinct.1 (List.mem_map_of_mem member)
        simp [lookup, absent, eq_comm]
      · have different : key ≠ candidate := fun equal => same equal.symm
        simp [lookup, same, different, ih distinct.2]

theorem get?_eq_some_iff (dict : Dict κ ν) (key : κ) (value : ν) :
    dict.get? key = some value ↔ (key, value) ∈ dict.entries :=
  lookup_eq_some_iff key value dict.entries dict.keysNodup

theorem mem_values_iff (dict : Dict κ ν) (value : ν) :
    value ∈ dict.values ↔ ∃ key, dict.get? key = some value := by
  simp only [values, List.mem_map, get?_eq_some_iff, Prod.exists, exists_eq_right]

theorem mem_keys_iff (dict : Dict κ ν) (key : κ) :
    key ∈ dict.keys ↔ ∃ value, dict.get? key = some value := by
  simp only [keys, List.mem_map, get?_eq_some_iff, Prod.exists, exists_and_right,
    exists_eq_right]

/-- Values that carry their own key, in order. -/
theorem map_values {dict : Dict κ ν} {key : ν → κ}
    (keyed : ∀ id value, dict.get? id = some value → key value = id) :
    dict.values.map key = dict.keys := by
  rw [values, keys, List.map_map]
  apply List.map_congr_left
  intro entry member
  exact keyed entry.1 entry.2 ((get?_eq_some_iff _ _ _).mpr member)

theorem contains_iff (dict : Dict κ ν) (key : κ) :
    dict.contains key = true ↔ ∃ value, dict.get? key = some value := by
  simp [contains, Option.isSome_iff_exists]

/-- The keys whose values satisfy a condition. -/
def keysWhere (dict : Dict κ ν) (condition : ν → Bool) : Finset κ :=
  ((dict.entries.filter fun entry => condition entry.2).map Prod.fst).toFinset

@[simp] theorem mem_keysWhere (dict : Dict κ ν) (condition : ν → Bool) (key : κ) :
    key ∈ dict.keysWhere condition ↔ ∃ value, dict.get? key = some value ∧ condition value := by
  simp only [keysWhere, List.mem_toFinset, List.mem_map, List.mem_filter, get?_eq_some_iff,
    Prod.exists, exists_and_right, exists_eq_right]

/-- Moving a key to the end changes the order only. -/
theorem get?_moveToEnd (dict : Dict κ ν) (key other : κ) :
    (dict.moveToEnd key).get? other = dict.get? other := by
  unfold moveToEnd
  cases found : dict.get? key with
  | none => rfl
  | some value =>
      by_cases same : key = other
      · subst other
        simp [found]
      · simp [get?_erase, same]

theorem keys_set_fresh (dict : Dict κ ν) {key : κ} (value : ν) (fresh : dict.get? key = none) :
    (dict.set key value).keys = dict.keys ++ [key] := by
  rw [keys, entries_set_fresh dict value fresh, List.map_append]
  rfl

theorem keys_moveToEnd (dict : Dict κ ν) {key : κ} {value : ν} (found : dict.get? key = some value) :
    (dict.moveToEnd key).keys = (dict.keys.filter fun other => decide (other ≠ key)) ++ [key] := by
  have gone : (dict.erase key).get? key = none := by simp [get?_erase]
  rw [moveToEnd, found]
  simp only
  rw [keys_set_fresh _ _ gone, keys_erase]

theorem get?_eq_none_iff (dict : Dict κ ν) (key : κ) : dict.get? key = none ↔ key ∉ dict.keys := by
  rw [mem_keys_iff, ← Option.isSome_iff_exists, Bool.not_eq_true, Option.isSome_eq_false_iff,
    Option.isNone_iff_eq_none]

/-- An entry of the shortened dictionary was there before. -/
theorem get?_of_popFirst (dict : Dict κ ν) (key : κ) (value : ν)
    (found : dict.popFirst.get? key = some value) : dict.get? key = some value := by
  rw [get?_eq_some_iff] at found ⊢
  exact List.mem_of_mem_tail found

end Lookup

end Dict

end LibraFlow.Library
