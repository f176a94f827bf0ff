import LibraFlow.Library.Dict
import Mathlib.Logic.Function.Basic

/-! Tables with a primary key, and the row locks that transactions take on them.
A lock belongs to one owner until the owner releases everything it holds. -/

set_option autoImplicit false

namespace LibraFlow.Library

/-- Rows stored under their own key. -/
structure Table {κ ν : Type} [DecidableEq κ] (key : ν → κ) where
  rows : Dict κ ν
  keyed : ∀ id row, rows.get? id = some row → key row = id

namespace Table

variable {κ ν : Type} [DecidableEq κ] {key : ν → κ}

def empty : Table key := ⟨.empty, by simp⟩

def get? (table : Table key) (id : κ) : Option ν := table.rows.get? id

/-- Insert a row, or overwrite the row with its key. -/
def merge (table : Table key) (row : ν) : Table key :=
  ⟨table.rows.set (key row) row, by
    intro id found present
    rw [Dict.get?_set] at present
    split at present
    · next same =>
        cases present
        exact same
    · exact table.keyed id found present⟩

theorem key_of_get? {table : Table key} {id : κ} {row : ν} (found : table.get? id = some row) :
    key row = id := table.keyed id row found

theorem get?_merge (table : Table key) (row : ν) (id : κ) :
    (table.merge row).get? id = if key row = id then some row else table.get? id :=
  Dict.get?_set table.rows (key row) id row

@[simp] theorem get?_merge_self (table : Table key) (row : ν) :
    (table.merge row).get? (key row) = some row := by
  simp [get?_merge]

/-- Of two rows with one key the later one stays. -/
theorem merge_merge (table : Table key) {first second : ν} (same : key first = key second) :
    (table.merge first).merge second = table.merge second := by
  simp only [merge, Table.mk.injEq, same]
  exact Dict.set_set table.rows (key second) first second

theorem get?_merge_of_ne (table : Table key) {row : ν} {id : κ} (different : key row ≠ id) :
    (table.merge row).get? id = table.get? id := by
  simp [get?_merge, different]

end Table

/-- The owner of each locked row. -/
def Locks (κ : Type) : Type := κ → Option Nat

namespace Locks

variable {κ : Type}

def none : Locks κ := fun _ => .none

/-- Lock a row that is free or already the owner's; otherwise the owner waits. -/
def acquire? [DecidableEq κ] (locks : Locks κ) (owner : Nat) (id : κ) : Option (Locks κ) :=
  match locks id with
  | .none => some (Function.update locks id (some owner))
  | some holder => if holder = owner then some locks else .none

/-- Give up every lock of one owner. -/
def release (locks : Locks κ) (owner : Nat) : Locks κ := fun id =>
  if locks id = some owner then .none else locks id

section Acquire

variable [DecidableEq κ] {locks after : Locks κ} {owner other : Nat} {id key : κ}

theorem acquire?_self (acquired : locks.acquire? owner id = some after) :
    after id = some owner := by
  unfold acquire? at acquired
  split at acquired
  · cases acquired
    exact Function.update_self id (some owner) locks
  · next holder held =>
      split at acquired
      · next same =>
          cases acquired
          rw [held, same]
      · cases acquired

theorem acquire?_of_ne (acquired : locks.acquire? owner id = some after) (different : key ≠ id) :
    after key = locks key := by
  unfold acquire? at acquired
  split at acquired
  · cases acquired
    exact Function.update_of_ne different (some owner) locks
  · split at acquired
    · cases acquired
      rfl
    · cases acquired

/-- A lock that can be taken has no other owner. -/
theorem holder_of_acquire? (acquired : locks.acquire? owner id = some after)
    (held : locks id = some other) : other = owner := by
  unfold acquire? at acquired
  rw [held] at acquired
  apply Classical.byContradiction
  intro different
  simp [different] at acquired

/-- Taking a lock changes nothing for other owners. -/
theorem acquire?_other (acquired : locks.acquire? owner id = some after)
    (different : other ≠ owner) : after key = some other ↔ locks key = some other := by
  by_cases same : key = id
  · subst key
    rw [acquire?_self acquired]
    constructor
    · intro equal
      cases equal
      exact absurd rfl different
    · intro held
      exact absurd (holder_of_acquire? acquired held) different
  · rw [acquire?_of_ne acquired same]

/-- With no other owner, every lock can be taken. -/
theorem acquire?_alone (own : ∀ key, locks key = .none ∨ locks key = some owner) (id : κ) :
    ∃ after, locks.acquire? owner id = some after ∧
      ∀ key, after key = .none ∨ after key = some owner := by
  obtain ⟨after, acquired⟩ : ∃ after, locks.acquire? owner id = some after := by
    rcases own id with free | mine
    · exact ⟨Function.update locks id (some owner), by simp only [acquire?, free]⟩
    · exact ⟨locks, by simp only [acquire?, mine, ↓reduceIte]⟩
  refine ⟨after, acquired, fun key => ?_⟩
  by_cases same : key = id
  · exact .inr (same ▸ acquire?_self acquired)
  · rw [acquire?_of_ne acquired same]
    exact own key

/-- An owner keeps the locks it has when it takes another. -/
theorem acquire?_keeps (acquired : locks.acquire? owner id = some after)
    (held : locks key = some owner) : after key = some owner := by
  by_cases same : key = id
  · subst key
    exact acquire?_self acquired
  · rw [acquire?_of_ne acquired same]
    exact held

end Acquire

section Release

variable {locks : Locks κ} {owner other : Nat} {key : κ}

theorem release_other (different : other ≠ owner) :
    (locks.release owner) key = some other ↔ locks key = some other := by
  unfold release
  split
  · next held =>
      rw [held]
      constructor
      · intro equal
        cases equal
      · intro equal
        cases equal
        exact absurd rfl different
  · rfl

end Release

end Locks

end LibraFlow.Library
