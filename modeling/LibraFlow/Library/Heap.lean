import Mathlib.Data.List.Basic

/-! A store of mutable objects addressed by reference. Two containers that hold
the same reference see each other's updates; a fresh reference is shared with
nobody. -/

set_option autoImplicit false

namespace LibraFlow.Library

abbrev Ref := Nat

/-- Allocated objects, in allocation order. -/
structure Heap (α : Type) where
  objects : List α
  deriving DecidableEq

namespace Heap

variable {α : Type}

def empty : Heap α := ⟨[]⟩

def read? (heap : Heap α) (ref : Ref) : Option α := heap.objects[ref]?

/-- The reference the next allocation returns. -/
def next (heap : Heap α) : Ref := heap.objects.length

def alloc (heap : Heap α) (object : α) : Heap α := ⟨heap.objects ++ [object]⟩

/-- Allocate several objects, one after the other. -/
def allocAll (heap : Heap α) (fresh : List α) : Heap α := ⟨heap.objects ++ fresh⟩

/-- The references that the next allocations return. -/
def nextRefs (heap : Heap α) (count : Nat) : List Ref := List.range' heap.next count

/-- Overwrite the object behind a reference. -/
def write (heap : Heap α) (ref : Ref) (object : α) : Heap α := ⟨heap.objects.set ref object⟩

@[simp] theorem read?_empty (ref : Ref) : (empty : Heap α).read? ref = none := rfl

@[simp] theorem read?_alloc_next (heap : Heap α) (object : α) :
    (heap.alloc object).read? heap.next = some object := by
  simp [alloc, read?, next]

theorem lt_next_of_read? {heap : Heap α} {ref : Ref} {object : α}
    (found : heap.read? ref = some object) : ref < heap.next :=
  (List.getElem?_eq_some_iff.mp found).1

/-- Allocation leaves every older object alone. -/
theorem read?_alloc_of_some {heap : Heap α} {ref : Ref} {object : α} (fresh : α)
    (found : heap.read? ref = some object) : (heap.alloc fresh).read? ref = some object := by
  have bound := lt_next_of_read? found
  simpa [alloc, read?, List.getElem?_append_left bound] using found

theorem read?_alloc (heap : Heap α) (object : α) (ref : Ref) :
    (heap.alloc object).read? ref =
      if ref = heap.next then some object else heap.read? ref := by
  by_cases fresh : ref = heap.next
  · simp [fresh]
  · rw [if_neg fresh]
    simp only [alloc, read?, List.getElem?_append]
    split
    · rfl
    · next notOlder =>
        have later : heap.objects.length < ref :=
          Nat.lt_of_le_of_ne (Nat.le_of_not_lt notOlder) (Ne.symm fresh)
        rw [List.getElem?_eq_none (by simp; omega), List.getElem?_eq_none (by omega)]

theorem read?_write (heap : Heap α) (ref other : Ref) (object : α) :
    (heap.write ref object).read? other =
      if ref = other then (heap.read? other).map (fun _ => object) else heap.read? other := by
  by_cases same : ref = other
  · subst other
    simp [write, read?, List.getElem?_set]
    split <;> simp_all
  · simp [write, read?, same]

theorem read?_write_self {heap : Heap α} {ref : Ref} {old : α} (object : α)
    (found : heap.read? ref = some old) : (heap.write ref object).read? ref = some object := by
  simp [read?_write, found]

theorem read?_allocAll_of_lt {heap : Heap α} {ref : Ref} (fresh : List α)
    (older : ref < heap.next) : (heap.allocAll fresh).read? ref = heap.read? ref :=
  List.getElem?_append_left older

theorem allocAll_cons (heap : Heap α) (object : α) (rest : List α) :
    heap.allocAll (object :: rest) = (heap.alloc object).allocAll rest := by
  simp [allocAll, alloc]

@[simp] theorem next_alloc (heap : Heap α) (object : α) :
    (heap.alloc object).next = heap.next + 1 := by
  simp [alloc, next]

theorem nextRefs_succ (heap : Heap α) (object : α) (count : Nat) :
    heap.nextRefs (count + 1) = heap.next :: (heap.alloc object).nextRefs count := by
  rw [nextRefs, List.range'_succ, nextRefs, next_alloc]

theorem mem_nextRefs {heap : Heap α} {count : Nat} {ref : Ref} :
    ref ∈ heap.nextRefs count ↔ heap.next ≤ ref ∧ ref < heap.next + count := by
  simp [nextRefs, List.mem_range'_1]

@[simp] theorem next_allocAll (heap : Heap α) (fresh : List α) :
    (heap.allocAll fresh).next = heap.next + fresh.length := by
  simp [allocAll, next]

@[simp] theorem next_write (heap : Heap α) (ref : Ref) (object : α) :
    (heap.write ref object).next = heap.next := by
  simp [write, next]

end Heap

end LibraFlow.Library
