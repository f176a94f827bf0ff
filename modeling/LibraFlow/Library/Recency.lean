import Mathlib.Data.List.Dedup

/-! Items in the order of their last touch. Removing all but the last occurrence from
the list of touches gives that order; a bounded collection that drops its least
recently touched item keeps an end of it. -/

set_option autoImplicit false

namespace LibraFlow.Library.Recency

variable {α : Type} [DecidableEq α]

/-- Make an item the most recently touched one. -/
def touch (item : α) (items : List α) : List α :=
  items.filter (fun other => decide (other ≠ item)) ++ [item]

/-- The right item was touched after the last touch of the left one. -/
def TouchedBefore (touches : List α) (left right : α) : Prop :=
  ∃ earlier later, touches = earlier ++ later ∧ left ∉ later ∧ right ∈ later

theorem filter_ne_self {item : α} {items : List α} (fresh : item ∉ items) :
    items.filter (fun other => decide (other ≠ item)) = items := by
  refine List.filter_eq_self.mpr fun other member => ?_
  simp only [decide_eq_true_eq]
  intro same
  exact fresh (same ▸ member)

theorem touch_fresh {item : α} {items : List α} (fresh : item ∉ items) :
    touch item items = items ++ [item] := by
  rw [touch, filter_ne_self fresh]

theorem length_touch {item : α} {items : List α} (distinct : items.Nodup) (member : item ∈ items) :
    (touch item items).length = items.length := by
  have erased := List.length_erase_of_mem member
  have positive := List.length_pos_of_mem member
  have split : (items.filter fun other => decide (other ≠ item)) = items.erase item := by
    rw [distinct.erase_eq_filter item]
    refine List.filter_congr fun other _ => ?_
    rw [decide_not]
    rfl
  rw [touch, split, List.length_append, List.length_singleton]
  omega

theorem dedup_concat (touches : List α) (item : α) :
    (touches ++ [item]).dedup = touch item touches.dedup := by
  induction touches with
  | nil => rfl
  | cons first rest ih =>
      rw [List.cons_append]
      by_cases same : first = item
      · subst same
        rw [List.dedup_cons_of_mem (by simp), ih]
        by_cases again : first ∈ rest
        · rw [List.dedup_cons_of_mem again]
        · rw [List.dedup_cons_of_notMem again]
          simp [touch]
      · by_cases again : first ∈ rest
        · rw [List.dedup_cons_of_mem (by simp [again]), List.dedup_cons_of_mem again, ih]
        · rw [List.dedup_cons_of_notMem (by simp [again, same]), List.dedup_cons_of_notMem again, ih]
          simp [touch, same]

theorem dedup_touchedBefore (touches : List α) :
    touches.dedup.Pairwise (TouchedBefore touches) := by
  induction touches with
  | nil => exact .nil
  | cons first rest ih =>
      have later : rest.dedup.Pairwise (TouchedBefore (first :: rest)) := by
        refine ih.imp fun {left right} touched => ?_
        obtain ⟨before, after, same, absent, present⟩ := touched
        exact ⟨first :: before, after, by rw [same, List.cons_append], absent, present⟩
      by_cases again : first ∈ rest
      · rw [List.dedup_cons_of_mem again]
        exact later
      · rw [List.dedup_cons_of_notMem again, List.pairwise_cons]
        refine ⟨fun other member => ?_, later⟩
        exact ⟨[first], rest, rfl, again, List.mem_dedup.mp member⟩

/-- The items held are as many of the last ones as there is room for. -/
def Stack (capacity : Nat) (order held : List α) : Prop :=
  held <:+ order ∧ held.length = min capacity order.length

section Stack

variable {capacity : Nat} {order held : List α} {item : α}

theorem Stack.touch_held (stack : Stack capacity order held) (distinct : order.Nodup)
    (member : item ∈ held) : Stack capacity (touch item order) (touch item held) := by
  obtain ⟨⟨gone, rfl⟩, length⟩ := stack
  have apart : item ∉ gone := fun listed =>
    List.disjoint_of_nodup_append distinct listed member
  have whole : touch item (gone ++ held) = gone ++ touch item held := by
    rw [touch, List.filter_append, filter_ne_self apart, List.append_assoc]
    rfl
  have same := length_touch (List.nodup_append.mp distinct).2.1 member
  refine ⟨⟨gone, whole.symm⟩, ?_⟩
  rw [List.length_append] at length
  rw [whole, List.length_append, same]
  exact length

theorem Stack.push (stack : Stack capacity order held) (fresh : item ∉ held)
    (room : held.length < capacity) : Stack capacity (touch item order) (held ++ [item]) := by
  obtain ⟨suffix, length⟩ := stack
  have same : held = order := suffix.eq_of_length (by omega)
  subst same
  rw [touch_fresh fresh]
  refine ⟨List.suffix_refl _, ?_⟩
  rw [List.length_append, List.length_singleton]
  omega

theorem Stack.replace {oldest : α} (stack : Stack capacity order (oldest :: held))
    (fresh : item ∉ oldest :: held) (full : capacity ≤ (oldest :: held).length) :
    Stack capacity (touch item order) (held ++ [item]) := by
  obtain ⟨⟨gone, rfl⟩, length⟩ := stack
  have whole : touch item (gone ++ oldest :: held) =
      gone.filter (fun other => decide (other ≠ item)) ++ [oldest] ++ (held ++ [item]) := by
    rw [touch, List.filter_append, filter_ne_self fresh]
    simp
  refine ⟨⟨_, whole.symm⟩, ?_⟩
  rw [whole]
  simp only [List.length_append, List.length_cons, List.length_nil] at length full ⊢
  omega

end Stack

end LibraFlow.Library.Recency
