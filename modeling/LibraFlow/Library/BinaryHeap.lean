import Mathlib.Data.List.Perm.Basic

/-! Binary heaps in a list, as the `heapq` module keeps them: a pushed item rises from
the end, and the last item of a popped heap takes the place of the root by way of a
leaf. Items are compared by a strict order only. -/

set_option autoImplicit false

namespace LibraFlow.Library.BinaryHeap

section Operations

variable {α : Type} (less : α → α → Bool)

/-- Move parents down along the way to the root until the item has its place. -/
def siftdown (newitem : α) : Nat → Nat → List α → List α
  | 0, pos, heap => heap.set pos newitem
  | fuel + 1, pos, heap =>
      match heap[(pos - 1) / 2]? with
      | none => heap.set pos newitem
      | some parent =>
          if 0 < pos ∧ less newitem parent then
            siftdown newitem fuel ((pos - 1) / 2) (heap.set pos parent)
          else heap.set pos newitem

/-- The position of the smaller child and its item. -/
def smallerChild? (heap : List α) (pos : Nat) : Option (Nat × α) :=
  match heap[2 * pos + 1]?, heap[2 * pos + 2]? with
  | none, _ => none
  | some left, none => some (2 * pos + 1, left)
  | some left, some right =>
      if less left right then some (2 * pos + 1, left) else some (2 * pos + 2, right)

/-- Move smaller children up until the hole is at a leaf. -/
def sinkHole : Nat → Nat → List α → Nat × List α
  | 0, pos, heap => (pos, heap)
  | fuel + 1, pos, heap =>
      match smallerChild? less heap pos with
      | none => (pos, heap)
      | some (childpos, child) => sinkHole fuel childpos (heap.set pos child)

def siftup (newitem : α) (heap : List α) : List α :=
  let (pos, moved) := sinkHole less heap.length 0 heap
  siftdown less newitem pos pos moved

def heappush (heap : List α) (item : α) : List α :=
  siftdown less item heap.length heap.length (heap ++ [item])

def heappop (heap : List α) : Option (α × List α) :=
  match heap.getLast? with
  | none => none
  | some lastelt =>
      match heap.dropLast with
      | [] => some (lastelt, [])
      | returnitem :: rest => some (returnitem, siftup less lastelt (returnitem :: rest))

end Operations

/-- The comparison is that of a total preorder. -/
structure StrictOrder {α : Type} (less : α → α → Bool) : Prop where
  asymm : ∀ left right, less left right = true → less right left = false
  trans : ∀ first second third, less second first = false → less third second = false →
    less third first = false

/-- No item is less than its parent. -/
def Ordered {α : Type} (less : α → α → Bool) (heap : List α) : Prop :=
  ∀ pos parent child, 0 < pos → heap[(pos - 1) / 2]? = some parent → heap[pos]? = some child →
    less child parent = false

section Holes

variable {α : Type} {less : α → α → Bool} {heap : List α} {hole : Nat} {item : α}

/-- Parents and children that are not at the hole are in order, and so are the parent
and the children of the hole. -/
structure OrderedAround (less : α → α → Bool) (heap : List α) (hole : Nat) : Prop where
  off : ∀ pos parent child, 0 < pos → pos ≠ hole → (pos - 1) / 2 ≠ hole →
    heap[(pos - 1) / 2]? = some parent → heap[pos]? = some child → less child parent = false
  across : ∀ pos parent child, 0 < hole → 0 < pos → (pos - 1) / 2 = hole →
    heap[(hole - 1) / 2]? = some parent → heap[pos]? = some child → less child parent = false

/-- The children of the hole are not less than the item. -/
def Below (less : α → α → Bool) (heap : List α) (hole : Nat) (item : α) : Prop :=
  ∀ pos child, 0 < pos → (pos - 1) / 2 = hole → heap[pos]? = some child → less child item = false

theorem OrderedAround.fill (around : OrderedAround less heap hole) (below : Below less heap hole item)
    (above : ∀ parent, 0 < hole → heap[(hole - 1) / 2]? = some parent → less item parent = false) :
    Ordered less (heap.set hole item) := by
  intro pos parent child positive upper lower
  by_cases here : pos = hole
  · subst here
    rw [List.getElem?_set_ne (by omega)] at upper
    have same : item = child := by
      rw [List.getElem?_set_self' ] at lower
      obtain ⟨_, _, same⟩ := Option.map_eq_some_iff.mp lower
      exact same
    subst same
    exact above parent positive upper
  · rw [List.getElem?_set_ne (Ne.symm here)] at lower
    by_cases under : (pos - 1) / 2 = hole
    · have same : item = parent := by
        rw [under, List.getElem?_set_self'] at upper
        obtain ⟨_, _, same⟩ := Option.map_eq_some_iff.mp upper
        exact same
      subst same
      exact below pos child positive under lower
    · rw [List.getElem?_set_ne (Ne.symm under)] at upper
      exact around.off pos parent child positive here under upper lower

/-- The parent comes down to the hole. -/
theorem OrderedAround.lift (order : StrictOrder less) (around : OrderedAround less heap hole)
    {parent : α} (positive : 0 < hole) (upper : heap[(hole - 1) / 2]? = some parent)
    (smaller : less item parent = true) :
    OrderedAround less (heap.set hole parent) ((hole - 1) / 2) ∧
      Below less (heap.set hole parent) ((hole - 1) / 2) item := by
  have parentUp : ∀ grand, 0 < (hole - 1) / 2 → heap[((hole - 1) / 2 - 1) / 2]? = some grand →
      less parent grand = false := by
    intro grand high found
    exact around.off ((hole - 1) / 2) grand parent high (by omega) (by omega) found upper
  have siblings : ∀ pos child, 0 < pos → pos ≠ hole → (pos - 1) / 2 = (hole - 1) / 2 →
      heap[pos]? = some child → less child parent = false := by
    intro pos child high other same found
    exact around.off pos parent child high other (by omega) (same ▸ upper) found
  have filled : ∀ child, (heap.set hole parent)[hole]? = some child → child = parent := by
    intro child found
    rw [List.getElem?_set_self'] at found
    obtain ⟨_, _, same⟩ := Option.map_eq_some_iff.mp found
    exact same.symm
  refine ⟨⟨?_, ?_⟩, ?_⟩
  · intro pos first child high other under above found
    by_cases here : pos = hole
    · exact absurd (congrArg (fun pos => (pos - 1) / 2) here) under
    · rw [List.getElem?_set_ne (Ne.symm here)] at found
      by_cases below : (pos - 1) / 2 = hole
      · rw [below] at above
        rw [filled first above]
        exact around.across pos parent child positive high below upper found
      · rw [List.getElem?_set_ne (Ne.symm below)] at above
        exact around.off pos first child high here below above found
  · intro pos grand child high far under above found
    rw [List.getElem?_set_ne (by omega)] at above
    by_cases here : pos = hole
    · rw [here] at found
      rw [filled child found]
      exact parentUp grand high above
    · rw [List.getElem?_set_ne (Ne.symm here)] at found
      exact order.trans grand parent child (parentUp grand high above)
        (siblings pos child far here under found)
  · intro pos child high under found
    by_cases here : pos = hole
    · rw [here] at found
      rw [filled child found]
      exact order.asymm item parent smaller
    · rw [List.getElem?_set_ne (Ne.symm here)] at found
      exact order.trans item parent child (order.asymm item parent smaller)
        (siblings pos child high here under found)

theorem ordered_siftdown (order : StrictOrder less) (fuel : Nat)
    (around : OrderedAround less heap hole) (below : Below less heap hole item)
    (enough : hole ≤ fuel) : Ordered less (siftdown less item fuel hole heap) := by
  induction fuel generalizing heap hole with
  | zero => exact around.fill below fun parent positive _ => absurd positive (by omega)
  | succ fuel ih =>
      unfold siftdown
      split
      · next none =>
          refine around.fill below fun parent _ upper => ?_
          rw [none] at upper
          cases upper
      · next parent upper =>
          split
          · next moves =>
              obtain ⟨lifted, still⟩ := around.lift order moves.1 upper moves.2
              exact ih lifted still (by omega)
          · next stays =>
              refine around.fill below fun other positive found => ?_
              rw [upper, Option.some.injEq] at found
              subst found
              simpa [positive] using stays

theorem smallerChild?_none (leaf : smallerChild? less heap hole = none) (pos : Nat)
    (positive : 0 < pos) (under : (pos - 1) / 2 = hole) : heap[pos]? = none := by
  unfold smallerChild? at leaf
  split at leaf
  · next none => exact List.getElem?_eq_none_iff.mpr (by
      rw [List.getElem?_eq_none_iff] at none
      omega)
  · cases leaf
  · split at leaf <;> cases leaf

theorem smallerChild?_some (order : StrictOrder less) {childpos : Nat} {child : α}
    (found : smallerChild? less heap hole = some (childpos, child)) :
    heap[childpos]? = some child ∧ (childpos - 1) / 2 = hole ∧ hole < childpos ∧
      ∀ pos other, 0 < pos → (pos - 1) / 2 = hole → heap[pos]? = some other →
        less other child = false := by
  have irrefl : ∀ value, less value value = false := by
    intro value
    cases same : less value value with
    | false => rfl
    | true => exact same ▸ order.asymm value value same
  have children : ∀ pos, 0 < pos → (pos - 1) / 2 = hole → pos = 2 * hole + 1 ∨ pos = 2 * hole + 2 := by
    intro pos positive under
    omega
  unfold smallerChild? at found
  split at found
  · cases found
  · next left hasLeft none =>
      cases found
      refine ⟨hasLeft, by omega, by omega, ?_⟩
      intro pos other positive under listed
      rcases children pos positive under with same | same
      · subst same
        rw [hasLeft, Option.some.injEq] at listed
        subst listed
        exact irrefl _
      · subst same
        rw [none] at listed
        cases listed
  · next left right hasLeft hasRight =>
      split at found
      · next smaller =>
          cases found
          refine ⟨hasLeft, by omega, by omega, ?_⟩
          intro pos other positive under listed
          rcases children pos positive under with same | same
          · subst same
            rw [hasLeft, Option.some.injEq] at listed
            subst listed
            exact irrefl _
          · subst same
            rw [hasRight, Option.some.injEq] at listed
            subst listed
            exact order.asymm _ _ smaller
      · next notSmaller =>
          cases found
          refine ⟨hasRight, by omega, by omega, ?_⟩
          intro pos other positive under listed
          rcases children pos positive under with same | same
          · subst same
            rw [hasLeft, Option.some.injEq] at listed
            subst listed
            simpa using notSmaller
          · subst same
            rw [hasRight, Option.some.injEq] at listed
            subst listed
            exact irrefl _

/-- The smaller child comes up to the hole. -/
theorem OrderedAround.sink (around : OrderedAround less heap hole)
    {childpos : Nat} {child : α} (lower : heap[childpos]? = some child)
    (under : (childpos - 1) / 2 = hole) (deeper : hole < childpos)
    (smallest : ∀ pos other, 0 < pos → (pos - 1) / 2 = hole → heap[pos]? = some other →
      less other child = false) :
    OrderedAround less (heap.set hole child) childpos := by
  have filled : ∀ value, (heap.set hole child)[hole]? = some value → value = child := by
    intro value found
    rw [List.getElem?_set_self'] at found
    obtain ⟨_, _, same⟩ := Option.map_eq_some_iff.mp found
    exact same.symm
  constructor
  · intro pos parent value positive other notUnder upper found
    by_cases here : pos = hole
    · subst here
      rw [filled value found]
      rw [List.getElem?_set_ne (by omega)] at upper
      exact around.across childpos parent child positive (by omega) under upper lower
    · rw [List.getElem?_set_ne (Ne.symm here)] at found
      by_cases beside : (pos - 1) / 2 = hole
      · rw [beside] at upper
        rw [filled parent upper]
        exact smallest pos value positive beside found
      · rw [List.getElem?_set_ne (Ne.symm beside)] at upper
        exact around.off pos parent value positive here beside upper found
  · intro pos parent value _ positive below upper found
    rw [under] at upper
    rw [filled parent upper]
    rw [List.getElem?_set_ne (by omega)] at found
    exact around.off pos child value positive (by omega) (by omega) (below ▸ lower) found

/-- The hole sinks to a leaf. -/
theorem ordered_sinkHole (order : StrictOrder less) (fuel : Nat)
    (around : OrderedAround less heap hole) (inside : hole < heap.length)
    (enough : heap.length ≤ fuel + hole) :
    OrderedAround less (sinkHole less fuel hole heap).2 (sinkHole less fuel hole heap).1 ∧
      (∀ item, Below less (sinkHole less fuel hole heap).2 (sinkHole less fuel hole heap).1 item) ∧
      (sinkHole less fuel hole heap).1 < (sinkHole less fuel hole heap).2.length := by
  induction fuel generalizing heap hole with
  | zero => omega
  | succ fuel ih =>
      unfold sinkHole
      cases found : smallerChild? less heap hole with
      | none =>
          refine ⟨around, ?_, inside⟩
          intro item pos child positive under listed
          rw [smallerChild?_none found pos positive under] at listed
          cases listed
      | some smaller =>
          obtain ⟨childpos, child⟩ := smaller
          obtain ⟨lower, under, deeper, smallest⟩ := smallerChild?_some order found
          have within : childpos < heap.length := (List.getElem?_eq_some_iff.mp lower).1
          exact ih (around.sink lower under deeper smallest) (by rwa [List.length_set])
            (by rw [List.length_set]; omega)

end Holes

section Members

variable {α : Type} {less : α → α → Bool} {heap : List α} {hole : Nat} {item : α}

/-- Moving an item into the hole makes a hole where it was. -/
theorem eraseIdx_set_perm {pos : Nat} {moved : α} (found : heap[pos]? = some moved)
    (inside : hole < heap.length) (different : hole ≠ pos) :
    ((heap.set hole moved).eraseIdx pos).Perm (heap.eraseIdx hole) := by
  obtain ⟨bound, value⟩ := List.getElem?_eq_some_iff.mp found
  have still : pos < (heap.set hole moved).length := by rwa [List.length_set]
  have kept : (heap.set hole moved)[pos] = moved := by
    rw [List.getElem_set_ne different, value]
  have whole : (moved :: (heap.set hole moved).eraseIdx pos).Perm (heap.set hole moved) := by
    have perm := List.getElem_cons_eraseIdx_perm still
    rwa [kept] at perm
  exact (whole.trans (List.set_perm_cons_eraseIdx inside moved)).cons_inv

theorem siftdown_perm (fuel : Nat) (inside : hole < heap.length) :
    (siftdown less item fuel hole heap).Perm (item :: heap.eraseIdx hole) := by
  induction fuel generalizing heap hole with
  | zero => exact List.set_perm_cons_eraseIdx inside item
  | succ fuel ih =>
      unfold siftdown
      split
      · exact List.set_perm_cons_eraseIdx inside item
      · next parent upper =>
          split
          · next moves =>
              have higher : (hole - 1) / 2 < (heap.set hole parent).length := by
                rw [List.length_set]
                omega
              exact (ih higher).trans
                ((eraseIdx_set_perm upper inside (by omega)).cons item)
          · exact List.set_perm_cons_eraseIdx inside item

theorem sinkHole_perm (order : StrictOrder less) (fuel : Nat) (inside : hole < heap.length) :
    ((sinkHole less fuel hole heap).2.eraseIdx (sinkHole less fuel hole heap).1).Perm
      (heap.eraseIdx hole) := by
  induction fuel generalizing heap hole with
  | zero => exact .refl _
  | succ fuel ih =>
      unfold sinkHole
      cases found : smallerChild? less heap hole with
      | none => exact .refl _
      | some smaller =>
          obtain ⟨childpos, child⟩ := smaller
          obtain ⟨lower, _, deeper, _⟩ := smallerChild?_some order found
          have within : childpos < (heap.set hole child).length := by
            rw [List.length_set]
            exact (List.getElem?_eq_some_iff.mp lower).1
          exact (ih within).trans (eraseIdx_set_perm lower inside (by omega))

end Members

section Specification

variable {α : Type} {less : α → α → Bool} {heap : List α}

/-- The root is a least item. -/
theorem Ordered.root (order : StrictOrder less) (ordered : Ordered less heap) {root item : α}
    (top : heap[0]? = some root) (member : item ∈ heap) : less item root = false := by
  have reached : ∀ (pos : Nat) value, heap[pos]? = some value → less value root = false := by
    intro pos
    induction pos using Nat.strongRecOn with
    | ind pos ih =>
        intro value found
        by_cases first : pos = 0
        · subst first
          rw [top, Option.some.injEq] at found
          subst found
          cases same : less root root with
          | false => rfl
          | true => exact same ▸ order.asymm root root same
        · have bound := (List.getElem?_eq_some_iff.mp found).1
          have higher : (pos - 1) / 2 < heap.length := by omega
          obtain ⟨parent, upper⟩ : ∃ parent, heap[(pos - 1) / 2]? = some parent :=
            ⟨_, List.getElem?_eq_getElem higher⟩
          exact order.trans root parent value (ih _ (by omega) parent upper)
            (ordered pos parent value (by omega) upper found)
  obtain ⟨pos, bound, same⟩ := List.mem_iff_getElem.mp member
  exact reached pos item (same ▸ List.getElem?_eq_getElem bound)

theorem heappush_perm (heap : List α) (item : α) :
    (heappush less heap item).Perm (item :: heap) := by
  have perm := @siftdown_perm α less (heap ++ [item]) heap.length item heap.length (by simp)
  rwa [List.eraseIdx_append_of_length_le (Nat.le_refl _), Nat.sub_self, List.eraseIdx_cons_zero,
    List.append_nil] at perm

theorem Ordered.heappush (order : StrictOrder less) (ordered : Ordered less heap) (item : α) :
    Ordered less (heappush less heap item) := by
  refine ordered_siftdown order heap.length ⟨?_, ?_⟩ ?_ (Nat.le_refl _)
  · intro pos parent child positive here _ upper found
    have bound := (List.getElem?_eq_some_iff.mp found).1
    rw [List.length_append, List.length_singleton] at bound
    rw [List.getElem?_append_left (by omega)] at upper found
    exact ordered pos parent child positive upper found
  · intro pos parent child _ positive under _ found
    have bound := (List.getElem?_eq_some_iff.mp found).1
    rw [List.length_append, List.length_singleton] at bound
    omega
  · intro pos child positive under found
    have bound := (List.getElem?_eq_some_iff.mp found).1
    rw [List.length_append, List.length_singleton] at bound
    omega

theorem heappop_eq_none_iff : heappop less heap = none ↔ heap = [] := by
  unfold heappop
  cases heap with
  | nil => simp
  | cons first rest =>
      rw [List.getLast?_cons]
      simp only [reduceCtorEq, iff_false]
      split <;> simp

/-- A heap without its last item, with the root for a hole. -/
theorem Ordered.around {root last : α} {rest : List α}
    (ordered : Ordered less (root :: rest ++ [last])) : OrderedAround less (root :: rest) 0 := by
  constructor
  · intro pos parent child positive _ _ upper found
    have bound := (List.getElem?_eq_some_iff.mp found).1
    refine ordered pos parent child positive ?_ ?_
    · rw [List.getElem?_append_left (by omega)]
      exact upper
    · rw [List.getElem?_append_left bound]
      exact found
  · intro _ _ _ positive
    exact absurd positive (Nat.lt_irrefl 0)

theorem siftup_spec (order : StrictOrder less) {root last : α} {rest : List α}
    (ordered : Ordered less (root :: rest ++ [last])) :
    Ordered less (siftup less last (root :: rest)) ∧
      (siftup less last (root :: rest)).Perm (last :: rest) := by
  have inside : 0 < (root :: rest).length := Nat.succ_pos _
  obtain ⟨around, below, within⟩ :=
    ordered_sinkHole order (root :: rest).length ordered.around inside (by omega)
  have members := @sinkHole_perm α less (root :: rest) 0 order (root :: rest).length inside
  exact ⟨ordered_siftdown order _ around (below last) (Nat.le_refl _),
    (siftdown_perm _ within).trans (members.cons last)⟩

/-- A heap gives its least item and keeps the others. -/
theorem Ordered.heappop (order : StrictOrder less) (ordered : Ordered less heap) {least : α}
    {rest : List α} (popped : heappop less heap = some (least, rest)) :
    Ordered less rest ∧ heap.Perm (least :: rest) ∧ ∀ item ∈ heap, less item least = false := by
  unfold BinaryHeap.heappop at popped
  cases ends : heap.getLast? with
  | none =>
      rw [ends] at popped
      cases popped
  | some last =>
      obtain ⟨front, same⟩ := List.getLast?_eq_some_iff.mp ends
      subst same
      rw [ends, List.dropLast_concat] at popped
      have root : (front ++ [last])[0]? = some least := by
        cases front with
        | nil =>
            cases popped
            rfl
        | cons first others =>
            cases popped
            rfl
      refine ⟨?_, ?_, fun item member => ordered.root order root member⟩
      · cases front with
        | nil =>
            cases popped
            intro pos parent child _ _ found
            cases found
        | cons first others =>
            cases popped
            exact (siftup_spec order ordered).1
      · cases front with
        | nil =>
            cases popped
            exact .refl _
        | cons first others =>
            cases popped
            have kept := (siftup_spec order ordered).2
            exact ((List.perm_append_singleton last others).trans kept.symm).cons _

end Specification

end LibraFlow.Library.BinaryHeap
