import Mathlib.Algebra.GroupWithZero.Nat
import LibraFlow.Library.Dict

/-! Tries over an arbitrary alphabet with a value at every node. A value is
changed at the end of a path, and a walk with a stack visits the values of all
nodes. -/

set_option autoImplicit false

namespace LibraFlow.Library

inductive Trie (κ ν : Type) where
  | node (value : ν) (children : List (κ × Trie κ ν))

namespace Trie

section Nodes

variable {κ ν σ : Type}

def value : Trie κ ν → ν
  | node value _ => value

def children : Trie κ ν → List (κ × Trie κ ν)
  | node _ children => children

def leaf (value : ν) : Trie κ ν := node value []

mutual

/-- The number of nodes. -/
def size : Trie κ ν → Nat
  | node _ children => sizes children + 1

def sizes : List (κ × Trie κ ν) → Nat
  | [] => 0
  | (_, child) :: rest => child.size + sizes rest

end

theorem sizes_eq (children : List (κ × Trie κ ν)) :
    sizes children = ((children.map Prod.snd).map size).sum := by
  induction children with
  | nil => rfl
  | cons entry rest ih => simp [sizes, ih]

/-- Visit the values of all nodes, the last child first. -/
def walk (visit : σ → ν → σ) : Nat → List (Trie κ ν) → σ → Option σ
  | _, [], state => some state
  | 0, _ :: _, _ => none
  | fuel + 1, top :: stack, state =>
      walk visit fuel ((top.children.map Prod.snd).reverse ++ stack) (visit state top.value)

end Nodes

section Paths

variable {κ ν : Type} [DecidableEq κ]

def find? : List κ → Trie κ ν → Option (Trie κ ν)
  | [], trie => some trie
  | key :: path, trie => (Dict.lookup key trie.children).bind (find? path)

/-- The value at the end of a path. -/
def valueAt (path : List κ) (trie : Trie κ ν) : Option ν := (trie.find? path).map value

/-- Walk down a path, adding the nodes that are missing, and change the value at
its end. -/
def modify (blank : ν) (change : ν → ν) : List κ → Trie κ ν → Trie κ ν
  | [], trie => node (change trie.value) trie.children
  | key :: path, trie =>
      let child := (Dict.lookup key trie.children).getD (leaf blank)
      node trie.value (Dict.store key (modify blank change path child) trie.children)

/-- No node has two children under one key. -/
def Distinct (trie : Trie κ ν) : Prop :=
  ∀ path below, trie.find? path = some below → (below.children.map Prod.fst).Nodup

variable {blank : ν} {change : ν → ν} {trie below : Trie κ ν} {key : κ} {path other : List κ}

theorem find?_append (path other : List κ) (trie : Trie κ ν) :
    trie.find? (path ++ other) = (trie.find? path).bind (find? other) := by
  induction path generalizing trie with
  | nil => rfl
  | cons key path ih =>
      simp only [List.cons_append, find?, Option.bind_assoc]
      congr 1
      funext child
      exact ih child

theorem valueAt_append (found : trie.find? path = some below) (other : List κ) :
    trie.valueAt (path ++ other) = below.valueAt other := by
  rw [valueAt, find?_append, found, Option.bind_some]
  rfl

theorem Distinct.descend (distinct : trie.Distinct) (found : trie.find? path = some below) :
    below.Distinct := by
  intro other deeper reached
  refine distinct (path ++ other) deeper ?_
  rw [find?_append, found, Option.bind_some, reached]

theorem find?_cons (key : κ) (path : List κ) (trie : Trie κ ν) :
    trie.find? (key :: path) = (Dict.lookup key trie.children).bind (find? path) := rfl

/-- A modified trie below one key. -/
theorem find?_modify_cons (blank : ν) (change : ν → ν) (first key : κ) (path other : List κ)
    (trie : Trie κ ν) :
    (trie.modify blank change (first :: path)).find? (key :: other) =
      if first = key then
        (((Dict.lookup first trie.children).getD (leaf blank)).modify blank change path).find? other
      else trie.find? (key :: other) := by
  rw [find?_cons, find?_cons]
  simp only [modify, children, Dict.lookup_store]
  split
  · rfl
  · rfl

/-- Changing a value leaves the values at all other paths; nodes that are added
are blank. -/
theorem valueAt_modify (blank : ν) (change : ν → ν) (path other : List κ) (trie : Trie κ ν) :
    ((trie.modify blank change path).valueAt other).getD blank =
      if path = other then change ((trie.valueAt path).getD blank)
      else (trie.valueAt other).getD blank := by
  induction path generalizing trie other with
  | nil => cases other <;> rfl
  | cons first path ih =>
      cases other with
      | nil => rfl
      | cons key other =>
          -- a missing child counts as a blank leaf
          have old : ∀ rest, (((Dict.lookup first trie.children).getD (leaf blank)).valueAt
              rest).getD blank = (trie.valueAt (first :: rest)).getD blank := by
            intro rest
            rw [valueAt, valueAt, find?_cons]
            cases Dict.lookup first trie.children with
            | none => cases rest <;> rfl
            | some child => rfl
          rw [valueAt, find?_modify_cons]
          by_cases same : first = key
          · subst key
            rw [if_pos rfl, ← valueAt, ih, old, old]
            simp only [List.cons.injEq, true_and]
          · have different : first :: path ≠ key :: other := fun equal =>
              same (List.cons.inj equal).1
            rw [if_neg same, if_neg different, ← valueAt]

theorem store_keys_nodup {entries : List (κ × Trie κ ν)} (key : κ) (child : Trie κ ν)
    (distinct : (entries.map Prod.fst).Nodup) :
    ((Dict.store key child entries).map Prod.fst).Nodup :=
  ((⟨entries, distinct⟩ : Dict κ (Trie κ ν)).set key child).keysNodup

theorem distinct_leaf (value : ν) : (leaf value : Trie κ ν).Distinct := by
  intro path below found
  cases path with
  | nil =>
      cases found
      exact List.nodup_nil
  | cons key path => cases found

theorem Distinct.modify (distinct : trie.Distinct) (blank : ν) (change : ν → ν)
    (path : List κ) : (trie.modify blank change path).Distinct := by
  induction path generalizing trie with
  | nil =>
      intro other below found
      cases other with
      | nil =>
          cases found
          exact distinct [] trie rfl
      | cons key other => exact distinct (key :: other) below found
  | cons first path ih =>
      intro other below found
      cases other with
      | nil =>
          cases found
          exact store_keys_nodup first _ (distinct [] trie rfl)
      | cons key other =>
          rw [find?_modify_cons] at found
          split at found
          · refine ih ?_ other below found
            cases present : Dict.lookup first trie.children with
            | none => exact distinct_leaf blank
            | some child =>
                have child? : trie.find? [first] = some child := by
                  rw [find?_cons, present]
                  rfl
                exact distinct.descend child?
          · exact distinct (key :: other) below found

theorem Distinct.mem_children (distinct : trie.Distinct) {child : Trie κ ν} :
    (key, child) ∈ trie.children ↔ trie.find? [key] = some child := by
  rw [find?_cons, ← Dict.lookup_eq_some_iff key child trie.children (distinct [] trie rfl)]
  cases Dict.lookup key trie.children <;> rfl

/-- The values of a trie: its own and those of its children. -/
theorem Distinct.exists_valueAt_iff (distinct : trie.Distinct) (value : ν) :
    (∃ path, trie.valueAt path = some value) ↔ value = trie.value ∨
      ∃ child ∈ trie.children.map Prod.snd, ∃ path, child.valueAt path = some value := by
  constructor
  · rintro ⟨path, found⟩
    cases path with
    | nil =>
        cases found
        exact .inl rfl
    | cons key path =>
        obtain ⟨below, reached, same⟩ := Option.map_eq_some_iff.mp found
        obtain ⟨child, present, deeper⟩ := Option.bind_eq_some_iff.mp reached
        have edge : trie.find? [key] = some child := by
          rw [find?_cons, present]
          rfl
        refine .inr ⟨child, ?_, path, by rw [valueAt, deeper, Option.map_some, same]⟩
        exact List.mem_map.mpr ⟨(key, child), distinct.mem_children.mpr edge, rfl⟩
  · rintro (same | ⟨child, listed, path, found⟩)
    · exact ⟨[], by rw [same]; rfl⟩
    · obtain ⟨⟨key, child⟩, member, rfl⟩ := List.mem_map.mp listed
      refine ⟨key :: path, ?_⟩
      rw [← found]
      exact valueAt_append (distinct.mem_children.mp member) path

/-- With enough fuel a walk visits the value of every node under the stack, the top
first, in an order that does not depend on what it computes. -/
theorem walk_visits {σ : Type} (fuel : Nat) (stack : List (Trie κ ν))
    (distinct : ∀ trie ∈ stack, trie.Distinct) (enough : (stack.map size).sum ≤ fuel) :
    ∃ order : List ν, (∀ (visit : σ → ν → σ) (state : σ),
        walk visit fuel stack state = some (order.foldl visit state)) ∧
      order.head? = stack.head?.map value ∧
      ∀ value, value ∈ order ↔ ∃ trie ∈ stack, ∃ path, trie.valueAt path = some value := by
  induction fuel generalizing stack with
  | zero =>
      cases stack with
      | nil => exact ⟨[], fun _ _ => rfl, rfl, by simp⟩
      | cons top stack =>
          obtain ⟨value, children⟩ := top
          simp [size] at enough
  | succ fuel ih =>
      cases stack with
      | nil => exact ⟨[], fun _ _ => rfl, rfl, by simp⟩
      | cons top stack =>
          have own := distinct top List.mem_cons_self
          have deeper : ∀ trie ∈ (top.children.map Prod.snd).reverse ++ stack, trie.Distinct := by
            intro trie member
            rcases List.mem_append.mp member with below | later
            · obtain ⟨⟨key, child⟩, listed, rfl⟩ :=
                List.mem_map.mp (List.mem_reverse.mp below)
              exact own.descend (own.mem_children.mp listed)
            · exact distinct trie (List.mem_cons_of_mem _ later)
          have less : (((top.children.map Prod.snd).reverse ++ stack).map size).sum ≤ fuel := by
            obtain ⟨value, children⟩ := top
            simp only [List.map_cons, List.sum_cons, size, sizes_eq] at enough
            simp only [Trie.children, List.map_append, List.map_reverse, List.sum_append,
              List.sum_reverse]
            omega
          obtain ⟨order, walked, _, visited⟩ := ih _ deeper less
          refine ⟨top.value :: order, fun visit state => walked visit _, rfl, ?_⟩
          intro value
          rw [List.mem_cons, visited]
          simp only [List.mem_append, List.mem_reverse, List.mem_cons, or_and_right, exists_or,
            exists_eq_left, own.exists_valueAt_iff]
          exact or_assoc.symm

end Paths

end Trie

end LibraFlow.Library
