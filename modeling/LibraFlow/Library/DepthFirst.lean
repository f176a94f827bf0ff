import LibraFlow.Library.Dict
import LibraFlow.Library.Digraph

/-! Depth-first traversals that share one set of visited nodes and stop below a level.
A traversal enters a node where its depth-first tree has it: in the first place, in the
order of the traversal, that a node above the last level of the tree offers. -/

set_option autoImplicit false

namespace LibraFlow.Library.Digraph

variable {α : Type}

/-- An item comes before another one's first occurrence. -/
def Sooner (items : List α) (left right : α) : Prop :=
  ∃ earlier later, items = earlier ++ right :: later ∧ left ∈ earlier ∧ right ∉ earlier

/-- Two paths part at a node, the left one towards a sooner successor. -/
def Forks (next : α → List α) (left right : List α) : Prop :=
  ∃ stem node first second, stem ++ [node, first] <+: left ∧ stem ++ [node, second] <+: right ∧
    Sooner (next node) first second

/-- The order of a traversal: a path comes before its extensions, and where two paths
part the sooner successor comes first. -/
def Before (next : α → List α) (left right : List α) : Prop :=
  (left <+: right ∧ left ≠ right) ∨ Forks next left right

/-- A depth-first tree of bounded height. Every node of the tree but the root hangs on an
edge, and it is placed no later than where any node above the last level offers a place. -/
structure DepthFirstTree (next : α → List α) (start : α) (height : Nat)
    (place : α → Option (List α)) : Prop where
  root : place start = some [start]
  hangs : ∀ node path, place node = some path → node ≠ start →
    ∃ parent above, place parent = some above ∧ node ∈ next parent ∧ path = above ++ [node]
  short : ∀ node path, place node = some path → path.length ≤ height + 1
  earliest : ∀ parent above, place parent = some above → above.length ≤ height →
    ∀ node ∈ next parent, ∃ path, place node = some path ∧
      (path = above ++ [node] ∨ Before next path (above ++ [node]))

section Traversal

variable [DecidableEq α]

/-- The nodes a traversal enters, each with the path it was entered by. -/
def explore (next : α → List α) : Nat → List α → α → List (α × List α) → List (α × List α)
  | 0, _, _, entered => entered
  | levels + 1, above, node, entered =>
      if node ∈ entered.map Prod.fst then entered
      else (next node).foldl
        (fun entered successor => explore next levels (above ++ [node]) successor entered)
        (entered ++ [(node, above ++ [node])])

end Traversal

section Order

variable {next : α → List α} {left right path above : List α} {node first second : α}

theorem Before.of_proper (initial : left <+: right) (shorter : left.length < right.length) :
    Before next left right := by
  refine .inl ⟨initial, fun same => ?_⟩
  rw [same] at shorter
  exact lt_irrefl _ shorter

theorem Before.not_of_prefix (extended : right <+: left) : ¬ Before next left right := by
  rintro (⟨shorter, different⟩ | ⟨stem, node, first, second, leftward, rightward, earlier, later, _,
    sooner, absent⟩)
  · exact different (shorter.eq_of_length_le extended.length_le)
  · have shared : stem ++ [node, first] <+: stem ++ [node, second] :=
      List.prefix_of_prefix_length_le leftward (rightward.trans extended) (by simp)
    have same : stem ++ [node, first] = stem ++ [node, second] := shared.eq_of_length (by simp)
    have equal : first = second := by simpa using same
    exact absent (equal ▸ sooner)

theorem Before.extend (before : Before next left right) (longer : right <+: path) :
    Before next left path := by
  rcases before with ⟨shorter, different⟩ | ⟨stem, node, first, second, leftward, rightward, sooner⟩
  · refine .of_proper (shorter.trans longer) (lt_of_lt_of_le ?_ longer.length_le)
    exact lt_of_le_of_ne shorter.length_le fun same => different (shorter.eq_of_length same)
  · exact .inr ⟨stem, node, first, second, leftward, rightward.trans longer, sooner⟩

/-- Nothing but the empty path comes before a path of one node. -/
theorem Before.eq_nil (before : Before next path [node]) : path = [] := by
  rcases before with ⟨shorter, different⟩ | ⟨stem, _, _, _, _, longer, _⟩
  · rcases List.prefix_cons_iff.mp shorter with empty | ⟨rest, rfl, nothing⟩
    · exact empty
    · rw [List.prefix_nil.mp nothing] at different
      exact absurd rfl different
  · have := longer.length_le
    simp at this

/-- A path towards a successor comes before every path towards a later one. -/
theorem Before.of_siblings {scanned rest : List α} (split : next node = scanned ++ second :: rest)
    (scannedFirst : first ∈ scanned) (absent : second ∉ scanned)
    (leftward : above ++ [node] ++ [first] <+: left)
    (rightward : above ++ [node] ++ [second] <+: right) : Before next left right :=
  .inr ⟨above, node, first, second, by simpa using leftward, by simpa using rightward,
    scanned, rest, split, scannedFirst, absent⟩

/-- The paths that a traversal has been through at a point of the scan of a node. -/
def Reached (next : α → List α) (path scanned reached : List α) : Prop :=
  Before next reached path ∨ reached = path ∨ ∃ child ∈ scanned, path ++ [child] <+: reached

/-- What comes before a successor was reached by the time of its turn. -/
theorem Before.reached {scanned rest : List α} (split : next node = scanned ++ second :: rest)
    (before : Before next left (above ++ [node] ++ [second])) :
    Reached next (above ++ [node]) scanned left := by
  rcases before with ⟨shorter, different⟩ | ⟨stem, fork, first, other, leftward, rightward, sooner⟩
  · have inner : left <+: above ++ [node] :=
      (List.prefix_concat_iff.mp shorter).resolve_left different
    by_cases same : left = above ++ [node]
    · exact .inr (.inl same)
    · exact .inl (.inl ⟨inner, same⟩)
  · rcases List.prefix_concat_iff.mp rightward with whole | inner
    · obtain ⟨parts, only⟩ := List.append_inj'
        ((List.append_assoc stem [fork] [other]).trans whole) rfl
      cases only
      obtain ⟨rfl, only⟩ := List.append_inj' parts rfl
      cases only
      obtain ⟨earlier, later, same, member, absent⟩ := sooner
      refine .inr (.inr ⟨first, ?_, by simpa using leftward⟩)
      rcases List.append_eq_append_iff.mp (split.symm.trans same) with
        ⟨middle, rfl, tail⟩ | ⟨middle, rfl, _⟩
      · cases middle with
        | nil => simpa using member
        | cons head _ =>
            cases tail
            simp at absent
      · exact List.mem_append_left _ member
    · exact .inl (.inr ⟨stem, fork, first, other, leftward, inner, sooner⟩)

theorem before_iff_reached {scanned rest : List α} (split : next node = scanned ++ second :: rest)
    (late : second ∉ scanned) :
    Before next left (above ++ [node] ++ [second]) ↔
      Reached next (above ++ [node]) scanned left := by
  refine ⟨Before.reached split, ?_⟩
  rintro (before | rfl | ⟨first, scannedFirst, leftward⟩)
  · exact before.extend (List.prefix_append _ _)
  · exact .of_proper (List.prefix_append _ _) (by simp)
  · exact .of_siblings split scannedFirst late leftward List.prefix_rfl

end Order

section Entering

variable {next : α → List α} {above path : List α} {node child : α} {levels fewer : Nat}
  {scanned rest : List α} {entered added inside : List (α × List α)}

/-- A node has been entered before, or it is placed no later than below the given path. -/
def Settled (next : α → List α) (entered added : List (α × List α)) (above : List α) (node : α) :
    Prop :=
  node ∈ entered.map Prod.fst ∨
    ∃ path, (node, path) ∈ added ∧ (path = above ++ [node] ∨ Before next path (above ++ [node]))

/-- What the scan of some successors of a node adds below the path to the node, when the
successors may go down the given number of levels. -/
structure Scanned (next : α → List α) (path : List α) (node : α) (levels : Nat)
    (scanned : List α) (entered added : List (α × List α)) : Prop where
  distinct : (added.map Prod.fst).Nodup
  fresh : ∀ item ∈ added, item.1 ∉ entered.map Prod.fst
  below : ∀ item ∈ added, ∃ child ∈ scanned, path ++ [child] <+: item.2
  short : ∀ item ∈ added, item.2.length ≤ path.length + levels
  hangs : ∀ item ∈ added, ∃ above, item.2 = above ++ [item.1] ∧
    (above = path ∧ item.1 ∈ next node ∨ ∃ parent, (parent, above) ∈ added ∧ item.1 ∈ next parent)
  settled : ∀ item ∈ added, item.2.length < path.length + levels →
    ∀ successor ∈ next item.1, Settled next entered added item.2 successor
  complete : 0 < levels → ∀ child ∈ scanned, Settled next entered added path child

/-- What a call adds: nothing, or the node and what the scan of its successors adds. -/
inductive Enters (next : α → List α) (levels : Nat) (above : List α) (node : α)
    (entered : List (α × List α)) : List (α × List α) → Prop where
  | nothing (refused : levels = 0 ∨ node ∈ entered.map Prod.fst) :
      Enters next levels above node entered []
  | node {fewer : Nat} {inside : List (α × List α)} (left : levels = fewer + 1)
      (unseen : node ∉ entered.map Prod.fst)
      (scanned : Scanned next (above ++ [node]) node fewer (next node)
        (entered ++ [(node, above ++ [node])]) inside) :
      Enters next levels above node entered ((node, above ++ [node]) :: inside)

theorem Settled.widen (settled : Settled next entered added path node)
    (more : List (α × List α)) : Settled next entered (added ++ more) path node := by
  rcases settled with before | ⟨place, member, early⟩
  · exact .inl before
  · exact .inr ⟨place, List.mem_append_left _ member, early⟩

theorem Settled.mem (settled : Settled next entered added path node) :
    node ∈ (entered ++ added).map Prod.fst := by
  rw [List.map_append, List.mem_append]
  rcases settled with before | ⟨place, member, _⟩
  · exact .inl before
  · exact .inr (List.mem_map.mpr ⟨(node, place), member, rfl⟩)

namespace Scanned

theorem nil (next : α → List α) (path : List α) (node : α) (levels : Nat)
    (entered : List (α × List α)) : Scanned next path node levels [] entered [] :=
  ⟨List.nodup_nil, by simp, by simp, by simp, by simp, by simp, by simp⟩

/-- What was added before the turn of a child comes before every path through the child. -/
theorem earlier (done : Scanned next (above ++ [node]) node levels scanned entered added)
    (split : next node = scanned ++ child :: rest) (late : child ∉ scanned)
    {item : α × List α} (member : item ∈ added) (through : above ++ [node] ++ [child] <+: path) :
    Before next item.2 path := by
  obtain ⟨sooner, scannedFirst, leftward⟩ := done.below item member
  exact .of_siblings split scannedFirst late leftward through

/-- A child that is entered before its turn is placed before its turn. -/
theorem settled_seen (done : Scanned next (above ++ [node]) node levels scanned entered added)
    (split : next node = scanned ++ child :: rest) (positive : 0 < levels)
    (seen : child ∈ (entered ++ added).map Prod.fst) :
    Settled next entered added (above ++ [node]) child := by
  by_cases early : child ∈ scanned
  · exact done.complete positive child early
  · rw [List.map_append, List.mem_append] at seen
    rcases seen with before | placed
    · exact .inl before
    · obtain ⟨⟨_, place⟩, member, rfl⟩ := List.mem_map.mp placed
      exact .inr ⟨place, member, .inr (done.earlier split early member List.prefix_rfl)⟩

/-- What is settled below a child is settled in the whole scan. -/
theorem settled_inside (done : Scanned next (above ++ [node]) node levels scanned entered added)
    (split : next node = scanned ++ child :: rest) (late : child ∉ scanned) {successor : α}
    (through : above ++ [node] ++ [child] <+: path)
    (settled : Settled next (entered ++ added ++ [(child, above ++ [node] ++ [child])]) inside path
      successor) :
    Settled next entered (added ++ (child, above ++ [node] ++ [child]) :: inside) path
      successor := by
  have extended : path <+: path ++ [successor] := List.prefix_append _ _
  rcases settled with before | ⟨place, member, early⟩
  · simp only [List.map_append, List.mem_append, List.map_cons, List.map_nil,
      List.mem_singleton] at before
    rcases before with (outside | placed) | same
    · exact .inl outside
    · obtain ⟨⟨_, place⟩, member, rfl⟩ := List.mem_map.mp placed
      exact .inr ⟨place, List.mem_append_left _ member,
        .inr (done.earlier split late member (through.trans extended))⟩
    · subst successor
      refine .inr ⟨above ++ [node] ++ [child], by simp, .inr ?_⟩
      refine .of_proper (through.trans extended) ?_
      have := through.length_le
      simp only [List.length_append, List.length_singleton] at this ⊢
      omega
  · exact .inr ⟨place, List.mem_append_right _ (List.mem_cons_of_mem _ member), early⟩

/-- The turn of a child that enters nothing. -/
theorem skip (done : Scanned next (above ++ [node]) node levels scanned entered added)
    (split : next node = scanned ++ child :: rest)
    (refused : levels = 0 ∨ child ∈ (entered ++ added).map Prod.fst) :
    Scanned next (above ++ [node]) node levels (scanned ++ [child]) entered added := by
  refine { done with below := ?_, complete := ?_ }
  · intro item member
    obtain ⟨sooner, scannedFirst, leftward⟩ := done.below item member
    exact ⟨sooner, List.mem_append_left _ scannedFirst, leftward⟩
  · intro positive other turn
    rcases List.mem_append.mp turn with early | last
    · exact done.complete positive other early
    · rw [List.mem_singleton] at last
      subst other
      rcases refused with none | seen
      · omega
      · exact done.settled_seen split positive seen

/-- The turn of a child that is entered. -/
theorem enter (done : Scanned next (above ++ [node]) node (fewer + 1) scanned entered added)
    (split : next node = scanned ++ child :: rest)
    (unseen : child ∉ (entered ++ added).map Prod.fst)
    (sub : Scanned next (above ++ [node] ++ [child]) child fewer (next child)
      (entered ++ added ++ [(child, above ++ [node] ++ [child])]) inside) :
    Scanned next (above ++ [node]) node (fewer + 1) (scanned ++ [child]) entered
      (added ++ (child, above ++ [node] ++ [child]) :: inside) := by
  have late : child ∉ scanned := fun early =>
    unseen (done.complete (Nat.succ_pos fewer) child early).mem
  have deeper : ∀ item ∈ inside, above ++ [node] ++ [child] <+: item.2 := by
    intro item member
    obtain ⟨_, _, leftward⟩ := sub.below item member
    exact (List.prefix_append _ _).trans leftward
  have depth : (above ++ [node] ++ [child]).length + fewer =
      (above ++ [node]).length + (fewer + 1) := by
    simp only [List.length_append, List.length_singleton]
    omega
  have insideFresh : ∀ item ∈ inside, item.1 ∉ entered.map Prod.fst ∧
      item.1 ∉ added.map Prod.fst ∧ item.1 ≠ child := by
    intro item member
    simpa [and_assoc] using sub.fresh item member
  rw [List.map_append, List.mem_append, not_or] at unseen
  refine ⟨?_, ?_, ?_, ?_, ?_, ?_, ?_⟩
  · rw [List.map_append, List.map_cons]
    refine List.nodup_append.mpr ⟨done.distinct, List.nodup_cons.mpr ⟨?_, sub.distinct⟩, ?_⟩
    · intro member
      obtain ⟨item, placed, same⟩ := List.mem_map.mp member
      exact (insideFresh item placed).2.2 same
    · rintro left leftMember right rightMember rfl
      rcases List.mem_cons.mp rightMember with rfl | within
      · exact unseen.2 leftMember
      · obtain ⟨item, placed, rfl⟩ := List.mem_map.mp within
        exact (insideFresh item placed).2.1 leftMember
  · refine List.forall_mem_append.mpr ⟨done.fresh, List.forall_mem_cons.mpr ⟨unseen.1, ?_⟩⟩
    intro item member
    exact (insideFresh item member).1
  · refine List.forall_mem_append.mpr ⟨?_, List.forall_mem_cons.mpr ⟨?_, ?_⟩⟩
    · intro item member
      obtain ⟨sooner, scannedFirst, leftward⟩ := done.below item member
      exact ⟨sooner, List.mem_append_left _ scannedFirst, leftward⟩
    · exact ⟨child, by simp, List.prefix_rfl⟩
    · intro item member
      exact ⟨child, by simp, deeper item member⟩
  · refine List.forall_mem_append.mpr ⟨done.short, List.forall_mem_cons.mpr ⟨?_, ?_⟩⟩
    · exact (Nat.le_add_right _ fewer).trans depth.le
    · intro item member
      exact (sub.short item member).trans depth.le
  · refine List.forall_mem_append.mpr ⟨?_, List.forall_mem_cons.mpr ⟨?_, ?_⟩⟩
    · intro item member
      obtain ⟨place, ends, top | ⟨parent, placed, edge⟩⟩ := done.hangs item member
      · exact ⟨place, ends, .inl top⟩
      · exact ⟨place, ends, .inr ⟨parent, List.mem_append_left _ placed, edge⟩⟩
    · exact ⟨above ++ [node], rfl, .inl ⟨rfl, by simp [split]⟩⟩
    · intro item member
      obtain ⟨place, ends, ⟨rfl, edge⟩ | ⟨parent, placed, edge⟩⟩ := sub.hangs item member
      · exact ⟨_, ends, .inr ⟨child, by simp, edge⟩⟩
      · exact ⟨place, ends, .inr ⟨parent, by simp [placed], edge⟩⟩
  · refine List.forall_mem_append.mpr ⟨?_, List.forall_mem_cons.mpr ⟨?_, ?_⟩⟩
    · intro item member room successor edge
      exact (done.settled item member room successor edge).widen _
    · intro room successor edge
      have positive : 0 < fewer := by
        simp only at room
        omega
      exact done.settled_inside split late List.prefix_rfl (sub.complete positive successor edge)
    · intro item member room successor edge
      exact done.settled_inside split late (deeper item member)
        (sub.settled item member (room.trans_eq depth.symm) successor edge)
  · intro positive other turn
    rcases List.mem_append.mp turn with early | last
    · exact (done.complete positive other early).widen _
    · rw [List.mem_singleton] at last
      subst other
      exact .inr ⟨_, List.mem_append_right _ List.mem_cons_self, .inl rfl⟩

/-- The turn of a child. -/
theorem turn (done : Scanned next (above ++ [node]) node levels scanned entered added)
    (split : next node = scanned ++ child :: rest) {more : List (α × List α)}
    (enters : Enters next levels (above ++ [node]) child (entered ++ added) more) :
    Scanned next (above ++ [node]) node levels (scanned ++ [child]) entered (added ++ more) := by
  cases enters with
  | nothing refused =>
      rw [List.append_nil]
      exact done.skip split refused
  | node left unseen sub =>
      subst left
      exact done.enter split unseen sub

/-- A scan whose calls enter nodes in the order of a depth-first tree does so too. -/
theorem of_foldl {call : α → List (α × List α) → List (α × List α)}
    (calls : ∀ child entered, ∃ more, call child entered = entered ++ more ∧
      Enters next levels (above ++ [node]) child entered more)
    (entered : List (α × List α)) (scanned rest : List α) (split : next node = scanned ++ rest) :
    ∃ added, scanned.foldl (fun entered child => call child entered) entered = entered ++ added ∧
      Scanned next (above ++ [node]) node levels scanned entered added := by
  induction scanned using List.reverseRecOn generalizing rest with
  | nil => exact ⟨[], by simp, .nil ..⟩
  | append_singleton scanned child ih =>
      have parts : next node = scanned ++ child :: rest := by simpa using split
      obtain ⟨added, same, done⟩ := ih (child :: rest) parts
      obtain ⟨more, grown, enters⟩ := calls child (entered ++ added)
      refine ⟨added ++ more, ?_, done.turn parts enters⟩
      rw [List.foldl_append, same, List.foldl_cons, List.foldl_nil, grown, List.append_assoc]

end Scanned

theorem explore_seen [DecidableEq α] (next : α → List α) (levels : Nat) (above : List α)
    (seen : node ∈ entered.map Prod.fst) : explore next levels above node entered = entered := by
  cases levels with
  | zero => rfl
  | succ levels => rw [explore, if_pos seen]

/-- Every call of a traversal enters its nodes in the order of a depth-first tree. -/
theorem explore_enters [DecidableEq α] (next : α → List α) (levels : Nat) (above : List α)
    (node : α) (entered : List (α × List α)) :
    ∃ added, explore next levels above node entered = entered ++ added ∧
      Enters next levels above node entered added := by
  induction levels generalizing above node entered with
  | zero => exact ⟨[], by simp [explore], .nothing (.inl rfl)⟩
  | succ levels ih =>
      unfold explore
      split
      · next seen => exact ⟨[], by simp, .nothing (.inr seen)⟩
      · next unseen =>
          obtain ⟨inside, same, scanned⟩ := Scanned.of_foldl (ih (above ++ [node]))
            (entered ++ [(node, above ++ [node])]) (next node) [] (by simp)
          exact ⟨_ :: inside, by rw [same]; simp, .node rfl unseen scanned⟩

/-- A traversal from the root enters the root first, and no node twice. -/
theorem explore_root [DecidableEq α] (next : α → List α) (start : α) (height : Nat) :
    ∃ inside, explore next (height + 1) [] start [] = (start, [start]) :: inside ∧
      (((start, [start]) :: inside).map Prod.fst).Nodup ∧
      Scanned next [start] start height (next start) [(start, [start])] inside := by
  obtain ⟨added, same, enters⟩ := explore_enters next (height + 1) [] start []
  cases enters with
  | nothing refused => simp at refused
  | @node fewer inside left _ scanned =>
      obtain rfl : height = fewer := by omega
      refine ⟨inside, same, List.nodup_cons.mpr ⟨fun member => ?_, scanned.distinct⟩, scanned⟩
      obtain ⟨item, placed, equal⟩ := List.mem_map.mp member
      exact scanned.fresh item placed (by simp [equal])

end Entering

namespace DepthFirstTree

variable {next : α → List α} {start node parent child : α} {height levels : Nat}
  {place : α → Option (List α)} {path above : List α}

theorem isPath (tree : DepthFirstTree next start height place) (placed : place node = some path) :
    IsPath next start node path := by
  induction path using List.reverseRecOn generalizing node with
  | nil =>
      by_cases same : node = start
      · subst node
        cases tree.root.symm.trans placed
      · obtain ⟨_, above, _, _, impossible⟩ := tree.hangs node [] placed same
        simp at impossible
  | append_singleton above last ih =>
      by_cases same : node = start
      · subst node
        rw [← Option.some.inj (tree.root.symm.trans placed)]
        exact .single next start
      · obtain ⟨parent, parentPath, parentPlaced, edge, split⟩ := tree.hangs node _ placed same
        obtain ⟨rfl, rfl⟩ : above = parentPath ∧ last = node := by simpa using split
        exact (ih parentPlaced).snoc edge

theorem within (tree : DepthFirstTree next start height place) (placed : place node = some path) :
    Within next start height node :=
  ⟨path, tree.isPath placed, tree.short node path placed⟩

/-- The nodes on the path to a node have their places on that path. -/
theorem on_path (tree : DepthFirstTree next start height place) (placed : place node = some path)
    (through : above ++ [parent, child] <+: path) :
    place parent = some (above ++ [parent]) ∧ place child = some (above ++ [parent, child]) ∧
      child ∈ next parent := by
  induction path using List.reverseRecOn generalizing node with
  | nil => simp at through
  | append_singleton front last ih =>
      by_cases same : node = start
      · subst node
        rw [← Option.some.inj (tree.root.symm.trans placed)] at through
        have := through.length_le
        simp at this
      · obtain ⟨other, otherPath, otherPlaced, edge, split⟩ := tree.hangs node _ placed same
        obtain ⟨rfl, rfl⟩ : front = otherPath ∧ last = node := by simpa using split
        rcases List.prefix_concat_iff.mp through with whole | inner
        · obtain ⟨rfl, only⟩ := List.append_inj'
            ((List.append_assoc above [parent] [child]).trans whole) rfl
          cases only
          have ends := (tree.isPath otherPlaced).ends
          rw [List.getLast?_concat, Option.some.injEq] at ends
          subst other
          exact ⟨otherPlaced, by simpa using placed, edge⟩
        · exact ih otherPlaced inner

/-- The entered nodes are those whose paths satisfy a condition. -/
def EnteredWhere (place : α → Option (List α)) (entered : List (α × List α))
    (condition : List α → Prop) : Prop :=
  ∀ node, node ∈ entered.map Prod.fst ↔ ∃ path, place node = some path ∧ condition path

variable {entered : List (α × List α)} {scanned rest : List α}

/-- The turn of a successor that is not entered adds nothing to what was reached. -/
theorem reached_skip (tree : DepthFirstTree next start height place)
    (current : EnteredWhere place entered (Reached next (above ++ [node]) scanned))
    (refused : height ≤ above.length ∨ child ∈ entered.map Prod.fst) :
    EnteredWhere place entered (Reached next (above ++ [node]) (scanned ++ [child])) := by
  intro other
  rw [current other]
  refine exists_congr fun path => and_congr_right fun placed => or_congr_right (or_congr_right ?_)
  constructor
  · rintro ⟨sooner, early, leftward⟩
    exact ⟨sooner, List.mem_append_left _ early, leftward⟩
  · rintro ⟨sooner, turn, leftward⟩
    rcases List.mem_append.mp turn with early | last
    · exact ⟨sooner, early, leftward⟩
    · rw [List.mem_singleton] at last
      subst sooner
      -- the successor has its place below the node, so that it is a scanned one
      obtain ⟨_, childPlaced, _⟩ := tree.on_path placed (by simpa using leftward)
      have seen : child ∈ entered.map Prod.fst := by
        refine refused.resolve_left fun last => ?_
        have := tree.short child _ childPlaced
        simp only [List.length_append, List.length_cons, List.length_nil] at this
        omega
      obtain ⟨_, found, reached⟩ := (current child).mp seen
      cases childPlaced.symm.trans found
      rcases reached with before | same | ⟨sooner, early, through⟩
      · exact absurd before (Before.not_of_prefix ⟨[child], by simp⟩)
      · simp at same
      · have equal : sooner = child := by
          have := through.eq_of_length (by simp)
          simpa using this
        exact ⟨child, equal ▸ early, leftward⟩

/-- The turn of a successor that is entered adds what is placed below it. -/
theorem reached_enter (tree : DepthFirstTree next start height place)
    (split : next node = scanned ++ child :: rest) (placed : place node = some (above ++ [node]))
    (room : above.length < height)
    (current : EnteredWhere place entered (Reached next (above ++ [node]) scanned))
    (unseen : child ∉ entered.map Prod.fst) {after : List (α × List α)}
    (entering : place child = some (above ++ [node] ++ [child]) →
      (EnteredWhere place entered fun path => Before next path (above ++ [node] ++ [child])) →
      EnteredWhere place after fun path =>
        Before next path (above ++ [node] ++ [child]) ∨ above ++ [node] ++ [child] <+: path) :
    EnteredWhere place after (Reached next (above ++ [node]) (scanned ++ [child])) := by
  have fits : (above ++ [node]).length ≤ height := by
    rw [List.length_append, List.length_singleton]
    omega
  obtain ⟨path, childPlaced, early⟩ :=
    tree.earliest node _ placed fits child (by simp [split])
  have atTurn : path = above ++ [node] ++ [child] := by
    refine early.resolve_right fun before => unseen ?_
    exact (current child).mpr ⟨path, childPlaced, before.reached split⟩
  subst path
  have late : child ∉ scanned := fun scannedBefore => unseen
    ((current child).mpr ⟨_, childPlaced, .inr (.inr ⟨child, scannedBefore, List.prefix_rfl⟩)⟩)
  have before : EnteredWhere place entered
      fun path => Before next path (above ++ [node] ++ [child]) := by
    intro other
    simp only [before_iff_reached split late]
    exact current other
  intro other
  rw [entering childPlaced before other]
  refine exists_congr fun path => and_congr_right fun _ => ?_
  simp only [before_iff_reached split late, Reached, List.mem_append, List.mem_singleton,
    or_and_right, exists_or, exists_eq_left, or_assoc]

/-- Entering a node, before the scan of its successors. -/
theorem reached_node (tree : DepthFirstTree next start height place)
    (placed : place node = some (above ++ [node]))
    (before : EnteredWhere place entered fun path => Before next path (above ++ [node])) :
    EnteredWhere place (entered ++ [(node, above ++ [node])])
      (Reached next (above ++ [node]) []) := by
  intro other
  rw [List.map_append, List.mem_append, before other]
  constructor
  · rintro (⟨path, found, earlier⟩ | same)
    · exact ⟨path, found, .inl earlier⟩
    · obtain rfl : other = node := by simpa using same
      exact ⟨_, placed, .inr (.inl rfl)⟩
  · rintro ⟨path, found, earlier | rfl | ⟨_, none, _⟩⟩
    · exact .inl ⟨path, found, earlier⟩
    · have ends := (tree.isPath found).ends
      rw [List.getLast?_concat, Option.some.injEq] at ends
      exact .inr (by simp [ends])
    · cases none

/-- After the scan of all successors everything below the node has been reached. -/
theorem reached_all (tree : DepthFirstTree next start height place)
    (current : EnteredWhere place entered (Reached next (above ++ [node]) (next node))) :
    EnteredWhere place entered fun path =>
      Before next path (above ++ [node]) ∨ above ++ [node] <+: path := by
  intro other
  rw [current other]
  refine exists_congr fun path => and_congr_right fun found => or_congr_right ?_
  constructor
  · rintro (rfl | ⟨child, _, through⟩)
    · exact List.prefix_rfl
    · exact (List.prefix_append _ _).trans through
  · rintro ⟨below, rfl⟩
    cases below with
    | nil => exact .inl (by simp)
    | cons child below =>
        have through : above ++ [node, child] <+: above ++ [node] ++ child :: below :=
          ⟨below, by simp⟩
        exact .inr ⟨child, (tree.on_path found through).2.2, below, by simp⟩

variable [DecidableEq α]

/-- A traversal from the root enters the nodes of a depth-first tree at their places. -/
theorem of_explore (next : α → List α) (start : α) (height : Nat) :
    DepthFirstTree next start height
      fun node => Dict.lookup node (explore next (height + 1) [] start []) := by
  obtain ⟨inside, same, distinct, scanned⟩ := explore_root next start height
  rw [same]
  have placed_iff : ∀ node path, Dict.lookup node ((start, [start]) :: inside) = some path ↔
      node = start ∧ path = [start] ∨ (node, path) ∈ inside := by
    intro node path
    rw [Dict.lookup_eq_some_iff _ _ _ distinct, List.mem_cons, Prod.mk.injEq]
  have rooted : ∀ item ∈ inside, [start] <+: item.2 := by
    intro item member
    obtain ⟨_, _, leftward⟩ := scanned.below item member
    exact (List.prefix_append _ _).trans leftward
  have settled : ∀ above successor, [start] <+: above →
      Settled next [(start, [start])] inside above successor →
      ∃ path, Dict.lookup successor ((start, [start]) :: inside) = some path ∧
        (path = above ++ [successor] ∨ Before next path (above ++ [successor])) := by
    intro above successor below settled
    rcases settled with atRoot | ⟨path, member, early⟩
    · simp only [List.map_cons, List.map_nil, List.mem_singleton] at atRoot
      refine ⟨[start], (placed_iff _ _).mpr (.inl ⟨atRoot, rfl⟩), .inr (.of_proper ?_ ?_)⟩
      · exact below.trans (List.prefix_append _ _)
      · have := below.length_le
        simp only [List.length_append, List.length_singleton] at this ⊢
        omega
    · exact ⟨path, (placed_iff _ _).mpr (.inr member), early⟩
  refine ⟨?_, ?_, ?_, ?_⟩
  · exact (placed_iff _ _).mpr (.inl ⟨rfl, rfl⟩)
  · intro node path placed other
    rcases (placed_iff _ _).mp placed with ⟨same, _⟩ | member
    · exact absurd same other
    · obtain ⟨above, ends, ⟨rfl, edge⟩ | ⟨parent, parentPlaced, edge⟩⟩ := scanned.hangs _ member
      · exact ⟨start, [start], (placed_iff _ _).mpr (.inl ⟨rfl, rfl⟩), edge, ends⟩
      · exact ⟨parent, above, (placed_iff _ _).mpr (.inr parentPlaced), edge, ends⟩
  · intro node path placed
    rcases (placed_iff _ _).mp placed with ⟨_, rfl⟩ | member
    · simp
    · have bound : path.length ≤ [start].length + height := scanned.short _ member
      rw [List.length_singleton] at bound
      omega
  · intro parent above placed room successor edge
    rcases (placed_iff _ _).mp placed with ⟨rfl, rfl⟩ | member
    · exact settled _ successor List.prefix_rfl (scanned.complete room successor edge)
    · refine settled above successor (rooted _ member) ?_
      refine scanned.settled _ member ?_ successor edge
      change above.length < [start].length + height
      rw [List.length_singleton]
      omega

/-- A traversal enters exactly the nodes of a depth-first tree, in the order of the tree. -/
theorem entered_explore (tree : DepthFirstTree next start height place)
    (placed : place node = some (above ++ [node])) (room : above.length + levels = height + 1)
    (before : EnteredWhere place entered fun path => Before next path (above ++ [node])) :
    EnteredWhere place (explore next levels above node entered) fun path =>
      Before next path (above ++ [node]) ∨ above ++ [node] <+: path := by
  induction levels generalizing above node entered with
  | zero =>
      have := tree.short node _ placed
      simp only [List.length_append, List.length_singleton] at this
      omega
  | succ levels ih =>
      have unseen : node ∉ entered.map Prod.fst := by
        intro seen
        obtain ⟨_, found, earlier⟩ := (before node).mp seen
        cases placed.symm.trans found
        exact Before.not_of_prefix List.prefix_rfl earlier
      unfold explore
      rw [if_neg unseen]
      refine tree.reached_all ?_
      have scan : ∀ scanned rest, next node = scanned ++ rest →
          EnteredWhere place (scanned.foldl (fun entered successor =>
              explore next levels (above ++ [node]) successor entered)
            (entered ++ [(node, above ++ [node])])) (Reached next (above ++ [node]) scanned) := by
        intro scanned
        induction scanned using List.reverseRecOn with
        | nil => exact fun _ _ => tree.reached_node placed before
        | append_singleton scanned child scanIh =>
            intro rest split
            have parts : next node = scanned ++ child :: rest := by simpa using split
            have current := scanIh (child :: rest) parts
            rw [List.foldl_append, List.foldl_cons, List.foldl_nil]
            generalize scanned.foldl _ _ = entered at current ⊢
            by_cases seen : child ∈ entered.map Prod.fst
            · rw [explore_seen _ _ _ seen]
              exact tree.reached_skip current (.inr seen)
            · cases levels with
              | zero => exact tree.reached_skip current (.inl (by omega))
              | succ levels =>
                  have lower : (above ++ [node]).length + (levels + 1) = height + 1 := by
                    rw [List.length_append, List.length_singleton]
                    omega
                  refine tree.reached_enter parts placed (by omega) current seen ?_
                  exact fun childPlaced before => ih childPlaced lower before
      exact scan (next node) [] (by simp)

theorem entered_root (tree : DepthFirstTree next start height place) (other : α) :
    other ∈ (explore next (height + 1) [] start []).map Prod.fst ↔
      ∃ path, place other = some path := by
  have before : EnteredWhere place [] fun path => Before next path ([] ++ [start]) := by
    intro node
    refine iff_of_false (by simp) ?_
    rintro ⟨path, placed, before⟩
    exact (tree.isPath placed).ne_nil before.eq_nil
  rw [tree.entered_explore tree.root (by simp) before other]
  refine exists_congr fun path => and_iff_left_of_imp fun placed => .inr ?_
  obtain ⟨rest, same⟩ := List.head?_eq_some_iff.mp (tree.isPath placed).starts
  exact ⟨rest, same.symm⟩

/-- A traversal enters all nodes within its height exactly when they have a depth-first
tree of that height. -/
theorem covers_iff (next : α → List α) (start : α) (height : Nat) :
    (∀ node, Within next start height node →
        node ∈ (explore next (height + 1) [] start []).map Prod.fst) ↔
      ∃ place, DepthFirstTree next start height place ∧
        ∀ node, Within next start height node → ∃ path, place node = some path := by
  constructor
  · intro covered
    refine ⟨_, of_explore next start height, fun node near => ?_⟩
    exact ((of_explore next start height).entered_root node).mp (covered node near)
  · rintro ⟨place, tree, placed⟩ node near
    exact (tree.entered_root node).mpr (placed node near)

end DepthFirstTree

end LibraFlow.Library.Digraph
