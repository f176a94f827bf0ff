import LibraFlow.Library.Digraph
import LibraFlow.Library.Dict
import Mathlib.Data.List.Sort
import Mathlib.Data.Rat.Defs
import Mathlib.Algebra.Order.Ring.Rat

/-! The book relation graph. Books are linked by weighted edges; a breadth-first
search connects two books, and a depth-limited traversal that prefers heavier edges
gives a learning path. -/

set_option autoImplicit false

namespace LibraFlow.Dsa

open LibraFlow.Library

structure Edge where
  targetIsbn : String
  weight : ℚ
  relationType : String := "SIMILAR_TO"
  deriving DecidableEq

/-- What is recorded about a book besides its ISBN. -/
structure NodeDetails where
  title : String
  category : String
  rating : ℚ
  deriving DecidableEq

/-- The metadata of a book; a book without a record has its ISBN only. -/
structure NodeMeta where
  isbn : String
  details : Option NodeDetails
  deriving DecidableEq

structure BookGraphEngine where
  adjList : Dict String (List Edge)
  nodesMeta : Dict String NodeMeta

namespace BookGraphEngine

def new : BookGraphEngine := ⟨.empty, .empty⟩

def nodes (engine : BookGraphEngine) : List String := engine.adjList.keys

/-- The edges of a book in the order they were added, none for an unknown book. -/
def edgesFrom (engine : BookGraphEngine) (isbn : String) : List Edge :=
  (engine.adjList.get? isbn).getD []

def metaOf (engine : BookGraphEngine) (isbn : String) : NodeMeta :=
  (engine.nodesMeta.get? isbn).getD ⟨isbn, none⟩

def addBookNode (engine : BookGraphEngine) (isbn title category : String) (rating : ℚ := 4) :
    BookGraphEngine where
  adjList := if isbn ∈ engine.nodes then engine.adjList else engine.adjList.set isbn []
  nodesMeta := engine.nodesMeta.set isbn ⟨isbn, some ⟨title, category, rating⟩⟩

/-- A book that is not in the graph yet enters it under a placeholder title. -/
def ensureNode (engine : BookGraphEngine) (isbn : String) : BookGraphEngine :=
  if isbn ∈ engine.nodes then engine else engine.addBookNode isbn ("Book " ++ isbn) "General"

def appendEdge (engine : BookGraphEngine) (isbn : String) (edge : Edge) : BookGraphEngine :=
  { engine with adjList := engine.adjList.set isbn (engine.edgesFrom isbn ++ [edge]) }

def addRelation (engine : BookGraphEngine) (fromIsbn toIsbn : String) (weight : ℚ := 8 / 10)
    (relationType : String := "SIMILAR_TO") (bidirectional : Bool := true) : BookGraphEngine :=
  let linked := ((engine.ensureNode fromIsbn).ensureNode toIsbn).appendEdge fromIsbn
    ⟨toIsbn, weight, relationType⟩
  if bidirectional then linked.appendEdge toIsbn ⟨fromIsbn, weight, relationType⟩ else linked

/-- The discovered books and the paths that wait in the queue. -/
structure Search where
  visited : Finset String
  queue : List (List String)

def discover (path : List String) (search : Search) (edge : Edge) : Search :=
  if edge.targetIsbn ∈ search.visited then search
  else ⟨insert edge.targetIsbn search.visited, search.queue ++ [path ++ [edge.targetIsbn]]⟩

/-- The loop of the breadth-first search; `none` when it has not returned within the
given number of rounds. -/
def bfsLoop (engine : BookGraphEngine) (targetIsbn : String) :
    Nat → Search → Option (Option (List NodeMeta))
  | 0, _ => none
  | fuel + 1, search =>
      match search.queue with
      | [] => some none
      | path :: queue =>
          match path.getLast? with
          | none => none -- the last element of an empty path: an exception
          | some current =>
              if current = targetIsbn then some (some (path.map engine.metaOf))
              else bfsLoop engine targetIsbn fuel
                ((engine.edgesFrom current).foldl (discover path) ⟨search.visited, queue⟩)

def bfsShortestPath (engine : BookGraphEngine) (fuel : Nat) (startIsbn targetIsbn : String) :
    Option (Option (List NodeMeta)) :=
  if startIsbn ∉ engine.nodes ∨ targetIsbn ∉ engine.nodes then some none
  else engine.bfsLoop targetIsbn fuel ⟨{startIsbn}, [[startIsbn]]⟩

/-- Heavier edges come first, equal ones in the order they were added. -/
def sortedEdges (engine : BookGraphEngine) (isbn : String) : List Edge :=
  (engine.edgesFrom isbn).insertionSort fun left right => right.weight ≤ left.weight

/-- The entered books, as a set and in the order of entry. -/
structure Traversal where
  visited : Finset String
  path : List String

/-- The recursion of the traversal. `levels` is how many levels are left: it is
`max_depth + 1 - depth`, so that a depth beyond the maximum leaves none. -/
def dfs (engine : BookGraphEngine) : Nat → String → Traversal → Traversal
  | 0, _, traversal => traversal
  | levels + 1, node, traversal =>
      if node ∈ traversal.visited then traversal
      else (engine.sortedEdges node).foldl
        (fun traversal edge =>
          if edge.targetIsbn ∈ traversal.visited then traversal
          else dfs engine levels edge.targetIsbn traversal)
        ⟨insert node traversal.visited, traversal.path ++ [node]⟩

def dfsLearningPath (engine : BookGraphEngine) (startIsbn : String) (maxDepth : Int := 5) :
    List NodeMeta :=
  if startIsbn ∉ engine.nodes then []
  else (engine.dfs maxDepth.toNat startIsbn ⟨∅, []⟩).path.map engine.metaOf

end BookGraphEngine

/-- A call that builds the graph. -/
inductive GraphCall where
  | addBookNode (isbn title category : String) (rating : ℚ)
  | addRelation (fromIsbn toIsbn : String) (weight : ℚ) (relationType : String)
      (bidirectional : Bool)

namespace BookGraphEngine

def call (engine : BookGraphEngine) : GraphCall → BookGraphEngine
  | .addBookNode isbn title category rating => engine.addBookNode isbn title category rating
  | .addRelation fromIsbn toIsbn weight relationType bidirectional =>
      engine.addRelation fromIsbn toIsbn weight relationType bidirectional

def build (calls : List GraphCall) : BookGraphEngine := calls.foldl call new

/-- Edges lead to books of the graph, and every book of the graph has its record. -/
structure WellFormed (engine : BookGraphEngine) : Prop where
  linked : ∀ isbn, ∀ edge ∈ engine.edgesFrom isbn, edge.targetIsbn ∈ engine.nodes
  recorded : ∀ isbn ∈ engine.nodes,
    ∃ details, engine.nodesMeta.get? isbn = some ⟨isbn, some details⟩

private theorem wellFormed_new : new.WellFormed where
  linked := by
    intro isbn edge member
    cases member
  recorded := by
    intro isbn member
    cases member

section Calls

variable {engine : BookGraphEngine}

private theorem mem_nodes_set (dict : Dict String (List Edge)) (key other : String)
    (edges : List Edge) :
    other ∈ (dict.set key edges).keys ↔ other = key ∨ other ∈ dict.keys := by
  rw [Dict.mem_keys_iff, Dict.mem_keys_iff, Dict.get?_set]
  split
  · next same => simp [same]
  · next different => simp [Ne.symm different]

private theorem mem_nodes_addBookNode (isbn title category other : String) (rating : ℚ) :
    other ∈ (engine.addBookNode isbn title category rating).nodes ↔
      other = isbn ∨ other ∈ engine.nodes := by
  change other ∈ Dict.keys (ite _ _ _) ↔ _
  split
  · next present =>
      refine ⟨.inr, fun known => ?_⟩
      rcases known with rfl | known
      · exact present
      · exact known
  · exact mem_nodes_set _ _ _ _

private theorem edgesFrom_addBookNode (isbn title category other : String) (rating : ℚ) :
    (engine.addBookNode isbn title category rating).edgesFrom other = engine.edgesFrom other := by
  change Option.getD (Dict.get? (ite _ _ _) other) [] = _
  split
  · rfl
  · next absent =>
      rw [Dict.get?_set]
      split
      · next same =>
          subst other
          rw [edgesFrom, (Dict.get?_eq_none_iff _ _).mpr absent]
          rfl
      · rfl

theorem WellFormed.addBookNode (wellFormed : engine.WellFormed) (isbn title category : String)
    (rating : ℚ) : (engine.addBookNode isbn title category rating).WellFormed where
  linked other edge member := by
    rw [edgesFrom_addBookNode] at member
    exact (mem_nodes_addBookNode ..).mpr (.inr (wellFormed.linked other edge member))
  recorded other member := by
    change ∃ details, (engine.nodesMeta.set isbn _).get? other = _
    rw [Dict.get?_set]
    rcases (mem_nodes_addBookNode ..).mp member with rfl | known
    · exact ⟨⟨title, category, rating⟩, by simp⟩
    · split
      · next same => exact ⟨⟨title, category, rating⟩, by rw [same]⟩
      · exact wellFormed.recorded other known

private theorem mem_nodes_ensureNode (isbn other : String) :
    other ∈ (engine.ensureNode isbn).nodes ↔ other = isbn ∨ other ∈ engine.nodes := by
  unfold ensureNode
  split
  · next present =>
      refine ⟨.inr, fun known => ?_⟩
      rcases known with rfl | known
      · exact present
      · exact known
  · exact mem_nodes_addBookNode ..

theorem WellFormed.ensureNode (wellFormed : engine.WellFormed) (isbn : String) :
    (engine.ensureNode isbn).WellFormed := by
  unfold BookGraphEngine.ensureNode
  split
  · exact wellFormed
  · exact wellFormed.addBookNode ..

private theorem mem_nodes_appendEdge {isbn : String} (present : isbn ∈ engine.nodes) (edge : Edge)
    (other : String) : other ∈ (engine.appendEdge isbn edge).nodes ↔ other ∈ engine.nodes := by
  change other ∈ Dict.keys (engine.adjList.set _ _) ↔ _
  rw [mem_nodes_set]
  refine ⟨fun known => ?_, .inr⟩
  rcases known with rfl | known
  · exact present
  · exact known

private theorem edgesFrom_appendEdge (isbn other : String) (edge : Edge) :
    (engine.appendEdge isbn edge).edgesFrom other =
      if isbn = other then engine.edgesFrom isbn ++ [edge] else engine.edgesFrom other := by
  change Option.getD (Dict.get? (engine.adjList.set _ _) other) [] = _
  rw [Dict.get?_set]
  split <;> rfl

theorem WellFormed.appendEdge (wellFormed : engine.WellFormed) {isbn : String} {edge : Edge}
    (source : isbn ∈ engine.nodes) (target : edge.targetIsbn ∈ engine.nodes) :
    (engine.appendEdge isbn edge).WellFormed where
  linked other added member := by
    rw [mem_nodes_appendEdge source]
    rw [edgesFrom_appendEdge] at member
    split at member
    · rcases List.mem_append.mp member with before | last
      · exact wellFormed.linked isbn added before
      · rw [List.mem_singleton] at last
        exact last ▸ target
    · exact wellFormed.linked other added member
  recorded other member :=
    wellFormed.recorded other ((mem_nodes_appendEdge source edge other).mp member)

theorem WellFormed.addRelation (wellFormed : engine.WellFormed) (fromIsbn toIsbn : String)
    (weight : ℚ) (relationType : String) (bidirectional : Bool) :
    (engine.addRelation fromIsbn toIsbn weight relationType bidirectional).WellFormed := by
  have both := (wellFormed.ensureNode fromIsbn).ensureNode toIsbn
  have source : fromIsbn ∈ ((engine.ensureNode fromIsbn).ensureNode toIsbn).nodes := by
    simp [mem_nodes_ensureNode]
  have target : toIsbn ∈ ((engine.ensureNode fromIsbn).ensureNode toIsbn).nodes := by
    simp [mem_nodes_ensureNode]
  have there : (((engine.ensureNode fromIsbn).ensureNode toIsbn).appendEdge fromIsbn
      ⟨toIsbn, weight, relationType⟩).WellFormed := both.appendEdge source target
  unfold BookGraphEngine.addRelation
  split
  · refine there.appendEdge ?_ ?_
    · exact (mem_nodes_appendEdge source _ _).mpr target
    · exact (mem_nodes_appendEdge source _ _).mpr source
  · exact there

theorem WellFormed.call (wellFormed : engine.WellFormed) (request : GraphCall) :
    (engine.call request).WellFormed := by
  cases request with
  | addBookNode => exact wellFormed.addBookNode ..
  | addRelation => exact wellFormed.addRelation ..

end Calls

/-- Whatever calls built a graph, it is well formed. -/
theorem wellFormed_build (calls : List GraphCall) : (build calls).WellFormed := by
  refine List.foldlRecOn calls BookGraphEngine.call wellFormed_new ?_
  intro engine wellFormed request _
  exact wellFormed.call request

/-- The books an edge leads to, in the order the edges were added. -/
def successors (engine : BookGraphEngine) (isbn : String) : List String :=
  (engine.edgesFrom isbn).map Edge.targetIsbn

variable {engine : BookGraphEngine}

theorem WellFormed.successors_mem (wellFormed : engine.WellFormed) {isbn successor : String}
    (edge : successor ∈ engine.successors isbn) : successor ∈ engine.nodes := by
  obtain ⟨link, member, rfl⟩ := List.mem_map.mp edge
  exact wellFormed.linked isbn link member

theorem WellFormed.metaOf (wellFormed : engine.WellFormed) {isbn : String}
    (member : isbn ∈ engine.nodes) :
    engine.nodesMeta.get? isbn = some (engine.metaOf isbn) ∧ (engine.metaOf isbn).isbn = isbn := by
  obtain ⟨details, found⟩ := wellFormed.recorded isbn member
  simp [BookGraphEngine.metaOf, found]

end BookGraphEngine

end LibraFlow.Dsa
