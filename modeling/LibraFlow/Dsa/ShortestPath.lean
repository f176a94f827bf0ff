import LibraFlow.Dsa.Graph

/-! The connection between two books. The queue of the search is the frontier of a
breadth-first search of the books, so that the search ends and the path it returns is
a shortest one. -/

set_option autoImplicit false

namespace LibraFlow.Dsa.BookGraphEngine

open LibraFlow.Library LibraFlow.Library.Digraph

variable {engine : BookGraphEngine}

/-- An answer of the search: nothing when a book is unknown or no directed edges lead
to the target, and otherwise the records of the books along a simple path with the
fewest edges. -/
structure Connects (engine : BookGraphEngine) (start target : String)
    (answer : Option (List NodeMeta)) : Prop where
  unconnected : answer = none ↔
    start ∉ engine.nodes ∨ target ∉ engine.nodes ∨
      ¬ Relation.ReflTransGen (fun isbn successor => successor ∈ engine.successors isbn)
        start target
  connected : ∀ records, answer = some records →
    ∃ path, IsPath engine.successors start target path ∧ path.Nodup ∧
      (∀ other, IsPath engine.successors start target other → path.length ≤ other.length) ∧
      List.Forall₂ (fun isbn record =>
        engine.nodesMeta.get? isbn = some record ∧ record.isbn = isbn) path records

/-- What a scan of edges does: the books it discovers are marked, and one path for
each of them joins the queue. -/
theorem foldl_discover (path : List String) (edges : List Edge) (search : Search) :
    ∃ fresh, Fresh (edges.map Edge.targetIsbn) search.visited fresh ∧
      edges.foldl (discover path) search = ⟨search.visited ∪ fresh.toFinset,
        search.queue ++ fresh.map fun node => path ++ [node]⟩ := by
  induction edges generalizing search with
  | nil => exact ⟨[], ⟨List.nodup_nil, by simp, by simp⟩, by simp⟩
  | cons edge rest ih =>
      obtain ⟨fresh, scanned, same⟩ := ih (discover path search edge)
      rw [List.foldl_cons, same]
      unfold discover at scanned ⊢
      split
      · next seen =>
          rw [if_pos seen] at scanned
          refine ⟨fresh, ⟨scanned.distinct, fun node member => ?_, fun node member => ?_⟩, rfl⟩
          · exact ⟨(scanned.new node member).1, List.mem_cons_of_mem _ (scanned.new node member).2⟩
          · rcases List.mem_cons.mp member with rfl | later
            · exact .inl seen
            · exact scanned.complete node later
      · next unseen =>
          rw [if_neg unseen] at scanned
          refine ⟨edge.targetIsbn :: fresh, ⟨?_, ?_, ?_⟩, ?_⟩
          · refine List.nodup_cons.mpr ⟨fun member => ?_, scanned.distinct⟩
            exact (scanned.new _ member).1 (Finset.mem_insert_self _ _)
          · intro node member
            rcases List.mem_cons.mp member with rfl | later
            · exact ⟨unseen, List.mem_cons_self⟩
            · obtain ⟨new, edgeMember⟩ := scanned.new node later
              refine ⟨fun old => new ?_, List.mem_cons_of_mem _ edgeMember⟩
              exact Finset.mem_insert_of_mem old
          · intro node member
            rcases List.mem_cons.mp member with rfl | later
            · exact .inr List.mem_cons_self
            · rcases scanned.complete node later with known | found
              · rcases Finset.mem_insert.mp known with rfl | old
                · exact .inr List.mem_cons_self
                · exact .inl old
              · exact .inr (List.mem_cons_of_mem _ found)
          · simp

/-- What the loop has at the start of each round. -/
structure Searching (engine : BookGraphEngine) (start target : String) (fuel : Nat)
    (search : Search) : Prop where
  frontier : ∃ level current following, search.queue = current ++ following ∧
    Frontier engine.successors start target level search.visited current following
  known : ∀ isbn ∈ search.visited, isbn ∈ engine.nodes
  enough : engine.nodes.length + search.queue.length < fuel + search.visited.card

theorem Searching.initial {start target : String} {fuel : Nat} (known : start ∈ engine.nodes)
    (enough : engine.nodes.length < fuel) :
    Searching engine start target fuel ⟨{start}, [[start]]⟩ where
  frontier := ⟨0, [[start]], [], rfl, .initial engine.successors start target⟩
  known isbn member := by
    rw [Finset.mem_singleton] at member
    exact member ▸ known
  enough := by simpa using enough

/-- The walks that wait, with those of the current level first. -/
theorem Searching.current_first {start target : String} {fuel : Nat} {search : Search}
    {path : List String} {queue : List (List String)}
    (searching : Searching engine start target fuel search) (waits : search.queue = path :: queue) :
    ∃ level current following, queue = current ++ following ∧
      Frontier engine.successors start target level search.visited (path :: current) following := by
  obtain ⟨level, current, following, split, frontier⟩ := searching.frontier
  rw [waits] at split
  cases current with
  | nil =>
      cases following with
      | nil => cases split
      | cons first rest =>
          cases split
          exact ⟨level + 1, queue, [], by simp, frontier.shift⟩
  | cons first rest =>
      cases split
      exact ⟨level, rest, following, rfl, frontier⟩

/-- A round that does not return keeps the search going, one round nearer to its end. -/
theorem Searching.next {start target current : String} {fuel : Nat} {search : Search}
    {path : List String} {queue : List (List String)} (wellFormed : engine.WellFormed)
    (searching : Searching engine start target (fuel + 1) search)
    (waits : search.queue = path :: queue) (ends : path.getLast? = some current)
    (other : current ≠ target) :
    Searching engine start target fuel
      ((engine.edgesFrom current).foldl (discover path) ⟨search.visited, queue⟩) := by
  obtain ⟨fresh, scanned, same⟩ :=
    foldl_discover path (engine.edgesFrom current) ⟨search.visited, queue⟩
  obtain ⟨level, near, far, split, frontier⟩ := searching.current_first waits
  have marked : Disjoint search.visited fresh.toFinset := by
    rw [Finset.disjoint_right]
    intro isbn member
    exact (scanned.new isbn (List.mem_toFinset.mp member)).1
  have enough := searching.enough
  rw [waits, List.length_cons] at enough
  rw [same]
  refine ⟨⟨level, near, far ++ fresh.map fun node => path ++ [node], ?_, ?_⟩, ?_, ?_⟩
  · simp [split]
  · exact frontier.advance ends other scanned
  · intro isbn member
    rcases Finset.mem_union.mp member with old | found
    · exact searching.known isbn old
    · exact wellFormed.successors_mem (scanned.new isbn (List.mem_toFinset.mp found)).2
  · rw [Finset.card_union_of_disjoint marked, List.toFinset_card_of_nodup scanned.distinct]
    simp only [List.length_append, List.length_map]
    omega

private theorem reflTransGen_iff {start target : String} :
    Relation.ReflTransGen (fun isbn successor => successor ∈ engine.successors isbn) start target ↔
      ∃ path, IsPath engine.successors start target path := by
  constructor
  · intro reached
    induction reached with
    | refl => exact ⟨[start], .single _ start⟩
    | tail _ edge ih =>
        obtain ⟨path, walk⟩ := ih
        exact ⟨_, walk.snoc edge⟩
  · rintro ⟨path, walk⟩
    exact walk.mem_of_closed .refl fun node reached successor edge => reached.tail edge

/-- The loop returns while the search goes on, and its answer connects the books. -/
theorem bfsLoop_connects {start target : String} {fuel : Nat} {search : Search}
    (wellFormed : engine.WellFormed) (startKnown : start ∈ engine.nodes)
    (targetKnown : target ∈ engine.nodes)
    (searching : Searching engine start target fuel search) :
    ∃ answer, engine.bfsLoop target fuel search = some answer ∧
      Connects engine start target answer := by
  induction fuel generalizing search with
  | zero =>
      have bounded : search.visited.card ≤ engine.nodes.length := by
        refine (Finset.card_le_card fun isbn member => ?_).trans
          (List.toFinset_card_le engine.nodes)
        exact List.mem_toFinset.mpr (searching.known isbn member)
      have := searching.enough
      omega
  | succ fuel ih =>
      unfold bfsLoop
      cases waits : search.queue with
      | nil =>
          obtain ⟨level, current, following, split, frontier⟩ := searching.frontier
          obtain ⟨rfl, rfl⟩ := List.append_eq_nil_iff.mp (split.symm.trans waits)
          refine ⟨none, rfl, ⟨?_, by simp⟩⟩
          refine iff_of_true rfl (.inr (.inr fun reached => ?_))
          obtain ⟨path, walk⟩ := reflTransGen_iff.mp reached
          exact frontier.exhausted walk
      | cons path queue =>
          obtain ⟨level, current, following, _, frontier⟩ := searching.current_first waits
          obtain ⟨last, found⟩ := frontier.near path List.mem_cons_self
          simp only [found.walk.ends]
          split
          · next same =>
              subst last
              obtain ⟨walk, simple, shortest⟩ := frontier.shortest found.walk.ends
              refine ⟨_, rfl, ⟨?_, ?_⟩⟩
              · refine iff_of_false (by simp) ?_
                rintro (absent | absent | unreached)
                · exact absent startKnown
                · exact absent targetKnown
                · exact unreached (reflTransGen_iff.mpr ⟨path, walk⟩)
              · rintro records ⟨⟩
                refine ⟨path, walk, simple, shortest, ?_⟩
                refine List.forall₂_map_right_iff.mpr (List.forall₂_same.mpr fun isbn member => ?_)
                exact wellFormed.metaOf (searching.known isbn (found.discovered isbn member))
          · next other =>
              exact ih (searching.next wellFormed waits found.walk.ends other)

/-- More rounds do not change an answer. -/
theorem bfsLoop_mono {target : String} {fuel more : Nat} {search : Search}
    {answer : Option (List NodeMeta)} (returned : engine.bfsLoop target fuel search = some answer)
    (enough : fuel ≤ more) : engine.bfsLoop target more search = some answer := by
  induction fuel generalizing more search with
  | zero => cases returned
  | succ fuel ih =>
      cases more with
      | zero => omega
      | succ more =>
          unfold bfsLoop at returned ⊢
          split
          · next empty => simpa only [empty] using returned
          · next path queue waits =>
              simp only [waits] at returned
              split
              · next last => simp [last] at returned
              · next current last =>
                  simp only [last] at returned
                  split
                  · next same => simpa only [if_pos same] using returned
                  · next other =>
                      rw [if_neg other] at returned
                      exact ih returned (by omega)

/-- In a graph built by any calls the search for a connection ends within a number of
rounds that the graph gives, and it returns a shortest path exactly when there is a path. -/
theorem bfsShortestPath_connects (calls : List GraphCall) (start target : String) :
    ∃ answer, Connects (build calls) start target answer ∧
      ∀ fuel, (build calls).nodes.length < fuel →
        (build calls).bfsShortestPath fuel start target = some answer := by
  by_cases known : start ∉ (build calls).nodes ∨ target ∉ (build calls).nodes
  · refine ⟨none, ⟨?_, by simp⟩, fun fuel _ => by rw [bfsShortestPath, if_pos known]⟩
    refine iff_of_true rfl ?_
    rcases known with absent | absent
    · exact .inl absent
    · exact .inr (.inl absent)
  · have both := not_or.mp known
    have startKnown := Classical.not_not.mp both.1
    obtain ⟨answer, returned, connects⟩ := bfsLoop_connects (wellFormed_build calls) startKnown
      (Classical.not_not.mp both.2) (Searching.initial startKnown (Nat.lt_succ_self _))
    refine ⟨answer, connects, fun fuel enough => ?_⟩
    rw [bfsShortestPath, if_neg known]
    exact bfsLoop_mono returned enough

end LibraFlow.Dsa.BookGraphEngine
