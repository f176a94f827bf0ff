import LibraFlow.Dsa.InvertedIndex
import LibraFlow.Library.Trie

/-! The autocomplete trie. A phrase is inserted under its characters, stripped and
in lower case; an item has one payload at a phrase, with the display text given
last and the greatest weight ever given. Payloads are never taken out. -/

set_option autoImplicit false

namespace LibraFlow.Dsa

open LibraFlow.Library

/-- What is kept for an item at a phrase. -/
structure Payload where
  displayText : String
  weight : ℚ
  deriving DecidableEq

/-- A node besides its children: at most one payload for each item, in the order
of insertion, and none unless a phrase ends here. -/
structure TrieNode where
  isEndOfWord : Bool
  payloads : Dict String Payload
  marked : isEndOfWord = false → payloads = .empty

namespace TrieNode

def blank : TrieNode := ⟨false, .empty, fun _ => rfl⟩

/-- The payload that takes the place of an earlier one. -/
def renewed (earlier : Option Payload) (payload : Payload) : Payload :=
  match earlier with
  | some old => { payload with weight := max old.weight payload.weight }
  | none => payload

def accept (itemId : String) (payload : Payload) (node : TrieNode) : TrieNode :=
  ⟨true, node.payloads.set itemId (renewed (node.payloads.get? itemId) payload), by simp⟩

end TrieNode

/-- One suggestion of a search. -/
structure Suggestion where
  id : String
  text : String
  weight : ℚ
  deriving DecidableEq

def Suggestion.of (entry : String × Payload) : Suggestion :=
  ⟨entry.1, entry.2.displayText, entry.2.weight⟩

/-- Greater weights come first, and equal ones in the order of their texts. -/
def SuggestedBefore (left right : String × Payload) : Prop :=
  right.2.weight < left.2.weight ∨
    left.2.weight = right.2.weight ∧ left.2.displayText ≤ right.2.displayText

instance : DecidableRel SuggestedBefore := fun left right =>
  inferInstanceAs (Decidable (right.2.weight < left.2.weight ∨
    left.2.weight = right.2.weight ∧ left.2.displayText ≤ right.2.displayText))

/-- Keep a payload unless the item has one of at least its weight. -/
def consider (best : Dict String Payload) (entry : String × Payload) : Dict String Payload :=
  match best.get? entry.1 with
  | none => best.set entry.1 entry.2
  | some kept => if kept.weight < entry.2.weight then best.set entry.1 entry.2 else best

def visit (best : Dict String Payload) (node : TrieNode) : Dict String Payload :=
  if node.isEndOfWord then node.payloads.entries.foldl consider best else best

structure AutocompleteTrie where
  root : Trie Char TrieNode
  totalEntries : Nat
  distinct : root.Distinct

/-- The characters a phrase is found under. -/
def TextRules.normalize (rules : TextRules) (phrase : String) : List Char :=
  (rules.lower (rules.strip phrase)).toList

namespace AutocompleteTrie

def empty : AutocompleteTrie := ⟨.leaf .blank, 0, Trie.distinct_leaf _⟩

/-- What the trie keeps for an item at a phrase. -/
def payloadAt (self : AutocompleteTrie) (phrase : List Char) (itemId : String) : Option Payload :=
  ((self.root.valueAt phrase).getD .blank).payloads.get? itemId

def insert (rules : TextRules) (self : AutocompleteTrie) (phrase itemId displayText : String)
    (weight : ℚ) : AutocompleteTrie :=
  if phrase = "" ∨ rules.strip phrase = "" then self
  else
    let normalized := rules.normalize phrase
    { root := self.root.modify .blank (TrieNode.accept itemId ⟨displayText, weight⟩) normalized
      totalEntries := self.totalEntries +
        if (self.payloadAt normalized itemId).isSome then 0 else 1
      distinct := self.distinct.modify _ _ _ }

/-- The best payload of each item under a node. The number of nodes is fuel enough. -/
def bestItems (node : Trie Char TrieNode) : Dict String Payload :=
  (Trie.walk visit node.size [node] .empty).getD .empty

def searchPrefix (rules : TextRules) (self : AutocompleteTrie) (text : String) (limit : Int) :
    List Suggestion :=
  if text = "" then []
  else
    match self.root.find? (rules.normalize text) with
    | none => []
    | some node =>
        (sliceTo limit ((bestItems node).entries.insertionSort SuggestedBefore)).map .of

end AutocompleteTrie

section Best

variable {best : Dict String Payload} {entries : List (String × Payload)} {itemId : String}
  {payload : Payload}

/-- The payload of an item after one more is considered. -/
def heavier (kept : Option Payload) (payload : Payload) : Payload :=
  match kept with
  | none => payload
  | some old => if old.weight < payload.weight then payload else old

private theorem heavier_or (kept : Option Payload) (payload : Payload) :
    kept = some (heavier kept payload) ∨ heavier kept payload = payload := by
  cases kept with
  | none => exact .inr rfl
  | some old =>
      by_cases less : old.weight < payload.weight
      · exact .inr (if_pos less)
      · exact .inl (by rw [heavier, if_neg less])

private theorem le_heavier (kept : Option Payload) (payload : Payload) :
    payload.weight ≤ (heavier kept payload).weight := by
  cases kept with
  | none => exact le_rfl
  | some old =>
      by_cases less : old.weight < payload.weight
      · rw [heavier, if_pos less]
      · rw [heavier, if_neg less]
        exact not_lt.mp less

private theorem heavier_some (old payload : Payload) :
    heavier (some old) payload = old ∨ old.weight < (heavier (some old) payload).weight := by
  by_cases less : old.weight < payload.weight
  · exact .inr (by rw [heavier, if_pos less]; exact less)
  · exact .inl (if_neg less)

private theorem get?_consider (best : Dict String Payload) (entry : String × Payload)
    (itemId : String) :
    (consider best entry).get? itemId =
      if entry.1 = itemId then some (heavier (best.get? itemId) entry.2)
      else best.get? itemId := by
  have kept : (consider best entry).get? itemId =
      (best.set entry.1 (heavier (best.get? entry.1) entry.2)).get? itemId := by
    unfold consider
    cases found : best.get? entry.1 with
    | none => rfl
    | some old =>
        by_cases less : old.weight < entry.2.weight
        · simp only [heavier, less, if_true]
        · simp only [heavier, less, if_false, Dict.set_of_get? found]
  rw [kept, Dict.get?_set]
  split
  · next same => rw [same]
  · rfl

/-- What is kept in the end was there before or is one of the payloads. -/
theorem mem_of_best (found : (entries.foldl consider best).get? itemId = some payload) :
    best.get? itemId = some payload ∨ (itemId, payload) ∈ entries := by
  induction entries generalizing best with
  | nil => exact .inl found
  | cons entry rest ih =>
      obtain earlier | later := ih found
      · rw [get?_consider] at earlier
        split at earlier
        · next same =>
            subst same
            obtain old | new := heavier_or (best.get? entry.1) entry.2
            · exact .inl (old.trans earlier)
            · rw [new, Option.some.injEq] at earlier
              exact .inr (by rw [← earlier]; exact List.mem_cons_self)
        · exact .inl earlier
      · exact .inr (List.mem_cons_of_mem _ later)

/-- An item keeps its payload unless another one is heavier. -/
theorem best_keeps (kept : best.get? itemId = some payload) :
    ∃ last, (entries.foldl consider best).get? itemId = some last ∧
      (last = payload ∨ payload.weight < last.weight) := by
  induction entries generalizing best payload with
  | nil => exact ⟨payload, kept, .inl rfl⟩
  | cons entry rest ih =>
      have next := get?_consider best entry itemId
      rw [kept] at next
      split at next
      · obtain ⟨last, found, more⟩ := ih next
        refine ⟨last, found, ?_⟩
        obtain same | less := heavier_some payload entry.2
        · rwa [same] at more
        · obtain equal | above := more
          · exact .inr (equal ▸ less)
          · exact .inr (less.trans above)
      · exact ih next

private theorem best_of_mem (member : (itemId, payload) ∈ entries) :
    ∃ last, (entries.foldl consider best).get? itemId = some last ∧
      payload.weight ≤ last.weight := by
  induction entries generalizing best with
  | nil => cases member
  | cons entry rest ih =>
      obtain here | later := List.mem_cons.mp member
      · subst here
        have next := get?_consider best (itemId, payload) itemId
        rw [if_pos rfl] at next
        obtain ⟨last, found, more⟩ := best_keeps next
        refine ⟨last, found, ?_⟩
        have least := le_heavier (best.get? itemId) payload
        obtain equal | above := more
        · exact equal ▸ least
        · exact least.trans above.le
      · exact ih later

end Best

namespace AutocompleteTrie

variable {rules : TextRules} {self : AutocompleteTrie} {phrase itemId displayText : String}
  {weight : ℚ}

theorem payloadAt_insert (self : AutocompleteTrie)
    (inserted : ¬ (phrase = "" ∨ rules.strip phrase = "")) (other : List Char) (otherId : String) :
    (self.insert rules phrase itemId displayText weight).payloadAt other otherId =
      if rules.normalize phrase = other ∧ itemId = otherId then
        some (TrieNode.renewed (self.payloadAt other otherId) ⟨displayText, weight⟩)
      else self.payloadAt other otherId := by
  rw [insert, if_neg inserted, payloadAt, Trie.valueAt_modify]
  by_cases here : rules.normalize phrase = other
  · subst here
    rw [if_pos rfl, TrieNode.accept, Dict.get?_set]
    by_cases same : itemId = otherId
    · subst same
      rw [if_pos rfl, if_pos ⟨rfl, rfl⟩]
      rfl
    · rw [if_neg same, if_neg fun both => same both.2]
      rfl
  · rw [if_neg here, if_neg fun both => here both.1]
    rfl

theorem payloadAt_empty (other : List Char) (otherId : String) :
    empty.payloadAt other otherId = none := by
  cases other <;> rfl

/-- The payloads that a visit reads. -/
theorem visit_eq (best : Dict String Payload) (node : TrieNode) :
    visit best node = node.payloads.entries.foldl consider best := by
  unfold visit
  split
  · rfl
  · next unmarked => rw [node.marked (by simpa using unmarked)]; rfl

private theorem mem_payloads_iff {node below : Trie Char TrieNode} {path : List Char}
    (self : AutocompleteTrie) {query : List Char} (found : self.root.find? query = some node)
    (reached : node.find? path = some below) {payload : Payload} :
    (itemId, payload) ∈ below.value.payloads.entries ↔
      self.payloadAt (query ++ path) itemId = some payload := by
  rw [payloadAt, Trie.valueAt_append found, Trie.valueAt, reached, Option.map_some,
    Option.getD_some, Dict.get?_eq_some_iff]

/-- A search under a node considers all payloads of the phrases that go on from
it, those of the node itself first. -/
theorem bestItems_eq (self : AutocompleteTrie) {query : List Char} {node : Trie Char TrieNode}
    (found : self.root.find? query = some node) :
    ∃ entries : List (String × Payload),
      bestItems node = (node.value.payloads.entries ++ entries).foldl consider .empty ∧
      ∀ itemId payload, (itemId, payload) ∈ node.value.payloads.entries ++ entries ↔
        ∃ path, self.payloadAt (query ++ path) itemId = some payload := by
  have distinct : ∀ trie ∈ [node], trie.Distinct := by
    intro trie member
    rw [List.mem_singleton.mp member]
    exact self.distinct.descend found
  obtain ⟨order, walked, first, visited⟩ :=
    @Trie.walk_visits Char TrieNode _ (Dict String Payload) node.size [node] distinct (by simp)
  obtain ⟨rest, rfl⟩ : ∃ rest, order = node.value :: rest := List.head?_eq_some_iff.mp first
  have joined : node.value.payloads.entries ++ rest.flatMap (fun value => value.payloads.entries) =
      (node.value :: rest).flatMap fun value => value.payloads.entries := rfl
  refine ⟨rest.flatMap fun value => value.payloads.entries, ?_, ?_⟩
  · have visits : visit = fun best node => node.payloads.entries.foldl consider best := by
      funext best node
      exact visit_eq best node
    rw [bestItems, walked, Option.getD_some, joined, List.foldl_flatMap, visits]
  · intro itemId payload
    rw [joined, List.mem_flatMap]
    constructor
    · rintro ⟨value, member, listed⟩
      obtain ⟨trie, only, path, reached⟩ := (visited value).mp member
      rw [List.mem_singleton.mp only] at reached
      obtain ⟨below, deeper, same⟩ := Option.map_eq_some_iff.mp reached
      subst same
      exact ⟨path, (self.mem_payloads_iff found deeper).mp listed⟩
    · rintro ⟨path, kept⟩
      cases deeper : node.find? path with
      | none =>
          rw [payloadAt, Trie.valueAt_append found, Trie.valueAt, deeper] at kept
          cases kept
      | some below =>
          refine ⟨below.value, (visited below.value).mpr ⟨node, List.mem_singleton.mpr rfl, path, ?_⟩,
            (self.mem_payloads_iff found deeper).mpr kept⟩
          rw [Trie.valueAt, deeper, Option.map_some]

/-- What a search under some characters answers: an item for every payload of a
phrase that goes on from them, with the payload that is heaviest. A payload at
just these characters gives way to heavier ones only. -/
structure Answers (trie : AutocompleteTrie) (query : List Char) (results : List Suggestion) :
    Prop where
  ids : ∀ itemId, itemId ∈ results.map Suggestion.id ↔
    ∃ path payload, trie.payloadAt (query ++ path) itemId = some payload
  kept : ∀ result ∈ results, ∃ path,
    trie.payloadAt (query ++ path) result.id = some ⟨result.text, result.weight⟩
  heaviest : ∀ result ∈ results, ∀ path payload,
    trie.payloadAt (query ++ path) result.id = some payload → payload.weight ≤ result.weight
  own : ∀ result ∈ results, ∀ payload, trie.payloadAt query result.id = some payload →
    payload = ⟨result.text, result.weight⟩ ∨ payload.weight < result.weight

theorem answers_none (self : AutocompleteTrie) {query : List Char}
    (missing : self.root.find? query = none) : self.Answers query [] := by
  refine ⟨?_, by simp, by simp, by simp⟩
  intro itemId
  refine ⟨by simp, ?_⟩
  rintro ⟨path, payload, kept⟩
  rw [payloadAt, Trie.valueAt, Trie.find?_append, missing] at kept
  cases kept

section Best

variable {query path : List Char} {node : Trie Char TrieNode} {payload : Payload}

private theorem payloadAt_of_best (self : AutocompleteTrie)
    (found : self.root.find? query = some node)
    (best : (bestItems node).get? itemId = some payload) :
    ∃ path, self.payloadAt (query ++ path) itemId = some payload := by
  obtain ⟨entries, folded, listed⟩ := self.bestItems_eq found
  rw [folded] at best
  obtain none | member := mem_of_best best
  · cases none
  · exact (listed itemId payload).mp member

private theorem best_of_payloadAt (self : AutocompleteTrie)
    (found : self.root.find? query = some node)
    (kept : self.payloadAt (query ++ path) itemId = some payload) :
    ∃ last, (bestItems node).get? itemId = some last ∧ payload.weight ≤ last.weight := by
  obtain ⟨entries, folded, listed⟩ := self.bestItems_eq found
  rw [folded]
  exact best_of_mem ((listed itemId payload).mpr ⟨path, kept⟩)

/-- The payloads of the first node are kept until a heavier one is met. -/
theorem best_of_own (self : AutocompleteTrie) (found : self.root.find? query = some node)
    (kept : self.payloadAt query itemId = some payload) :
    ∃ last, (bestItems node).get? itemId = some last ∧
      (last = payload ∨ payload.weight < last.weight) := by
  obtain ⟨entries, folded, _⟩ := self.bestItems_eq found
  have own : node.value.payloads.get? itemId = some payload := by
    rwa [payloadAt, Trie.valueAt, found] at kept
  have first : (node.value.payloads.entries.foldl consider .empty).get? itemId = some payload := by
    obtain ⟨last, best, _⟩ :=
      @best_of_mem .empty _ _ _ ((Dict.get?_eq_some_iff _ _ _).mp own)
    obtain none | member := mem_of_best best
    · cases none
    · rw [← Dict.get?_eq_some_iff, own] at member
      rw [best, member]
  rw [folded, List.foldl_append]
  exact best_keeps first

theorem answers_bestItems (self : AutocompleteTrie) (found : self.root.find? query = some node)
    {results : List (String × Payload)} (all : results.Perm (bestItems node).entries) :
    self.Answers query (results.map .of) := by
  have listed : ∀ result ∈ results.map Suggestion.of,
      (bestItems node).get? result.id = some ⟨result.text, result.weight⟩ := by
    intro result member
    obtain ⟨⟨itemId, payload⟩, member, same⟩ := List.mem_map.mp member
    rw [← same]
    exact (Dict.get?_eq_some_iff _ _ _).mpr (all.mem_iff.mp member)
  constructor
  · intro itemId
    constructor
    · intro shown
      obtain ⟨result, member, same⟩ := List.mem_map.mp shown
      subst same
      obtain ⟨path, kept⟩ := self.payloadAt_of_best found (listed result member)
      exact ⟨path, _, kept⟩
    · rintro ⟨path, payload, kept⟩
      obtain ⟨last, best, _⟩ := self.best_of_payloadAt found kept
      have member := all.mem_iff.mpr ((Dict.get?_eq_some_iff _ _ _).mp best)
      exact List.mem_map.mpr ⟨.of (itemId, last), List.mem_map_of_mem member, rfl⟩
  · intro result member
    exact self.payloadAt_of_best found (listed result member)
  · intro result member path payload kept
    obtain ⟨last, best, less⟩ := self.best_of_payloadAt found kept
    rw [listed result member, Option.some.injEq] at best
    rw [← best] at less
    exact less
  · intro result member payload kept
    obtain ⟨last, best, more⟩ := self.best_of_own found kept
    rw [listed result member, Option.some.injEq] at best
    subst best
    exact more.imp Eq.symm id

/-- With a limit that is large enough a search gives all answers. -/
theorem searchPrefix_answers (rules : TextRules) (self : AutocompleteTrie) {text : String}
    (given : text ≠ "") : ∃ bound : Int, ∀ limit ≥ bound,
      self.Answers (rules.normalize text) (self.searchPrefix rules text limit) := by
  cases found : self.root.find? (rules.normalize text) with
  | none =>
      refine ⟨0, fun limit _ => ?_⟩
      rw [searchPrefix, if_neg given, found]
      exact self.answers_none found
  | some node =>
      refine ⟨(bestItems node).entries.length, fun limit enough => ?_⟩
      simp only [searchPrefix, if_neg given, found]
      refine self.answers_bestItems found ?_
      have sorted := List.perm_insertionSort SuggestedBefore (bestItems node).entries
      rw [sliceTo_of_length_le (by rw [sorted.length_eq]; exact enough)]
      exact sorted

end Best

end AutocompleteTrie

end LibraFlow.Dsa
