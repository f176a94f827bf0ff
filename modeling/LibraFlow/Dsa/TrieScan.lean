import LibraFlow.Dsa.Trie
import Mathlib.Data.String.Basic

/-! Searching the trie against a scan over the insertions made so far. A search
answers with every item that was inserted with a phrase that goes on from the query,
with the greatest weight given for it and a text given with that weight's phrase. -/

set_option autoImplicit false

namespace LibraFlow.Dsa

open LibraFlow.Library

structure Insertion where
  phrase : String
  itemId : String
  displayText : String
  weight : ℚ

namespace Insertion

variable (rules : TextRules)

/-- Blank phrases are not inserted. -/
def isBlank (insertion : Insertion) : Bool :=
  insertion.phrase = "" ∨ rules.strip insertion.phrase = ""

def spelling (insertion : Insertion) : List Char := rules.normalize insertion.phrase

/-- The insertion counts for this phrase and item. -/
def isAt (phrase : List Char) (itemId : String) (insertion : Insertion) : Bool :=
  !insertion.isBlank rules ∧ insertion.spelling rules = phrase ∧ insertion.itemId = itemId

/-- The insertion counts for a search of this item under these characters. -/
def Matches (query : List Char) (itemId : String) (insertion : Insertion) : Prop :=
  insertion.isBlank rules = false ∧ query <+: insertion.spelling rules ∧
    insertion.itemId = itemId

end Insertion

/-- The insertions for a phrase and an item, in order. -/
def insertionsAt (rules : TextRules) (insertions : List Insertion) (phrase : List Char)
    (itemId : String) : List Insertion :=
  insertions.filter (Insertion.isAt rules phrase itemId)

namespace AutocompleteTrie

def built (rules : TextRules) (insertions : List Insertion) : AutocompleteTrie :=
  insertions.foldl (fun trie insertion => trie.insert rules insertion.phrase insertion.itemId
    insertion.displayText insertion.weight) .empty

/-- All answers to a search, ranked. -/
def ranked (rules : TextRules) (self : AutocompleteTrie) (text : String) : List Suggestion :=
  match self.root.find? (rules.normalize text) with
  | none => []
  | some node => ((bestItems node).entries.insertionSort SuggestedBefore).map .of

end AutocompleteTrie

section Payloads

variable {rules : TextRules} {insertions : List Insertion} {phrase : List Char} {itemId : String}

/-- What is kept for a phrase and an item: the text given last and the greatest
weight given. -/
structure KeptFrom (given : List Insertion) (payload : Payload) : Prop where
  text : given.getLast?.map Insertion.displayText = some payload.displayText
  attained : ∃ insertion ∈ given, insertion.weight = payload.weight
  greatest : ∀ insertion ∈ given, insertion.weight ≤ payload.weight

theorem KeptFrom.single (insertion : Insertion) :
    KeptFrom [insertion] ⟨insertion.displayText, insertion.weight⟩ where
  text := rfl
  attained := ⟨insertion, List.mem_singleton.mpr rfl, rfl⟩
  greatest := by
    intro other member
    rw [List.mem_singleton.mp member]

theorem KeptFrom.renewed {given : List Insertion} {payload : Payload}
    (kept : KeptFrom given payload) (insertion : Insertion) :
    KeptFrom (given ++ [insertion])
      (TrieNode.renewed (some payload) ⟨insertion.displayText, insertion.weight⟩) where
  text := by rw [List.getLast?_concat]; rfl
  attained := by
    obtain ⟨heaviest, member, same⟩ := kept.attained
    rcases max_choice payload.weight insertion.weight with old | new
    · exact ⟨heaviest, List.mem_append_left _ member, same.trans old.symm⟩
    · exact ⟨insertion, List.mem_append_right _ (List.mem_singleton.mpr rfl), new.symm⟩
  greatest := by
    intro other member
    rcases List.mem_append.mp member with earlier | last
    · exact (kept.greatest other earlier).trans (le_max_left _ _)
    · rw [List.mem_singleton.mp last]
      exact le_max_right _ _

private theorem built_snoc (insertions : List Insertion) (insertion : Insertion) :
    AutocompleteTrie.built rules (insertions ++ [insertion]) =
      (AutocompleteTrie.built rules insertions).insert rules insertion.phrase insertion.itemId
        insertion.displayText insertion.weight := by
  rw [AutocompleteTrie.built, List.foldl_append]
  rfl

private theorem insertionsAt_snoc (insertions : List Insertion) (insertion : Insertion) :
    insertionsAt rules (insertions ++ [insertion]) phrase itemId =
      insertionsAt rules insertions phrase itemId ++
        if insertion.isAt rules phrase itemId then [insertion] else [] := by
  rw [insertionsAt, List.filter_append, List.filter_singleton, Bool.cond_eq_ite]
  rfl

private theorem insert_blank {insertion : Insertion} (blank : insertion.isBlank rules = true)
    (trie : AutocompleteTrie) : trie.insert rules insertion.phrase insertion.itemId
      insertion.displayText insertion.weight = trie := by
  rw [AutocompleteTrie.insert, if_pos (by simpa [Insertion.isBlank] using blank)]

/-- The trie keeps a payload exactly where something was inserted. -/
theorem payloadAt_built (insertions : List Insertion) (phrase : List Char) (itemId : String) :
    match (AutocompleteTrie.built rules insertions).payloadAt phrase itemId with
    | none => insertionsAt rules insertions phrase itemId = []
    | some payload => KeptFrom (insertionsAt rules insertions phrase itemId) payload := by
  induction insertions using List.reverseRecOn with
  | nil =>
      rw [AutocompleteTrie.built, List.foldl_nil, AutocompleteTrie.payloadAt_empty]
      rfl
  | append_singleton earlier insertion ih =>
      rw [built_snoc, insertionsAt_snoc]
      by_cases blank : insertion.isBlank rules = true
      · rw [insert_blank blank, if_neg (by simp [Insertion.isAt, blank]), List.append_nil]
        exact ih
      · have counts : ¬ (insertion.phrase = "" ∨ rules.strip insertion.phrase = "") := by
          simpa [Insertion.isBlank] using blank
        rw [AutocompleteTrie.payloadAt_insert _ counts]
        by_cases here : rules.normalize insertion.phrase = phrase ∧ insertion.itemId = itemId
        · rw [if_pos here, if_pos (by simp [Insertion.isAt, blank, Insertion.spelling, here])]
          cases kept : (AutocompleteTrie.built rules earlier).payloadAt phrase itemId with
          | none =>
              rw [kept] at ih
              simp only at ih ⊢
              rw [ih]
              exact KeptFrom.single insertion
          | some payload =>
              rw [kept] at ih
              exact KeptFrom.renewed ih insertion
        · rw [if_neg here, if_neg (by simpa [Insertion.isAt, blank, Insertion.spelling] using here),
            List.append_nil]
          exact ih

end Payloads

section Scan

variable {rules : TextRules} {insertions : List Insertion} {query : List Char} {itemId : String}

private theorem mem_insertionsAt {phrase : List Char} {insertion : Insertion} :
    insertion ∈ insertionsAt rules insertions phrase itemId ↔ insertion ∈ insertions ∧
      insertion.isBlank rules = false ∧ insertion.spelling rules = phrase ∧
        insertion.itemId = itemId := by
  rw [insertionsAt, List.mem_filter]
  simp [Insertion.isAt]

theorem Insertion.Matches.isAt {insertion : Insertion} (listed : insertion ∈ insertions)
    (hit : insertion.Matches rules query itemId) :
    ∃ path, insertion ∈ insertionsAt rules insertions (query ++ path) itemId := by
  obtain ⟨counts, ⟨path, same⟩, item⟩ := hit
  exact ⟨path, mem_insertionsAt.mpr ⟨listed, counts, same.symm, item⟩⟩

private theorem matches_of_mem {path : List Char} {insertion : Insertion}
    (member : insertion ∈ insertionsAt rules insertions (query ++ path) itemId) :
    insertion ∈ insertions ∧ insertion.Matches rules query itemId := by
  obtain ⟨listed, counts, same, item⟩ := mem_insertionsAt.mp member
  exact ⟨listed, counts, ⟨path, same.symm⟩, item⟩

/-- Something is kept at a phrase for every insertion there. -/
theorem exists_payloadAt {phrase : List Char} {insertion : Insertion}
    (member : insertion ∈ insertionsAt rules insertions phrase itemId) :
    ∃ payload, (AutocompleteTrie.built rules insertions).payloadAt phrase itemId = some payload ∧
      insertion.weight ≤ payload.weight := by
  have built := @payloadAt_built rules insertions phrase itemId
  cases kept : (AutocompleteTrie.built rules insertions).payloadAt phrase itemId with
  | none =>
      rw [kept] at built
      rw [show insertionsAt rules insertions phrase itemId = [] from built] at member
      cases member
  | some payload =>
      rw [kept] at built
      exact ⟨payload, rfl, KeptFrom.greatest built insertion member⟩

private theorem keptFrom_payloadAt {phrase : List Char} {payload : Payload}
    (kept : (AutocompleteTrie.built rules insertions).payloadAt phrase itemId = some payload) :
    KeptFrom (insertionsAt rules insertions phrase itemId) payload := by
  have built := @payloadAt_built rules insertions phrase itemId
  rw [kept] at built
  exact built

/-- The answers of a scan over the insertions. -/
structure ScanAnswers (rules : TextRules) (insertions : List Insertion) (query : List Char)
    (results : List Suggestion) : Prop where
  distinct : (results.map Suggestion.id).Nodup
  items : ∀ itemId, itemId ∈ results.map Suggestion.id ↔
    ∃ insertion ∈ insertions, insertion.Matches rules query itemId
  greatest : ∀ result ∈ results, ∀ insertion ∈ insertions,
    insertion.Matches rules query result.id → insertion.weight ≤ result.weight
  text : ∀ result ∈ results, ∃ phrase, query <+: phrase ∧
    (insertionsAt rules insertions phrase result.id).getLast?.map Insertion.displayText =
      some result.text ∧
    ∃ insertion ∈ insertionsAt rules insertions phrase result.id, insertion.weight = result.weight
  ordered : results.Pairwise fun first later => later.weight < first.weight ∨
    first.weight = later.weight ∧ first.text ≤ later.text

private theorem scanAnswers_of_answers {results : List Suggestion}
    (answers : (AutocompleteTrie.built rules insertions).Answers query results)
    (distinct : (results.map Suggestion.id).Nodup)
    (ordered : results.Pairwise fun first later => later.weight < first.weight ∨
      first.weight = later.weight ∧ first.text ≤ later.text) :
    ScanAnswers rules insertions query results where
  distinct := distinct
  ordered := ordered
  items := by
    intro itemId
    rw [answers.ids]
    constructor
    · rintro ⟨path, payload, kept⟩
      obtain ⟨insertion, member, _⟩ := (keptFrom_payloadAt kept).attained
      obtain ⟨listed, hit⟩ := matches_of_mem member
      exact ⟨insertion, listed, hit⟩
    · rintro ⟨insertion, listed, hit⟩
      obtain ⟨path, member⟩ := hit.isAt listed
      obtain ⟨payload, kept, _⟩ := exists_payloadAt member
      exact ⟨path, payload, kept⟩
  greatest := by
    intro result shown insertion listed hit
    obtain ⟨path, member⟩ := hit.isAt listed
    obtain ⟨payload, kept, less⟩ := exists_payloadAt member
    exact less.trans (answers.heaviest result shown path payload kept)
  text := by
    intro result shown
    obtain ⟨path, kept⟩ := answers.kept result shown
    have source := keptFrom_payloadAt kept
    exact ⟨query ++ path, List.prefix_append query path, source.text, source.attained⟩

end Scan

instance : Std.Total SuggestedBefore := ⟨by
  intro left right
  rcases lt_trichotomy left.2.weight right.2.weight with less | same | greater
  · exact .inr (.inl less)
  · rcases le_total left.2.displayText right.2.displayText with before | after
    · exact .inl (.inr ⟨same, before⟩)
    · exact .inr (.inr ⟨same.symm, after⟩)
  · exact .inl (.inl greater)⟩

instance : IsTrans (String × Payload) SuggestedBefore := ⟨by
  intro first second third left right
  rcases left with heavier | ⟨same, before⟩
  · rcases right with further | ⟨equal, _⟩
    · exact .inl (further.trans heavier)
    · exact .inl (equal ▸ heavier)
  · rcases right with further | ⟨equal, after⟩
    · exact .inl (same ▸ further)
    · exact .inr ⟨same.trans equal, before.trans after⟩⟩

namespace AutocompleteTrie

variable {rules : TextRules} {insertions : List Insertion}

private theorem searchPrefix_eq_take (self : AutocompleteTrie) {text : String} (given : text ≠ "")
    {limit : Int} (nonnegative : 0 ≤ limit) :
    self.searchPrefix rules text limit = (self.ranked rules text).take limit.toNat := by
  rw [searchPrefix, ranked, if_neg given]
  cases self.root.find? (rules.normalize text) with
  | none => exact List.take_nil.symm
  | some node =>
      simp only
      rw [sliceTo, if_pos nonnegative, List.map_take]

private theorem ranked_scanAnswers (text : String) :
    ScanAnswers rules insertions (rules.normalize text) ((built rules insertions).ranked rules text) := by
  unfold ranked
  cases found : (built rules insertions).root.find? (rules.normalize text) with
  | none =>
      exact scanAnswers_of_answers ((built rules insertions).answers_none found) List.nodup_nil .nil
  | some node =>
      have perm := List.perm_insertionSort SuggestedBefore (bestItems node).entries
      refine scanAnswers_of_answers ((built rules insertions).answers_bestItems found perm) ?_ ?_
      · rw [List.map_map]
        exact (perm.map Prod.fst).nodup_iff.mpr (bestItems node).keysNodup
      · exact (List.pairwise_insertionSort SuggestedBefore _).map Suggestion.of fun _ _ before =>
          before

/-- The size counts the pairs of a phrase and an item. -/
theorem totalEntries_built (insertions : List Insertion) :
    (built rules insertions).totalEntries =
      ((insertions.filter fun insertion => !insertion.isBlank rules).map fun insertion =>
        (insertion.spelling rules, insertion.itemId)).toFinset.card := by
  induction insertions using List.reverseRecOn with
  | nil => rfl
  | append_singleton earlier insertion ih =>
      rw [built_snoc, List.filter_append, List.map_append, List.toFinset_append]
      by_cases blank : insertion.isBlank rules = true
      · rw [insert_blank blank, ih]
        simp [blank]
      · have counts : ¬ (insertion.phrase = "" ∨ rules.strip insertion.phrase = "") := by
          simpa [Insertion.isBlank] using blank
        have fresh : ((built rules earlier).payloadAt (rules.normalize insertion.phrase)
            insertion.itemId).isSome = true ↔ (insertion.spelling rules, insertion.itemId) ∈
              ((earlier.filter fun insertion => !insertion.isBlank rules).map fun insertion =>
                (insertion.spelling rules, insertion.itemId)).toFinset := by
          rw [List.mem_toFinset, List.mem_map]
          constructor
          · intro known
            obtain ⟨payload, kept⟩ := Option.isSome_iff_exists.mp known
            obtain ⟨other, member, _⟩ := (keptFrom_payloadAt kept).attained
            obtain ⟨listed, visible, same, item⟩ := mem_insertionsAt.mp member
            refine ⟨other, List.mem_filter.mpr ⟨listed, by simp [visible]⟩, ?_⟩
            rw [same, item]
            rfl
          · rintro ⟨other, member, same⟩
            obtain ⟨listed, visible⟩ := List.mem_filter.mp member
            obtain ⟨spelled, item⟩ := Prod.mk.inj same
            obtain ⟨payload, kept, _⟩ := exists_payloadAt (mem_insertionsAt.mpr
              ⟨listed, by simpa using visible, spelled, item⟩)
            exact Option.isSome_iff_exists.mpr ⟨payload, kept⟩
        have added : ([insertion].filter fun insertion => !insertion.isBlank rules) = [insertion] := by
          simp [blank]
        rw [insert, if_neg counts, added, List.map_singleton, List.toFinset_cons, List.toFinset_nil,
          Finset.union_comm, Finset.insert_union, Finset.empty_union]
        simp only [fresh, ih]
        split
        · next known => rw [Finset.insert_eq_of_mem known, Nat.add_zero]
        · next unknown => rw [Finset.card_insert_of_notMem unknown]

/-- The traversal of a search ends. -/
theorem walk_ends (self : AutocompleteTrie) {query : List Char} {node : Trie Char TrieNode}
    (found : self.root.find? query = some node) :
    ∃ best, Trie.walk visit node.size [node] .empty = some best := by
  have distinct : ∀ trie ∈ [node], trie.Distinct := by
    intro trie member
    rw [List.mem_singleton.mp member]
    exact self.distinct.descend found
  obtain ⟨order, walked, _⟩ :=
    @Trie.walk_visits Char TrieNode _ (Dict String Payload) node.size [node] distinct (by simp)
  exact ⟨_, walked visit .empty⟩

/-- After any insertions a search terminates and answers like a scan over them: all
answers are ranked, the limit keeps the first ones, and the size counts the distinct
pairs of a phrase and an item. -/
theorem search_refines_insertions (rules : TextRules) (insertions : List Insertion)
    (text : String) (given : text ≠ "") :
    let trie := built rules insertions
    (∃ ranking, ScanAnswers rules insertions (rules.normalize text) ranking ∧
      ∀ limit : Int, 0 ≤ limit →
        trie.searchPrefix rules text limit = ranking.take limit.toNat) ∧
    trie.totalEntries = ((insertions.filter fun insertion => !insertion.isBlank rules).map
      fun insertion => (insertion.spelling rules, insertion.itemId)).toFinset.card ∧
    ∀ node, trie.root.find? (rules.normalize text) = some node →
      ∃ best, Trie.walk visit node.size [node] .empty = some best := by
  intro trie
  refine ⟨⟨trie.ranked rules text, ranked_scanAnswers text, fun limit nonnegative => ?_⟩,
    totalEntries_built insertions, fun node found => trie.walk_ends found⟩
  exact trie.searchPrefix_eq_take given nonnegative

end AutocompleteTrie

/-- Two titles with a common start; the first is inserted again with a new text. -/
def twoPhrases : List Insertion :=
  [⟨"Lean", "B1", "Lean", 4⟩, ⟨" LEAN 4 ", "B2", "Lean 4", 5⟩, ⟨"lean", "B1", "LEAN", 3⟩]

theorem search_refines_insertions_two_phrases :
    ∃ ranking, ScanAnswers asciiRules twoPhrases (asciiRules.normalize "LE") ranking ∧
      ranking.take 2 = [⟨"B2", "Lean 4", 5⟩, ⟨"B1", "LEAN", 4⟩] := by
  obtain ⟨⟨ranking, answers, limited⟩, _⟩ :=
    AutocompleteTrie.search_refines_insertions asciiRules twoPhrases "LE" (by decide)
  refine ⟨ranking, answers, ?_⟩
  have two := limited 2 (by decide)
  rw [show (2 : Int).toNat = 2 from rfl] at two
  rw [← two]
  decide +kernel

end LibraFlow.Dsa
