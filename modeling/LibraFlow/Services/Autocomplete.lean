import LibraFlow.Dsa.Trie

/-! Autocomplete over the registered titles. Each registration puts its phrases into
the trie and takes none out, so what an earlier registration of a title left there
may still be suggested. -/

set_option autoImplicit false

namespace LibraFlow.Services

open LibraFlow.Core LibraFlow.Library LibraFlow.Dsa

/-- A call of `register_book`. -/
structure Registration where
  formatType : String
  arguments : BookArguments

/-- The registered titles and the trie. -/
structure TitleTrie where
  titles : Dict String Book
  trie : AutocompleteTrie

/-- The phrases a title is found under, each with what it suggests. -/
def phrases (book : Book) : List (String × Payload) :=
  (book.title, ⟨book.title, book.rating⟩) :: book.authors.map fun author =>
    (author, ⟨book.title ++ " (by " ++ author ++ ")", book.rating * (9 / 10)⟩)

namespace TitleTrie

def empty : TitleTrie := ⟨.empty, .empty⟩

/-- Save a title and insert its title and its authors. -/
def enrol (rules : TextRules) (self : TitleTrie) (book : Book) : TitleTrie where
  titles := self.titles.set book.isbn book
  trie := (phrases book).foldl (fun trie (phrase, payload) =>
    trie.insert rules phrase book.isbn payload.displayText payload.weight) self.trie

def registerBook (rules : TextRules) (self : TitleTrie) (call : Registration) : TitleTrie :=
  match createBook call.formatType call.arguments with
  | .error _ => self
  | .ok book => self.enrol rules book

def autocomplete (rules : TextRules) (self : TitleTrie) (text : String) (limit : Int) :
    List Suggestion :=
  self.trie.searchPrefix rules text limit

end TitleTrie

/-- The titles that a sequence of calls has registered, in order. -/
def registered (calls : List Registration) : List Book :=
  calls.filterMap fun call => (createBook call.formatType call.arguments).toOption

/-- The payloads that a title puts at a phrase. -/
def givenBy (rules : TextRules) (phrase : List Char) (isbn : String) (book : Book) :
    List Payload :=
  if book.isbn = isbn then
    ((phrases book).filter fun entry =>
      rules.strip entry.1 ≠ "" ∧ rules.normalize entry.1 = phrase).map Prod.snd
  else []

/-- What remains of several payloads: the last text and the greatest weight. -/
def remaining (earlier : Option Payload) (payloads : List Payload) : Option Payload :=
  payloads.foldl (fun kept payload => some (TrieNode.renewed kept payload)) earlier

/-- What a sequence of registrations leaves at a phrase for one title. -/
def leftAt (rules : TextRules) (books : List Book) (phrase : List Char) (isbn : String) :
    Option Payload :=
  remaining none (books.flatMap (givenBy rules phrase isbn))

section Runs

variable {rules : TextRules} {books : List Book} {phrase : List Char} {isbn : String}

private theorem registerBook_foldl (rules : TextRules) (calls : List Registration)
    (self : TitleTrie) :
    calls.foldl (TitleTrie.registerBook rules) self =
      (registered calls).foldl (TitleTrie.enrol rules) self := by
  induction calls generalizing self with
  | nil => rfl
  | cons call rest ih =>
      rw [List.foldl_cons, ih, TitleTrie.registerBook]
      unfold registered
      rw [List.filterMap_cons]
      cases createBook call.formatType call.arguments with
      | error error => rfl
      | ok book => rfl

private theorem payloadAt_phrases (entries : List (String × Payload)) (trie : AutocompleteTrie)
    (itemId : String) :
    (entries.foldl (fun trie (phrase, payload) =>
        trie.insert rules phrase itemId payload.displayText payload.weight) trie).payloadAt
      phrase isbn =
    remaining (trie.payloadAt phrase isbn)
      (if itemId = isbn then (entries.filter fun entry =>
        rules.strip entry.1 ≠ "" ∧ rules.normalize entry.1 = phrase).map Prod.snd else []) := by
  induction entries generalizing trie with
  | nil => simp [remaining]
  | cons entry rest ih =>
      obtain ⟨text, payload⟩ := entry
      simp only [List.foldl_cons]
      rw [ih]
      by_cases blank : text = "" ∨ rules.strip text = ""
      · have stripped : rules.strip text = "" := by
          obtain none | none := blank
          · rw [none]
            rfl
          · exact none
        have same : trie.insert rules text itemId payload.displayText payload.weight = trie :=
          if_pos blank
        rw [same, List.filter_cons_of_neg (by simp [stripped])]
      · have stripped : rules.strip text ≠ "" := fun none => blank (.inr none)
        rw [trie.payloadAt_insert blank]
        by_cases own : itemId = isbn
        · by_cases here : rules.normalize text = phrase
          · rw [if_pos ⟨here, own⟩, if_pos own, if_pos own,
              List.filter_cons_of_pos (by simp [stripped, here])]
            rfl
          · rw [if_neg fun both => here both.1, List.filter_cons_of_neg (by simp [here])]
        · rw [if_neg fun both => own both.2, if_neg own, if_neg own]

private theorem payloadAt_enrolled (self : TitleTrie) :
    (books.foldl (TitleTrie.enrol rules) self).trie.payloadAt phrase isbn =
      remaining (self.trie.payloadAt phrase isbn) (books.flatMap (givenBy rules phrase isbn)) := by
  induction books generalizing self with
  | nil => rfl
  | cons book rest ih =>
      rw [List.foldl_cons, ih, List.flatMap_cons]
      have first : (self.enrol rules book).trie.payloadAt phrase isbn =
          remaining (self.trie.payloadAt phrase isbn) (givenBy rules phrase isbn book) :=
        payloadAt_phrases (phrases book) self.trie book.isbn
      rw [first]
      simp only [remaining, List.foldl_append]

/-- The trie keeps what the registrations have left. -/
theorem payloadAt_eq_leftAt :
    (books.foldl (TitleTrie.enrol rules) .empty).trie.payloadAt phrase isbn =
      leftAt rules books phrase isbn := by
  rw [payloadAt_enrolled, leftAt]
  congr 1
  exact AutocompleteTrie.payloadAt_empty phrase isbn

private theorem remaining_isSome (earlier : Option Payload) (payloads : List Payload) :
    (remaining earlier payloads).isSome ↔ earlier.isSome ∨ payloads ≠ [] := by
  induction payloads generalizing earlier with
  | nil => simp [remaining]
  | cons first rest ih =>
      refine (ih _).trans ?_
      simp

/-- Something is left at a phrase iff a registration has used it. -/
theorem leftAt_isSome_iff : (leftAt rules books phrase isbn).isSome ↔
    ∃ book ∈ books, book.isbn = isbn ∧ ∃ entry ∈ phrases book,
      rules.strip entry.1 ≠ "" ∧ rules.normalize entry.1 = phrase := by
  rw [leftAt, remaining_isSome]
  simp only [Option.isSome_none, Bool.false_eq_true, false_or, ne_eq, List.flatMap_eq_nil_iff,
    not_forall]
  constructor
  · rintro ⟨book, member, used⟩
    unfold givenBy at used
    split at used
    · next own =>
        rw [List.map_eq_nil_iff, List.filter_eq_nil_iff] at used
        simp only [not_forall] at used
        obtain ⟨entry, listed, kept⟩ := used
        exact ⟨book, member, own, entry, listed, by simpa using kept⟩
    · exact absurd rfl used
  · rintro ⟨book, member, own, entry, listed, kept⟩
    refine ⟨book, member, ?_⟩
    rw [givenBy, if_pos own, List.map_eq_nil_iff, List.filter_eq_nil_iff]
    intro none
    exact none entry listed (by simpa using kept)

private theorem titles_enrolled {self : TitleTrie} {book : Book}
    (found : (books.foldl (TitleTrie.enrol rules) self).titles.get? isbn = some book) :
    self.titles.get? isbn = some book ∨ book ∈ books ∧ book.isbn = isbn := by
  induction books generalizing self with
  | nil => exact .inl found
  | cons first rest ih =>
      obtain earlier | ⟨member, own⟩ := ih found
      · simp only [TitleTrie.enrol, Dict.get?_set] at earlier
        split at earlier
        · next same =>
            cases earlier
            exact .inr ⟨List.mem_cons_self, same⟩
        · exact .inl earlier
      · exact .inr ⟨List.mem_cons_of_mem _ member, own⟩

end Runs

/-- Text and weight are those of the title as it is registered. -/
def Derives (book : Book) (payload : Payload) : Prop :=
  payload.displayText ∈ (phrases book).map (fun entry => entry.2.displayText) ∧
    payload.weight ∈ (phrases book).map fun entry => entry.2.weight

/-- The suggestions for a text are those of the registered titles. -/
structure FollowsCatalogue (rules : TextRules) (service : TitleTrie) (text : String) (limit : Int) :
    Prop where
  ids : ∀ isbn, isbn ∈ (service.autocomplete rules text limit).map Suggestion.id ↔
    ∃ book, service.titles.get? isbn = some book ∧
      ∃ entry ∈ phrases book, rules.normalize text <+: rules.normalize entry.1
  derived : ∀ suggestion ∈ service.autocomplete rules text limit,
    ∃ book, service.titles.get? suggestion.id = some book ∧
      Derives book ⟨suggestion.text, suggestion.weight⟩

/-- Nothing that a registration has left shows. Where a title has ever used a
phrase, a phrase of the title as it is registered goes on from it; and what is left
there is derived from that registration, or is lighter than something that is,
further on. -/
def LeftoversHidden (rules : TextRules) (books : List Book) (titles : Dict String Book) : Prop :=
  ∀ phrase isbn payload, leftAt rules books phrase isbn = some payload →
    ∃ book, titles.get? isbn = some book ∧
      (∃ entry ∈ phrases book, phrase <+: rules.normalize entry.1) ∧
      (Derives book payload ∨ ∃ longer heavier, phrase <+: longer ∧
        leftAt rules books longer isbn = some heavier ∧ payload.weight < heavier.weight ∧
        Derives book heavier)

section Follows

variable {rules : TextRules} {books : List Book}

theorem LeftoversHidden.of_follows (follows : ∀ text, rules.strip text ≠ "" → ∃ bound : Int,
      ∀ limit ≥ bound,
        FollowsCatalogue rules (books.foldl (TitleTrie.enrol rules) .empty) text limit) :
    LeftoversHidden rules books (books.foldl (TitleTrie.enrol rules) .empty).titles := by
  intro phrase isbn payload found
  -- ask for the phrase itself, as a registration has spelled it
  obtain ⟨_, _, _, ⟨text, _⟩, _, stripped, rfl⟩ := leftAt_isSome_iff.mp (Option.isSome_of_mem found)
  have given : text ≠ "" := by
    intro none
    exact stripped (by rw [none]; rfl)
  obtain ⟨enough, answers⟩ := (books.foldl (TitleTrie.enrol rules)
    .empty).trie.searchPrefix_answers rules given
  obtain ⟨bound, following⟩ := follows text stripped
  have follow := following (max enough bound) (le_max_right _ _)
  have answer := answers (max enough bound) (le_max_left _ _)
  have kept : (books.foldl (TitleTrie.enrol rules) .empty).trie.payloadAt (rules.normalize text)
      isbn = some payload := payloadAt_eq_leftAt.trans found
  have shown := (answer.ids isbn).mpr ⟨[], payload, by rw [List.append_nil, kept]⟩
  obtain ⟨book, stored, continued⟩ := (follow.ids isbn).mp shown
  refine ⟨book, stored, continued, ?_⟩
  obtain ⟨suggestion, member, same⟩ := List.mem_map.mp shown
  subst same
  obtain ⟨current, again, derived⟩ := follow.derived suggestion member
  rw [stored, Option.some.injEq] at again
  subst again
  obtain equal | lighter := answer.own suggestion member payload kept
  · exact .inl (equal ▸ derived)
  · obtain ⟨path, heaviest⟩ := answer.kept suggestion member
    exact .inr ⟨_, _, List.prefix_append _ path, payloadAt_eq_leftAt.symm.trans heaviest, lighter,
      derived⟩

private theorem normalize_ne_nil (lower : ∀ text, rules.lower text = "" ↔ text = "")
    {text : String} :
    rules.normalize text ≠ [] ↔ rules.strip text ≠ "" := by
  rw [TextRules.normalize, ne_eq, ne_eq, String.toList_eq_nil_iff, lower]

theorem LeftoversHidden.follows (lower : ∀ text, rules.lower text = "" ↔ text = "")
    (covered : LeftoversHidden rules books (books.foldl (TitleTrie.enrol rules) .empty).titles)
    {text : String} (stripped : rules.strip text ≠ "") : ∃ bound : Int, ∀ limit ≥ bound,
      FollowsCatalogue rules (books.foldl (TitleTrie.enrol rules) .empty) text limit := by
  have given : text ≠ "" := by
    intro none
    exact stripped (by rw [none]; rfl)
  obtain ⟨bound, answers⟩ := (books.foldl (TitleTrie.enrol rules)
    .empty).trie.searchPrefix_answers rules given
  refine ⟨bound, fun limit enough => ?_⟩
  have answer := answers limit enough
  constructor
  · intro isbn
    refine (answer.ids isbn).trans ?_
    constructor
    · rintro ⟨path, payload, kept⟩
      obtain ⟨book, stored, ⟨entry, listed, continued⟩, _⟩ :=
        covered _ _ _ (payloadAt_eq_leftAt.symm.trans kept)
      exact ⟨book, stored, entry, listed, (List.prefix_append _ path).trans continued⟩
    · rintro ⟨book, stored, entry, listed, continued⟩
      obtain ⟨path, same⟩ := continued
      obtain none | ⟨member, own⟩ := titles_enrolled stored
      · cases none
      · have used : rules.strip entry.1 ≠ "" := by
          rw [← normalize_ne_nil lower, ← same]
          intro empty
          exact (normalize_ne_nil lower).mpr stripped (List.append_eq_nil_iff.mp empty).1
        have remains : (leftAt rules books (rules.normalize text ++ path) isbn).isSome :=
          leftAt_isSome_iff.mpr ⟨book, member, own, entry, listed, used, same.symm⟩
        obtain ⟨payload, kept⟩ := Option.isSome_iff_exists.mp remains
        exact ⟨path, payload, payloadAt_eq_leftAt.trans kept⟩
  · intro suggestion member
    obtain ⟨path, kept⟩ := answer.kept suggestion member
    obtain ⟨book, stored, _, shown⟩ := covered _ _ _ (payloadAt_eq_leftAt.symm.trans kept)
    refine ⟨book, stored, ?_⟩
    obtain derived | ⟨longer, better, ⟨rest, extended⟩, there, lighter, _⟩ := shown
    · exact derived
    · rw [← extended, List.append_assoc] at there
      have most := answer.heaviest suggestion member _ better (payloadAt_eq_leftAt.trans there)
      exact absurd lighter (not_lt.mpr most)

end Follows

/-- After any sequence of registrations, autocomplete follows the catalogue for
every text that is not blank exactly when nothing that was left in the trie shows. -/
theorem followsCatalogue_iff (rules : TextRules)
    (lower : ∀ text, rules.lower text = "" ↔ text = "") (calls : List Registration) :
    let service := calls.foldl (TitleTrie.registerBook rules) .empty
    (∀ text, rules.strip text ≠ "" → ∃ bound : Int, ∀ limit ≥ bound,
        FollowsCatalogue rules service text limit) ↔
      LeftoversHidden rules (registered calls) service.titles := by
  intro service
  have same : service = (registered calls).foldl (TitleTrie.enrol rules) .empty :=
    registerBook_foldl rules calls .empty
  rw [same]
  exact ⟨.of_follows, fun covered text stripped => covered.follows lower stripped⟩

private theorem lower_ascii (text : String) : asciiRules.lower text = "" ↔ text = "" := by
  simp [asciiRules]

def leanBook (title : String) (rating : ℚ) : Registration where
  formatType := "physical"
  arguments := {
    isbn := some "B1", title := some title, authors := some ["Moura"], rating := some rating }

/-- The second edition has a longer title and a better rating. -/
def betterEdition : List Registration := [leanBook "Lean" 4, leanBook "Lean 4" 5]

/-- The first title is the start of the second one and is lighter. -/
theorem leftoversHidden_betterEdition : LeftoversHidden asciiRules (registered betterEdition)
    (betterEdition.foldl (TitleTrie.registerBook asciiRules) .empty).titles := by
  have spelled : (registered betterEdition).map (fun book =>
      (book.isbn, (phrases book).map Prod.fst)) =
      [("B1", ["Lean", "Moura"]), ("B1", ["Lean 4", "Moura"])] := by decide +kernel
  have current : ((betterEdition.foldl (TitleTrie.registerBook asciiRules) .empty).titles.get?
      "B1").map phrases =
      some [("Lean 4", ⟨"Lean 4", 5⟩), ("Moura", ⟨"Lean 4 (by Moura)", 9 / 2⟩)] := by
    decide +kernel
  obtain ⟨book, stored, listed⟩ := Option.map_eq_some_iff.mp current
  have short : leftAt asciiRules (registered betterEdition) (asciiRules.normalize "Lean") "B1" =
      some ⟨"Lean", 4⟩ := by decide +kernel
  have long : leftAt asciiRules (registered betterEdition) (asciiRules.normalize "Lean 4") "B1" =
      some ⟨"Lean 4", 5⟩ := by decide +kernel
  have author : leftAt asciiRules (registered betterEdition) (asciiRules.normalize "Moura") "B1" =
      some ⟨"Lean 4 (by Moura)", 9 / 2⟩ := by decide +kernel
  have longer : asciiRules.normalize "Lean" <+: asciiRules.normalize "Lean 4" := by
    decide +kernel
  intro phrase isbn payload found
  obtain ⟨used, member, own, entry, spelt, _, same⟩ :=
    leftAt_isSome_iff.mp (Option.isSome_of_mem found)
  subst same
  have name := List.mem_map_of_mem (f := fun book => (book.isbn, (phrases book).map Prod.fst)) member
  have text := List.mem_map_of_mem (f := Prod.fst) spelt
  rw [spelled] at name
  simp only [List.mem_cons, Prod.mk.injEq, List.not_mem_nil, or_false] at name
  have only : isbn = "B1" := by
    rw [← own]
    obtain first | second := name
    · exact first.1
    · exact second.1
  subst only
  refine ⟨book, stored, ?_⟩
  have cases : entry.1 = "Lean" ∨ entry.1 = "Moura" ∨ entry.1 = "Lean 4" := by
    obtain first | second := name
    · rw [first.2] at text
      simp only [List.mem_cons, List.not_mem_nil, or_false] at text
      obtain here | here := text
      · exact .inl here
      · exact .inr (.inl here)
    · rw [second.2] at text
      simp only [List.mem_cons, List.not_mem_nil, or_false] at text
      obtain here | here := text
      · exact .inr (.inr here)
      · exact .inr (.inl here)
  obtain this | this | this := cases
  · rw [this, short, Option.some.injEq] at found
    subst found
    rw [this, listed]
    exact ⟨⟨("Lean 4", ⟨"Lean 4", 5⟩), by simp, longer⟩,
      .inr ⟨_, _, longer, long, by norm_num, by simp [Derives, listed]⟩⟩
  · rw [this, author, Option.some.injEq] at found
    subst found
    rw [this, listed]
    exact ⟨⟨("Moura", ⟨"Lean 4 (by Moura)", 9 / 2⟩), by simp, List.prefix_rfl⟩,
      .inl (by simp [Derives, listed])⟩
  · rw [this, long, Option.some.injEq] at found
    subst found
    rw [this, listed]
    exact ⟨⟨("Lean 4", ⟨"Lean 4", 5⟩), by simp, List.prefix_rfl⟩, .inl (by simp [Derives, listed])⟩

/-- Asking for the first title leads to the second one. -/
theorem followsCatalogue_iff_betterEdition :
    asciiRules.strip "lean" ≠ "" ∧ ∃ bound : Int, ∀ limit ≥ bound, FollowsCatalogue asciiRules
      (betterEdition.foldl (TitleTrie.registerBook asciiRules) .empty) "lean" limit := by
  have stripped : asciiRules.strip "lean" ≠ "" := by decide +kernel
  exact ⟨stripped, (followsCatalogue_iff asciiRules lower_ascii betterEdition).mpr
    leftoversHidden_betterEdition "lean" stripped⟩

/-- A title that has been renamed is still suggested under its old name. -/
theorem old_title_is_suggested :
    asciiRules.strip "lean" ≠ "" ∧ ¬ ∃ bound : Int, ∀ limit ≥ bound, FollowsCatalogue asciiRules
      ([leanBook "Lean" 4, leanBook "Coq" 4].foldl (TitleTrie.registerBook asciiRules) .empty)
      "lean" limit := by
  refine ⟨by decide +kernel, ?_⟩
  rintro ⟨bound, follows⟩
  obtain ⟨enough, answers⟩ := ([leanBook "Lean" 4, leanBook "Coq" 4].foldl
    (TitleTrie.registerBook asciiRules) .empty).trie.searchPrefix_answers asciiRules
    (by decide : "lean" ≠ "")
  have kept : (([leanBook "Lean" 4, leanBook "Coq" 4].foldl (TitleTrie.registerBook asciiRules)
      .empty).trie.payloadAt (asciiRules.normalize "lean") "B1") = some ⟨"Lean", 4⟩ := by
    decide +kernel
  have shown := ((answers (max enough bound) (le_max_left _ _)).ids "B1").mpr
    ⟨[], _, by rw [List.append_nil, kept]⟩
  obtain ⟨book, stored, entry, listed, continued⟩ :=
    ((follows (max enough bound) (le_max_right _ _)).ids "B1").mp shown
  have current : (([leanBook "Lean" 4, leanBook "Coq" 4].foldl (TitleTrie.registerBook asciiRules)
      .empty).titles.get? "B1").map (fun book => (phrases book).any fun entry =>
        decide (asciiRules.normalize "lean" <+: asciiRules.normalize entry.1)) = some false := by
    decide +kernel
  rw [stored, Option.map_some, Option.some.injEq, List.any_eq_false] at current
  exact current entry listed (by simpa using continued)

end LibraFlow.Services
