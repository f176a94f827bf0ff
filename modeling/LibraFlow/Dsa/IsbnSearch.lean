import LibraFlow.Dsa.SearchScan

/-! Finding a title by its identifier. The identifier is stored as it is and without
its dashes, past the tokenizer, while a query goes through the tokenizer. Both agree
on identifiers of letters, digits and inner dashes. -/

set_option autoImplicit false

namespace LibraFlow.Dsa

open LibraFlow.Core LibraFlow.Library

/-- On ASCII text the rules are those of the language's documentation. -/
structure TextRules.Ascii (rules : TextRules) : Prop where
  lower : ∀ text : String, (∀ char ∈ text.toList, char.toNat < 128) →
    rules.lower text = String.ofList (text.toList.map Char.toLower)
  word : ∀ char : Char, char.toNat < 128 → rules.isWord char = (char.isAlphanum || char == '_')

private theorem asciiRules_ascii : asciiRules.Ascii := ⟨fun _ _ => rfl, fun _ _ => rfl⟩

/-- Letters, digits and dashes, with a letter or digit at both ends. -/
structure PlainIsbn (isbn : String) : Prop where
  chars : ∀ char ∈ isbn.toList, char.isAlphanum = true ∨ char = '-'
  first : ∃ char, isbn.toList.head? = some char ∧ char.isAlphanum = true
  last : ∃ char, isbn.toList.getLast? = some char ∧ char.isAlphanum = true

/-- The identifier in any letter case, with its dashes or without them, between white
space. -/
structure AsksFor (isbn query : String) : Prop where
  spelled : ∃ before spelling after : List Char, query.toList = before ++ spelling ++ after ∧
    (∀ char ∈ before ++ after, char.isWhitespace = true) ∧
    (spelling.map Char.toLower = isbn.toList.map Char.toLower ∨
      spelling.map Char.toLower = (isbn.toList.filter (· ≠ '-')).map Char.toLower)

section Chars

variable {char : Char}

/-- A property of all ASCII characters can be checked one by one. -/
theorem ascii_cases (property : Char → Prop) (each : ∀ code < 128, property (Char.ofNat code))
    (ascii : char.toNat < 128) : property char := by
  have same := each char.toNat ascii
  rwa [Char.ofNat_toNat] at same

private theorem toNat_lt_of_toLower (ascii : char.toLower.toNat < 128) : char.toNat < 128 := by
  unfold Char.toLower at ascii
  split at ascii
  · next upper =>
      have bound : char.val ≤ 'Z'.val := upper.2
      exact lt_of_le_of_lt (UInt32.le_iff_toNat_le.mp bound) (by decide)
  · exact ascii

private theorem toNat_lt_of_isAlphanum (alphanumeric : char.isAlphanum = true) :
    char.toNat < 128 := by
  simp only [Char.isAlphanum, Char.isAlpha, Char.isUpper, Char.isLower, Char.isDigit,
    Bool.or_eq_true, Bool.and_eq_true, decide_eq_true_eq, ge_iff_le, UInt32.le_iff_toNat_le]
    at alphanumeric
  have code : char.toNat = char.val.toNat := rfl
  have ends : 'Z'.val.toNat = 90 ∧ 'z'.val.toNat = 122 ∧ '9'.val.toNat = 57 := by decide
  omega

private theorem toLower_whitespace (space : char.isWhitespace = true) :
    char.toNat < 128 ∧ char.toLower = char ∧ tokenChar char = false ∧
      (char.isAlphanum || char == '_') = false := by
  simp only [Char.isWhitespace, Bool.or_eq_true, decide_eq_true_eq] at space
  rcases space with ((same | same) | same) | same <;> subst same <;> decide

private theorem ascii_of_isbnChar (plain : char.isAlphanum = true ∨ char = '-') :
    char.toNat < 128 := by
  rcases plain with alphanumeric | dash
  · exact toNat_lt_of_isAlphanum alphanumeric
  · subst dash
    decide

end Chars

/-- Text that is one token: token characters that end with a word character. -/
structure OneToken (rules : TextRules) (token : List Char) : Prop where
  chars : ∀ char ∈ token, tokenChar char = true
  first : ∃ char, token.head? = some char ∧ rules.isWord char = true
  last : ∃ char, token.getLast? = some char ∧ rules.isWord char = true

/-- Text between tokens. -/
def Blank (rules : TextRules) (text : List Char) : Prop :=
  ∀ char ∈ text, tokenChar char = false ∧ rules.isWord char = false

section Tokens

variable {rules : TextRules} {text token rest : List Char}

theorem Blank.head (blank : Blank rules text) : text.head?.any rules.isWord = false := by
  cases text with
  | nil => rfl
  | cons char text => exact (blank char List.mem_cons_self).2

private theorem takeToken_blank (blank : Blank rules text) : rules.takeToken text = none := by
  cases text with
  | nil => rfl
  | cons char text =>
      rw [TextRules.takeToken, if_neg (by simp [(blank char List.mem_cons_self).1])]

private theorem findTokens_blank (blank : Blank rules text) (previous : Option Char) :
    rules.findTokens previous 0 text = [] := by
  induction text generalizing previous with
  | nil => rfl
  | cons char text ih =>
      have later : rules.findTokens (some char) 0 text = [] :=
        ih (fun other member => blank other (List.mem_cons_of_mem _ member)) (some char)
      rw [TextRules.findTokens, takeToken_blank blank]
      split
      · exact later
      · exact later

/-- The greedy match runs to the end of the token and does not give anything back. -/
theorem takeToken_append (chars : ∀ char ∈ token, tokenChar char = true)
    (last : ∃ char, token.getLast? = some char ∧ rules.isWord char = true)
    (blank : Blank rules rest) : rules.takeToken (token ++ rest) = some token := by
  induction token with
  | nil =>
      obtain ⟨char, ends, _⟩ := last
      cases ends
  | cons char token ih =>
      have listed := chars char List.mem_cons_self
      rw [List.cons_append, TextRules.takeToken, if_pos listed]
      cases token with
      | nil =>
          have word : rules.isWord char = true := by
            obtain ⟨final, ends, word⟩ := last
            cases ends
            exact word
          have boundary : rules.isBoundary (some char) rest.head? = true := by
            rw [TextRules.isBoundary, blank.head, Option.any_some, word]
            rfl
          rw [List.nil_append, takeToken_blank blank]
          simp only [boundary, if_true]
      | cons next token =>
          have deeper := ih (fun other member => chars other (List.mem_cons_of_mem _ member))
            (by rwa [List.getLast?_cons_cons] at last)
          rw [deeper]

private theorem findTokens_covered (token : List Char) (previous : Option Char)
    (blank : Blank rules rest) :
    rules.findTokens previous token.length (token ++ rest) = [] := by
  induction token generalizing previous with
  | nil => exact findTokens_blank blank previous
  | cons char token ih =>
      rw [List.cons_append, List.length_cons, TextRules.findTokens]
      exact ih (some char)

private theorem findTokens_token (whole : OneToken rules token) (blank : Blank rules rest)
    {previous : Option Char} (outside : previous.any rules.isWord = false) :
    rules.findTokens previous 0 (token ++ rest) = [String.ofList token] := by
  cases token with
  | nil =>
      obtain ⟨first, starts, _⟩ := whole.first
      cases starts
  | cons char token =>
      have word : rules.isWord char = true := by
        obtain ⟨first, starts, word⟩ := whole.first
        cases starts
        exact word
      have taken := takeToken_append whole.chars whole.last blank
      have boundary : rules.isBoundary previous (some char) = true := by
        rw [TextRules.isBoundary, outside, Option.any_some, word]
        rfl
      rw [List.cons_append] at taken ⊢
      rw [TextRules.findTokens, if_pos boundary, taken]
      simp only [List.length_cons, Nat.add_sub_cancel]
      rw [findTokens_covered token (some char) blank]

private theorem findTokens_surrounded {before : List Char} (spaces : Blank rules before)
    (whole : OneToken rules token) (blank : Blank rules rest) {previous : Option Char}
    (outside : previous.any rules.isWord = false) :
    rules.findTokens previous 0 (before ++ (token ++ rest)) = [String.ofList token] := by
  induction before generalizing previous with
  | nil => exact findTokens_token whole blank outside
  | cons char before ih =>
      obtain ⟨notToken, notWord⟩ := spaces char List.mem_cons_self
      have later := @ih (fun other member => spaces other (List.mem_cons_of_mem _ member))
        (some char) notWord
      have none : rules.takeToken (char :: (before ++ (token ++ rest))) = none := by
        rw [TextRules.takeToken, if_neg (by simp [notToken])]
      rw [List.cons_append, TextRules.findTokens, none]
      split
      · exact later
      · exact later

end Tokens

section Spelling

variable {rules : TextRules} {isbn query : String} {spelling : List Char}

private theorem toLower_isbnChar {char : Char} (plain : char.isAlphanum = true ∨ char = '-') :
    tokenChar char.toLower = true ∧ (char.toLower = '-' ↔ char = '-') ∧
      (char.isAlphanum = true → char.toLower.isAlphanum = true) ∧ char.toLower.toNat < 128 := by
  refine ascii_cases (fun char => (char.isAlphanum = true ∨ char = '-') →
    tokenChar char.toLower = true ∧ (char.toLower = '-' ↔ char = '-') ∧
      (char.isAlphanum = true → char.toLower.isAlphanum = true) ∧ char.toLower.toNat < 128)
    ?_ (ascii_of_isbnChar plain) plain
  decide +kernel

theorem PlainIsbn.oneToken (ascii : rules.Ascii) (plain : PlainIsbn isbn) :
    OneToken rules (isbn.toList.map Char.toLower) := by
  have word : ∀ char : Char, char.isAlphanum = true → rules.isWord char.toLower = true := by
    intro char alphanumeric
    obtain ⟨_, _, kept, small⟩ := toLower_isbnChar (.inl alphanumeric)
    rw [ascii.word _ small, kept alphanumeric, Bool.true_or]
  constructor
  · intro lowered member
    obtain ⟨char, listed, same⟩ := List.mem_map.mp member
    rw [← same]
    exact (toLower_isbnChar (plain.chars char listed)).1
  · obtain ⟨char, starts, alphanumeric⟩ := plain.first
    exact ⟨char.toLower, by rw [List.head?_map, starts, Option.map_some], word char alphanumeric⟩
  · obtain ⟨char, ends, alphanumeric⟩ := plain.last
    exact ⟨char.toLower, by rw [List.getLast?_map, ends, Option.map_some], word char alphanumeric⟩

/-- The identifier without its dashes is one as well. -/
theorem PlainIsbn.withoutDashes (plain : PlainIsbn isbn) : PlainIsbn (dropHyphens isbn) := by
  have kept : (dropHyphens isbn).toList = isbn.toList.filter (· ≠ '-') := by
    rw [dropHyphens, String.toList_ofList]
  have different : ∀ char : Char, char.isAlphanum = true → char ≠ '-' := by
    intro char alphanumeric same
    subst same
    exact absurd alphanumeric (by decide)
  constructor
  · intro char member
    rw [kept] at member
    exact plain.chars char (List.mem_of_mem_filter member)
  · obtain ⟨char, starts, alphanumeric⟩ := plain.first
    obtain ⟨rest, same⟩ := List.head?_eq_some_iff.mp starts
    refine ⟨char, ?_, alphanumeric⟩
    rw [kept, same, List.filter_cons_of_pos (by simpa using different char alphanumeric)]
    rfl
  · obtain ⟨char, ends, alphanumeric⟩ := plain.last
    obtain ⟨rest, same⟩ := List.getLast?_eq_some_iff.mp ends
    refine ⟨char, ?_, alphanumeric⟩
    rw [kept, same, List.filter_append, List.filter_cons_of_pos
      (by simpa using different char alphanumeric), List.filter_nil, List.getLast?_concat]

private theorem lower_dropHyphens (plain : PlainIsbn isbn) :
    dropHyphens (String.ofList (isbn.toList.map Char.toLower)) =
      String.ofList ((dropHyphens isbn).toList.map Char.toLower) := by
  rw [dropHyphens, dropHyphens, String.toList_ofList,
    String.toList_ofList, List.filter_map]
  congr 2
  refine List.filter_congr fun char member => ?_
  have dash := (toLower_isbnChar (plain.chars char member)).2.1
  simp only [Function.comp_apply, ne_eq, dash]

/-- A query that spells an identifier in some letter case is one token. -/
theorem tokenize_spelled (ascii : rules.Ascii) (plain : PlainIsbn isbn)
    {before after : List Char} (asked : query.toList = before ++ spelling ++ after)
    (spaces : ∀ char ∈ before ++ after, char.isWhitespace = true)
    (spelled : spelling.map Char.toLower = isbn.toList.map Char.toLower) :
    rules.tokenize query = [String.ofList (isbn.toList.map Char.toLower)] := by
  have small : ∀ char ∈ query.toList, char.toNat < 128 := by
    intro char member
    rw [asked, List.mem_append, List.mem_append] at member
    rcases member with (space | letter) | space
    · exact (toLower_whitespace (spaces char (List.mem_append_left _ space))).1
    · have lowered : char.toLower ∈ isbn.toList.map Char.toLower :=
        spelled ▸ List.mem_map_of_mem letter
      obtain ⟨original, listed, same⟩ := List.mem_map.mp lowered
      apply toNat_lt_of_toLower
      rw [← same]
      exact (toLower_isbnChar (plain.chars original listed)).2.2.2
    · exact (toLower_whitespace (spaces char (List.mem_append_right _ space))).1
  have blank : ∀ text : List Char, (∀ char ∈ text, char ∈ before ++ after) →
      text.map Char.toLower = text ∧ Blank rules text := by
    intro text within
    constructor
    · refine (List.map_congr_left fun char member => ?_).trans (List.map_id text)
      exact (toLower_whitespace (spaces char (within char member))).2.1
    · intro char member
      obtain ⟨code, _, notToken, notWord⟩ := toLower_whitespace (spaces char (within char member))
      exact ⟨notToken, by rw [ascii.word char code, notWord]⟩
  obtain ⟨lowerBefore, blankBefore⟩ := blank before fun _ => List.mem_append_left _
  obtain ⟨lowerAfter, blankAfter⟩ := blank after fun _ => List.mem_append_right _
  have given : query ≠ "" := by
    intro empty
    obtain ⟨char, starts, _⟩ := plain.first
    have none : spelling = [] := by
      have length := congrArg List.length asked
      rw [empty] at length
      simp only [String.toList_empty, List.length_nil, List.length_append] at length
      exact List.eq_nil_of_length_eq_zero (by omega)
    rw [none, List.map_nil, eq_comm, List.map_eq_nil_iff] at spelled
    rw [spelled] at starts
    cases starts
  rw [TextRules.tokenize, if_neg given, ascii.lower query small, String.toList_ofList, asked,
    List.map_append, List.map_append, lowerBefore, lowerAfter, spelled, List.append_assoc]
  exact findTokens_surrounded blankBefore (plain.oneToken ascii) blankAfter rfl

/-- A query for a title is one of the two tokens its identifier is stored under. -/
theorem tokenize_asksFor (ascii : rules.Ascii) {book : Book} (plain : PlainIsbn book.isbn)
    (asks : AsksFor book.isbn query) :
    ∃ token ∈ bookTokens rules book, rules.tokenize query = [token] := by
  obtain ⟨before, spelling, after, asked, spaces, spelled⟩ := asks.spelled
  have lower := ascii.lower book.isbn fun char member =>
    ascii_of_isbnChar (plain.chars char member)
  rcases spelled with same | same
  · refine ⟨_, ?_, tokenize_spelled ascii plain asked spaces same⟩
    simp [bookTokens, lower]
  · have bare := plain.withoutDashes
    refine ⟨_, ?_, tokenize_spelled ascii bare asked spaces ?_⟩
    · rw [← lower_dropHyphens plain]
      simp [bookTokens, lower]
    · rw [same, dropHyphens, String.toList_ofList]

end Spelling

/-- After any operations, a search for the identifier of a current title finds the
title, when the limit leaves room for all that match. -/
theorem search_finds_isbn (rules : TextRules) (ascii : rules.Ascii) (log : ℚ → ℚ)
    (available : Book → Bool) (operations : List IndexOperation) (isbn : String) (book : Book)
    (indexed : (operations.foldl (IndexOperation.exec rules) .empty).books.get? isbn = some book)
    (plain : PlainIsbn isbn) (query : String) (asks : AsksFor isbn query) (order : List String)
    (enumerates : Enumerates ((operations.foldl (IndexOperation.exec rules) .empty).candidates
      (rules.tokenize query)) order)
    (limit : Int)
    (enough : ((scanMatches rules available query {} (catalogue operations)).length : Int) ≤ limit) :
    book ∈ ((operations.foldl (IndexOperation.exec rules) .empty).search rules log available query
      {} limit order).map SearchHit.book := by
  have indexes := indexes_run rules operations
  rw [indexes.titles] at indexed
  have identity := indexes.keyed isbn book indexed
  obtain ⟨token, contained, tokens⟩ := tokenize_asksFor ascii (identity ▸ plain) (identity ▸ asks)
  have perm := @Indexes.ranking_perm rules _ _ log available query {} indexes order enumerates
  have selected : book ∈ scanMatches rules available query {} (catalogue operations) := by
    refine List.mem_filter.mpr ⟨(Dict.mem_values_iff _ _).mpr ⟨isbn, indexed⟩, ?_⟩
    simp [matchesQuery, tokens, contained, SearchFilters.passes]
  rw [search_eq_sliceTo, sliceTo_of_length_le]
  · exact perm.mem_iff.mpr selected
  · have length := perm.length_eq
    rw [List.length_map] at length
    rw [length]
    exact enough

/-- The dash left out and a letter in lower case. -/
theorem search_finds_isbn_bare :
    let maps := renamedTitle.foldl (IndexOperation.exec asciiRules) .empty
    searchTitle "B-1" "Type Theory" ∈ (maps.search asciiRules logFourThirds (fun _ => true) " b1 "
      {} 1 ["B-1"]).map SearchHit.book := by
  have chars : "B-1".toList = ['B', '-', '1'] := by decide +kernel
  have plain : PlainIsbn "B-1" := by
    constructor <;> rw [chars]
    · intro char member
      simp only [List.mem_cons, List.not_mem_nil, or_false] at member
      rcases member with same | same | same <;> subst same <;> decide
    · exact ⟨'B', by decide⟩
    · exact ⟨'1', by decide⟩
  have asks : AsksFor "B-1" " b1 " := by
    refine ⟨[' '], ['b', '1'], [' '], by decide +kernel, by simp, .inr ?_⟩
    rw [chars]
    decide
  have found : (renamedTitle.foldl (IndexOperation.exec asciiRules) .empty).candidates
      (asciiRules.tokenize " b1 ") = {"B-1"} := by decide +kernel
  have enumerates : Enumerates ((renamedTitle.foldl (IndexOperation.exec asciiRules)
      .empty).candidates (asciiRules.tokenize " b1 ")) ["B-1"] := by
    rw [found]
    exact ⟨List.nodup_singleton _, by simp⟩
  exact search_finds_isbn asciiRules asciiRules_ascii logFourThirds (fun _ => true) renamedTitle
    "B-1" (searchTitle "B-1" "Type Theory") (by decide +kernel) plain " b1 " asks ["B-1"]
    enumerates 1 (by decide +kernel)

end LibraFlow.Dsa
