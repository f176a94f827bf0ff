import LibraFlow.Dsa.InvertedIndexProperties

/-! Search on the index returns what a scan of the titles selects, ranked by a
score that a scan can compute as well. -/

set_option autoImplicit false

namespace LibraFlow.Dsa

open LibraFlow.Core LibraFlow.Library

/-- An order in which a set can be iterated. -/
structure Enumerates (items : Finset String) (order : List String) : Prop where
  once : order.Nodup
  covers : ∀ item, item ∈ order ↔ item ∈ items

/-- What a scan selects: titles that pass the criteria and share a token with the
query, or all that pass when the query has none and a criterion is given. -/
def matchesQuery (rules : TextRules) (available : Book → Bool) (query : String)
    (filters : SearchFilters) (book : Book) : Bool :=
  (if rules.tokenize query = [] then filters.given
    else (rules.tokenize query).any fun token => token ∈ bookTokens rules book) &&
    filters.passes rules available book

def scanMatches (rules : TextRules) (available : Book → Bool) (query : String)
    (filters : SearchFilters) (books : Dict String Book) : List Book :=
  books.values.filter (matchesQuery rules available query filters)

/-- The relevance of a title, counted on the titles themselves. -/
def scanRelevance (rules : TextRules) (log : ℚ → ℚ) (books : Dict String Book)
    (queryTokens : List String) (book : Book) : ℚ :=
  (queryTokens.map fun token =>
    let tf := (bookTokens rules book).count token
    if 0 < tf then
      let df : ℚ := books.values.countP fun other => token ∈ bookTokens rules other
      let total : ℚ := (max 1 books.size : Nat)
      tf / (bookTokens rules book).length *
        log ((total - df + 1 / 2) / (df + 1 / 2) + 1)
    else 0).sum

def scanScore (rules : TextRules) (log : ℚ → ℚ) (available : Book → Bool)
    (books : Dict String Book) (queryTokens : List String) (book : Book) : ℚ :=
  roundTo 4 (scanRelevance rules log books queryTokens book + book.rating * (1 / 10) +
    if available book then 1 / 2 else 0)

namespace InvertedIndex

/-- The hits in the order of the candidates. -/
def hits (rules : TextRules) (log : ℚ → ℚ) (available : Book → Bool) (self : InvertedIndex)
    (query : String) (filters : SearchFilters) (order : List String) : List SearchHit :=
  order.filterMap (self.hit? rules log available (rules.tokenize query) filters)

/-- All hits of a search, ranked. -/
def ranking (rules : TextRules) (log : ℚ → ℚ) (available : Book → Bool) (self : InvertedIndex)
    (query : String) (filters : SearchFilters) (order : List String) : List SearchHit :=
  if rules.tokenize query = [] ∧ filters.given = false then []
  else (self.hits rules log available query filters order).insertionSort SearchHit.Before

end InvertedIndex

instance : Std.Total SearchHit.Before :=
  ⟨fun left right => le_total right.score left.score⟩

instance : IsTrans SearchHit SearchHit.Before :=
  ⟨fun _ _ _ first second => le_trans second first⟩

namespace Indexes

variable {rules : TextRules} {maps : InvertedIndex} {books : Dict String Book}

private theorem isbns_values (indexes : Indexes rules maps books) :
    books.values.map Book.isbn = books.keys := Dict.map_values indexes.keyed

private theorem values_nodup (indexes : Indexes rules maps books) : books.values.Nodup := by
  apply List.Nodup.of_map Book.isbn
  rw [indexes.isbns_values]
  exact books.keysNodup

theorem get?_isbn (indexes : Indexes rules maps books) {book : Book} (listed : book ∈ books.values) :
    books.get? book.isbn = some book := by
  obtain ⟨isbn, found⟩ := (Dict.mem_values_iff _ _).mp listed
  rw [indexes.keyed isbn book found]
  exact found

/-- The postings of a term number the titles that contain it. -/
theorem card_postings (indexes : Indexes rules maps books) (term : String) :
    (maps.postings term).card = books.values.countP fun book => term ∈ bookTokens rules book := by
  have same : maps.postings term =
      ((books.values.filter fun book => term ∈ bookTokens rules book).map Book.isbn).toFinset := by
    ext isbn
    rw [indexes.postings, List.mem_toFinset, List.mem_map]
    constructor
    · rintro ⟨book, found, contained⟩
      refine ⟨book, List.mem_filter.mpr ⟨?_, by simpa using contained⟩,
        indexes.keyed isbn book found⟩
      exact (Dict.mem_values_iff _ _).mpr ⟨isbn, found⟩
    · rintro ⟨book, member, identity⟩
      obtain ⟨listed, contained⟩ := List.mem_filter.mp member
      exact ⟨book, identity ▸ indexes.get?_isbn listed, by simpa using contained⟩
  have distinct : ((books.values.filter fun book =>
      term ∈ bookTokens rules book).map Book.isbn).Nodup := by
    refine List.Nodup.sublist (List.filter_sublist.map Book.isbn) ?_
    rw [indexes.isbns_values]
    exact books.keysNodup
  rw [same, List.toFinset_card_of_nodup distinct, List.length_map,
    List.countP_eq_length_filter]

private theorem relevance_eq (indexes : Indexes rules maps books) (log : ℚ → ℚ)
    (queryTokens : List String) {isbn : String} {book : Book}
    (found : books.get? isbn = some book) :
    maps.relevance log isbn queryTokens = scanRelevance rules log books queryTokens book := by
  have count : ∀ token, ((maps.frequencies isbn).get? token).getD 0 =
      (bookTokens rules book).count token := by
    intro token
    rw [indexes.frequencies, found, Option.bind_some, termCount]
    split
    · rfl
    · next absent => rw [List.count_eq_zero_of_not_mem absent, Option.getD_none]
  simp only [InvertedIndex.relevance, scanRelevance, count, indexes.lengths, found,
    indexes.titles, indexes.card_postings, Option.map_some, Option.getD_some]

theorem mem_candidates_iff (indexes : Indexes rules maps books) {queryTokens : List String}
    {isbn : String} :
    isbn ∈ maps.candidates queryTokens ↔ ∃ book, books.get? isbn = some book ∧
      (queryTokens = [] ∨ ∃ token ∈ queryTokens, token ∈ bookTokens rules book) := by
  have union : ∀ (tokens : List String) (found : Finset String),
      isbn ∈ tokens.foldl (fun found token => found ∪ maps.postings token) found ↔
        isbn ∈ found ∨ ∃ token ∈ tokens, isbn ∈ maps.postings token := by
    intro tokens
    induction tokens with
    | nil => simp
    | cons token rest ih =>
        intro found
        rw [List.foldl_cons, ih, Finset.mem_union]
        simp only [List.mem_cons, exists_eq_or_imp, or_assoc]
  unfold InvertedIndex.candidates
  split
  · next none =>
      rw [indexes.titles, List.mem_toFinset, Dict.mem_keys_iff]
      simp [none]
  · next some =>
      rw [union]
      simp only [Finset.notMem_empty, false_or, indexes.postings, some]
      constructor
      · rintro ⟨token, asked, book, found, contained⟩
        exact ⟨book, found, token, asked, contained⟩
      · rintro ⟨book, found, token, asked, contained⟩
        exact ⟨token, asked, book, found, contained⟩

variable {log : ℚ → ℚ} {available : Book → Bool} {query : String} {filters : SearchFilters}

/-- A title gives a hit when it passes the criteria, with the score of a scan. -/
theorem hit?_eq_some_iff (indexes : Indexes rules maps books) {queryTokens : List String}
    {isbn : String} {hit : SearchHit} :
    maps.hit? rules log available queryTokens filters isbn = some hit ↔
      books.get? isbn = some hit.book ∧ filters.passes rules available hit.book = true ∧
        hit.score = scanScore rules log available books queryTokens hit.book := by
  unfold InvertedIndex.hit?
  rw [indexes.titles]
  cases found : books.get? isbn with
  | none => simp
  | some book =>
      have score : maps.finalScore log available queryTokens book isbn =
          scanScore rules log available books queryTokens book := by
        rw [InvertedIndex.finalScore, scanScore, indexes.relevance_eq log queryTokens found]
      simp only [score, Option.some.injEq]
      obtain ⟨hitBook, hitScore⟩ := hit
      split
      · next passes =>
          simp only [Option.some.injEq, SearchHit.mk.injEq]
          constructor
          · rintro ⟨sameBook, sameScore⟩
            subst sameBook
            exact ⟨rfl, passes, sameScore.symm⟩
          · rintro ⟨sameBook, _, sameScore⟩
            subst sameBook
            exact ⟨rfl, sameScore.symm⟩
      · next fails =>
          simp only [reduceCtorEq, false_iff]
          rintro ⟨sameBook, passes, _⟩
          subst sameBook
          exact fails passes

private theorem isbns_hits (indexes : Indexes rules maps books) (order : List String) :
    ((maps.hits rules log available query filters order).map fun hit => hit.book.isbn).Sublist
      order := by
  induction order with
  | nil => exact .slnil
  | cons isbn rest ih =>
      unfold InvertedIndex.hits at ih ⊢
      rw [List.filterMap_cons]
      cases found : maps.hit? rules log available (rules.tokenize query) filters isbn with
      | none => exact ih.cons isbn
      | some hit =>
          have identity := indexes.keyed isbn hit.book (indexes.hit?_eq_some_iff.mp found).1
          simp only [List.map_cons, identity]
          exact ih.cons_cons isbn

/-- Unless the query selects nothing at all, the hits are the titles a scan
selects, each once. -/
theorem hits_perm (indexes : Indexes rules maps books) {order : List String}
    (enumerates : Enumerates (maps.candidates (rules.tokenize query)) order)
    (asked : ¬ (rules.tokenize query = [] ∧ filters.given = false)) :
    ((maps.hits rules log available query filters order).map SearchHit.book).Perm
      (scanMatches rules available query filters books) := by
  have once : ((maps.hits rules log available query filters order).map SearchHit.book).Nodup := by
    apply List.Nodup.of_map Book.isbn
    rw [List.map_map]
    exact enumerates.once.sublist (indexes.isbns_hits order)
  refine (List.perm_ext_iff_of_nodup once (indexes.values_nodup.filter _)).mpr ?_
  intro book
  rw [List.mem_map, List.mem_filter]
  constructor
  · rintro ⟨hit, member, same⟩
    subst same
    obtain ⟨isbn, ordered, found⟩ := List.mem_filterMap.mp member
    obtain ⟨stored, passes, _⟩ := indexes.hit?_eq_some_iff.mp found
    obtain ⟨book, candidate, shares⟩ :=
      indexes.mem_candidates_iff.mp ((enumerates.covers isbn).mp ordered)
    rw [stored, Option.some.injEq] at candidate
    subst candidate
    refine ⟨(Dict.mem_values_iff _ _).mpr ⟨isbn, stored⟩, ?_⟩
    simp only [matchesQuery, passes, Bool.and_true]
    split
    · next none =>
        rw [none, eq_self, true_and, Bool.not_eq_false] at asked
        exact asked
    · next some =>
        simpa using shares.resolve_left some
  · rintro ⟨listed, selected⟩
    have stored := indexes.get?_isbn listed
    simp only [matchesQuery, Bool.and_eq_true] at selected
    obtain ⟨shares, passes⟩ := selected
    refine ⟨⟨book, scanScore rules log available books (rules.tokenize query) book⟩, ?_, rfl⟩
    refine List.mem_filterMap.mpr ⟨book.isbn, ?_,
      indexes.hit?_eq_some_iff.mpr ⟨stored, passes, rfl⟩⟩
    rw [enumerates.covers, indexes.mem_candidates_iff]
    refine ⟨book, stored, ?_⟩
    by_cases none : rules.tokenize query = []
    · exact .inl none
    · rw [if_neg none] at shares
      exact .inr (by simpa using shares)

theorem ranking_perm (indexes : Indexes rules maps books) {order : List String}
    (enumerates : Enumerates (maps.candidates (rules.tokenize query)) order) :
    ((maps.ranking rules log available query filters order).map SearchHit.book).Perm
      (scanMatches rules available query filters books) := by
  unfold InvertedIndex.ranking
  by_cases nothing : rules.tokenize query = [] ∧ filters.given = false
  · have none : scanMatches rules available query filters books = [] := by
      rw [scanMatches, List.filter_eq_nil_iff]
      intro book _
      simp [matchesQuery, nothing.1, nothing.2]
    rw [if_pos nothing, none]
    exact .nil
  · rw [if_neg nothing]
    exact ((List.perm_insertionSort _ _).map _).trans (indexes.hits_perm enumerates nothing)

private theorem ranking_score (indexes : Indexes rules maps books) {order : List String}
    {hit : SearchHit} (member : hit ∈ maps.ranking rules log available query filters order) :
    hit.score = scanScore rules log available books (rules.tokenize query) hit.book := by
  unfold InvertedIndex.ranking at member
  split at member
  · cases member
  · obtain ⟨isbn, _, found⟩ :=
      List.mem_filterMap.mp ((List.perm_insertionSort _ _).subset member)
    exact (indexes.hit?_eq_some_iff.mp found).2.2

end Indexes

section Search

variable {rules : TextRules} {log : ℚ → ℚ} {available : Book → Bool} {maps : InvertedIndex}
  {query : String} {filters : SearchFilters} {order : List String}

private theorem ranking_sorted : (maps.ranking rules log available query filters order).Pairwise
    fun first later => later.score ≤ first.score := by
  unfold InvertedIndex.ranking
  split
  · exact .nil
  · exact List.pairwise_insertionSort _ _

theorem search_eq_sliceTo (limit : Int) :
    maps.search rules log available query filters limit order =
      sliceTo limit (maps.ranking rules log available query filters order) := by
  by_cases nothing : rules.tokenize query = [] ∧ filters.given = false
  · simp only [InvertedIndex.search, InvertedIndex.ranking, if_pos nothing, sliceTo,
      List.take_nil, ite_self]
  · simp only [InvertedIndex.search, InvertedIndex.ranking, if_neg nothing, InvertedIndex.hits]

end Search

/-- After any operations the index has the maps of a fresh one, and a search finds
what a scan of the current titles selects: all of it when the limit allows, else
the first results. -/
theorem search_refines_scan (rules : TextRules) (log : ℚ → ℚ) (available : Book → Bool)
    (operations : List IndexOperation) (query : String) (filters : SearchFilters)
    (order : List String)
    (enumerates : Enumerates ((operations.foldl (IndexOperation.exec rules) .empty).candidates
      (rules.tokenize query)) order) :
    let maps := operations.foldl (IndexOperation.exec rules) .empty
    let books := catalogue operations
    Indexes rules maps books ∧ SameMaps maps (freshIndex rules books) ∧
      ∃ ranking : List SearchHit,
        (ranking.map SearchHit.book).Perm (scanMatches rules available query filters books) ∧
        (ranking.map fun hit => hit.book.isbn).Nodup ∧
        (∀ hit ∈ ranking, hit.score =
          scanScore rules log available books (rules.tokenize query) hit.book) ∧
        ranking.Pairwise (fun first later => later.score ≤ first.score) ∧
        ∀ limit, maps.search rules log available query filters limit order <+: ranking ∧
          ((ranking.length : Int) ≤ limit →
            maps.search rules log available query filters limit order = ranking) := by
  intro maps books
  have indexes : Indexes rules maps books := indexes_run rules operations
  have perm := @Indexes.ranking_perm rules maps books log available query filters indexes order
    enumerates
  refine ⟨indexes, indexes.sameMaps (indexes_freshIndex rules indexes.keyed),
    maps.ranking rules log available query filters order, perm, ?_,
    fun hit member => indexes.ranking_score member, ranking_sorted, ?_⟩
  · have distinct : ((scanMatches rules available query filters books).map Book.isbn).Nodup := by
      refine List.Nodup.sublist (List.filter_sublist.map Book.isbn) ?_
      rw [indexes.isbns_values]
      exact books.keysNodup
    have isbns := (perm.map Book.isbn).nodup_iff.mpr distinct
    rwa [List.map_map] at isbns
  · intro limit
    rw [search_eq_sliceTo]
    exact ⟨sliceTo_isPrefix limit _, fun enough => sliceTo_of_length_le enough⟩

/-- A physical title with the fields search looks at. -/
def searchTitle (isbn title : String) : Book where
  isbn := isbn
  title := title
  authors := ["Cormen"]
  category := "Computing"
  publicationYear := 2009
  publisher := "MIT Press"
  description := ""
  rating := 4
  difficultyLevel := "Intermediate"
  keywords := []
  borrowHistoryCount := 0
  edition := .physical 500 400 .empty

/-- A title is indexed, then another one that is removed again, then the first one
under a new name. -/
def renamedTitle : List IndexOperation :=
  [.indexBook (searchTitle "B-1" "Lean"), .indexBook (searchTitle "B2" "Types"),
    .removeBook "B2", .indexBook (searchTitle "B-1" "Type Theory")]

/-- The logarithm of 4/3 to double precision. -/
def logFourThirds (argument : ℚ) : ℚ :=
  if argument = 4 / 3 then 28768207245178085 / 100000000000000000 else 0

theorem search_refines_scan_renamed :
    let maps := renamedTitle.foldl (IndexOperation.exec asciiRules) .empty
    maps.postings "lean" = ∅ ∧
      (maps.search asciiRules logFourThirds (fun _ => false) "THEORY" {} 20 ["B-1"]).map
        (fun hit => (hit.book.title, hit.score)) = [("Type Theory", 4719 / 10000)] ∧
      SameMaps maps (freshIndex asciiRules (catalogue renamedTitle)) := by
  have found : (renamedTitle.foldl (IndexOperation.exec asciiRules) .empty).candidates
      (asciiRules.tokenize "THEORY") = {"B-1"} := by decide +kernel
  have enumerates : Enumerates ((renamedTitle.foldl (IndexOperation.exec asciiRules)
      .empty).candidates (asciiRules.tokenize "THEORY")) ["B-1"] := by
    rw [found]
    exact ⟨List.nodup_singleton _, by simp⟩
  refine ⟨by decide +kernel, by decide +kernel, ?_⟩
  exact (search_refines_scan asciiRules logFourThirds (fun _ => false) renamedTitle "THEORY" {}
    ["B-1"] enumerates).2.1

end LibraFlow.Dsa
