import LibraFlow.Dsa.SearchScan

/-! Searching the catalogue through the service and the routes. The service asks
the index without naming a limit, so the index applies its own. -/

set_option autoImplicit false

namespace LibraFlow.Services

open LibraFlow.Core LibraFlow.Library LibraFlow.Dsa

/-- The number of hits the index returns when the caller names none. -/
def defaultSearchLimit : Int := 20

structure SearchResult where
  book : Book.Details
  relevanceScore : ℚ
  deriving DecidableEq

def searchBooks (rules : TextRules) (log : ℚ → ℚ) (objects : Heap BookCopy) (index : InvertedIndex)
    (query : String) (filters : SearchFilters) (order : List String) : List SearchResult :=
  (index.search rules log (Book.isAvailable objects) query filters defaultSearchLimit order).map
    fun hit => ⟨hit.book.toDict objects, hit.score⟩

/-- The answer of both search routes. -/
structure SearchPage where
  query : String
  totalResults : Nat
  limit : Nat
  offset : Nat
  results : List SearchResult

/-- One page of the results; the limit and the offset are the request's. -/
def searchPage (query : String) (limit offset : Nat) (allResults : List SearchResult) :
    SearchPage where
  query := query
  totalResults := allResults.length
  limit := limit
  offset := offset
  results := (allResults.drop offset).take limit

/-- The title object in the index gets another map of copies, as the title object
of the store does that it is shared with. -/
def relist (listing : Dict String Ref) (book : Book) : Book :=
  match book.edition with
  | .physical weightGrams pageCount _ =>
      { book with edition := .physical weightGrams pageCount listing }
  | _ => book

/-- What happens to the titles the index knows. -/
inductive CatalogueChange where
  | indexBook (book : Book)
  | removeBook (isbn : String)
  | relist (isbn : String) (listing : Dict String Ref)

def relistAt (isbn : String) (listing : Dict String Ref) (books : Dict String Book) :
    Dict String Book :=
  match books.get? isbn with
  | some book => books.set isbn (relist listing book)
  | none => books

namespace CatalogueChange

def exec (rules : TextRules) (index : InvertedIndex) : CatalogueChange → InvertedIndex
  | indexBook book => index.indexBook rules book
  | removeBook isbn => index.removeBook isbn
  | relist isbn listing => { index with books := relistAt isbn listing index.books }

/-- The same change to the titles alone. -/
def change (books : Dict String Book) : CatalogueChange → Dict String Book
  | indexBook book => books.set book.isbn book
  | removeBook isbn => books.erase isbn
  | relist isbn listing => relistAt isbn listing books

end CatalogueChange

section Relist

private theorem bookTokens_relist (rules : TextRules) (listing : Dict String Ref) (book : Book) :
    bookTokens rules (relist listing book) = bookTokens rules book := by
  unfold relist
  split <;> rfl

private theorem isbn_relist (listing : Dict String Ref) (book : Book) :
    (relist listing book).isbn = book.isbn := by
  unfold relist
  split <;> rfl

private theorem get?_relistAt (isbn other : String) (listing : Dict String Ref)
    (books : Dict String Book) :
    (relistAt isbn listing books).get? other =
      if isbn = other then (books.get? other).map (relist listing) else books.get? other := by
  unfold relistAt
  cases found : books.get? isbn with
  | none =>
      by_cases same : isbn = other
      · simp [← same, found]
      · simp [same]
  | some book =>
      simp only [Dict.get?_set]
      split
      · next same => rw [← same, found, Option.map_some]
      · rfl

variable {rules : TextRules} {index : InvertedIndex} {books : Dict String Book}

/-- Search terms do not depend on the copies of a title. -/
theorem Indexes.relist (indexes : Indexes rules index books) (isbn : String)
    (listing : Dict String Ref) :
    Indexes rules { index with books := relistAt isbn listing index.books }
      (relistAt isbn listing books) := by
  constructor
  · simp only [indexes.titles]
  · intro other book found
    rw [get?_relistAt] at found
    split at found
    · obtain ⟨old, stored, same⟩ := Option.map_eq_some_iff.mp found
      rw [← same, isbn_relist]
      exact indexes.keyed other old stored
    · exact indexes.keyed other book found
  · intro term other
    refine (indexes.postings term other).trans ?_
    rw [get?_relistAt]
    split
    · cases books.get? other <;> simp [bookTokens_relist]
    · rfl
  · intro other term
    refine (indexes.frequencies other term).trans ?_
    rw [get?_relistAt]
    split
    · cases books.get? other <;> simp [termCount, bookTokens_relist]
    · rfl
  · intro other
    refine (indexes.lengths other).trans ?_
    rw [get?_relistAt]
    split
    · cases books.get? other <;> simp [bookTokens_relist]
    · rfl

theorem Indexes.change (indexes : Indexes rules index books) (change : CatalogueChange) :
    Indexes rules (change.exec rules index) (change.change books) := by
  cases change with
  | indexBook book => exact indexes.indexBook book
  | removeBook isbn => exact indexes.removeBook isbn
  | relist isbn listing => exact Indexes.relist indexes isbn listing

private theorem indexes_changes (rules : TextRules) (changes : List CatalogueChange) :
    Indexes rules (changes.foldl (CatalogueChange.exec rules) .empty)
      (changes.foldl CatalogueChange.change .empty) := by
  have run : ∀ index books, Indexes rules index books →
      Indexes rules (changes.foldl (CatalogueChange.exec rules) index)
        (changes.foldl CatalogueChange.change books) := by
    induction changes with
    | nil => exact fun index books indexes => indexes
    | cons change rest ih =>
        intro index books indexes
        exact ih _ _ (Indexes.change indexes change)
  exact run .empty .empty (indexes_empty rules)

end Relist

section Pages

/-- Consecutive pages put together. -/
theorem flatMap_pages {α : Type} (items : List α) (limit count : Nat) :
    ((List.range count).flatMap fun page => (items.drop (page * limit)).take limit) =
      items.take (count * limit) := by
  induction count with
  | zero => simp
  | succ count ih =>
      rw [List.range_succ, List.flatMap_append, ih, List.flatMap_singleton, Nat.succ_mul,
        List.take_add]

/-- All pages of an unchanged catalogue: the total is right, and the pages together
hold each matching title once. -/
structure PaginationComplete (rules : TextRules) (log : ℚ → ℚ) (objects : Heap BookCopy)
    (index : InvertedIndex) (books : Dict String Book) (query : String) (filters : SearchFilters)
    (order : List String) (limit : Nat) : Prop where
  total : ∀ offset, (searchPage query limit offset
      (searchBooks rules log objects index query filters order)).totalResults =
    (scanMatches rules (Book.isAvailable objects) query filters books).length
  pages : ∀ count, (scanMatches rules (Book.isAvailable objects) query filters books).length ≤
      count * limit →
    ((List.range count).flatMap fun page => (searchPage query limit (page * limit)
        (searchBooks rules log objects index query filters order)).results.map
          fun result => result.book.isbn).Perm
      ((scanMatches rules (Book.isAvailable objects) query filters books).map Book.isbn)

variable {rules : TextRules} {log : ℚ → ℚ} {objects : Heap BookCopy} {index : InvertedIndex}
  {books : Dict String Book} {query : String} {filters : SearchFilters} {order : List String}

theorem searchBooks_eq : searchBooks rules log objects index query filters order =
    ((index.ranking rules log (Book.isAvailable objects) query filters order).take 20).map
      fun hit => ⟨hit.book.toDict objects, hit.score⟩ := by
  rw [searchBooks, search_eq_sliceTo]
  rfl

end Pages

/-- On any catalogue and for any page size, paging is complete exactly when at most
twenty titles match. -/
theorem paginationComplete_iff (rules : TextRules) (log : ℚ → ℚ) (objects : Heap BookCopy)
    (changes : List CatalogueChange) (query : String) (filters : SearchFilters)
    (order : List String)
    (enumerates : Enumerates ((changes.foldl (CatalogueChange.exec rules) .empty).candidates
      (rules.tokenize query)) order) (limit : Nat) :
    let books := changes.foldl CatalogueChange.change .empty
    PaginationComplete rules log objects (changes.foldl (CatalogueChange.exec rules) .empty) books
        query filters order limit ↔
      (scanMatches rules (Book.isAvailable objects) query filters books).length ≤ 20 := by
  intro books
  have indexes : Indexes rules (changes.foldl (CatalogueChange.exec rules) .empty) books :=
    indexes_changes rules changes
  have perm := @Indexes.ranking_perm rules _ books log (Book.isAvailable objects) query filters
    indexes order enumerates
  have length := perm.length_eq
  rw [List.length_map] at length
  constructor
  · intro complete
    have total := complete.total 0
    simp only [searchPage, searchBooks_eq, List.length_map, List.length_take, length] at total
    omega
  · intro few
    have all := @searchBooks_eq rules log objects
      (changes.foldl (CatalogueChange.exec rules) .empty) query filters order
    rw [List.take_of_length_le (by omega)] at all
    refine ⟨?_, ?_⟩
    · intro offset
      rw [searchPage, all, List.length_map, length]
    · intro count enough
      simp only [searchPage, ← List.map_flatMap]
      rw [flatMap_pages, all, List.take_of_length_le (by rw [List.length_map]; omega),
        List.map_map]
      have isbns := perm.map Book.isbn
      rwa [List.map_map] at isbns

/-- Five titles, of which one is withdrawn and one gets a name that matches. -/
def theoryShelf : List CatalogueChange :=
  [.indexBook (searchTitle "B-1" "Type Theory"), .indexBook (searchTitle "B-2" "Cooking"),
    .indexBook (searchTitle "B-3" "Graph Theory"), .indexBook (searchTitle "B-4" "Number Theory"),
    .indexBook (searchTitle "B-5" "Gardening"), .removeBook "B-3",
    .indexBook (searchTitle "B-2" "Set Theory")]

/-- The three matching titles fill two pages. -/
theorem paginationComplete_iff_two_pages :
    let books := theoryShelf.foldl CatalogueChange.change .empty
    (scanMatches asciiRules (Book.isAvailable .empty) "theory" {} books).map Book.isbn =
        ["B-1", "B-2", "B-4"] ∧
      PaginationComplete asciiRules logFourThirds .empty
        (theoryShelf.foldl (CatalogueChange.exec asciiRules) .empty) books "theory" {}
        ["B-4", "B-1", "B-2"] 2 := by
  intro books
  have listed : (scanMatches asciiRules (Book.isAvailable .empty) "theory" {} books).map
      Book.isbn = ["B-1", "B-2", "B-4"] := by decide +kernel
  have few : (scanMatches asciiRules (Book.isAvailable .empty) "theory" {} books).length ≤ 20 := by
    have length := congrArg List.length listed
    rw [List.length_map] at length
    rw [length]
    decide
  have found : (theoryShelf.foldl (CatalogueChange.exec asciiRules) .empty).candidates
      (asciiRules.tokenize "theory") = {"B-4", "B-1", "B-2"} := by decide +kernel
  have enumerates : Enumerates ((theoryShelf.foldl (CatalogueChange.exec asciiRules)
      .empty).candidates (asciiRules.tokenize "theory")) ["B-4", "B-1", "B-2"] := by
    rw [found]
    exact ⟨by decide, by simp⟩
  exact ⟨listed, (paginationComplete_iff asciiRules logFourThirds .empty theoryShelf "theory" {}
    ["B-4", "B-1", "B-2"] enumerates 2).mpr few⟩

/-- Twenty-one titles with the same name. -/
def manyIsbns : List String :=
  (List.range 21).map fun number => String.ofList (List.replicate (number + 1) 'b')

def manyTitles : List CatalogueChange :=
  manyIsbns.map fun isbn => .indexBook (searchTitle isbn "Theory")

/-- The twenty-first title is neither counted nor on any page. -/
theorem twenty_first_title_is_lost :
    ∃ (changes : List CatalogueChange) (order : List String),
      Enumerates ((changes.foldl (CatalogueChange.exec asciiRules) .empty).candidates
        (asciiRules.tokenize "theory")) order ∧
      asciiRules.tokenize "theory" ≠ [] ∧
      ∀ log limit, ¬ PaginationComplete asciiRules log .empty
        (changes.foldl (CatalogueChange.exec asciiRules) .empty)
        (changes.foldl CatalogueChange.change .empty) "theory" {} order limit := by
  have found : (manyTitles.foldl (CatalogueChange.exec asciiRules) .empty).candidates
      (asciiRules.tokenize "theory") = manyIsbns.toFinset := by decide +kernel
  have enumerates : Enumerates ((manyTitles.foldl (CatalogueChange.exec asciiRules)
      .empty).candidates (asciiRules.tokenize "theory")) manyIsbns := by
    rw [found]
    exact ⟨by decide +kernel, by simp⟩
  have many : (scanMatches asciiRules (Book.isAvailable .empty) "theory" {}
      (manyTitles.foldl CatalogueChange.change .empty)).length = 21 := by decide +kernel
  refine ⟨manyTitles, manyIsbns, enumerates, by decide +kernel, ?_⟩
  intro log limit complete
  have perm := @Indexes.ranking_perm asciiRules _ _ log (Book.isAvailable .empty) "theory" {}
    (indexes_changes asciiRules manyTitles) manyIsbns enumerates
  have length := perm.length_eq
  have total := complete.total 0
  rw [List.length_map, many] at length
  simp only [searchPage, searchBooks_eq, List.length_map, List.length_take, length, many] at total
  omega

end LibraFlow.Services
