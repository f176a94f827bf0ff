import LibraFlow.Postgres.Acquisition
import LibraFlow.Postgres.Commits
import LibraFlow.Postgres.Mapping
import LibraFlow.Services.CatalogSearch

/-! Searching the catalogue of one process over the PostgreSQL backend. The index
keeps the title object of the registration, and no later request changes that
object: copies are added to, and taken from, the rows only. -/

set_option autoImplicit false

namespace LibraFlow.Postgres

open LibraFlow.Core LibraFlow.Library LibraFlow.Dsa LibraFlow.Services

/-- The database with the requests on it, and the index of the serving process. -/
structure Catalogue where
  system : System
  index : InvertedIndex

namespace Tables

def saveTitle (tables : Tables) (book : Book) : Tables :=
  { tables with books := tables.books.merge book }

/-- Save a physical title as it was loaded, which is how adding a copy ends. -/
def resaveTitle (tables : Tables) (isbn : String) : Tables :=
  match tables.books.get? isbn with
  | none => tables
  | some model =>
      match model.edition with
      | .physical .. => tables.saveTitle { model with edition := loadEdition model.edition }
      | _ => tables

/-- Whether `get_book` returns an available title. -/
def isAvailable (tables : Tables) (isbn : String) : Bool :=
  match tables.getBook isbn with
  | some (objects, book) => book.isAvailable objects
  | none => false

end Tables

inductive CatalogueAction where
  | register (formatType : String) (arguments : BookArguments)
  | resave (isbn : String)
  | serve (action : Action)

namespace Catalogue

def start (tables : Tables) (processes : Nat → Process) : Catalogue :=
  ⟨.start tables processes, .empty⟩

def onTables (self : Catalogue) (change : Tables → Tables) : Catalogue :=
  { self with system := { self.system with tables := change self.system.tables } }

/-- Save a title, index it and drop its cached details. A title that cannot be
built changes nothing. -/
def registerBook (rules : TextRules) (self : Catalogue) (formatType : String)
    (arguments : BookArguments) : Catalogue :=
  match createBook formatType arguments with
  | .error _ => self
  | .ok book =>
      { system := (self.onTables (Tables.saveTitle · book)).system.invalidate book.isbn
        index := self.index.indexBook rules book }

def exec (rules : TextRules) (tickets : Nat → Ticket) (self : Catalogue) :
    CatalogueAction → Option Catalogue
  | .register formatType arguments => some (self.registerBook rules formatType arguments)
  | .resave isbn => some (self.onTables (Tables.resaveTitle · isbn))
  | .serve action => (self.system.exec tickets action).map fun system => { self with system }

/-- The index has no copies, so the heap they would be in is empty. -/
def search (rules : TextRules) (log : ℚ → ℚ) (self : Catalogue) (query : String)
    (filters : SearchFilters) (order : List String) : List SearchResult :=
  searchBooks rules log .empty self.index query filters order

end Catalogue

def CatalogueStep (rules : TextRules) (tickets : Nat → Ticket) (before : Catalogue)
    (action : CatalogueAction) (after : Catalogue) : Prop :=
  before.exec rules tickets action = some after

/-- A registered title and its row. Loading and saving a physical title may put
defaults in the place of two columns. -/
inductive Saved : Book → Book → Prop where
  | physical {book : Book} {weightGrams pageCount : Int} (weight pages : Int)
      (edition : book.edition = .physical weightGrams pageCount .empty) :
      Saved book { book with edition := .physical weight pages .empty }
  | ebook {book : Book} {downloadUrl fileFormat : String} {fileSizeMb : ℚ} {drmProtected : Bool}
      {maxConcurrentDownloads : Int} (edition : book.edition = .ebook downloadUrl fileSizeMb
        fileFormat drmProtected maxConcurrentDownloads 0) : Saved book book
  | audiobook {book : Book} {streamUrl narrator : String} {durationMinutes : Int}
      (edition : book.edition = .audiobook streamUrl durationMinutes narrator) : Saved book book

/-- The index describes the titles it keeps, and each of them has its row. -/
structure Catalogued (rules : TextRules) (state : Catalogue) : Prop where
  indexes : Indexes rules state.index state.index.books
  saved : ∀ isbn book, state.index.books.get? isbn = some book →
    ∃ row, state.system.tables.books.get? isbn = some row ∧ Saved book row

section Steps

variable {rules : TextRules} {tickets : Nat → Ticket} {before after : Catalogue}

private theorem saved_createBook {formatType : String} {arguments : BookArguments} {book : Book}
    (created : createBook formatType arguments = .ok book) : Saved book book := by
  unfold createBook at created
  split at created
  · cases created
  · next format _ =>
      split at created
      · cases created
      · split at created
        · cases created
        · cases created
          cases format with
          | physical => exact .physical _ _ rfl
          | ebook => exact .ebook rfl
          | audiobook => exact .audiobook rfl

theorem Saved.reload {book row : Book} {weightGrams pageCount : Int} {listed : Dict String Ref}
    (saved : Saved book row) (physical : row.edition = .physical weightGrams pageCount listed) :
    Saved book { row with edition := loadEdition row.edition } := by
  cases saved with
  | physical weight pages edition => exact .physical _ _ edition
  | ebook edition | audiobook edition => simp [edition] at physical

theorem Catalogued.register (catalogued : Catalogued rules before) (formatType : String)
    (arguments : BookArguments) :
    Catalogued rules (before.registerBook rules formatType arguments) := by
  unfold Catalogue.registerBook
  split
  · exact catalogued
  · next book created =>
      refine ⟨catalogued.indexes.indexBook book, ?_⟩
      intro isbn other found
      simp only [InvertedIndex.indexBook, Dict.get?_set] at found
      simp only [Catalogue.onTables, Tables.saveTitle, System.invalidate, Table.get?_merge]
      split
      · next same =>
          rw [if_pos same] at found
          cases found
          exact ⟨book, rfl, saved_createBook created⟩
      · next different =>
          rw [if_neg different] at found
          exact catalogued.saved isbn other found

theorem Catalogued.resave (catalogued : Catalogued rules before) (isbn : String) :
    Catalogued rules (before.onTables (Tables.resaveTitle · isbn)) := by
  refine ⟨catalogued.indexes, ?_⟩
  intro other book found
  obtain ⟨row, present, saved⟩ := catalogued.saved other book found
  simp only [Catalogue.onTables, Tables.resaveTitle]
  split
  · exact ⟨row, present, saved⟩
  · next model stored =>
      split
      · next weightGrams pageCount listed physical =>
          simp only [Tables.saveTitle, Table.get?_merge]
          split
          · next same =>
              have key : other = isbn := same.symm.trans (Table.key_of_get? stored)
              rw [← key, present, Option.some.injEq] at stored
              subst stored
              exact ⟨_, rfl, saved.reload physical⟩
          · exact ⟨row, present, saved⟩
      · exact ⟨row, present, saved⟩

theorem CatalogueStep.catalogued {action : CatalogueAction}
    (taken : CatalogueStep rules tickets before action after)
    (catalogued : Catalogued rules before) : Catalogued rules after := by
  cases action with
  | register formatType arguments =>
      cases taken
      exact catalogued.register formatType arguments
  | resave isbn =>
      cases taken
      exact catalogued.resave isbn
  | serve action =>
      obtain ⟨system, ran, same⟩ := Option.map_eq_some_iff.mp taken
      subst same
      refine ⟨catalogued.indexes, ?_⟩
      have kept : Step tickets before.system action system := ran
      rw [kept.books_kept]
      exact catalogued.saved

theorem run_catalogued {tables : Tables} {processes : Nat → Process}
    {trace : List (Transition Catalogue CatalogueAction)}
    (run : Run (CatalogueStep rules tickets) (.start tables processes) trace after) :
    Catalogued rules after := by
  induction run with
  | nil => exact ⟨indexes_empty rules, by simp [Catalogue.start, InvertedIndex.empty]⟩
  | snoc _ taken ih => exact taken.catalogued ih

end Steps

/-- The two fields of a result that say how a title stands. -/
def availability (details : Book.Details) : Bool × Option Nat :=
  (details.isAvailable, match details.edition with
    | .physical _ availableCopies _ _ _ => some availableCopies
    | _ => none)

section Stored

variable {tables : Tables} {isbn : String} {row : Book} {view : Bool × Option Nat}

theorem edition_of_copies? {book : Book} {listed : Dict String Ref}
    (physical : book.copies? = some listed) :
    ∃ weightGrams pageCount, book.edition = .physical weightGrams pageCount listed := by
  unfold Book.copies? at physical
  split at physical
  · next weightGrams pageCount copies edition =>
      cases physical
      exact ⟨weightGrams, pageCount, edition⟩
  · cases physical

/-- A physical title is loaded with its copy rows. -/
theorem getBook_physical {weightGrams pageCount : Int} {listed : Dict String Ref}
    (stored : tables.books.get? isbn = some row)
    (physical : row.edition = .physical weightGrams pageCount listed) :
    ∃ objects book weight pages copies, tables.getBook isbn = some (objects, book) ∧
      book.edition = .physical weight pages copies ∧
      Book.copyObjects objects copies = tables.copiesOf isbn := by
  have bare : ({ row with edition := loadEdition row.edition } : Book).copies? = some .empty := by
    simp [Book.copies?, loadEdition, physical]
  have unused : ∀ copyId ref, (Dict.empty : Dict String Ref).get? copyId = some ref →
      ref < (Heap.empty : Heap BookCopy).next := by
    intro copyId ref found
    simp at found
  have loaded := addCopies_contents (tables.copiesOf isbn) bare unused (tables.copiesOf_nodup isbn)
  obtain ⟨copies, held, same⟩ := Option.map_eq_some_iff.mp (Prod.mk.inj loaded).2
  obtain ⟨weight, pages, edition⟩ := edition_of_copies? held
  refine ⟨_, _, weight, pages, copies, by rw [Tables.getBook, stored, Option.map_some]; rfl,
    edition, ?_⟩
  rw [copyObjects_eq, same]
  simp [listedCopies, Dict.empty, List.filterMap_map]

private theorem addCopies_digital (copies : List BookCopy) {objects : Heap BookCopy} {book : Book}
    (digital : book.copies? = none) :
    (copies.foldl (fun (objects, book) copy =>
      (objects.alloc copy, book.addCopy copy.copyId objects.next)) (objects, book)).2 = book := by
  induction copies generalizing objects with
  | nil => rfl
  | cons copy rest ih =>
      have same : book.addCopy copy.copyId objects.next = book := by
        cases edition : book.edition with
        | physical => simp [Book.copies?, edition] at digital
        | ebook | audiobook => simp [Book.addCopy, edition]
      simp only [List.foldl_cons, same]
      exact ih

theorem getBook_digital (stored : tables.books.get? isbn = some row)
    (digital : row.copies? = none) :
    ∃ objects, tables.getBook isbn =
      some (objects, { row with edition := loadEdition row.edition }) := by
  have loaded : ({ row with edition := loadEdition row.edition } : Book).copies? = none := by
    unfold Book.copies? at digital ⊢
    cases edition : row.edition <;> simp [edition, loadEdition] at digital ⊢
  refine ⟨(modelToBook row (tables.copiesOf isbn)).1, ?_⟩
  rw [Tables.getBook, stored, Option.map_some, ← addCopies_digital (tables.copiesOf isbn) loaded]
  rfl

private theorem isAvailable_eq (found : (tables.details isbn).map availability = some view) :
    tables.isAvailable isbn = view.1 := by
  unfold Tables.details at found
  unfold Tables.isAvailable
  cases stored : tables.getBook isbn with
  | none => simp [stored] at found
  | some loaded =>
      rw [stored] at found
      cases found
      rfl

/-- What the database says of a title that has been registered. -/
theorem stored_physical {weightGrams pageCount : Int} {listed : Dict String Ref}
    (stored : tables.books.get? isbn = some row)
    (physical : row.edition = .physical weightGrams pageCount listed) :
    let onShelf := ((tables.copiesOf isbn).filter fun copy => copy.status = .available).length
    (tables.details isbn).map availability = some (decide (0 < onShelf), some onShelf) := by
  obtain ⟨objects, book, weight, pages, copies, found, edition, same⟩ :=
    getBook_physical stored physical
  simp only [Tables.details, found, Option.map_some, availability, Book.toDict, Book.isAvailable,
    edition, Book.getAvailableCopies, same]

private theorem stored_digital (stored : tables.books.get? isbn = some row)
    (digital : row.copies? = none) :
    (tables.details isbn).map availability = some (availability
      (({ row with edition := loadEdition row.edition } : Book).toDict .empty)) := by
  obtain ⟨objects, found⟩ := getBook_digital stored digital
  rw [Tables.details, found]
  cases edition : row.edition with
  | physical => simp [Book.copies?, edition] at digital
  | ebook | audiobook => simp [availability, Book.toDict, Book.isAvailable, loadEdition]

end Stored

/-- What the index does not see of a title: a copy on the shelf, and the default
that takes the place of a limit of zero. -/
def overlooked (tables : Tables) (row : Book) : Bool :=
  match row.edition with
  | .physical .. => (tables.copiesOf row.isbn).any fun copy => copy.status = .available
  | .ebook _ _ _ _ maxConcurrentDownloads _ => maxConcurrentDownloads = 0
  | .audiobook .. => false

section Views

variable {tables : Tables} {isbn : String} {book row : Book}

/-- The index and the database tell the same of a title unless it is overlooked. -/
theorem Saved.view (saved : Saved book row) (stored : tables.books.get? isbn = some row)
    (seen : overlooked tables row = false) :
    (tables.details isbn).map availability = some (availability (book.toDict .empty)) := by
  have key := Table.key_of_get? stored
  cases saved with
  | physical weight pages edition =>
      have none : ((tables.copiesOf isbn).filter fun copy => copy.status = .available) = [] := by
        rw [List.filter_eq_nil_iff]
        intro copy listed available
        exact List.any_eq_false.mp seen copy (key ▸ listed) available
      rw [stored_physical stored rfl, none]
      simp [availability, Book.toDict, Book.isAvailable, Book.getAvailableCopies,
        Book.copyObjects, edition, Dict.values, Dict.empty]
  | @ebook _ _ _ _ limit edition =>
      have limited : limit ≠ 0 := by simpa [overlooked, edition] using seen
      rw [stored_digital stored (by simp [Book.copies?, edition])]
      simp [availability, Book.toDict, Book.isAvailable, loadEdition, edition, limited]
  | audiobook edition =>
      rw [stored_digital stored (by simp [Book.copies?, edition])]
      simp [availability, Book.toDict, Book.isAvailable, loadEdition, edition]

/-- An overlooked title is available, and the index says that it is not. -/
theorem Saved.overlooked (saved : Saved book row) (stored : tables.books.get? isbn = some row)
    (unseen : overlooked tables row = true) :
    tables.isAvailable isbn = true ∧ book.isAvailable .empty = false := by
  have key := Table.key_of_get? stored
  cases saved with
  | physical weight pages edition =>
      obtain ⟨copy, listed, available⟩ := List.any_eq_true.mp unseen
      rw [isAvailable_eq (stored_physical stored rfl)]
      constructor
      · refine decide_eq_true (List.length_pos_of_mem (a := copy) ?_)
        exact List.mem_filter.mpr ⟨key ▸ listed, available⟩
      · simp [Book.isAvailable, Book.getAvailableCopies, Book.copyObjects, edition, Dict.values,
          Dict.empty]
  | ebook edition =>
      simp only [overlooked, edition, decide_eq_true_eq] at unseen
      rw [isAvailable_eq (stored_digital stored (by simp [Book.copies?, edition]))]
      simp [availability, Book.toDict, Book.isAvailable, loadEdition, edition, unseen]
  | audiobook edition => simp [overlooked, edition] at unseen

end Views

namespace Catalogue

/-- The titles of the database that match, whether available or not. -/
def matching (rules : TextRules) (self : Catalogue) (query : String) (filters : SearchFilters) :
    List Book :=
  scanMatches rules (fun _ => true) query { filters with onlyAvailable := true }
    self.system.tables.books.rows

/-- Those of them that `get_book` returns as available. -/
def availableMatches (rules : TextRules) (self : Catalogue) (query : String)
    (filters : SearchFilters) : List Book :=
  scanMatches rules (fun row => self.system.tables.isAvailable row.isbn) query
    { filters with onlyAvailable := true } self.system.tables.books.rows

end Catalogue

/-- A search for available titles finds those that the database has, and results
show a title as the database has it. -/
structure TruthfulSearch (rules : TextRules) (log : ℚ → ℚ) (state : Catalogue) (query : String)
    (filters : SearchFilters) (order : List String) : Prop where
  available : ((state.search rules log query { filters with onlyAvailable := true } order).map
      fun result => result.book.isbn).Perm
    ((state.availableMatches rules query filters).map Book.isbn)
  shown : ∀ onlyAvailable, ∀ result ∈
      state.search rules log query { filters with onlyAvailable := onlyAvailable } order,
    (state.system.tables.details result.book.isbn).map availability =
      some (availability result.book)

/-- Every matching title that is available was registered by this process, the
index overlooks nothing of the titles it has, and twenty results are enough. -/
structure IndexSuffices (rules : TextRules) (state : Catalogue) (query : String)
    (filters : SearchFilters) : Prop where
  known : ∀ row ∈ state.availableMatches rules query filters,
    state.index.books.contains row.isbn = true
  seen : ∀ row ∈ state.matching rules query filters,
    state.index.books.contains row.isbn = true → overlooked state.system.tables row = false
  few : (state.availableMatches rules query filters).length ≤ 20

section Matching

variable {rules : TextRules} {query : String} {filters : SearchFilters} {book row : Book}

/-- Whether a title matches depends on its text, not on its copies. -/
theorem Saved.matchesQuery_eq (saved : Saved book row) {available stored : Book → Bool}
    (same : stored row = available book) :
    matchesQuery rules stored query filters row = matchesQuery rules available query filters book := by
  simp only [matchesQuery, SearchFilters.passes, same]
  cases saved <;> rfl

private theorem matchesQuery_onlyAvailable {available : Book → Bool} :
    matchesQuery rules available query { filters with onlyAvailable := true } row = true ↔
      matchesQuery rules (fun _ => true) query { filters with onlyAvailable := true } row = true ∧
        available row = true := by
  simp only [matchesQuery, SearchFilters.passes, Bool.and_eq_true, Bool.not_true, Bool.false_or,
    and_true]
  tauto

/-- What a search without the criterion finds is among the matching titles. -/
theorem matchesQuery_matching {available : Book → Bool} {onlyAvailable : Bool}
    (matched : matchesQuery rules available query { filters with onlyAvailable := onlyAvailable }
      row = true) :
    matchesQuery rules (fun _ => true) query { filters with onlyAvailable := true } row = true := by
  simp only [matchesQuery, SearchFilters.passes, Bool.and_eq_true] at matched ⊢
  refine ⟨?_, matched.2.1, by simp⟩
  split
  · simp [SearchFilters.given]
  · next tokens =>
      rw [if_neg tokens] at matched
      exact matched.1

/-- The titles a scan selects, by identifier. -/
theorem mem_isbns_scan {available : Book → Bool} {books : Dict String Book}
    (keyed : ∀ isbn book, books.get? isbn = some book → book.isbn = isbn) {isbn : String} :
    isbn ∈ (scanMatches rules available query filters books).map Book.isbn ↔
      ∃ book, books.get? isbn = some book ∧
        matchesQuery rules available query filters book = true := by
  rw [List.mem_map]
  constructor
  · rintro ⟨book, member, same⟩
    obtain ⟨listed, matched⟩ := List.mem_filter.mp member
    obtain ⟨key, found⟩ := (Dict.mem_values_iff _ _).mp listed
    have identity := keyed key book found
    exact ⟨book, by rw [← same, identity, found], matched⟩
  · rintro ⟨book, found, matched⟩
    exact ⟨book, List.mem_filter.mpr ⟨(Dict.mem_values_iff _ _).mpr ⟨isbn, found⟩, matched⟩,
      keyed isbn book found⟩

private theorem isbns_scan_nodup {available : Book → Bool} {books : Dict String Book}
    (keyed : ∀ isbn book, books.get? isbn = some book → book.isbn = isbn) :
    ((scanMatches rules available query filters books).map Book.isbn).Nodup := by
  refine List.Nodup.sublist (List.filter_sublist.map Book.isbn) ?_
  rw [Dict.map_values keyed]
  exact books.keysNodup

end Matching

section Search

variable {rules : TextRules} {log : ℚ → ℚ} {state : Catalogue} {query : String}
  {filters : SearchFilters} {order : List String}

/-- The results of a search, as long as the limit of the index does not cut them. -/
theorem isbns_search (catalogued : Catalogued rules state)
    (enumerates : Enumerates (state.index.candidates (rules.tokenize query)) order) :
    ∃ ranked : List String,
      ((state.search rules log query filters order).map fun result => result.book.isbn) =
        ranked.take 20 ∧
      ranked.Perm ((scanMatches rules (Book.isAvailable .empty) query filters
        state.index.books).map Book.isbn) := by
  refine ⟨(state.index.ranking rules log (Book.isAvailable .empty) query filters order).map
    fun hit => hit.book.isbn, ?_, ?_⟩
  · rw [Catalogue.search, searchBooks_eq, List.map_map, List.map_take]
    rfl
  · have perm := (@Indexes.ranking_perm rules state.index _ log (Book.isAvailable .empty) query
      filters catalogued.indexes order enumerates).map Book.isbn
    rwa [List.map_map] at perm

private theorem mem_search (catalogued : Catalogued rules state)
    (enumerates : Enumerates (state.index.candidates (rules.tokenize query)) order)
    {result : SearchResult} (member : result ∈ state.search rules log query filters order) :
    ∃ book, state.index.books.get? book.isbn = some book ∧
      matchesQuery rules (Book.isAvailable .empty) query filters book = true ∧
      result.book = book.toDict .empty := by
  rw [Catalogue.search, searchBooks_eq] at member
  obtain ⟨hit, taken, same⟩ := List.mem_map.mp member
  have ranked := List.mem_map_of_mem (f := SearchHit.book) (List.mem_of_mem_take taken)
  have perm := @Indexes.ranking_perm rules state.index _ log (Book.isAvailable .empty) query
    filters catalogued.indexes order enumerates
  obtain ⟨listed, matched⟩ := List.mem_filter.mp (perm.subset ranked)
  exact ⟨hit.book, catalogued.indexes.get?_isbn listed, matched, by rw [← same]⟩

private theorem mem_matching {row : Book} : row ∈ state.matching rules query filters ↔
    state.system.tables.books.get? row.isbn = some row ∧
      matchesQuery rules (fun _ => true) query { filters with onlyAvailable := true } row = true := by
  rw [Catalogue.matching, scanMatches, List.mem_filter, Dict.mem_values_iff]
  constructor
  · rintro ⟨⟨isbn, found⟩, matched⟩
    have identity := state.system.tables.books.keyed isbn row found
    exact ⟨by rw [identity]; exact found, matched⟩
  · rintro ⟨found, matched⟩
    exact ⟨⟨row.isbn, found⟩, matched⟩

private theorem mem_availableMatches {row : Book} :
    row ∈ state.availableMatches rules query filters ↔
      row ∈ state.matching rules query filters ∧
        state.system.tables.isAvailable row.isbn = true := by
  rw [Catalogue.availableMatches, Catalogue.matching, scanMatches, scanMatches, List.mem_filter,
    List.mem_filter, matchesQuery_onlyAvailable, and_assoc]

/-- A title that is found as available is available in the index. -/
theorem TruthfulSearch.found (truthful : TruthfulSearch rules log state query filters order)
    (catalogued : Catalogued rules state)
    (enumerates : Enumerates (state.index.candidates (rules.tokenize query)) order) {row : Book}
    (member : row ∈ state.availableMatches rules query filters) :
    ∃ book, state.index.books.get? row.isbn = some book ∧ book.isAvailable .empty = true := by
  have listed := truthful.available.symm.subset (List.mem_map_of_mem (f := Book.isbn) member)
  obtain ⟨result, shown, identity⟩ := List.mem_map.mp listed
  obtain ⟨book, found, matched, same⟩ := mem_search catalogued enumerates shown
  rw [← identity, same]
  exact ⟨book, found, (matchesQuery_onlyAvailable.mp matched).2⟩

theorem IndexSuffices.of_truthful (catalogued : Catalogued rules state)
    (enumerates : Enumerates (state.index.candidates (rules.tokenize query)) order)
    (truthful : TruthfulSearch rules log state query filters order) :
    IndexSuffices rules state query filters := by
  constructor
  · intro row member
    obtain ⟨book, found, _⟩ := truthful.found catalogued enumerates member
    exact (Dict.contains_iff _ _).mpr ⟨book, found⟩
  · intro row member registered
    rw [← Bool.not_eq_true]
    intro unseen
    obtain ⟨book, found⟩ := (Dict.contains_iff _ _).mp registered
    obtain ⟨stored, _⟩ := mem_matching.mp member
    obtain ⟨kept, present, saved⟩ := catalogued.saved _ _ found
    rw [stored, Option.some.injEq] at present
    subst present
    obtain ⟨available, unavailable⟩ := saved.overlooked stored unseen
    obtain ⟨other, again, shown⟩ :=
      truthful.found catalogued enumerates (mem_availableMatches.mpr ⟨member, available⟩)
    rw [found, Option.some.injEq] at again
    subst again
    rw [unavailable] at shown
    cases shown
  · obtain ⟨ranked, results, _⟩ := @isbns_search rules log state query
      { filters with onlyAvailable := true } order catalogued enumerates
    have length := truthful.available.length_eq
    rw [results, List.length_take, List.length_map] at length
    omega

/-- The two views of a title that matches. -/
theorem IndexSuffices.agree (enough : IndexSuffices rules state query filters)
    (catalogued : Catalogued rules state) {isbn : String} {book : Book}
    (found : state.index.books.get? isbn = some book)
    (matched : matchesQuery rules (fun _ => true) query { filters with onlyAvailable := true }
      book = true) :
    (state.system.tables.details isbn).map availability =
      some (availability (book.toDict .empty)) := by
  obtain ⟨row, stored, saved⟩ := catalogued.saved isbn book found
  have key := Table.key_of_get? stored
  have same : matchesQuery rules (fun _ => true) query { filters with onlyAvailable := true } row =
      matchesQuery rules (fun _ => true) query { filters with onlyAvailable := true } book :=
    saved.matchesQuery_eq rfl
  refine saved.view stored (enough.seen row ?_ ?_)
  · exact mem_matching.mpr ⟨key ▸ stored, same.trans matched⟩
  · exact (Dict.contains_iff _ _).mpr ⟨book, key ▸ found⟩

theorem IndexSuffices.truthful (catalogued : Catalogued rules state)
    (enumerates : Enumerates (state.index.candidates (rules.tokenize query)) order)
    (enough : IndexSuffices rules state query filters) :
    TruthfulSearch rules log state query filters order := by
  have perm : ((scanMatches rules (Book.isAvailable .empty) query
      { filters with onlyAvailable := true } state.index.books).map Book.isbn).Perm
      ((state.availableMatches rules query filters).map Book.isbn) := by
    refine (List.perm_ext_iff_of_nodup (isbns_scan_nodup catalogued.indexes.keyed)
      (isbns_scan_nodup state.system.tables.books.keyed)).mpr ?_
    intro isbn
    rw [mem_isbns_scan catalogued.indexes.keyed,
      mem_isbns_scan state.system.tables.books.keyed]
    constructor
    · rintro ⟨book, found, matched⟩
      have both := isAvailable_eq
        (enough.agree catalogued found (matchesQuery_onlyAvailable.mp matched).1)
      obtain ⟨row, stored, saved⟩ := catalogued.saved isbn book found
      refine ⟨row, stored, (saved.matchesQuery_eq ?_).trans matched⟩
      rw [Table.key_of_get? stored, both]
      rfl
    · rintro ⟨row, stored, matched⟩
      have key := Table.key_of_get? stored
      have member : row ∈ state.availableMatches rules query filters :=
        List.mem_filter.mpr ⟨(Dict.mem_values_iff _ _).mpr ⟨isbn, stored⟩, matched⟩
      obtain ⟨book, found⟩ := (Dict.contains_iff _ _).mp (enough.known row member)
      rw [key] at found
      obtain ⟨kept, present, saved⟩ := catalogued.saved isbn book found
      have same : some row = some kept := stored.symm.trans present
      cases same
      have text : matchesQuery rules (fun _ => true) query { filters with onlyAvailable := true }
          row = matchesQuery rules (fun _ => true) query { filters with onlyAvailable := true }
          book := saved.matchesQuery_eq rfl
      have both := isAvailable_eq (enough.agree catalogued found
        (text.symm.trans (matchesQuery_onlyAvailable.mp matched).1))
      refine ⟨book, found, (saved.matchesQuery_eq ?_).symm.trans matched⟩
      rw [key, both]
      rfl
  constructor
  · obtain ⟨ranked, results, ranking⟩ := @isbns_search rules log state query
      { filters with onlyAvailable := true } order catalogued enumerates
    have all := ranking.trans perm
    have few : ranked.length ≤ 20 := by
      rw [all.length_eq, List.length_map]
      exact enough.few
    rw [results, List.take_of_length_le few]
    exact all
  · intro onlyAvailable result member
    obtain ⟨book, found, matched, same⟩ := mem_search catalogued enumerates member
    rw [same]
    exact enough.agree catalogued found (matchesQuery_matching matched)

end Search

/-- In every state that one process reaches, a search tells what the database has
exactly when the index suffices for it. -/
theorem run_truthfulSearch_iff (rules : TextRules) (log : ℚ → ℚ) (tickets : Nat → Ticket)
    (tables : Tables) (processes : Nat → Process)
    {trace : List (Transition Catalogue CatalogueAction)} {state : Catalogue}
    (run : Run (CatalogueStep rules tickets) (.start tables processes) trace state)
    (query : String) (filters : SearchFilters) {order : List String}
    (enumerates : Enumerates (state.index.candidates (rules.tokenize query)) order) :
    TruthfulSearch rules log state query filters order ↔
      IndexSuffices rules state query filters := by
  have catalogued := run_catalogued run
  exact ⟨.of_truthful catalogued enumerates, IndexSuffices.truthful catalogued enumerates⟩

/-- A talking book that a process registers beside a title without copies. -/
def newTitles : List CatalogueAction :=
  [.register "audiobook" { isbn := some "B2", title := some "Type Theory" },
    .register "physical" { isbn := some "B3", title := some "Set Theory" }]

/-- The talking book is found and the other title is shown as it is. -/
theorem run_truthfulSearch_iff_new_titles :
    ∃ state : Catalogue, TruthfulSearch asciiRules logFourThirds state "theory" {} ["B2", "B3"] ∧
      (state.search asciiRules logFourThirds "theory" { onlyAvailable := true } ["B2", "B3"]).map
        (fun result => result.book.isbn) = ["B2"] := by
  have replayed : (Run.replay (Catalogue.exec asciiRules fun _ => ⟨0, .min, .details "B1"⟩)
      (fun _ _ => true) (.start smallLibrary fun _ => freshProcess) newTitles).map (fun state =>
        ((state.availableMatches asciiRules "theory" {}).all
            fun row => state.index.books.contains row.isbn) &&
          ((state.matching asciiRules "theory" {}).all fun row =>
            !overlooked state.system.tables row) &&
          decide ((state.availableMatches asciiRules "theory" {}).length ≤ 20) &&
          decide (state.index.candidates (asciiRules.tokenize "theory") = {"B2", "B3"}) &&
          decide ((state.search asciiRules logFourThirds "theory" { onlyAvailable := true }
            ["B2", "B3"]).map (fun result => result.book.isbn) = ["B2"])) = some true := by
    decide +kernel
  obtain ⟨state, ran, checked⟩ := Option.map_eq_some_iff.mp replayed
  obtain ⟨trace, run, _, _⟩ := Run.of_replay ran
  simp only [Bool.and_eq_true, List.all_eq_true, Bool.not_eq_true', decide_eq_true_eq] at checked
  obtain ⟨⟨⟨⟨known, seen⟩, few⟩, candidates⟩, results⟩ := checked
  have enumerates : Enumerates (state.index.candidates (asciiRules.tokenize "theory"))
      ["B2", "B3"] := by
    rw [candidates]
    exact ⟨by decide, by simp⟩
  have enough : IndexSuffices asciiRules state "theory" {} :=
    ⟨known, fun row member _ => seen row member, few⟩
  exact ⟨state, (run_truthfulSearch_iff asciiRules logFourThirds _ _ _ run "theory" {}
    enumerates).mpr enough, results⟩

/-- A title is registered, and a copy of it is put on the shelf. -/
def newCopy : List CatalogueAction :=
  .register "physical" { isbn := some "B2", title := some "Type Theory" } ::
    List.replicate 5 (.serve (.advance 0)) ++ [.resave "B2"]

def stocksOne (_ : Nat) : Ticket := ⟨0, .min, .addCopy "B2" "C3" "DELHI" "A1-01" 500⟩

/-- The copy is on the shelf, and a search for available titles does not find it. -/
theorem stocked_title_is_not_found :
    ∃ (trace : List (Transition Catalogue CatalogueAction)) (state : Catalogue),
      Run (CatalogueStep asciiRules stocksOne) (.start smallLibrary fun _ => freshProcess) trace
        state ∧
      state.system.tables.isAvailable "B2" = true ∧
      ∀ log order, Enumerates (state.index.candidates (asciiRules.tokenize "theory")) order →
        ¬ TruthfulSearch asciiRules log state "theory" {} order := by
  have replayed : (Run.replay (Catalogue.exec asciiRules stocksOne) (fun _ _ => true)
      (.start smallLibrary fun _ => freshProcess) newCopy).map (fun state =>
        (state.system.tables.isAvailable "B2",
          (state.availableMatches asciiRules "theory" {}).map Book.isbn,
          (state.index.books.get? "B2").map (Book.isAvailable .empty))) =
        some (true, ["B2"], some false) := by
    decide +kernel
  obtain ⟨state, ran, shown⟩ := Option.map_eq_some_iff.mp replayed
  obtain ⟨trace, run, _, _⟩ := Run.of_replay ran
  simp only [Prod.mk.injEq] at shown
  obtain ⟨available, matched, hidden⟩ := shown
  refine ⟨trace, state, run, available, ?_⟩
  intro log order enumerates truthful
  have listed : "B2" ∈ (state.availableMatches asciiRules "theory" {}).map Book.isbn := by
    rw [matched]
    exact List.mem_singleton.mpr rfl
  obtain ⟨row, member, isbn⟩ := List.mem_map.mp listed
  obtain ⟨book, found, visible⟩ := truthful.found (run_catalogued run) enumerates member
  rw [isbn] at found
  rw [found, Option.map_some, visible] at hidden
  cases hidden

end LibraFlow.Postgres
