import LibraFlow.Dsa.InvertedIndex

/-! The inverted index against a linear scan of the catalogue. Indexing clears what
an earlier version of a title left behind and removal clears everything, so the
maps of the index are those of an index built afresh from the current titles. -/

set_option autoImplicit false

namespace LibraFlow.Dsa

open LibraFlow.Core LibraFlow.Library

inductive IndexOperation where
  | indexBook (book : Book)
  | removeBook (isbn : String)

def IndexOperation.exec (rules : TextRules) (self : InvertedIndex) : IndexOperation → InvertedIndex
  | indexBook book => self.indexBook rules book
  | removeBook isbn => self.removeBook isbn

/-- The current titles after some operations. -/
def catalogue (operations : List IndexOperation) : Dict String Book :=
  operations.foldl (fun books operation => match operation with
    | .indexBook book => books.set book.isbn book
    | .removeBook isbn => books.erase isbn) .empty

/-- How often a title contains a term, if it does. -/
def termCount (rules : TextRules) (book : Book) (term : String) : Option Nat :=
  if term ∈ bookTokens rules book then some ((bookTokens rules book).count term) else none

/-- The maps of the index describe these titles. -/
structure Indexes (rules : TextRules) (maps : InvertedIndex) (books : Dict String Book) : Prop where
  titles : maps.books = books
  keyed : ∀ isbn book, books.get? isbn = some book → book.isbn = isbn
  postings : ∀ term isbn, isbn ∈ maps.postings term ↔
    ∃ book, books.get? isbn = some book ∧ term ∈ bookTokens rules book
  frequencies : ∀ isbn term, (maps.frequencies isbn).get? term =
    (books.get? isbn).bind fun book => termCount rules book term
  lengths : ∀ isbn, maps.docLengths.get? isbn =
    (books.get? isbn).map fun book => (bookTokens rules book).length

namespace InvertedIndex

section Postings

variable {isbn : String}

/-- The titles under a term; a missing term has none. -/
def listed (index : Dict String (Finset String)) (term : String) : Finset String :=
  (index.get? term).getD ∅

private theorem listed_set (index : Dict String (Finset String)) (term other : String)
    (titles : Finset String) :
    listed (index.set term titles) other = if term = other then titles else listed index other := by
  unfold listed
  rw [Dict.get?_set]
  split <;> rfl

private theorem mem_listed_post {index : Dict String (Finset String)} {term other title : String} :
    title ∈ listed (post isbn index term) other ↔
      (title = isbn ∧ other = term) ∨ title ∈ listed index other := by
  rw [post, listed_set]
  split
  · next same =>
      subst other
      simp [listed]
  · next different => simp [Ne.symm different]

private theorem mem_listed_foldl_post {tokens : List String} {index : Dict String (Finset String)}
    {other title : String} :
    title ∈ listed (tokens.foldl (post isbn) index) other ↔
      (title = isbn ∧ other ∈ tokens) ∨ title ∈ listed index other := by
  induction tokens generalizing index with
  | nil => simp
  | cons token rest ih =>
      rw [List.foldl_cons, ih, mem_listed_post, List.mem_cons]
      tauto

private theorem mem_listed_discard {index : Dict String (Finset String)}
    {term other title : String} :
    title ∈ listed (discard isbn index term) other ↔
      title ∈ listed index other ∧ ¬ (title = isbn ∧ other = term) := by
  rw [discard, listed_set]
  split
  · next same =>
      subst other
      simp [listed, and_comm]
  · next different => simp [Ne.symm different]

private theorem mem_listed_retract {index : Dict String (Finset String)}
    {term other title : String} :
    title ∈ listed (retract isbn index term) other ↔
      title ∈ listed index other ∧ ¬ (title = isbn ∧ other = term) := by
  unfold retract
  cases found : index.get? term with
  | none =>
      simp only
      constructor
      · intro member
        refine ⟨member, ?_⟩
        rintro ⟨_, same⟩
        subst other
        simp [listed, found] at member
      · exact fun both => both.1
  | some titles =>
      have before : listed index term = titles := by simp [listed, found]
      by_cases alone : titles.erase isbn = ∅
      · simp only [alone, ↓reduceIte]
        by_cases same : term = other
        · subst other
          rw [before]
          have gone : listed (index.erase term) term = ∅ := by simp [listed, Dict.get?_erase]
          rw [gone]
          constructor
          · exact fun member => absurd member (Finset.notMem_empty title)
          · rintro ⟨member, different⟩
            have left : title ∈ titles.erase isbn :=
              Finset.mem_erase.mpr ⟨fun equal => different ⟨equal, rfl⟩, member⟩
            rw [alone] at left
            exact left
        · simp [listed, Dict.get?_erase, same, Ne.symm same]
      · simp only [alone, ↓reduceIte]
        rw [listed_set]
        split
        · next same =>
            subst other
            rw [before]
            simp [and_comm]
        · next different => simp [Ne.symm different]

/-- Taking a title off one term after another takes it off all of them. -/
theorem mem_listed_foldl {takeOff : Dict String (Finset String) → String →
      Dict String (Finset String)}
    (takesOff : ∀ index term other title, title ∈ listed (takeOff index term) other ↔
      title ∈ listed index other ∧ ¬ (title = isbn ∧ other = term))
    {terms : List String} {index : Dict String (Finset String)} {other title : String} :
    title ∈ listed (terms.foldl takeOff index) other ↔
      title ∈ listed index other ∧ ¬ (title = isbn ∧ other ∈ terms) := by
  induction terms generalizing index with
  | nil => simp
  | cons term rest ih =>
      rw [List.foldl_cons, ih, takesOff, List.mem_cons]
      tauto

end Postings

private theorem get?_foldl_countTerm (tokens : List String) (frequencies : Dict String Nat)
    (term : String) :
    (tokens.foldl countTerm frequencies).get? term =
      if term ∈ tokens then some ((frequencies.get? term).getD 0 + tokens.count term)
      else frequencies.get? term := by
  induction tokens generalizing frequencies with
  | nil => simp
  | cons token rest ih =>
      rw [List.foldl_cons, ih, countTerm, Dict.get?_set]
      by_cases same : token = term
      · subst token
        by_cases later : term ∈ rest
        · simp [later]
          omega
        · simp [later, List.count_eq_zero_of_not_mem later]
      · simp [same, Ne.symm same]

end InvertedIndex

namespace Indexes

open InvertedIndex

variable {rules : TextRules} {self : InvertedIndex} {books : Dict String Book}

/-- The stored terms of a title are the terms it contains. -/
theorem mem_keys_iff (indexes : Indexes rules self books) {isbn term : String} :
    term ∈ (self.frequencies isbn).keys ↔ isbn ∈ self.postings term := by
  rw [Dict.mem_keys_iff, indexes.postings]
  simp only [indexes.frequencies]
  cases books.get? isbn with
  | none => simp
  | some book =>
      by_cases contained : term ∈ bookTokens rules book <;> simp [termCount, contained]

/-- Clearing the stored terms of a title takes it off every term. -/
theorem cleared (indexes : Indexes rules self books) {isbn : String}
    {takeOff : Dict String (Finset String) → String → Dict String (Finset String)}
    (takesOff : ∀ index term other title, title ∈ listed (takeOff index term) other ↔
      title ∈ listed index other ∧ ¬ (title = isbn ∧ other = term)) {term title : String} :
    title ∈ listed ((self.frequencies isbn).keys.foldl takeOff self.index) term ↔
      title ≠ isbn ∧ title ∈ self.postings term := by
  rw [mem_listed_foldl takesOff, indexes.mem_keys_iff]
  change title ∈ self.postings term ∧ _ ↔ _
  constructor
  · rintro ⟨member, kept⟩
    refine ⟨?_, member⟩
    intro same
    subst isbn
    exact kept ⟨rfl, member⟩
  · rintro ⟨different, member⟩
    exact ⟨member, fun both => different both.1⟩

theorem indexBook (indexes : Indexes rules self books) (book : Book) :
    Indexes rules (self.indexBook rules book) (books.set book.isbn book) := by
  constructor
  · simp only [InvertedIndex.indexBook, indexes.titles]
  · intro isbn stored found
    rw [Dict.get?_set] at found
    split at found
    · next same =>
        cases found
        exact same
    · exact indexes.keyed isbn stored found
  · intro term isbn
    have posted : isbn ∈ (self.indexBook rules book).postings term ↔
        (isbn = book.isbn ∧ term ∈ bookTokens rules book) ∨
          (isbn ≠ book.isbn ∧ isbn ∈ self.postings term) :=
      mem_listed_foldl_post.trans (or_congr Iff.rfl
        (indexes.cleared fun _ _ _ _ => mem_listed_discard))
    rw [posted, indexes.postings, Dict.get?_set]
    by_cases same : book.isbn = isbn
    · simp [same]
    · simp [same, Ne.symm same]
  · intro isbn term
    simp only [InvertedIndex.indexBook, InvertedIndex.frequencies, Dict.get?_set]
    split
    · simp [get?_foldl_countTerm, termCount]
    · exact indexes.frequencies isbn term
  · intro isbn
    simp only [InvertedIndex.indexBook, Dict.get?_set]
    split
    · rfl
    · exact indexes.lengths isbn

theorem removeBook (indexes : Indexes rules self books) (isbn : String) :
    Indexes rules (self.removeBook isbn) (books.erase isbn) := by
  constructor
  · simp only [InvertedIndex.removeBook, indexes.titles]
  · intro other stored found
    rw [Dict.get?_erase] at found
    split at found
    · cases found
    · exact indexes.keyed other stored found
  · intro term title
    have retracted : title ∈ (self.removeBook isbn).postings term ↔
        title ≠ isbn ∧ title ∈ self.postings term :=
      indexes.cleared fun _ _ _ _ => mem_listed_retract
    rw [retracted, indexes.postings, Dict.get?_erase]
    by_cases same : isbn = title
    · simp [same]
    · simp [same, Ne.symm same]
  · intro other term
    simp only [InvertedIndex.removeBook, InvertedIndex.frequencies, Dict.get?_erase]
    split
    · simp
    · exact indexes.frequencies other term
  · intro other
    simp only [InvertedIndex.removeBook, Dict.get?_erase]
    split
    · rfl
    · exact indexes.lengths other

theorem exec (indexes : Indexes rules self books) (operation : IndexOperation) :
    Indexes rules (operation.exec rules self) (match operation with
      | .indexBook book => books.set book.isbn book
      | .removeBook isbn => books.erase isbn) := by
  cases operation with
  | indexBook book => exact indexes.indexBook book
  | removeBook isbn => exact indexes.removeBook isbn

end Indexes

theorem indexes_empty (rules : TextRules) : Indexes rules .empty .empty := by
  constructor <;> simp [InvertedIndex.empty, InvertedIndex.postings, InvertedIndex.frequencies]

/-- After any operations the index describes the current titles. -/
theorem indexes_run (rules : TextRules) (operations : List IndexOperation) :
    Indexes rules (operations.foldl (IndexOperation.exec rules) .empty) (catalogue operations) := by
  have run : ∀ self books, Indexes rules self books →
      Indexes rules (operations.foldl (IndexOperation.exec rules) self)
        (operations.foldl (fun books operation => match operation with
          | .indexBook book => books.set book.isbn book
          | .removeBook isbn => books.erase isbn) books) := by
    induction operations with
    | nil => exact fun self books indexes => indexes
    | cons operation rest ih =>
        intro self books indexes
        exact ih _ _ (indexes.exec operation)
  exact run .empty .empty (indexes_empty rules)

section Rebuild

private theorem entries_foldl_set (remaining : List (String × Book)) (books : Dict String Book)
    (keyed : ∀ entry ∈ remaining, entry.2.isbn = entry.1)
    (distinct : (books.keys ++ remaining.map Prod.fst).Nodup) :
    ((remaining.map Prod.snd).foldl (fun known book => known.set book.isbn book) books).entries =
      books.entries ++ remaining := by
  induction remaining generalizing books with
  | nil => simp
  | cons entry rest ih =>
      have identity := keyed entry List.mem_cons_self
      have fresh : books.get? entry.2.isbn = none := by
        rw [Option.eq_none_iff_forall_ne_some]
        intro book found
        rw [identity] at found
        have member : entry.1 ∈ books.keys := (Dict.mem_keys_iff _ _).mpr ⟨book, found⟩
        exact (List.nodup_append.mp distinct).2.2 entry.1 member entry.1 (by simp) rfl
      have entries := Dict.entries_set_fresh books entry.2 fresh
      rw [identity] at entries
      have keys : (books.set entry.1 entry.2).keys = books.keys ++ [entry.1] := by
        rw [Dict.keys, entries, List.map_append]
        rfl
      rw [List.map_cons, List.foldl_cons, identity, ih]
      · rw [entries, List.append_assoc]
        rfl
      · intro other member
        exact keyed other (List.mem_cons_of_mem _ member)
      · rw [keys, List.append_assoc]
        exact distinct

/-- Titles stored one by one under their own key give back the same map. -/
theorem foldl_set_values {books : Dict String Book}
    (keyed : ∀ isbn book, books.get? isbn = some book → book.isbn = isbn) :
    books.values.foldl (fun known book => known.set book.isbn book) .empty = books := by
  apply Dict.ext
  rw [Dict.values, entries_foldl_set]
  · rfl
  · intro entry member
    exact keyed entry.1 entry.2 ((Dict.get?_eq_some_iff _ _ _).mpr member)
  · exact books.keysNodup

end Rebuild

/-- The index built afresh from some titles. -/
def freshIndex (rules : TextRules) (books : Dict String Book) : InvertedIndex :=
  books.values.foldl (InvertedIndex.indexBook rules) .empty

/-- Two indexes that answer every lookup alike; a missing posting is an empty one. -/
structure SameMaps (left right : InvertedIndex) : Prop where
  books : left.books = right.books
  postings : ∀ term, left.postings term = right.postings term
  frequencies : ∀ isbn term,
    (left.frequencies isbn).get? term = (right.frequencies isbn).get? term
  lengths : ∀ isbn, left.docLengths.get? isbn = right.docLengths.get? isbn

theorem Indexes.sameMaps {rules : TextRules} {left right : InvertedIndex}
    {books : Dict String Book} (leftIndexes : Indexes rules left books)
    (rightIndexes : Indexes rules right books) : SameMaps left right where
  books := leftIndexes.titles.trans rightIndexes.titles.symm
  postings term := by
    ext isbn
    rw [leftIndexes.postings, rightIndexes.postings]
  frequencies isbn term := by rw [leftIndexes.frequencies, rightIndexes.frequencies]
  lengths isbn := by rw [leftIndexes.lengths, rightIndexes.lengths]

theorem indexes_freshIndex (rules : TextRules) {books : Dict String Book}
    (keyed : ∀ isbn book, books.get? isbn = some book → book.isbn = isbn) :
    Indexes rules (freshIndex rules books) books := by
  have run := indexes_run rules (books.values.map .indexBook)
  simp only [catalogue, List.foldl_map] at run
  rw [foldl_set_values keyed] at run
  exact run

end LibraFlow.Dsa
