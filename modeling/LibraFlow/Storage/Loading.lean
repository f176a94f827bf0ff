import LibraFlow.Storage.InMemoryProperties

/-! Filling the in-memory repository with a set of titles and a set of copies:
every title lists its copies, in the order they were stored. -/

set_option autoImplicit false

namespace LibraFlow.Core.Book

open LibraFlow.Library

/-- The title as it is before any copy is added to it. -/
def withoutCopies (book : Book) : Book :=
  match book.edition with
  | .physical weightGrams pageCount _ => { book with edition := .physical weightGrams pageCount .empty }
  | _ => book

private theorem isbn_withoutCopies (book : Book) : book.withoutCopies.isbn = book.isbn := by
  unfold withoutCopies
  split <;> rfl

private theorem copies?_withoutCopies (book : Book) :
    book.withoutCopies.copies? = book.copies?.map fun _ => .empty := by
  unfold withoutCopies copies?
  cases edition : book.edition <;> simp [edition]

end LibraFlow.Core.Book

namespace LibraFlow.Storage.BookRepository

open LibraFlow.Core LibraFlow.Library

/-- Make a copy object and save it. -/
def storeCopy (repository : BookRepository) (copy : BookCopy) : BookRepository :=
  { repository with objects := repository.objects.alloc copy }.saveCopy repository.objects.next

/-- Save titles, then copies. -/
def load (titles : List Book) (copies : List BookCopy) : BookRepository :=
  copies.foldl storeCopy
    (titles.foldl (fun repository title => repository.saveBook title.withoutCopies) empty)

/-- A stored title lists exactly its copies among those stored so far. -/
structure Assembled (objects : Heap BookCopy) (stored : List BookCopy) (title book : Book) :
    Prop where
  isbn : book.isbn = title.isbn
  format : book.copies?.isSome = title.copies?.isSome
  keys : ∀ listed copyId ref, book.copies? = some listed → listed.get? copyId = some ref →
    copyId ∈ stored.map BookCopy.copyId ∧ ref < objects.next
  copies : ∀ listed, book.copies? = some listed →
    Book.copyObjects objects listed = stored.filter fun copy => copy.bookIsbn = title.isbn

/-- The stored titles, in order, each under its own key. -/
def Filled (titles : List Book) (stored : List BookCopy) (repository : BookRepository) : Prop :=
  List.Forall₂ (fun title entry => entry.1 = title.isbn ∧
    Assembled repository.objects stored title entry.2) titles repository.books.entries

namespace Assembled

variable {objects : Heap BookCopy} {stored : List BookCopy} {title book : Book} {copy : BookCopy}

theorem blank (objects : Heap BookCopy) (title : Book) :
    Assembled objects [] title title.withoutCopies := by
  have nothing : ∀ listed, title.withoutCopies.copies? = some listed → listed = .empty := by
    intro listed edition
    rw [Book.copies?_withoutCopies, Option.map_eq_some_iff] at edition
    obtain ⟨_, _, rfl⟩ := edition
    rfl
  refine ⟨title.isbn_withoutCopies, ?_, ?_, ?_⟩
  · rw [Book.copies?_withoutCopies, Option.isSome_map]
  · intro listed copyId ref edition member
    rw [nothing listed edition] at member
    cases member
  · intro listed edition
    rw [nothing listed edition]
    rfl

private theorem copyObjects_alloc (assembled : Assembled objects stored title book)
    {listed : Dict String Ref} (edition : book.copies? = some listed) (copy : BookCopy) :
    Book.copyObjects (objects.alloc copy) listed = Book.copyObjects objects listed := by
  unfold Book.copyObjects
  apply List.filterMap_congr
  intro ref member
  obtain ⟨copyId, held⟩ := (Dict.mem_values_iff listed ref).mp member
  have older := (assembled.keys listed copyId ref edition held).2
  rw [Heap.read?_alloc, if_neg (Nat.ne_of_lt older)]

/-- A copy of another title changes nothing for this one. -/
theorem other (assembled : Assembled objects stored title book)
    (different : copy.bookIsbn ≠ title.isbn) :
    Assembled (objects.alloc copy) (stored ++ [copy]) title book := by
  refine ⟨assembled.isbn, assembled.format, ?_, ?_⟩
  · intro listed copyId ref edition member
    obtain ⟨known, older⟩ := assembled.keys listed copyId ref edition member
    rw [Heap.next_alloc, List.map_append]
    exact ⟨List.mem_append_left _ known, Nat.lt_succ_of_lt older⟩
  · intro listed edition
    rw [assembled.copyObjects_alloc edition, assembled.copies listed edition, List.filter_append]
    simp [different]

/-- A new copy of the title goes to the end of its list. -/
theorem own (assembled : Assembled objects stored title book)
    (same : copy.bookIsbn = title.isbn) (fresh : copy.copyId ∉ stored.map BookCopy.copyId) :
    Assembled (objects.alloc copy) (stored ++ [copy]) title
      (book.addCopy copy.copyId objects.next) := by
  refine ⟨(Book.isbn_addCopy _ _ _).trans assembled.isbn, ?_, ?_, ?_⟩
  · rw [Book.copies?_addCopy, Option.isSome_map, assembled.format]
  · intro listed copyId ref edition member
    rw [Book.copies?_addCopy, Option.map_eq_some_iff] at edition
    obtain ⟨old, oldEdition, rfl⟩ := edition
    rw [Heap.next_alloc, List.map_append]
    rw [Dict.get?_set] at member
    split at member
    · next equal =>
        cases member
        exact ⟨by simp [equal], Nat.lt_succ_self _⟩
    · obtain ⟨known, older⟩ := assembled.keys old copyId ref oldEdition member
      exact ⟨List.mem_append_left _ known, Nat.lt_succ_of_lt older⟩
  · intro listed edition
    rw [Book.copies?_addCopy, Option.map_eq_some_iff] at edition
    obtain ⟨old, oldEdition, rfl⟩ := edition
    have absent : old.get? copy.copyId = none := by
      cases held : old.get? copy.copyId with
      | none => rfl
      | some ref => exact absurd (assembled.keys old copy.copyId ref oldEdition held).1 fresh
    have older := assembled.copyObjects_alloc oldEdition copy
    unfold Book.copyObjects at older ⊢
    rw [Dict.values_set_fresh old _ absent, List.filterMap_append, older,
      List.filter_append]
    rw [show old.values.filterMap objects.read? = _ from assembled.copies old oldEdition]
    simp [same]

end Assembled

variable {titles : List Book} {stored : List BookCopy} {repository : BookRepository}

theorem Filled.keys (filled : Filled titles stored repository) :
    repository.books.keys = titles.map Book.isbn := by
  unfold Filled at filled
  unfold Dict.keys
  generalize repository.books.entries = entries at filled
  induction filled with
  | nil => rfl
  | cons same _ ih => rw [List.map_cons, List.map_cons, same.1, ih]

theorem Filled.storeCopy (filled : Filled titles stored repository) {copy : BookCopy}
    (fresh : copy.copyId ∉ stored.map BookCopy.copyId) :
    Filled titles (stored ++ [copy]) (repository.storeCopy copy) := by
  have read : (repository.objects.alloc copy).read? repository.objects.next = some copy :=
    Heap.read?_alloc_next _ _
  unfold BookRepository.storeCopy BookRepository.saveCopy
  simp only [read]
  cases parent : repository.books.get? copy.bookIsbn with
  | none =>
      simp only [Filled]
      -- no stored title is the copy's, so each title stays as it is
      have elsewhere : ∀ title ∈ titles, copy.bookIsbn ≠ title.isbn := by
        intro title member same
        have listed : copy.bookIsbn ∈ repository.books.keys := by
          rw [filled.keys, same]
          exact List.mem_map_of_mem member
        obtain ⟨book, held⟩ := (Dict.mem_keys_iff _ _).mp listed
        rw [parent] at held
        cases held
      have both := (List.forall₂_and_left titles _).mpr ⟨elsewhere, filled⟩
      exact both.imp fun title entry holds => ⟨holds.2.1, holds.2.2.other holds.1⟩
  | some book =>
      simp only [Filled]
      have present : copy.bookIsbn ∈ repository.books.keys :=
        (Dict.mem_keys_iff _ _).mpr ⟨book, parent⟩
      have entries : (repository.books.set copy.bookIsbn
          (book.addCopy copy.copyId repository.objects.next)).entries =
          repository.books.entries.map fun entry => if entry.1 = copy.bookIsbn then
            (entry.1, entry.2.addCopy copy.copyId repository.objects.next) else entry := by
        rw [Dict.entries_set_present _ _ present]
        apply List.map_congr_left
        rintro ⟨isbn, stored⟩ member
        by_cases same : isbn = copy.bookIsbn
        · have held := (Dict.get?_eq_some_iff _ _ _).mpr member
          rw [same, parent, Option.some.injEq] at held
          simp [same, held]
        · simp [same]
      rw [entries, List.forall₂_map_right_iff]
      refine filled.imp ?_
      rintro title ⟨isbn, listed⟩ ⟨key, assembled⟩
      by_cases same : isbn = copy.bookIsbn
      · simp only [same, ↓reduceIte]
        exact ⟨same ▸ key, assembled.own (same ▸ key) fresh⟩
      · simp only [same, ↓reduceIte]
        exact ⟨key, assembled.other fun equal => same (key.trans equal.symm)⟩

theorem Filled.storeCopies (copies : List BookCopy) (filled : Filled titles stored repository)
    (distinct : ((stored ++ copies).map BookCopy.copyId).Nodup) :
    Filled titles (stored ++ copies) (copies.foldl BookRepository.storeCopy repository) := by
  induction copies generalizing stored repository with
  | nil => simpa using filled
  | cons copy rest ih =>
      have fresh : copy.copyId ∉ stored.map BookCopy.copyId := by
        intro known
        rw [List.map_append, List.nodup_append] at distinct
        exact distinct.2.2 _ known _ (by simp) rfl
      have next := ih (filled.storeCopy fresh) (by simpa using distinct)
      simpa using next

theorem Filled.saveTitle (filled : Filled titles [] repository) {title : Book}
    (fresh : title.isbn ∉ titles.map Book.isbn) :
    Filled (titles ++ [title]) [] (repository.saveBook title.withoutCopies) := by
  have absent : repository.books.get? title.isbn = none := by
    cases held : repository.books.get? title.isbn with
    | none => rfl
    | some book =>
        have listed := (Dict.mem_keys_iff repository.books title.isbn).mpr ⟨book, held⟩
        rw [filled.keys] at listed
        exact absurd listed fresh
  have entries : (repository.books.set title.isbn title.withoutCopies).entries =
      repository.books.entries ++ [(title.isbn, title.withoutCopies)] :=
    Dict.entries_set_fresh _ _ absent
  simp only [Filled, BookRepository.saveBook, Book.isbn_withoutCopies, entries]
  exact List.rel_append filled (.cons ⟨rfl, .blank _ title⟩ .nil)

theorem Filled.saveTitles (more : List Book) (filled : Filled titles [] repository)
    (distinct : ((titles ++ more).map Book.isbn).Nodup) :
    Filled (titles ++ more) []
      (more.foldl (fun repository title => repository.saveBook title.withoutCopies)
        repository) := by
  induction more generalizing titles repository with
  | nil => simpa using filled
  | cons title rest ih =>
      have fresh : title.isbn ∉ titles.map Book.isbn := by
        intro known
        rw [List.map_append, List.nodup_append] at distinct
        exact distinct.2.2 _ known _ (by simp) rfl
      have next := ih (filled.saveTitle fresh) (by simpa using distinct)
      simpa using next

theorem filled_load {copies : List BookCopy} (titlesDistinct : (titles.map Book.isbn).Nodup)
    (copiesDistinct : (copies.map BookCopy.copyId).Nodup) :
    Filled titles copies (load titles copies) := by
  have blank : Filled [] [] empty := .nil
  have saved : Filled titles [] _ := blank.saveTitles titles titlesDistinct
  exact saved.storeCopies copies copiesDistinct

end LibraFlow.Storage.BookRepository
