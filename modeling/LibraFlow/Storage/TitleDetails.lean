import LibraFlow.Storage.InMemoryProperties

/-! How repository operations change the public details of titles. A title lists
copies of its own only, so an operation on one title leaves the details of every
other title as they are. Copy identifiers may be reused here. -/

set_option autoImplicit false

namespace LibraFlow.Core.Book

open LibraFlow.Library

private theorem toDict_congr {left right : Heap BookCopy} {book : Book}
    (same : ∀ copies, book.copies? = some copies →
      copyObjects left copies = copyObjects right copies) :
    book.toDict left = book.toDict right := by
  cases edition : book.edition with
  | physical weightGrams pageCount copies =>
      have objects := same copies (by simp [copies?, edition])
      simp [toDict, isAvailable, getAvailableCopies, edition, objects]
  | ebook _ _ _ _ _ _ | audiobook _ _ _ => simp [toDict, isAvailable, edition]

end LibraFlow.Core.Book

namespace LibraFlow.Storage.BookRepository

open LibraFlow.Core LibraFlow.Library

/-- The public details of a title as the repository has them. -/
def details (repository : BookRepository) (isbn : String) : Option Book.Details :=
  (repository.getBook isbn).map (Book.toDict repository.objects)

/-- Every title is stored under its own key and lists copies of its own. -/
structure Owned (repository : BookRepository) : Prop where
  bookKeys : ∀ isbn book, repository.getBook isbn = some book → book.isbn = isbn
  copies : ∀ isbn book copies copyId ref, repository.getBook isbn = some book →
    book.copies? = some copies → copies.get? copyId = some ref →
    ∃ copy, repository.objects.read? ref = some copy ∧ copy.bookIsbn = isbn

/-- An operation that concerns a single title. -/
structure Concerns (isbn : String) (before after : BookRepository) : Prop where
  owned : after.Owned
  others : ∀ other, other ≠ isbn → after.details other = before.details other

theorem Concerns.trans {isbn : String} {first second third : BookRepository}
    (left : Concerns isbn first second) (right : Concerns isbn second third) :
    Concerns isbn first third :=
  ⟨right.owned, fun other different =>
    (right.others other different).trans (left.others other different)⟩

theorem owned_empty : Owned empty := by
  constructor <;> simp [empty, getBook]

/-- Details depend on the stored title and on its own copies. -/
theorem details_congr {before after : BookRepository} {isbn : String}
    (title : after.getBook isbn = before.getBook isbn)
    (objects : ∀ book copies copyId ref, before.getBook isbn = some book →
      book.copies? = some copies → copies.get? copyId = some ref →
      after.objects.read? ref = before.objects.read? ref) :
    after.details isbn = before.details isbn := by
  unfold details
  rw [title]
  cases found : before.getBook isbn with
  | none => rfl
  | some book =>
      simp only [Option.map_some, Option.some.injEq]
      apply Book.toDict_congr
      intro copies listed
      unfold Book.copyObjects
      apply List.filterMap_congr
      intro ref member
      obtain ⟨copyId, held⟩ := (Dict.mem_values_iff copies ref).mp member
      exact objects book copies copyId ref found listed held

namespace Owned

variable {repository : BookRepository}

theorem mutate (owned : repository.Owned) {ref : Ref} {copy changed : BookCopy}
    (read : repository.objects.read? ref = some copy) (title : changed.bookIsbn = copy.bookIsbn) :
    Concerns copy.bookIsbn repository (repository.mutate ref changed) := by
  refine ⟨⟨owned.bookKeys, ?_⟩, ?_⟩
  · intro isbn book copies copyId other found listed member
    obtain ⟨object, objectRead, objectTitle⟩ :=
      owned.copies isbn book copies copyId other found listed member
    by_cases same : ref = other
    · subst other
      rw [read, Option.some.injEq] at objectRead
      subst object
      exact ⟨changed, Heap.read?_write_self changed read, title.trans objectTitle⟩
    · exact ⟨object, by simp [BookRepository.mutate, Heap.read?_write, same, objectRead],
        objectTitle⟩
  · intro isbn different
    refine details_congr rfl ?_
    intro book copies copyId other found listed member
    obtain ⟨object, objectRead, objectTitle⟩ :=
      owned.copies isbn book copies copyId other found listed member
    have distinct : ref ≠ other := by
      rintro rfl
      rw [read, Option.some.injEq] at objectRead
      exact different (objectTitle.symm.trans (objectRead ▸ rfl))
    simp [BookRepository.mutate, Heap.read?_write, distinct]

/-- List a copy object under its title. -/
theorem addCopy (owned : repository.Owned) {ref : Ref} {copyId isbn : String} {copy : BookCopy}
    {book : Book} (found : repository.getBook isbn = some book)
    (read : repository.objects.read? ref = some copy) (title : copy.bookIsbn = isbn)
    (copies : Dict String Ref) :
    Concerns isbn repository
      ⟨repository.books.set isbn (book.addCopy copyId ref), copies, repository.objects⟩ := by
  refine ⟨⟨?_, ?_⟩, ?_⟩
  · intro other stored storedFound
    simp only [getBook, Dict.get?_set] at storedFound
    split at storedFound
    · next same =>
        cases storedFound
        rw [Book.isbn_addCopy, owned.bookKeys isbn book found, same]
    · exact owned.bookKeys other stored storedFound
  · intro other stored listed key otherRef storedFound edition member
    simp only [getBook, Dict.get?_set] at storedFound
    split at storedFound
    · next same =>
        cases storedFound
        rw [Book.copies?_addCopy, Option.map_eq_some_iff] at edition
        obtain ⟨old, oldListed, rfl⟩ := edition
        rw [Dict.get?_set] at member
        split at member
        · cases member
          exact ⟨copy, read, title.trans same⟩
        · obtain ⟨object, objectRead, objectTitle⟩ :=
            owned.copies isbn book old key otherRef found oldListed member
          exact ⟨object, objectRead, objectTitle.trans same⟩
    · exact owned.copies other stored listed key otherRef storedFound edition member
  · intro other different
    apply details_congr
    · simp [getBook, Ne.symm different]
    · intros
      rfl

/-- Only titles and objects matter, not the index of copies. -/
theorem withCopies (owned : repository.Owned) (isbn : String) (copies : Dict String Ref) :
    Concerns isbn repository { repository with copies } :=
  ⟨⟨owned.bookKeys, owned.copies⟩, fun _ _ => rfl⟩

theorem saveCopy (owned : repository.Owned) {ref : Ref} {copy : BookCopy}
    (read : repository.objects.read? ref = some copy) :
    Concerns copy.bookIsbn repository (repository.saveCopy ref) := by
  unfold BookRepository.saveCopy
  rw [read]
  cases found : repository.books.get? copy.bookIsbn with
  | none =>
      simp only [found]
      exact owned.withCopies copy.bookIsbn _
  | some parent =>
      simp only [found]
      exact owned.addCopy found read rfl _

theorem alloc (owned : repository.Owned) (isbn : String) (copy : BookCopy) :
    Concerns isbn repository { repository with objects := repository.objects.alloc copy } := by
  refine ⟨⟨owned.bookKeys, ?_⟩, ?_⟩
  · intro other book copies copyId ref found listed member
    obtain ⟨object, read, title⟩ := owned.copies other book copies copyId ref found listed member
    exact ⟨object, Heap.read?_alloc_of_some copy read, title⟩
  · intro other _
    refine details_congr rfl ?_
    intro book copies copyId ref found listed member
    obtain ⟨object, read, _⟩ := owned.copies other book copies copyId ref found listed member
    rw [read]
    exact Heap.read?_alloc_of_some copy read

theorem saveBook (owned : repository.Owned) {book : Book}
    (listed : ∀ copies copyId ref, book.copies? = some copies → copies.get? copyId = some ref →
      ∃ copy, repository.objects.read? ref = some copy ∧ copy.bookIsbn = book.isbn) :
    Concerns book.isbn repository (repository.saveBook book) := by
  refine ⟨⟨?_, ?_⟩, ?_⟩
  · intro isbn stored found
    simp only [BookRepository.saveBook, getBook, Dict.get?_set] at found
    split at found
    · next same =>
        cases found
        exact same
    · exact owned.bookKeys isbn stored found
  · intro isbn stored copies copyId ref found edition member
    simp only [BookRepository.saveBook, getBook, Dict.get?_set] at found
    split at found
    · next same =>
        cases found
        subst isbn
        exact listed copies copyId ref edition member
    · exact owned.copies isbn stored copies copyId ref found edition member
  · intro isbn different
    apply details_congr
    · simp [BookRepository.saveBook, getBook, Ne.symm different]
    · intros
      rfl

theorem resaveBook (owned : repository.Owned) (isbn : String) :
    Concerns isbn repository (repository.resaveBook isbn) := by
  unfold BookRepository.resaveBook
  cases found : repository.getBook isbn with
  | none => exact ⟨owned, fun _ _ => rfl⟩
  | some book =>
      have key := owned.bookKeys isbn book found
      have saved : Concerns book.isbn repository (repository.saveBook book) :=
        owned.saveBook fun copies copyId ref listed member =>
          key ▸ owned.copies isbn book copies copyId ref found listed member
      rwa [key] at saved

end Owned

end LibraFlow.Storage.BookRepository
