import LibraFlow.Core.User
import LibraFlow.Storage.Representation

/-! Adding a copy whose identifier may be in use. The new copy takes the place of
the old one, and saving its title puts every copy the title lists back into the
index. Titles and index may disagree here: only the identifiers are known to be
those of the objects. -/

set_option autoImplicit false

namespace LibraFlow.Core

/-- What loans, holds and transfers rely on in a copy. -/
structure BookCopy.Circulating where
  bookIsbn : String
  status : BookStatus
  currentBorrowerId : Option String
  currentReserverId : Option String
  targetBranchId : Option String
  borrowCount : Nat
  deriving DecidableEq

def BookCopy.circulating (copy : BookCopy) : BookCopy.Circulating where
  bookIsbn := copy.bookIsbn
  status := copy.status
  currentBorrowerId := copy.currentBorrowerId
  currentReserverId := copy.currentReserverId
  targetBranchId := copy.targetBranchId
  borrowCount := copy.borrowCount

end LibraFlow.Core

namespace LibraFlow.Storage.BookRepository

open LibraFlow.Core LibraFlow.Library

/-- Copies are stored under their own identifiers, in the index and in titles. -/
structure Keyed (repository : BookRepository) : Prop where
  bookKeys : ∀ isbn book, repository.getBook isbn = some book → book.isbn = isbn
  copyIds : ∀ copyId ref, repository.copies.get? copyId = some ref →
    ∃ copy, repository.objects.read? ref = some copy ∧ copy.copyId = copyId
  titleIds : ∀ isbn book listed copyId ref, repository.getBook isbn = some book →
    book.copies? = some listed → listed.get? copyId = some ref →
    ∃ copy, repository.objects.read? ref = some copy ∧ copy.copyId = copyId

theorem keyed_empty : Keyed empty := by
  constructor <;> simp [empty, getBook]

/-- Entering objects that are stored under their identifiers. -/
private theorem get?_foldl_entries (objects : Heap BookCopy) (entries : List (String × Ref))
    (distinct : (entries.map Prod.fst).Nodup) (keyed : ∀ copyId ref, (copyId, ref) ∈ entries →
      ∃ copy, objects.read? ref = some copy ∧ copy.copyId = copyId)
    (copies : Dict String Ref) (copyId : String) :
    ((entries.map Prod.snd).foldl (indexCopy objects) copies).get? copyId =
      (Dict.lookup copyId entries).or (copies.get? copyId) := by
  induction entries generalizing copies with
  | nil => rfl
  | cons entry rest ih =>
      obtain ⟨key, ref⟩ := entry
      obtain ⟨copy, read, identity⟩ := keyed key ref (by simp)
      simp only [List.map_cons, List.nodup_cons] at distinct
      have entered : indexCopy objects copies ref = copies.set key ref := by
        simp only [indexCopy, read, identity]
      rw [List.map_cons, List.foldl_cons, entered, ih distinct.2 fun other otherRef member =>
        keyed other otherRef (by simp [member]), Dict.get?_set]
      by_cases same : key = copyId
      · subst copyId
        have absent : Dict.lookup key rest = none := by
          cases found : Dict.lookup key rest with
          | none => rfl
          | some other =>
              have member := (Dict.get?_eq_some_iff ⟨rest, distinct.2⟩ key other).mp found
              exact absurd (List.mem_map_of_mem member) distinct.1
        simp [Dict.lookup, absent]
      · simp [Dict.lookup, same]

private theorem get?_foldl_values {objects : Heap BookCopy} {listed : Dict String Ref}
    (keyed : ∀ copyId ref, listed.get? copyId = some ref →
      ∃ copy, objects.read? ref = some copy ∧ copy.copyId = copyId)
    (copies : Dict String Ref) (copyId : String) :
    (listed.values.foldl (indexCopy objects) copies).get? copyId =
      (listed.get? copyId).or (copies.get? copyId) :=
  get?_foldl_entries objects listed.entries listed.keysNodup
    (fun key ref member => keyed key ref ((Dict.get?_eq_some_iff listed key ref).mpr member))
    copies copyId

namespace Keyed

variable {repository : BookRepository}

theorem mutate (keyed : repository.Keyed) {ref : Ref} {copy changed : BookCopy}
    (read : repository.objects.read? ref = some copy) (same : BookCopy.SameCopy copy changed) :
    (repository.mutate ref changed).Keyed := by
  have reread : ∀ other copyId, (∃ object, repository.objects.read? other = some object ∧
      object.copyId = copyId) → ∃ object,
        (repository.mutate ref changed).objects.read? other = some object ∧
          object.copyId = copyId := by
    rintro other copyId ⟨object, objectRead, identity⟩
    by_cases equal : ref = other
    · subst other
      rw [read, Option.some.injEq] at objectRead
      subst object
      exact ⟨changed, Heap.read?_write_self changed read, same.copyId.trans identity⟩
    · exact ⟨object, by simp [BookRepository.mutate, Heap.read?_write, equal, objectRead],
        identity⟩
  exact ⟨keyed.bookKeys, fun copyId other held => reread other copyId
    (keyed.copyIds copyId other held), fun isbn book listed copyId other found edition member =>
      reread other copyId (keyed.titleIds isbn book listed copyId other found edition member)⟩

/-- Changing a stored copy and saving it changes what is seen of this copy only. -/
theorem view_mutate_saveCopy (keyed : repository.Keyed) {copyId : String} {ref : Ref}
    {copy changed : BookCopy} (found : repository.getCopy copyId = some (ref, copy))
    (same : BookCopy.SameCopy copy changed) :
    ((repository.mutate ref changed).saveCopy ref).view =
      Function.update repository.view copyId (some changed) := by
  obtain ⟨indexed, read⟩ := getCopy_eq_some_iff.mp found
  have identity : copy.copyId = copyId := by
    obtain ⟨object, objectRead, identity⟩ := keyed.copyIds copyId ref indexed
    rw [read, Option.some.injEq] at objectRead
    exact objectRead ▸ identity
  have written : (repository.mutate ref changed).objects.read? ref = some changed :=
    Heap.read?_write_self changed read
  have listed : (repository.mutate ref changed).copies.get? changed.copyId = some ref := by
    rw [same.copyId, identity]
    exact indexed
  exact (sameCopies_saveCopy written listed).view.trans
    (BookRepository.view_mutate keyed.copyIds changed found)

theorem alloc (keyed : repository.Keyed) (copy : BookCopy) :
    Keyed { repository with objects := repository.objects.alloc copy } := by
  refine ⟨keyed.bookKeys, ?_, ?_⟩
  · intro copyId ref held
    obtain ⟨object, read, identity⟩ := keyed.copyIds copyId ref held
    exact ⟨object, Heap.read?_alloc_of_some copy read, identity⟩
  · intro isbn book listed copyId ref found edition member
    obtain ⟨object, read, identity⟩ :=
      keyed.titleIds isbn book listed copyId ref found edition member
    exact ⟨object, Heap.read?_alloc_of_some copy read, identity⟩

/-- A copy object enters the index, and possibly a title, under its identifier. -/
theorem setCopy (keyed : repository.Keyed) {ref : Ref} {copy : BookCopy}
    (read : repository.objects.read? ref = some copy) :
    Keyed { repository with copies := repository.copies.set copy.copyId ref } := by
  refine ⟨keyed.bookKeys, ?_, keyed.titleIds⟩
  intro copyId other held
  simp only [Dict.get?_set] at held
  split at held
  · next same =>
      cases held
      exact ⟨copy, read, same⟩
  · exact keyed.copyIds copyId other held

theorem addCopy (keyed : repository.Keyed) {isbn : String} {book : Book} {ref : Ref}
    {copy : BookCopy} (found : repository.getBook isbn = some book)
    (read : repository.objects.read? ref = some copy) :
    Keyed { repository with
      books := repository.books.set isbn (book.addCopy copy.copyId ref) } := by
  refine ⟨?_, keyed.copyIds, ?_⟩
  · intro other stored storedFound
    simp only [getBook, Dict.get?_set] at storedFound
    split at storedFound
    · next same =>
        cases storedFound
        rw [Book.isbn_addCopy, keyed.bookKeys isbn book found, same]
    · exact keyed.bookKeys other stored storedFound
  · intro other stored listed copyId otherRef storedFound edition member
    simp only [getBook, Dict.get?_set] at storedFound
    split at storedFound
    · cases storedFound
      rw [Book.copies?_addCopy, Option.map_eq_some_iff] at edition
      obtain ⟨old, oldEdition, rfl⟩ := edition
      rw [Dict.get?_set] at member
      split at member
      · next same =>
          cases member
          exact ⟨copy, read, same⟩
      · exact keyed.titleIds isbn book old copyId otherRef found oldEdition member
    · exact keyed.titleIds other stored listed copyId otherRef storedFound edition member

theorem saveCopy (keyed : repository.Keyed) {ref : Ref} {copy : BookCopy}
    (read : repository.objects.read? ref = some copy) : (repository.saveCopy ref).Keyed := by
  unfold BookRepository.saveCopy
  rw [read]
  cases found : repository.books.get? copy.bookIsbn with
  | none =>
      simp only [found]
      exact keyed.setCopy read
  | some parent =>
      simp only [found]
      exact (keyed.addCopy found read).setCopy read

/-- Saving a title whose copies are listed under their identifiers. -/
theorem saveBook (keyed : repository.Keyed) {book : Book}
    (listedKeyed : ∀ listed copyId ref, book.copies? = some listed →
      listed.get? copyId = some ref →
      ∃ copy, repository.objects.read? ref = some copy ∧ copy.copyId = copyId) :
    (repository.saveBook book).Keyed := by
  refine ⟨?_, ?_, ?_⟩
  · intro isbn stored found
    simp only [BookRepository.saveBook, getBook, Dict.get?_set] at found
    split at found
    · next same =>
        cases found
        exact same
    · exact keyed.bookKeys isbn stored found
  · intro copyId ref held
    simp only [BookRepository.saveBook] at held
    split at held
    · next listed edition =>
        rw [get?_foldl_values (listedKeyed listed · · edition), Option.or_eq_some_iff] at held
        rcases held with member | ⟨_, older⟩
        · exact listedKeyed listed copyId ref edition member
        · exact keyed.copyIds copyId ref older
    · exact keyed.copyIds copyId ref held
  · intro isbn stored listed copyId ref found edition member
    simp only [BookRepository.saveBook, getBook, Dict.get?_set] at found
    split at found
    · cases found
      exact listedKeyed listed copyId ref edition member
    · exact keyed.titleIds isbn stored listed copyId ref found edition member

theorem resaveBook (keyed : repository.Keyed) (isbn : String) :
    (repository.resaveBook isbn).Keyed := by
  unfold BookRepository.resaveBook
  cases found : repository.getBook isbn with
  | none => exact keyed
  | some book =>
      exact keyed.saveBook fun listed copyId ref edition member =>
        keyed.titleIds isbn book listed copyId ref found edition member

theorem copyEdits {after : BookRepository}
    (edits : Relation.ReflTransGen CopyEdit repository after) (keyed : repository.Keyed) :
    after.Keyed := by
  induction edits with
  | refl => exact keyed
  | tail _ edit ih =>
      cases edit with
      | change found same => exact ih.mutate (getCopy_eq_some_iff.mp found).2 same
      | store found => exact ih.saveCopy (getCopy_eq_some_iff.mp found).2

theorem attach (keyed : repository.Keyed) {isbn : String} {book : Book} {copy : BookCopy}
    (found : repository.getBook isbn = some book) (title : copy.bookIsbn = isbn) :
    ((repository.attach isbn book copy).saveCopy repository.objects.next).Keyed := by
  rw [attach_saveCopy title, Dict.set_set, Book.addCopy_addCopy]
  have read : (repository.objects.alloc copy).read? repository.objects.next = some copy :=
    Heap.read?_alloc_next _ _
  exact ((keyed.alloc copy).addCopy found read).setCopy read

/-- The copies seen after a copy was added and its title saved: the new copy, the
copies its title lists, and the others as they were. -/
theorem view_attach (keyed : repository.Keyed) {isbn : String} {book : Book}
    {listed : Dict String Ref} {copy : BookCopy} (found : repository.getBook isbn = some book)
    (edition : book.copies? = some listed) (title : copy.bookIsbn = isbn) (other : String) :
    (((repository.attach isbn book copy).saveCopy repository.objects.next).resaveBook isbn).view
        other =
      if copy.copyId = other then some copy
      else
        match listed.get? other with
        | some ref => repository.objects.read? ref
        | none => repository.view other := by
  have attached := keyed.attach found title
  rw [attach_saveCopy title, Dict.set_set, Book.addCopy_addCopy] at attached ⊢
  have stored : (repository.books.set isbn (book.addCopy copy.copyId repository.objects.next)).get?
      isbn = some (book.addCopy copy.copyId repository.objects.next) := Dict.get?_set_self _ _ _
  have addedEdition : (book.addCopy copy.copyId repository.objects.next).copies? =
      some (listed.set copy.copyId repository.objects.next) := by
    rw [Book.copies?_addCopy, edition, Option.map_some]
  have listedKeyed := fun copyId ref => attached.titleIds isbn _ _ copyId ref stored addedEdition
  have older : ∀ ref object, repository.objects.read? ref = some object →
      (repository.objects.alloc copy).read? ref = repository.objects.read? ref := by
    intro ref object read
    rw [read]
    exact Heap.read?_alloc_of_some copy read
  simp only [BookRepository.resaveBook, getBook, stored, BookRepository.saveBook, addedEdition,
    view, getCopy, get?_foldl_values listedKeyed, Dict.get?_set]
  by_cases same : copy.copyId = other
  · simp [same]
  · rw [if_neg same, if_neg same, if_neg same]
    cases member : listed.get? other with
    | some ref =>
        obtain ⟨object, read, _⟩ :=
          keyed.titleIds isbn book listed other ref found edition member
        simp [older ref object read, Function.comp_def]
    | none =>
        cases held : repository.copies.get? other with
        | none => simp
        | some ref =>
            obtain ⟨object, read, _⟩ := keyed.copyIds other ref held
            simp [older ref object read]

end Keyed

/-- Every copy keeps what circulation relies on, and with it every loan its
borrower. -/
structure Undisturbed (users : String → Option User) (before after : String → Option BookCopy) :
    Prop where
  copies : ∀ copyId copy, before copyId = some copy →
    ∃ kept, after copyId = some kept ∧ kept.circulating = copy.circulating
  loans : ∀ userId user copyId copy, users userId = some user →
    copyId ∈ user.activeBorrowedCopyIds → before copyId = some copy →
    copy.currentBorrowerId = some userId →
    ∃ kept, after copyId = some kept ∧ kept.currentBorrowerId = some userId

theorem undisturbed_iff (users : String → Option User) (before after : String → Option BookCopy) :
    Undisturbed users before after ↔ ∀ copyId copy, before copyId = some copy →
      ∃ kept, after copyId = some kept ∧ kept.circulating = copy.circulating := by
  constructor
  · exact Undisturbed.copies
  · intro copies
    refine ⟨copies, ?_⟩
    intro userId user copyId copy _ _ held borrower
    obtain ⟨kept, found, same⟩ := copies copyId copy held
    have sameBorrower := congrArg BookCopy.Circulating.currentBorrowerId same
    exact ⟨kept, found, sameBorrower.trans borrower⟩

end LibraFlow.Storage.BookRepository
