import LibraFlow.Storage.TitleDetails

/-! The representation of the stock. A physical title and the index of copies
describe the same copies; changing and storing copies keeps that, and so do
registration, acquisition and deletion while identifiers are not claimed twice. -/

set_option autoImplicit false

namespace LibraFlow.Core.Book

open LibraFlow.Library

theorem addCopy_addCopy (book : Book) (copyId : String) (first second : Ref) :
    (book.addCopy copyId first).addCopy copyId second = book.addCopy copyId second := by
  cases edition : book.edition <;> simp [addCopy, edition, Dict.set_set]

end LibraFlow.Core.Book

namespace LibraFlow.Storage.BookRepository

open LibraFlow.Core LibraFlow.Library

/-- What circulation does to the stock: it changes a copy it has looked up, or
stores it again. -/
inductive CopyEdit : BookRepository → BookRepository → Prop where
  | change {repository : BookRepository} {copyId : String} {ref : Ref} {copy changed : BookCopy}
      (found : repository.getCopy copyId = some (ref, copy))
      (same : BookCopy.SameCopy copy changed) : CopyEdit repository (repository.mutate ref changed)
  | store {repository : BookRepository} {copyId : String} {ref : Ref} {copy : BookCopy}
      (found : repository.getCopy copyId = some (ref, copy)) :
      CopyEdit repository (repository.saveCopy ref)

/-- The copy is listed by its own, physical title. -/
def Lists (repository : BookRepository) (isbn copyId : String) (ref : Ref) : Prop :=
  ∃ book listed, repository.getBook isbn = some book ∧ book.copies? = some listed ∧
    listed.get? copyId = some ref

/-- Titles list copies of their own, and every copy is listed by its title. -/
structure Represented (repository : BookRepository) : Prop where
  wellFormed : repository.WellFormed
  owned : repository.Owned
  listed : ∀ copyId ref copy, repository.getCopy copyId = some (ref, copy) →
    repository.Lists copy.bookIsbn copyId ref

theorem represented_empty : Represented empty :=
  ⟨wellFormed_empty, owned_empty, fun _ _ _ found => by cases found⟩

namespace Lists

variable {repository : BookRepository} {isbn copyId : String} {ref : Ref}

/-- Listing another copy keeps the listing of this one. -/
theorem addCopy {other otherId : String} {otherRef : Ref} {parent : Book}
    (lists : repository.Lists isbn copyId ref) (found : repository.getBook other = some parent)
    (different : otherId ≠ copyId) (copies : Dict String Ref) (objects : Heap BookCopy) :
    Lists ⟨repository.books.set other (parent.addCopy otherId otherRef), copies, objects⟩
      isbn copyId ref := by
  obtain ⟨book, listed, bookFound, edition, member⟩ := lists
  by_cases same : other = isbn
  · subst other
    rw [bookFound, Option.some.injEq] at found
    subst parent
    refine ⟨book.addCopy otherId otherRef, listed.set otherId otherRef, ?_, ?_, ?_⟩
    · exact Dict.get?_set_self _ _ _
    · rw [Book.copies?_addCopy, edition, Option.map_some]
    · exact (Dict.get?_set_of_ne _ _ different).trans member
  · refine ⟨book, listed, ?_, edition, member⟩
    exact (Dict.get?_set_of_ne _ _ same).trans bookFound

end Lists

namespace Represented

variable {repository : BookRepository}

theorem mutate (valid : repository.Represented) {copyId : String} {ref : Ref}
    {copy changed : BookCopy} (found : repository.getCopy copyId = some (ref, copy))
    (same : BookCopy.SameCopy copy changed) : (repository.mutate ref changed).Represented := by
  obtain ⟨_, read⟩ := getCopy_eq_some_iff.mp found
  refine ⟨valid.wellFormed.mutate found same, (valid.owned.mutate read same.bookIsbn).owned, ?_⟩
  intro other otherRef object objectFound
  obtain ⟨otherHeld, otherRead⟩ := getCopy_eq_some_iff.mp objectFound
  by_cases equal : ref = otherRef
  · subst otherRef
    have written : (repository.mutate ref changed).objects.read? ref = some changed :=
      Heap.read?_write_self changed read
    rw [otherRead, Option.some.injEq] at written
    rw [written, same.bookIsbn]
    exact valid.listed other ref copy (getCopy_eq_some_iff.mpr ⟨otherHeld, read⟩)
  · have unchanged : repository.objects.read? otherRef = some object := by
      simpa [BookRepository.mutate, Heap.read?_write, equal] using otherRead
    exact valid.listed other otherRef object (getCopy_eq_some_iff.mpr ⟨otherHeld, unchanged⟩)

theorem alloc (valid : repository.Represented) (copy : BookCopy) :
    Represented { repository with objects := repository.objects.alloc copy } := by
  refine ⟨⟨?_, valid.wellFormed.bookKeys, valid.wellFormed.shared⟩,
    (valid.owned.alloc "" copy).owned, ?_⟩
  · intro copyId ref held
    obtain ⟨object, read, identity⟩ := valid.wellFormed.copyIds copyId ref held
    exact ⟨object, Heap.read?_alloc_of_some copy read, identity⟩
  · intro copyId ref object found
    obtain ⟨held, read⟩ := getCopy_eq_some_iff.mp found
    obtain ⟨older, olderRead, _⟩ := valid.wellFormed.copyIds copyId ref held
    have same : some object = some older :=
      read.symm.trans (Heap.read?_alloc_of_some copy olderRead)
    cases same
    exact valid.listed copyId ref object (getCopy_eq_some_iff.mpr ⟨held, olderRead⟩)

/-- A copy may be entered in both maps unless another title has its identifier. -/
theorem enter (valid : repository.Represented) {isbn : String} {book : Book}
    {listed : Dict String Ref} {ref : Ref} {copy : BookCopy}
    (found : repository.getBook isbn = some book) (edition : book.copies? = some listed)
    (read : repository.objects.read? ref = some copy) (title : copy.bookIsbn = isbn)
    (unclaimed : ∀ oldRef old, repository.getCopy copy.copyId = some (oldRef, old) →
      old.bookIsbn = isbn) :
    Represented ⟨repository.books.set isbn (book.addCopy copy.copyId ref),
      repository.copies.set copy.copyId ref, repository.objects⟩ := by
  have owned : Owned ⟨repository.books.set isbn (book.addCopy copy.copyId ref),
      repository.copies.set copy.copyId ref, repository.objects⟩ :=
    (valid.owned.addCopy found read title _).owned
  refine ⟨⟨?_, owned.bookKeys, ?_⟩, owned, ?_⟩
  · intro copyId other held
    simp only [Dict.get?_set] at held
    split at held
    · next same =>
        cases held
        exact ⟨copy, read, same⟩
    · exact valid.wellFormed.copyIds copyId other held
  · intro other otherBook otherListed copyId otherRef otherFound otherEdition member
    simp only [Dict.get?_set] at otherFound ⊢
    split at otherFound
    · cases otherFound
      rw [Book.copies?_addCopy, edition, Option.map_some, Option.some.injEq] at otherEdition
      rw [← otherEdition, Dict.get?_set] at member
      by_cases same : copy.copyId = copyId
      · rw [if_pos same] at member ⊢
        exact member
      · rw [if_neg same] at member ⊢
        exact valid.wellFormed.shared _ _ _ _ _ found edition member
    · next different =>
        have held := valid.wellFormed.shared _ _ _ _ _ otherFound otherEdition member
        obtain ⟨object, objectRead, objectTitle⟩ :=
          valid.owned.copies _ _ _ _ _ otherFound otherEdition member
        -- the entered identifier is not one that another title lists
        have distinct : copy.copyId ≠ copyId := by
          intro same
          subst copyId
          have claimed := unclaimed otherRef object
            (getCopy_eq_some_iff.mpr ⟨held, objectRead⟩)
          exact different (claimed.symm.trans objectTitle)
        rw [if_neg distinct]
        exact held
  · intro copyId otherRef object objectFound
    obtain ⟨held, objectRead⟩ := getCopy_eq_some_iff.mp objectFound
    simp only [Dict.get?_set] at held
    split at held
    · next same =>
        cases held
        rw [read, Option.some.injEq] at objectRead
        subst object copyId
        rw [title]
        refine ⟨book.addCopy copy.copyId ref, listed.set copy.copyId ref, ?_, ?_, ?_⟩
        · exact Dict.get?_set_self _ _ _
        · rw [Book.copies?_addCopy, edition, Option.map_some]
        · exact Dict.get?_set_self _ _ _
    · next different =>
        exact (valid.listed copyId otherRef object
          (getCopy_eq_some_iff.mpr ⟨held, objectRead⟩)).addCopy found different _ _

theorem saveCopy (valid : repository.Represented) {copyId : String} {ref : Ref} {copy : BookCopy}
    (found : repository.getCopy copyId = some (ref, copy)) :
    (repository.saveCopy ref).Represented := by
  obtain ⟨held, read⟩ := getCopy_eq_some_iff.mp found
  obtain ⟨book, listed, bookFound, edition, _⟩ := valid.listed copyId ref copy found
  have entered := valid.enter bookFound edition read rfl (by
    intro oldRef old oldFound
    rw [valid.wellFormed.copyId_eq found, found] at oldFound
    cases oldFound
    rfl)
  have saved : repository.saveCopy ref =
      ⟨repository.books.set copy.bookIsbn (book.addCopy copy.copyId ref),
        repository.copies.set copy.copyId ref, repository.objects⟩ := by
    have parent : repository.books.get? copy.bookIsbn = some book := bookFound
    simp only [BookRepository.saveCopy, read, parent]
  rw [saved]
  exact entered

private theorem copyEdit {after : BookRepository} (edit : CopyEdit repository after)
    (valid : repository.Represented) : after.Represented := by
  cases edit with
  | change found same => exact valid.mutate found same
  | store found => exact valid.saveCopy found

theorem copyEdits {after : BookRepository}
    (edits : Relation.ReflTransGen CopyEdit repository after) (valid : repository.Represented) :
    after.Represented := by
  induction edits with
  | refl => exact valid
  | tail _ edit ih => exact ih.copyEdit edit

/-- A title that lists nothing may be registered while the store has no copy of it. -/
theorem saveBook (valid : repository.Represented) {book : Book}
    (blank : ∀ copies, book.copies? = some copies → copies = .empty)
    (unclaimed : ∀ copyId ref copy, repository.getCopy copyId = some (ref, copy) →
      copy.bookIsbn ≠ book.isbn) : (repository.saveBook book).Represented := by
  have nothing : ∀ copies copyId ref, book.copies? = some copies →
      copies.get? copyId ≠ some ref := by
    intro copies copyId ref edition member
    rw [blank copies edition] at member
    cases member
  have same : SameCopies repository (repository.saveBook book) :=
    sameCopies_saveBook valid.wellFormed fun copies copyId ref edition member =>
      absurd member (nothing copies copyId ref edition)
  refine ⟨valid.wellFormed.saveBook fun copies copyId ref edition member =>
    absurd member (nothing copies copyId ref edition), (valid.owned.saveBook
      fun copies copyId ref edition member =>
        absurd member (nothing copies copyId ref edition)).owned, ?_⟩
  intro copyId ref copy found
  rw [same.getCopy] at found
  have different := unclaimed copyId ref copy found
  obtain ⟨title, listed, titleFound, edition, member⟩ := valid.listed copyId ref copy found
  refine ⟨title, listed, ?_, edition, member⟩
  exact (Dict.get?_set_of_ne _ _ (Ne.symm different)).trans titleFound

/-- Saving a title once more, as it is, changes nothing that can be seen. -/
theorem resaveBook (valid : repository.Represented) (isbn : String) :
    (repository.resaveBook isbn).Represented := by
  obtain ⟨same, wellFormed⟩ := resaveBook_spec valid.wellFormed isbn
  refine ⟨wellFormed, (valid.owned.resaveBook isbn).owned, ?_⟩
  intro copyId ref copy found
  rw [same.getCopy] at found
  obtain ⟨title, listed, titleFound, edition, member⟩ := valid.listed copyId ref copy found
  refine ⟨title, listed, ?_, edition, member⟩
  unfold BookRepository.resaveBook
  cases stored : repository.getBook isbn with
  | none => exact titleFound
  | some book =>
      have key := valid.owned.bookKeys isbn book stored
      simp only [BookRepository.saveBook, BookRepository.getBook, Dict.get?_set]
      split
      · next sameTitle =>
          rw [← sameTitle, key, stored] at titleFound
          exact titleFound
      · exact titleFound

/-- A new copy may be added unless another title has its identifier. -/
theorem attach (valid : repository.Represented) {isbn : String} {book : Book}
    {listed : Dict String Ref} {copy : BookCopy} (found : repository.getBook isbn = some book)
    (edition : book.copies? = some listed) (title : copy.bookIsbn = isbn)
    (unclaimed : ∀ oldRef old, repository.getCopy copy.copyId = some (oldRef, old) →
      old.bookIsbn = isbn) :
    ((repository.attach isbn book copy).saveCopy repository.objects.next).Represented := by
  rw [attach_saveCopy title, Dict.set_set, Book.addCopy_addCopy]
  refine (valid.alloc copy).enter found edition (Heap.read?_alloc_next _ _) title ?_
  intro oldRef old oldFound
  obtain ⟨held, read⟩ := getCopy_eq_some_iff.mp oldFound
  obtain ⟨object, objectRead, _⟩ := valid.wellFormed.copyIds _ oldRef held
  have same : some old = some object :=
    read.symm.trans (Heap.read?_alloc_of_some copy objectRead)
  cases same
  exact unclaimed oldRef old (getCopy_eq_some_iff.mpr ⟨held, objectRead⟩)

/-- Deleting a title removes the copies it lists, and with them all its copies. -/
theorem getCopy_deleteBook (valid : repository.Represented) {isbn copyId : String} {ref : Ref}
    {copy : BookCopy} :
    (repository.deleteBook isbn).getCopy copyId = some (ref, copy) ↔
      repository.getCopy copyId = some (ref, copy) ∧ copy.bookIsbn ≠ isbn := by
  simp only [getCopy_eq_some_iff, deleteBook]
  cases edition : (repository.books.get? isbn).bind Book.copies? with
  | none =>
      simp only [iff_self_and, and_imp]
      intro held read title
      obtain ⟨book, listed, found, physical, _⟩ :=
        valid.listed copyId ref copy (getCopy_eq_some_iff.mpr ⟨held, read⟩)
      have stored : repository.books.get? copy.bookIsbn = some book := found
      simp [← title, stored, physical] at edition
  | some listed =>
      obtain ⟨book, found, physical⟩ := Option.bind_eq_some_iff.mp edition
      simp only [Dict.get?_foldl_erase]
      constructor
      · rintro ⟨held, read⟩
        split at held
        · cases held
        · next unlisted =>
            refine ⟨⟨held, read⟩, ?_⟩
            intro title
            obtain ⟨own, ownListed, ownFound, ownPhysical, member⟩ :=
              valid.listed copyId ref copy (getCopy_eq_some_iff.mpr ⟨held, read⟩)
            rw [title, getBook, found, Option.some.injEq] at ownFound
            subst own
            rw [physical, Option.some.injEq] at ownPhysical
            exact unlisted ((Dict.mem_keys_iff listed copyId).mpr ⟨ref, ownPhysical ▸ member⟩)
      · rintro ⟨⟨held, read⟩, title⟩
        refine ⟨?_, read⟩
        rw [if_neg, held]
        intro key
        obtain ⟨listedRef, member⟩ := (Dict.mem_keys_iff listed copyId).mp key
        have sameRef := valid.wellFormed.shared _ _ _ _ _ found physical member
        rw [held, Option.some.injEq] at sameRef
        obtain ⟨object, objectRead, objectTitle⟩ :=
          valid.owned.copies _ _ _ _ _ found physical member
        rw [← sameRef, read, Option.some.injEq] at objectRead
        exact title (objectRead ▸ objectTitle)

theorem deleteBook (valid : repository.Represented) (isbn : String) :
    (repository.deleteBook isbn).Represented := by
  have kept : ∀ other book, (repository.deleteBook isbn).getBook other = some book →
      isbn ≠ other ∧ repository.getBook other = some book := by
    intro other book found
    simp only [BookRepository.deleteBook, getBook, Dict.get?_erase] at found
    split at found
    · cases found
    · next different => exact ⟨different, found⟩
  have remaining : ∀ other book listed copyId ref,
      (repository.deleteBook isbn).getBook other = some book → book.copies? = some listed →
      listed.get? copyId = some ref → ∃ copy, copy.bookIsbn = other ∧
        (repository.deleteBook isbn).getCopy copyId = some (ref, copy) := by
    intro other book listed copyId ref found edition member
    obtain ⟨different, stored⟩ := kept other book found
    have held := valid.wellFormed.shared _ _ _ _ _ stored edition member
    obtain ⟨copy, read, title⟩ := valid.owned.copies _ _ _ _ _ stored edition member
    refine ⟨copy, title, valid.getCopy_deleteBook.mpr
      ⟨getCopy_eq_some_iff.mpr ⟨held, read⟩, ?_⟩⟩
    rw [title]
    exact Ne.symm different
  have before : ∀ copyId ref, (repository.deleteBook isbn).copies.get? copyId = some ref →
      repository.copies.get? copyId = some ref := by
    intro copyId ref held
    simp only [BookRepository.deleteBook] at held
    split at held
    · rw [Dict.get?_foldl_erase] at held
      split at held
      · cases held
      · exact held
    · exact held
  refine ⟨⟨?_, ?_, ?_⟩, ⟨?_, ?_⟩, ?_⟩
  · intro copyId ref held
    exact valid.wellFormed.copyIds copyId ref (before copyId ref held)
  · intro other book found
    exact valid.wellFormed.bookKeys other book (kept other book found).2
  · intro other book listed copyId ref found edition member
    obtain ⟨copy, _, remains⟩ := remaining other book listed copyId ref found edition member
    exact (getCopy_eq_some_iff.mp remains).1
  · intro other book found
    exact valid.owned.bookKeys other book (kept other book found).2
  · intro other book listed copyId ref found edition member
    exact valid.owned.copies _ _ _ _ _ (kept other book found).2 edition member
  · intro copyId ref copy found
    obtain ⟨held, title⟩ := valid.getCopy_deleteBook.mp found
    obtain ⟨book, listed, stored, edition, member⟩ := valid.listed copyId ref copy held
    refine ⟨book, listed, ?_, edition, member⟩
    simp only [BookRepository.deleteBook, getBook, Dict.get?_erase]
    rw [if_neg (Ne.symm title)]
    exact stored

/-- The titles list exactly their copies, as the same objects. -/
theorem lists_iff (valid : repository.Represented) {isbn : String} {book : Book}
    {listed : Dict String Ref} (found : repository.getBook isbn = some book)
    (edition : book.copies? = some listed) (copyId : String) (ref : Ref) :
    listed.get? copyId = some ref ↔
      ∃ copy, repository.getCopy copyId = some (ref, copy) ∧ copy.bookIsbn = isbn := by
  constructor
  · intro member
    have held := valid.wellFormed.shared _ _ _ _ _ found edition member
    obtain ⟨copy, read, title⟩ := valid.owned.copies _ _ _ _ _ found edition member
    exact ⟨copy, getCopy_eq_some_iff.mpr ⟨held, read⟩, title⟩
  · rintro ⟨copy, held, title⟩
    obtain ⟨own, ownListed, ownFound, ownEdition, member⟩ := valid.listed copyId ref copy held
    rw [title, found, Option.some.injEq] at ownFound
    subst own
    rw [edition, Option.some.injEq] at ownEdition
    rw [ownEdition]
    exact member

theorem size_eq (valid : repository.Represented) {isbn : String} {book : Book}
    {listed : Dict String Ref} (found : repository.getBook isbn = some book)
    (edition : book.copies? = some listed) :
    listed.size = repository.countCopiesForIsbn isbn := by
  let own : String × Ref → Bool := fun entry =>
    ((repository.objects.read? entry.2).map fun copy => decide (copy.bookIsbn = isbn)).getD false
  have counted : repository.countCopiesForIsbn isbn =
      (repository.copies.entries.filter own).length := by
    rw [countCopiesForIsbn, List.countP_filterMap, Dict.values, List.countP_map,
      List.countP_eq_length_filter]
    rfl
  have same : listed.entries.Perm (repository.copies.entries.filter own) := by
    refine (List.perm_ext_iff_of_nodup listed.keysNodup.of_map
      (repository.copies.keysNodup.of_map.filter own)).mpr ?_
    rintro ⟨copyId, ref⟩
    rw [List.mem_filter, ← Dict.get?_eq_some_iff, ← Dict.get?_eq_some_iff,
      valid.lists_iff found edition]
    simp only [getCopy_eq_some_iff, own]
    cases repository.objects.read? ref <;> simp
  rw [counted, Dict.size, same.length_eq]

end Represented

end LibraFlow.Storage.BookRepository
