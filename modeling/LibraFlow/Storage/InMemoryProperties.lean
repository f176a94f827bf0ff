import LibraFlow.Core.BookProperties
import LibraFlow.Storage.InMemory

/-! Laws of the in-memory book repository. As long as copy identifiers are not
reused, the two maps agree on the objects they hold, and every operation has a
simple effect on the copies seen through the repository. -/

set_option autoImplicit false

namespace LibraFlow.Core.Book

open LibraFlow.Library

@[simp] theorem isbn_addCopy (book : Book) (copyId : String) (ref : Ref) :
    (book.addCopy copyId ref).isbn = book.isbn := by
  unfold addCopy
  split <;> rfl

@[simp] theorem copies?_addCopy (book : Book) (copyId : String) (ref : Ref) :
    (book.addCopy copyId ref).copies? = book.copies?.map (·.set copyId ref) := by
  unfold addCopy
  cases edition : book.edition <;> simp [copies?, edition]

end LibraFlow.Core.Book

namespace LibraFlow.Storage.BookRepository

open LibraFlow.Core LibraFlow.Library

theorem getCopy_eq_some_iff {repository : BookRepository} {copyId : String} {ref : Ref}
    {copy : BookCopy} :
    repository.getCopy copyId = some (ref, copy) ↔
      repository.copies.get? copyId = some ref ∧ repository.objects.read? ref = some copy := by
  unfold getCopy
  cases found : repository.copies.get? copyId with
  | none => simp
  | some held =>
      cases object : repository.objects.read? held with
      | none =>
          simp only [object, Option.map_none, reduceCtorEq, Option.some.injEq, false_iff, not_and]
          rintro rfl
          simp [object]
      | some copy' =>
          simp only [object, Option.map_some, Option.some.injEq, Prod.mk.injEq]
          constructor
          · rintro ⟨rfl, rfl⟩
            exact ⟨rfl, object⟩
          · rintro ⟨rfl, read⟩
            exact ⟨rfl, by rwa [object, Option.some.injEq] at read⟩

/-- The copies seen through the repository. -/
def view (repository : BookRepository) (copyId : String) : Option BookCopy :=
  (repository.getCopy copyId).map Prod.snd

theorem view_eq_some_iff {repository : BookRepository} {copyId : String} {copy : BookCopy} :
    repository.view copyId = some copy ↔ ∃ ref, repository.getCopy copyId = some (ref, copy) := by
  simp [view]

section CopyIds

variable {repository : BookRepository}
  (copyIds : ∀ copyId ref, repository.copies.get? copyId = some ref →
    ∃ copy, repository.objects.read? ref = some copy ∧ copy.copyId = copyId)

include copyIds

/-- Different identifiers are held by different objects. -/
theorem ref_injective {left right : String} {ref : Ref}
    (leftHeld : repository.copies.get? left = some ref)
    (rightHeld : repository.copies.get? right = some ref) : left = right := by
  obtain ⟨leftCopy, leftRead, leftId⟩ := copyIds left ref leftHeld
  obtain ⟨rightCopy, rightRead, rightId⟩ := copyIds right ref rightHeld
  rw [leftRead, Option.some.injEq] at rightRead
  rw [← leftId, rightRead, rightId]

theorem view_mutate {copyId : String} {ref : Ref} {copy : BookCopy} (changed : BookCopy)
    (found : repository.getCopy copyId = some (ref, copy)) :
    (repository.mutate ref changed).view =
      Function.update repository.view copyId (some changed) := by
  obtain ⟨held, read⟩ := getCopy_eq_some_iff.mp found
  funext other
  by_cases equal : other = copyId
  · subst other
    rw [Function.update_self, view_eq_some_iff]
    exact ⟨ref, getCopy_eq_some_iff.mpr ⟨held, Heap.read?_write_self changed read⟩⟩
  · rw [Function.update_of_ne equal]
    unfold view getCopy
    cases otherHeld : repository.copies.get? other with
    | none => simp [BookRepository.mutate, otherHeld]
    | some otherRef =>
        have different : ref ≠ otherRef := fun sameRef =>
          equal (ref_injective copyIds otherHeld (sameRef ▸ held))
        simp [BookRepository.mutate, otherHeld, Heap.read?_write, different]

end CopyIds

/-- Both maps hold the same objects, each under its own identifier. -/
structure WellFormed (repository : BookRepository) : Prop where
  copyIds : ∀ copyId ref, repository.copies.get? copyId = some ref →
    ∃ copy, repository.objects.read? ref = some copy ∧ copy.copyId = copyId
  bookKeys : ∀ isbn book, repository.books.get? isbn = some book → book.isbn = isbn
  shared : ∀ isbn book copies copyId ref, repository.books.get? isbn = some book →
    book.copies? = some copies → copies.get? copyId = some ref →
    repository.copies.get? copyId = some ref

theorem wellFormed_empty : WellFormed empty := by
  constructor <;> simp [empty]

namespace WellFormed

variable {repository : BookRepository}

theorem copyId_eq (valid : repository.WellFormed) {copyId : String} {ref : Ref}
    {copy : BookCopy} (found : repository.getCopy copyId = some (ref, copy)) :
    copy.copyId = copyId := by
  obtain ⟨held, read⟩ := getCopy_eq_some_iff.mp found
  obtain ⟨object, objectRead, identity⟩ := valid.copyIds copyId ref held
  rw [read, Option.some.injEq] at objectRead
  rw [objectRead]
  exact identity

theorem ref_injective (valid : repository.WellFormed) {left right : String} {ref : Ref}
    (leftHeld : repository.copies.get? left = some ref)
    (rightHeld : repository.copies.get? right = some ref) : left = right :=
  BookRepository.ref_injective valid.copyIds leftHeld rightHeld

theorem mutate (valid : repository.WellFormed) {copyId : String} {ref : Ref}
    {copy changed : BookCopy} (found : repository.getCopy copyId = some (ref, copy))
    (same : BookCopy.SameCopy copy changed) : (repository.mutate ref changed).WellFormed := by
  refine ⟨?_, valid.bookKeys, valid.shared⟩
  intro other otherRef held
  obtain ⟨object, read, identity⟩ := valid.copyIds other otherRef held
  by_cases equal : ref = otherRef
  · subst otherRef
    have sameObject := (getCopy_eq_some_iff.mp found).2
    rw [read, Option.some.injEq] at sameObject
    refine ⟨changed, Heap.read?_write_self changed read, ?_⟩
    rw [same.copyId, ← sameObject, identity]
  · exact ⟨object, by simp [BookRepository.mutate, Heap.read?_write, equal, read], identity⟩

/-- Changing a copy object changes that copy and no other. -/
theorem view_mutate (valid : repository.WellFormed) {copyId : String} {ref : Ref}
    {copy : BookCopy} (changed : BookCopy)
    (found : repository.getCopy copyId = some (ref, copy)) :
    (repository.mutate ref changed).view =
      Function.update repository.view copyId (some changed) :=
  BookRepository.view_mutate valid.copyIds changed found

end WellFormed

/-- A repository whose copies are found as before, and whose titles list only
copies of the repository. -/
structure SameCopies (before after : BookRepository) : Prop where
  copies : ∀ copyId, after.copies.get? copyId = before.copies.get? copyId
  objects : after.objects = before.objects

theorem SameCopies.view {before after : BookRepository} (same : SameCopies before after) :
    after.view = before.view := by
  funext copyId
  simp [BookRepository.view, getCopy, same.copies, same.objects]

theorem SameCopies.getCopy {before after : BookRepository} (same : SameCopies before after)
    (copyId : String) : after.getCopy copyId = before.getCopy copyId := by
  simp [BookRepository.getCopy, same.copies, same.objects]

@[simp] theorem objects_saveCopy (repository : BookRepository) (ref : Ref) :
    (repository.saveCopy ref).objects = repository.objects := by
  unfold saveCopy
  split <;> rfl

/-- Saving a copy that the repository holds already finds the same copies. -/
theorem sameCopies_saveCopy {repository : BookRepository} {ref : Ref} {copy : BookCopy}
    (read : repository.objects.read? ref = some copy)
    (held : repository.copies.get? copy.copyId = some ref) :
    SameCopies repository (repository.saveCopy ref) := by
  simp only [saveCopy, read]
  refine ⟨?_, rfl⟩
  intro copyId
  rw [Dict.get?_set]
  split
  · next same => rw [← same, held]
  · rfl

theorem WellFormed.saveCopy {repository : BookRepository} (valid : repository.WellFormed)
    {ref : Ref} {copy : BookCopy} (read : repository.objects.read? ref = some copy)
    (held : repository.copies.get? copy.copyId = some ref) :
    (repository.saveCopy ref).WellFormed := by
  have same := sameCopies_saveCopy read held
  refine ⟨?_, ?_, ?_⟩
  · intro copyId otherRef found
    rw [same.copies] at found
    rw [same.objects]
    exact valid.copyIds copyId otherRef found
  · intro isbn book found
    simp only [BookRepository.saveCopy, read] at found
    split at found
    · next parent parentFound =>
        rw [Dict.get?_set] at found
        split at found
        · next equal =>
            cases found
            rw [Book.isbn_addCopy, valid.bookKeys _ _ parentFound, equal]
        · exact valid.bookKeys isbn book found
    · exact valid.bookKeys isbn book found
  · intro isbn book copies copyId otherRef found listed member
    rw [same.copies]
    simp only [BookRepository.saveCopy, read] at found
    split at found
    · next parent parentFound =>
        rw [Dict.get?_set] at found
        split at found
        · cases found
          rw [Book.copies?_addCopy, Option.map_eq_some_iff] at listed
          obtain ⟨old, oldListed, rfl⟩ := listed
          rw [Dict.get?_set] at member
          split at member
          · next sameId =>
              cases member
              rw [← sameId, held]
          · exact valid.shared _ _ _ _ _ parentFound oldListed member
        · exact valid.shared _ _ _ _ _ found listed member
    · exact valid.shared _ _ _ _ _ found listed member

/-- Updating a copy object and saving it changes that copy and no other. -/
theorem WellFormed.mutate_saveCopy {repository : BookRepository} (valid : repository.WellFormed)
    {copyId : String} {ref : Ref} {copy changed : BookCopy}
    (found : repository.getCopy copyId = some (ref, copy))
    (same : BookCopy.SameCopy copy changed) :
    ((repository.mutate ref changed).saveCopy ref).WellFormed ∧
      ((repository.mutate ref changed).saveCopy ref).view =
        Function.update repository.view copyId (some changed) ∧
      ((repository.mutate ref changed).saveCopy ref).getCopy copyId = some (ref, changed) := by
  obtain ⟨held, read⟩ := getCopy_eq_some_iff.mp found
  have written : (repository.mutate ref changed).objects.read? ref = some changed :=
    Heap.read?_write_self changed read
  have listed : (repository.mutate ref changed).copies.get? changed.copyId = some ref := by
    rw [same.copyId, valid.copyId_eq found]
    exact held
  have unchanged := sameCopies_saveCopy written listed
  refine ⟨(valid.mutate found same).saveCopy written listed, ?_, ?_⟩
  · rw [unchanged.view, valid.view_mutate changed found]
  · rw [unchanged.getCopy, getCopy_eq_some_iff]
    exact ⟨held, written⟩

/-- Entering copies that the map holds already changes no lookup. -/
private theorem get?_foldl_indexCopy (objects : Heap BookCopy) (refs : List Ref)
    (copies : Dict String Ref) (held : ∀ ref ∈ refs, ∀ copy, objects.read? ref = some copy →
      copies.get? copy.copyId = some ref) (copyId : String) :
    (refs.foldl (indexCopy objects) copies).get? copyId = copies.get? copyId := by
  induction refs generalizing copies with
  | nil => rfl
  | cons ref rest ih =>
      have unchanged : ∀ other, (indexCopy objects copies ref).get? other = copies.get? other := by
        intro other
        unfold indexCopy
        split
        · next copy read =>
            rw [Dict.get?_set]
            split
            · next same => rw [← same, held ref (by simp) copy read]
            · rfl
        · rfl
      rw [List.foldl_cons, ih, unchanged]
      intro later member copy read
      rw [unchanged]
      exact held later (by simp [member]) copy read

/-- Saving a title whose copies are all held already finds the same copies. -/
theorem sameCopies_saveBook {repository : BookRepository} (valid : repository.WellFormed)
    {book : Book}
    (listed : ∀ copies copyId ref, book.copies? = some copies → copies.get? copyId = some ref →
      repository.copies.get? copyId = some ref) :
    SameCopies repository (repository.saveBook book) := by
  refine ⟨?_, rfl⟩
  intro copyId
  cases edition : book.copies? with
  | none => simp [saveBook, edition]
  | some copies =>
      simp only [saveBook, edition]
      apply get?_foldl_indexCopy
      intro ref member copy read
      obtain ⟨key, found⟩ := (Dict.mem_values_iff copies ref).mp member
      have held := listed copies key ref edition found
      obtain ⟨object, objectRead, identity⟩ := valid.copyIds key ref held
      rw [read, Option.some.injEq] at objectRead
      rw [objectRead, identity, held]

theorem WellFormed.saveBook {repository : BookRepository} (valid : repository.WellFormed)
    {book : Book}
    (listed : ∀ copies copyId ref, book.copies? = some copies → copies.get? copyId = some ref →
      repository.copies.get? copyId = some ref) :
    (repository.saveBook book).WellFormed := by
  have same := sameCopies_saveBook valid listed
  refine ⟨?_, ?_, ?_⟩
  · intro copyId ref found
    rw [same.copies] at found
    exact valid.copyIds copyId ref found
  · intro isbn found foundBook
    simp only [BookRepository.saveBook, Dict.get?_set] at foundBook
    split at foundBook
    · next equal =>
        cases foundBook
        exact equal
    · exact valid.bookKeys isbn found foundBook
  · intro isbn found copies copyId ref foundBook edition member
    rw [same.copies]
    simp only [BookRepository.saveBook, Dict.get?_set] at foundBook
    split at foundBook
    · cases foundBook
      exact listed copies copyId ref edition member
    · exact valid.shared _ _ _ _ _ foundBook edition member

theorem resaveBook_spec {repository : BookRepository} (valid : repository.WellFormed)
    (isbn : String) :
    SameCopies repository (repository.resaveBook isbn) ∧
      (repository.resaveBook isbn).WellFormed := by
  unfold resaveBook
  cases found : repository.getBook isbn with
  | none => exact ⟨⟨fun _ => rfl, rfl⟩, valid⟩
  | some book =>
      have listed := fun copies copyId ref => valid.shared isbn book copies copyId ref found
      exact ⟨sameCopies_saveBook valid listed, valid.saveBook listed⟩

/-- What attaching and saving a new copy object leaves behind. -/
theorem attach_saveCopy {repository : BookRepository} {isbn : String} {book : Book}
    {copy : BookCopy} (title : copy.bookIsbn = isbn) :
    (repository.attach isbn book copy).saveCopy repository.objects.next = {
      objects := repository.objects.alloc copy
      copies := repository.copies.set copy.copyId repository.objects.next
      books := (repository.books.set isbn
          (book.addCopy copy.copyId repository.objects.next)).set isbn
        ((book.addCopy copy.copyId repository.objects.next).addCopy copy.copyId
          repository.objects.next) } := by
  have read : (repository.attach isbn book copy).objects.read? repository.objects.next =
      some copy := Heap.read?_alloc_next _ _
  unfold saveCopy
  rw [read]
  simp [attach, title]

/-- Attaching and saving a copy with a fresh identifier keeps the maps in agreement. -/
theorem WellFormed.attach_saveCopy {repository : BookRepository} (valid : repository.WellFormed)
    {isbn : String} {book : Book} {copy : BookCopy} (found : repository.getBook isbn = some book)
    (title : copy.bookIsbn = isbn) (fresh : repository.copies.get? copy.copyId = none) :
    ((repository.attach isbn book copy).saveCopy repository.objects.next).WellFormed := by
  have older : ∀ copyId ref, repository.copies.get? copyId = some ref →
      (repository.copies.set copy.copyId repository.objects.next).get? copyId = some ref := by
    intro copyId ref held
    have different : copy.copyId ≠ copyId := by
      rintro rfl
      rw [fresh] at held
      cases held
    rw [Dict.get?_set_of_ne _ _ different, held]
  rw [BookRepository.attach_saveCopy title]
  refine ⟨?_, ?_, ?_⟩
  · intro copyId ref held
    simp only [Dict.get?_set] at held
    split at held
    · next same =>
        cases held
        exact ⟨copy, Heap.read?_alloc_next _ _, same⟩
    · obtain ⟨object, read, identity⟩ := valid.copyIds copyId ref held
      exact ⟨object, Heap.read?_alloc_of_some copy read, identity⟩
  · intro other otherBook otherFound
    simp only [Dict.get?_set] at otherFound
    split at otherFound
    · next same =>
        cases otherFound
        rw [Book.isbn_addCopy, Book.isbn_addCopy, valid.bookKeys isbn book found, same]
    · exact valid.bookKeys other otherBook otherFound
  · intro other otherBook copies copyId ref otherFound listed member
    simp only [Dict.get?_set] at otherFound
    split at otherFound
    · cases otherFound
      simp only [Book.copies?_addCopy, Option.map_map, Option.map_eq_some_iff,
        Function.comp_apply] at listed
      obtain ⟨old, oldListed, rfl⟩ := listed
      simp only [Dict.get?_set] at member
      split at member
      · next same =>
          cases member
          simp [same]
      · exact older copyId ref (valid.shared _ _ _ _ _ found oldListed member)
    · exact older copyId ref (valid.shared _ _ _ _ _ otherFound listed member)

/-- Attaching and saving a copy with a fresh identifier adds exactly that copy. -/
theorem WellFormed.view_attach_saveCopy {repository : BookRepository}
    (valid : repository.WellFormed) {isbn : String} {book : Book} {copy : BookCopy}
    (title : copy.bookIsbn = isbn) :
    ((repository.attach isbn book copy).saveCopy repository.objects.next).view =
      Function.update repository.view copy.copyId (some copy) := by
  rw [BookRepository.attach_saveCopy title]
  funext copyId
  by_cases same : copyId = copy.copyId
  · subst copyId
    rw [Function.update_self, view_eq_some_iff]
    exact ⟨repository.objects.next, getCopy_eq_some_iff.mpr
      ⟨Dict.get?_set_self _ _ _, Heap.read?_alloc_next _ _⟩⟩
  · rw [Function.update_of_ne same]
    have different : copy.copyId ≠ copyId := fun equal => same equal.symm
    unfold view getCopy
    cases held : repository.copies.get? copyId with
    | none => simp [different, held]
    | some ref =>
        obtain ⟨object, read, _⟩ := valid.copyIds copyId ref held
        simp [different, held, read, Heap.read?_alloc_of_some copy read]

end LibraFlow.Storage.BookRepository
