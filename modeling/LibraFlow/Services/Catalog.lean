import LibraFlow.Container.State

/-! Catalogue operations on the in-memory container: registering titles, adding
copies and reading details through the cache. The search index and the
autocomplete trie are separate structures and are not part of this state. -/

set_option autoImplicit false

namespace LibraFlow.Services

open LibraFlow.Core LibraFlow.Library LibraFlow.Storage LibraFlow.Container

def registerBook (formatType actorId : String) (arguments : BookArguments) (now : Datetime) :
    Call Book := do
  let book ← Proc.lift id (createBook formatType arguments)
  Proc.update fun state => { state with bookRepo := state.bookRepo.saveBook book }
  Proc.update fun state => { state with cache := state.cache.invalidatePrefix "search:" }
  Proc.update fun state => state.invalidateBook book.isbn
  Proc.update fun state => state.logEvent now actorId book.isbn
    (.createBook book.title book.getFormat.value)
  return book

/-- A title counts only when it is physical. -/
def physicalOnly (found : Option Book) : Option Book :=
  found.filter fun book => book.copies?.isSome

/-- Add a copy to a physical title. The title object is live: it is changed by
`addCopy`, again through the parent lookup of `saveCopy`, and saved at the end. -/
def addPhysicalCopy (isbn copyId branchId shelfLocation : String) (price : ℚ) (actorId : String)
    (now : Datetime) : Call BookCopy := do
  let found ← Proc.read fun state => state.bookRepo.getBook isbn
  let book ← Proc.expect (.bookNotFound isbn) (physicalOnly found)
  let copy := BookCopy.new copyId isbn branchId shelfLocation price
  let ref ← Proc.read fun state => state.bookRepo.objects.next
  Proc.update fun state => { state with bookRepo := state.bookRepo.attach isbn book copy }
  Proc.update fun state => state.saveCopy ref
  Proc.update fun state => { state with bookRepo := state.bookRepo.resaveBook isbn }
  Proc.update fun state => state.invalidateBook isbn
  Proc.update fun state => state.logEvent now actorId copyId (.addBookCopy isbn branchId)
  return copy

/-- The details of a title as stored now. -/
def currentDetails (state : State) (isbn : String) : Option Book.Details :=
  (state.bookRepo.getBook isbn).map (Book.toDict state.bookRepo.objects)

/-- Seconds a cached title stays valid. -/
def detailsTtl : ℚ := 600

def getBookDetails (isbn : String) (now : Datetime) : Call (Option Book.Details) := fun state =>
  let (details, cache) := state.cache.getOrCompute ("book:" ++ isbn)
    (currentDetails state isbn) detailsTtl now.timestamp
  (.ok details, { state with cache })

end LibraFlow.Services
