import LibraFlow.Core.Errors
import LibraFlow.Library.Dict
import LibraFlow.Library.Heap

/-! Copies with their lifecycle states, and the titles that own them. -/

set_option autoImplicit false

namespace LibraFlow.Core

open LibraFlow.Library

inductive BookStatus where
  | available
  | reserved
  | issued
  | inTransit
  | underRepair
  | lost
  deriving DecidableEq, Repr

def BookStatus.value : BookStatus → String
  | available => "AVAILABLE"
  | reserved => "RESERVED"
  | issued => "ISSUED"
  | inTransit => "IN_TRANSIT"
  | underRepair => "UNDER_REPAIR"
  | lost => "LOST"

/-- One trackable copy of a title. The state object of the source carries no
data, so it is represented by the status it reports. -/
structure BookCopy where
  copyId : String
  bookIsbn : String
  branchId : String
  shelfLocation : String
  price : ℚ
  status : BookStatus
  currentBorrowerId : Option String
  currentReserverId : Option String
  targetBranchId : Option String
  borrowCount : Nat
  deriving DecidableEq, Repr

namespace BookCopy

/-- A copy as its constructor leaves it. -/
def new (copyId bookIsbn branchId shelfLocation : String) (price : ℚ) : BookCopy where
  copyId := copyId
  bookIsbn := bookIsbn
  branchId := branchId
  shelfLocation := shelfLocation
  price := price
  status := .available
  currentBorrowerId := none
  currentReserverId := none
  targetBranchId := none
  borrowCount := 0

/-- The refusal every state inherits for a transition it does not define. -/
def refuse (action : String) (copy : BookCopy) : Except String BookCopy :=
  .error ("Cannot " ++ action ++ " in state '" ++ copy.status.value ++ "'.")

/-- The state's own part of a checkout, before the loan is counted. -/
def stateCheckOut (copy : BookCopy) (borrowerId : String) : Except String BookCopy :=
  match copy.status with
  | .available => .ok { copy with currentBorrowerId := some borrowerId, status := .issued }
  | .reserved =>
      if truthy copy.currentReserverId ∧ copy.currentReserverId ≠ some borrowerId then
        .error ("Copy is reserved for user '" ++ copy.currentReserverId.getD "None" ++
          "', not '" ++ borrowerId ++ "'.")
      else
        .ok { copy with
          currentReserverId := none
          currentBorrowerId := some borrowerId
          status := .issued }
  | _ => refuse "checkout book copy" copy

def checkOut (copy : BookCopy) (borrowerId : String) : Except String BookCopy :=
  match copy.stateCheckOut borrowerId with
  | .ok issued => .ok { issued with borrowCount := issued.borrowCount + 1 }
  | .error detail => .error detail

def returnBook (copy : BookCopy) : Except String BookCopy :=
  match copy.status with
  | .reserved => .ok { copy with currentReserverId := none, status := .available }
  | .issued => .ok { copy with currentBorrowerId := none, status := .available }
  | _ => refuse "return book copy" copy

def reserve (copy : BookCopy) (reserverId : String) : Except String BookCopy :=
  match copy.status with
  | .available => .ok { copy with currentReserverId := some reserverId, status := .reserved }
  | _ => refuse "reserve book copy" copy

def startTransfer (copy : BookCopy) (destinationBranch : String) : Except String BookCopy :=
  match copy.status with
  | .available => .ok { copy with targetBranchId := some destinationBranch, status := .inTransit }
  | _ => refuse "transfer book copy" copy

def completeTransfer (copy : BookCopy) : Except String BookCopy :=
  match copy.status with
  | .inTransit =>
      if truthy copy.targetBranchId then
        .ok { copy with
          branchId := copy.targetBranchId.getD copy.branchId
          targetBranchId := none
          status := .available }
      else .ok { copy with status := .available }
  | _ => refuse "complete transfer" copy

def markLost (copy : BookCopy) : BookCopy := { copy with status := .lost }

def markRepair (copy : BookCopy) : BookCopy := { copy with status := .underRepair }

def restoreAvailable (copy : BookCopy) : BookCopy :=
  match copy.status with
  | .lost => { copy with currentBorrowerId := none, currentReserverId := none, status := .available }
  | _ => { copy with status := .available }

/-- The public fields of a copy. -/
structure Details where
  copyId : String
  bookIsbn : String
  branchId : String
  shelfLocation : String
  price : ℚ
  status : String
  currentBorrowerId : Option String
  currentReserverId : Option String
  borrowCount : Nat
  deriving DecidableEq, Repr

def toDict (copy : BookCopy) : Details where
  copyId := copy.copyId
  bookIsbn := copy.bookIsbn
  branchId := copy.branchId
  shelfLocation := copy.shelfLocation
  price := copy.price
  status := copy.status.value
  currentBorrowerId := copy.currentBorrowerId
  currentReserverId := copy.currentReserverId
  borrowCount := copy.borrowCount

end BookCopy

inductive BookFormat where
  | physical
  | ebook
  | audiobook
  deriving DecidableEq, Repr

def BookFormat.value : BookFormat → String
  | physical => "PHYSICAL"
  | ebook => "EBOOK"
  | audiobook => "AUDIOBOOK"

/-- The member of the enumeration with the given value, if any. -/
def BookFormat.ofValue? (value : String) : Option BookFormat :=
  [physical, ebook, audiobook].find? (fun format => decide (format.value = value))

/-- What a title holds beyond the fields all formats share. -/
inductive Edition where
  | physical (weightGrams pageCount : Int) (copies : Dict String Ref)
  | ebook (downloadUrl : String) (fileSizeMb : ℚ) (fileFormat : String) (drmProtected : Bool)
      (maxConcurrentDownloads activeReadersCount : Int)
  | audiobook (streamUrl : String) (durationMinutes : Int) (narrator : String)
  deriving DecidableEq

structure Book where
  isbn : String
  title : String
  authors : List String
  category : String
  publicationYear : Int
  publisher : String
  description : String
  rating : ℚ
  difficultyLevel : String
  keywords : List String
  borrowHistoryCount : Nat
  edition : Edition
  deriving DecidableEq

namespace Book

def getFormat (book : Book) : BookFormat :=
  match book.edition with
  | .physical .. => .physical
  | .ebook .. => .ebook
  | .audiobook .. => .audiobook

/-- The copies of a physical title, in the order they were added. -/
def copyObjects (objects : Heap BookCopy) (copies : Dict String Ref) : List BookCopy :=
  copies.values.filterMap objects.read?

def getAvailableCopies (objects : Heap BookCopy) (copies : Dict String Ref) : List BookCopy :=
  (copyObjects objects copies).filter (fun copy => copy.status = .available)

def isAvailable (objects : Heap BookCopy) (book : Book) : Bool :=
  match book.edition with
  | .physical _ _ copies => 0 < (getAvailableCopies objects copies).length
  | .ebook _ _ _ _ maxConcurrentDownloads activeReadersCount =>
      activeReadersCount < maxConcurrentDownloads
  | .audiobook .. => true

/-- The format-specific public fields of a title. -/
inductive EditionDetails where
  | physical (totalCopies availableCopies : Nat) (weightGrams pageCount : Int)
      (copies : List BookCopy.Details)
  | ebook (downloadUrl : String) (fileSizeMb : ℚ) (fileFormat : String) (drmProtected : Bool)
      (activeReaders maxConcurrentDownloads : Int)
  | audiobook (streamUrl : String) (durationMinutes : Int) (narrator : String)
  deriving DecidableEq, Repr

/-- The public fields of a title. -/
structure Details where
  isbn : String
  title : String
  authors : List String
  category : String
  publicationYear : Int
  publisher : String
  description : String
  rating : ℚ
  difficultyLevel : String
  keywords : List String
  format : String
  isAvailable : Bool
  edition : EditionDetails
  deriving DecidableEq, Repr

def toDict (objects : Heap BookCopy) (book : Book) : Details where
  isbn := book.isbn
  title := book.title
  authors := book.authors
  category := book.category
  publicationYear := book.publicationYear
  publisher := book.publisher
  description := book.description
  rating := book.rating
  difficultyLevel := book.difficultyLevel
  keywords := book.keywords
  format := book.getFormat.value
  isAvailable := book.isAvailable objects
  edition :=
    match book.edition with
    | .physical weightGrams pageCount copies =>
        .physical copies.size (getAvailableCopies objects copies).length weightGrams pageCount
          ((copyObjects objects copies).map BookCopy.toDict)
    | .ebook downloadUrl fileSizeMb fileFormat drmProtected maxConcurrentDownloads
        activeReadersCount =>
        .ebook downloadUrl fileSizeMb fileFormat drmProtected activeReadersCount
          maxConcurrentDownloads
    | .audiobook streamUrl durationMinutes narrator =>
        .audiobook streamUrl durationMinutes narrator

/-- Register a copy with a physical title; other formats have no copies. -/
def addCopy (book : Book) (copyId : String) (ref : Ref) : Book :=
  match book.edition with
  | .physical weightGrams pageCount copies =>
      { book with edition := .physical weightGrams pageCount (copies.set copyId ref) }
  | _ => book

/-- The copies map of a physical title. -/
def copies? (book : Book) : Option (Dict String Ref) :=
  match book.edition with
  | .physical _ _ copies => some copies
  | _ => none

end Book

/-- The keyword arguments of the book factory. An absent argument takes the
factory's default; the identifier and the title have none. -/
structure BookArguments where
  isbn : Option String := none
  title : Option String := none
  authors : Option (List String) := none
  category : Option String := none
  publicationYear : Option Int := none
  publisher : Option String := none
  description : Option String := none
  rating : Option ℚ := none
  difficultyLevel : Option String := none
  keywords : Option (List String) := none
  weightGrams : Option Int := none
  pageCount : Option Int := none
  downloadUrl : Option String := none
  fileSizeMb : Option ℚ := none
  fileFormat : Option String := none
  drmProtected : Option Bool := none
  maxConcurrentDownloads : Option Int := none
  streamUrl : Option String := none
  durationMinutes : Option Int := none
  narrator : Option String := none

/-- The edition the factory builds for a format. -/
def BookArguments.edition (arguments : BookArguments) (format : BookFormat) (isbn : String) :
    Edition :=
  match format with
  | .physical =>
      .physical (arguments.weightGrams.getD 500) (arguments.pageCount.getD 400) .empty
  | .ebook =>
      .ebook (arguments.downloadUrl.getD ("https://cdn.libraflow.org/ebooks/" ++ isbn ++ ".pdf"))
        (arguments.fileSizeMb.getD (31 / 2)) (arguments.fileFormat.getD "PDF")
        (arguments.drmProtected.getD true) (arguments.maxConcurrentDownloads.getD 100) 0
  | .audiobook =>
      .audiobook (arguments.streamUrl.getD ("https://audio.libraflow.org/" ++ isbn ++ ".m4a"))
        (arguments.durationMinutes.getD 360) (arguments.narrator.getD "Studio Voice")

/-- Build a title from a format name and keyword arguments. -/
def createBook (formatType : String) (arguments : BookArguments) : Except Error Book :=
  match BookFormat.ofValue? (upper formatType) with
  | none => .error (.valueError ("'" ++ upper formatType ++ "' is not a valid BookFormat"))
  | some format =>
      match arguments.isbn with
      | none => .error (.keyError "isbn")
      | some isbn =>
          match arguments.title with
          | none => .error (.keyError "title")
          | some title =>
              .ok {
                isbn := isbn
                title := title
                authors := arguments.authors.getD ["Unknown"]
                category := arguments.category.getD "General"
                publicationYear := arguments.publicationYear.getD 2024
                publisher := arguments.publisher.getD "Standard Press"
                description := arguments.description.getD ""
                rating := arguments.rating.getD 4
                difficultyLevel := arguments.difficultyLevel.getD "Intermediate"
                keywords := arguments.keywords.getD []
                borrowHistoryCount := 0
                edition := arguments.edition format isbn }

end LibraFlow.Core
