import LibraFlow.Library.Table
import LibraFlow.Services.Billing
import LibraFlow.Services.Transfers

/-! The tables of the PostgreSQL backend, the mapping from a user row to the user
object the services work on, and the writes a transaction makes. -/

set_option autoImplicit false

namespace LibraFlow.Postgres

open LibraFlow.Core LibraFlow.Library LibraFlow.Storage LibraFlow.Patterns LibraFlow.Distributed
  LibraFlow.Container LibraFlow.Services

/-- The limit each role's constructor sets; the column of the row is not read back. -/
def roleLimit : Profile → Nat
  | .student .. => 4
  | .faculty .. => 10
  | .librarian .. => 15
  | .admin => 50

/-- Empty student columns take their defaults. -/
def loadProfile : Profile → Profile
  | .student academicYear major examDate =>
      .student (if academicYear = 0 then 1 else academicYear)
        (if major = "" then "Computer Science" else major) examDate
  | profile => profile

def modelToUser (model : User) : User :=
  { model with
    maxBorrowLimit := roleLimit model.profile
    profile := loadProfile model.profile }

/-- Empty format columns take their defaults; the copies are added separately. -/
def loadEdition : Edition → Edition
  | .physical weightGrams pageCount _ =>
      .physical (if weightGrams = 0 then 500 else weightGrams)
        (if pageCount = 0 then 400 else pageCount) .empty
  | .ebook downloadUrl fileSizeMb fileFormat drmProtected maxConcurrentDownloads
      activeReadersCount =>
      .ebook downloadUrl fileSizeMb (if fileFormat = "" then "PDF" else fileFormat) drmProtected
        (if maxConcurrentDownloads = 0 then 100 else maxConcurrentDownloads) activeReadersCount
  | .audiobook streamUrl durationMinutes narrator =>
      .audiobook streamUrl durationMinutes (if narrator = "" then "Narrator" else narrator)

/-- Assemble a title from its row and the objects made from its copy rows. -/
def modelToBook (model : Book) (copies : List BookCopy) : Heap BookCopy × Book :=
  copies.foldl (fun (objects, book) copy =>
      (objects.alloc copy, book.addCopy copy.copyId objects.next))
    (.empty, { model with edition := loadEdition model.edition })

/-- The rows of the database. The copies of a title are found by its identifier. -/
structure Tables where
  books : Table Book.isbn
  branches : Dict String LibraryBranch
  copies : Table BookCopy.copyId
  users : Table User.userId
  records : List CirculationRecord
  events : List (OutboxEvent CopyEvent)

/-- A write of a transaction. A user row is written back with the row it was
computed from beside it. -/
inductive Write where
  | record (record : CirculationRecord)
  | copy (row : BookCopy)
  | user (model row : User)
  | event (event : OutboxEvent CopyEvent)

namespace Tables

/-- The copy rows of a title. -/
def copiesOf (tables : Tables) (isbn : String) : List BookCopy :=
  tables.copies.rows.values.filter fun copy => copy.bookIsbn = isbn

def getBook (tables : Tables) (isbn : String) : Option (Heap BookCopy × Book) :=
  (tables.books.get? isbn).map fun model => modelToBook model (tables.copiesOf isbn)

/-- What `get_book_details` computes on a cache miss. -/
def details (tables : Tables) (isbn : String) : Option Book.Details :=
  (tables.getBook isbn).map fun (objects, book) => book.toDict objects

def apply (tables : Tables) : Write → Tables
  | .record record => { tables with records := tables.records ++ [record] }
  | .copy row => { tables with copies := tables.copies.merge row }
  | .user _ row => { tables with users := tables.users.merge row }
  | .event event => { tables with events := tables.events ++ [event] }

/-- Make the writes of a transaction visible. -/
def commit (tables : Tables) (writes : List Write) : Tables := writes.foldl apply tables

/-- The fine of a user, given the number of users waiting for the title; an
unknown title costs nothing. -/
def fineOn (books : Table Book.isbn) (waiting : Nat) (isbn : String) (overdueDays : Int)
    (model : User) : ℚ :=
  match books.get? isbn with
  | some book => calculateFine baseRate overdueDays waiting book.rating
      (modelToUser model).lateReturns
  | none => 0

/-- The fine `calculate_projected_fine` computes; an unknown user owes nothing. -/
def projectedFine (tables : Tables) (waiting : Nat) (isbn userId : String) (overdueDays : Int) :
    ℚ :=
  match tables.users.get? userId with
  | some model => fineOn tables.books waiting isbn overdueDays model
  | none => 0

end Tables

end LibraFlow.Postgres
