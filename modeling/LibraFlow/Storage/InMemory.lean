import LibraFlow.Core.Book

/-! The in-memory book repository. Titles and copies live in two maps that
overlap: a physical title has its own map of copies, and both maps hold
references to the same copy objects. -/

set_option autoImplicit false

namespace LibraFlow.Storage

open LibraFlow.Core LibraFlow.Library

structure BookRepository where
  books : Dict String Book
  copies : Dict String Ref
  objects : Heap BookCopy

namespace BookRepository

def empty : BookRepository := ⟨.empty, .empty, .empty⟩

/-- Enter a copy object in the repository's own map. -/
def indexCopy (objects : Heap BookCopy) (copies : Dict String Ref) (ref : Ref) :
    Dict String Ref :=
  match objects.read? ref with
  | some copy => copies.set copy.copyId ref
  | none => copies

def saveBook (repository : BookRepository) (book : Book) : BookRepository :=
  { repository with
    books := repository.books.set book.isbn book
    copies :=
      match book.copies? with
      | some copies => copies.values.foldl (indexCopy repository.objects) repository.copies
      | none => repository.copies }

def getBook (repository : BookRepository) (isbn : String) : Option Book :=
  repository.books.get? isbn

/-- The stored titles, each seen through the copy objects. -/
def listBooks (repository : BookRepository) : List (Heap BookCopy × Book) :=
  repository.books.values.map fun book => (repository.objects, book)

/-- Save the live title object once more, as it is now. -/
def resaveBook (repository : BookRepository) (isbn : String) : BookRepository :=
  match repository.getBook isbn with
  | some live => repository.saveBook live
  | none => repository

/-- Remove a title; a physical title takes the copies it lists along. -/
def deleteBook (repository : BookRepository) (isbn : String) : BookRepository :=
  { repository with
    books := repository.books.erase isbn
    copies :=
      match (repository.books.get? isbn).bind Book.copies? with
      | some copies => copies.keys.foldl Dict.erase repository.copies
      | none => repository.copies }

/-- Enter a copy object in both maps. -/
def saveCopy (repository : BookRepository) (ref : Ref) : BookRepository :=
  match repository.objects.read? ref with
  | none => repository
  | some copy =>
      { repository with
        copies := repository.copies.set copy.copyId ref
        books :=
          match repository.books.get? copy.bookIsbn with
          | some parent => repository.books.set copy.bookIsbn (parent.addCopy copy.copyId ref)
          | none => repository.books }

/-- Allocate a copy object and list it under its title. -/
def attach (repository : BookRepository) (isbn : String) (book : Book) (copy : BookCopy) :
    BookRepository :=
  { repository with
    objects := repository.objects.alloc copy
    books := repository.books.set isbn (book.addCopy copy.copyId repository.objects.next) }

/-- The live object of a copy, with its reference. -/
def getCopy (repository : BookRepository) (copyId : String) : Option (Ref × BookCopy) :=
  match repository.copies.get? copyId with
  | none => none
  | some ref => (repository.objects.read? ref).map fun copy => (ref, copy)

def countCopiesForIsbn (repository : BookRepository) (isbn : String) : Nat :=
  (repository.copies.values.filterMap repository.objects.read?).countP
    fun copy => copy.bookIsbn = isbn

/-- Update a copy object in place. -/
def mutate (repository : BookRepository) (ref : Ref) (copy : BookCopy) : BookRepository :=
  { repository with objects := repository.objects.write ref copy }

end BookRepository

end LibraFlow.Storage
