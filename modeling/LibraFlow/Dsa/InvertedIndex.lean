import LibraFlow.Core.Book
import LibraFlow.Dsa.Text
import LibraFlow.Library.Decimal
import Mathlib.Data.List.Sort

/-! The inverted index over the catalogue: postings and term frequencies that are
updated book by book, and the ranked search on them. Whether a title is available
is asked of the title when the search runs. -/

set_option autoImplicit false

namespace LibraFlow.Dsa

open LibraFlow.Core LibraFlow.Library

/-- Postings, term frequencies, titles and document lengths. -/
structure InvertedIndex where
  index : Dict String (Finset String)
  docTermFreq : Dict String (Dict String Nat)
  books : Dict String Book
  docLengths : Dict String Nat

/-- The criteria of a search besides the query. -/
structure SearchFilters where
  category : Option String := none
  author : Option String := none
  minRating : Option ℚ := none
  onlyAvailable : Bool := false

structure SearchHit where
  book : Book
  score : ℚ

/-- The part of a list a Python slice with this upper end keeps. -/
def sliceTo {α : Type} (limit : Int) (items : List α) : List α :=
  if 0 ≤ limit then items.take limit.toNat else items.take (items.length - limit.natAbs)

theorem sliceTo_isPrefix {α : Type} (limit : Int) (items : List α) : sliceTo limit items <+: items := by
  unfold sliceTo
  split <;> exact List.take_prefix _ _

theorem sliceTo_of_length_le {α : Type} {limit : Int} {items : List α}
    (enough : (items.length : Int) ≤ limit) : sliceTo limit items = items := by
  have nonnegative : 0 ≤ limit := (Int.natCast_nonneg _).trans enough
  rw [sliceTo, if_pos nonnegative]
  exact List.take_of_length_le (by omega)

/-- The list repeated, as the source boosts a field. -/
def boosted (times : Nat) (tokens : List String) : List String :=
  (List.replicate times tokens).flatten

/-- The terms a title is found under, with the boosts of its fields. -/
def bookTokens (rules : TextRules) (book : Book) : List String :=
  [dropHyphens (rules.lower book.isbn), rules.lower book.isbn] ++
    boosted 3 (rules.tokenize book.title) ++
    book.authors.flatMap (fun author => boosted 2 (rules.tokenize author)) ++
    boosted 2 (rules.tokenize book.category) ++
    book.keywords.flatMap (fun keyword => boosted 2 (rules.tokenize keyword)) ++
    rules.tokenize book.description

/-- A filter is given, so that an empty query selects all titles. -/
def SearchFilters.given (filters : SearchFilters) : Bool :=
  truthy filters.category || truthy filters.author || filters.minRating.isSome ||
    filters.onlyAvailable

/-- The title passes the criteria. -/
def SearchFilters.passes (rules : TextRules) (available : Book → Bool) (filters : SearchFilters)
    (book : Book) : Bool :=
  (!truthy filters.category ||
      isSubstring (rules.lower (filters.category.getD "")) (rules.lower book.category)) &&
    (!truthy filters.author || book.authors.any fun author =>
      isSubstring (rules.lower (filters.author.getD "")) (rules.lower author)) &&
    filters.minRating.all (fun minRating => !decide (book.rating < minRating)) &&
    (!filters.onlyAvailable || available book)

namespace InvertedIndex

def empty : InvertedIndex := ⟨.empty, .empty, .empty, .empty⟩

/-- The titles listed under a term. -/
def postings (self : InvertedIndex) (term : String) : Finset String :=
  (self.index.get? term).getD ∅

/-- The stored frequencies of a title. -/
def frequencies (self : InvertedIndex) (isbn : String) : Dict String Nat :=
  (self.docTermFreq.get? isbn).getD .empty

/-- Take a title off a term, which stays in the vocabulary. -/
def discard (isbn : String) (index : Dict String (Finset String)) (term : String) :
    Dict String (Finset String) :=
  index.set term (((index.get? term).getD ∅).erase isbn)

def post (isbn : String) (index : Dict String (Finset String)) (term : String) :
    Dict String (Finset String) :=
  index.set term (insert isbn ((index.get? term).getD ∅))

def countTerm (frequencies : Dict String Nat) (term : String) : Dict String Nat :=
  frequencies.set term ((frequencies.get? term).getD 0 + 1)

/-- Index a title; the terms of an earlier version are cleared first. -/
def indexBook (rules : TextRules) (self : InvertedIndex) (book : Book) : InvertedIndex :=
  let tokens := bookTokens rules book
  let cleared := (self.frequencies book.isbn).keys.foldl (discard book.isbn) self.index
  { index := tokens.foldl (post book.isbn) cleared
    docTermFreq := self.docTermFreq.set book.isbn (tokens.foldl countTerm .empty)
    books := self.books.set book.isbn book
    docLengths := self.docLengths.set book.isbn tokens.length }

/-- Take a title off a term and drop a term nothing is listed under. -/
def retract (isbn : String) (index : Dict String (Finset String)) (term : String) :
    Dict String (Finset String) :=
  match index.get? term with
  | none => index
  | some listed =>
      if listed.erase isbn = ∅ then index.erase term else index.set term (listed.erase isbn)

def removeBook (self : InvertedIndex) (isbn : String) : InvertedIndex where
  index := (self.frequencies isbn).keys.foldl (retract isbn) self.index
  docTermFreq := self.docTermFreq.erase isbn
  books := self.books.erase isbn
  docLengths := self.docLengths.erase isbn

/-- The titles a search considers. -/
def candidates (self : InvertedIndex) (queryTokens : List String) : Finset String :=
  if queryTokens = [] then self.books.keys.toFinset
  else queryTokens.foldl (fun found token => found ∪ self.postings token) ∅

/-- The relevance of a title: the weights of the query tokens it contains. The
logarithm of the source is a parameter. -/
def relevance (log : ℚ → ℚ) (self : InvertedIndex) (isbn : String) (queryTokens : List String) :
    ℚ :=
  let totalDocs : ℚ := (max 1 self.books.size : Nat)
  let docLen : ℚ := (self.docLengths.get? isbn).getD 1
  (queryTokens.map fun token =>
    let tf := ((self.frequencies isbn).get? token).getD 0
    if 0 < tf then
      let df : ℚ := (self.postings token).card
      tf / docLen * log ((totalDocs - df + 1 / 2) / (df + 1 / 2) + 1)
    else 0).sum

def finalScore (log : ℚ → ℚ) (available : Book → Bool) (self : InvertedIndex)
    (queryTokens : List String) (book : Book) (isbn : String) : ℚ :=
  roundTo 4 (self.relevance log isbn queryTokens + book.rating * (1 / 10) +
    if available book then 1 / 2 else 0)

def hit? (rules : TextRules) (log : ℚ → ℚ) (available : Book → Bool) (self : InvertedIndex)
    (queryTokens : List String) (filters : SearchFilters) (isbn : String) : Option SearchHit :=
  match self.books.get? isbn with
  | none => none
  | some book =>
      if filters.passes rules available book then
        some ⟨book, self.finalScore log available queryTokens book isbn⟩
      else none

end InvertedIndex

/-- Higher scores come first. -/
def SearchHit.Before (left right : SearchHit) : Prop := right.score ≤ left.score

instance : DecidableRel SearchHit.Before := fun left right =>
  inferInstanceAs (Decidable (right.score ≤ left.score))

/-- The ranked search. The order is the one in which the set of candidates is
iterated. -/
def InvertedIndex.search (rules : TextRules) (log : ℚ → ℚ) (available : Book → Bool)
    (self : InvertedIndex) (query : String) (filters : SearchFilters) (limit : Int)
    (order : List String) : List SearchHit :=
  let queryTokens := rules.tokenize query
  if queryTokens = [] ∧ filters.given = false then []
  else
    sliceTo limit ((order.filterMap
      (self.hit? rules log available queryTokens filters)).insertionSort SearchHit.Before)

end LibraFlow.Dsa
