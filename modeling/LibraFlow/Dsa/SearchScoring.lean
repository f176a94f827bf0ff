import LibraFlow.Dsa.SearchScan
import Mathlib.Analysis.SpecialFunctions.Log.Basic

/-! The arithmetic of the search score, read over the real numbers. A title has at
least its two tokens for the identifier, and a term is listed for the current titles
that contain it, so that no division is by zero and every logarithm is positive. -/

set_option autoImplicit false

namespace LibraFlow.Dsa

open LibraFlow.Core LibraFlow.Library

namespace InvertedIndex

variable {κ : Type} [Field κ]

/-- How often a title contains a token. -/
def termFrequency (self : InvertedIndex) (isbn token : String) : Nat :=
  ((self.frequencies isbn).get? token).getD 0

def totalDocs (self : InvertedIndex) : Nat := max 1 self.books.size

/-- What the inverse document frequency is the logarithm of. -/
def idfArgument (κ : Type) [Field κ] (self : InvertedIndex) (token : String) : κ :=
  let df : κ := (self.postings token).card
  ((self.totalDocs : κ) - df + 1 / 2) / (df + 1 / 2) + 1

/-- The relevance of a title over any field with a logarithm. -/
def relevanceIn (log : κ → κ) (self : InvertedIndex) (isbn : String) (queryTokens : List String) :
    κ :=
  let docLen : κ := ((self.docLengths.get? isbn).getD 1 : Nat)
  (queryTokens.map fun token =>
    if 0 < self.termFrequency isbn token then
      self.termFrequency isbn token / docLen * log (self.idfArgument κ token)
    else 0).sum

theorem relevanceIn_rat (log : ℚ → ℚ) (self : InvertedIndex) (isbn : String)
    (queryTokens : List String) :
    self.relevanceIn log isbn queryTokens = self.relevance log isbn queryTokens := rfl

end InvertedIndex

/-- What the score of a title is computed from. -/
structure SafeScore (maps : InvertedIndex) (isbn : String) (queryTokens : List String) : Prop where
  docLen : ∃ length, maps.docLengths.get? isbn = some length ∧ 2 ≤ length
  documentFrequency : ∀ token ∈ queryTokens, 0 < maps.termFrequency isbn token →
    1 ≤ (maps.postings token).card ∧ (maps.postings token).card ≤ maps.totalDocs
  idfArgument : ∀ token ∈ queryTokens, 0 < maps.termFrequency isbn token →
    ((maps.postings token).card : ℝ) + 1 / 2 ≠ 0 ∧ 1 < maps.idfArgument ℝ token
  idf : ∀ token ∈ queryTokens, 0 < maps.termFrequency isbn token →
    0 < Real.log (maps.idfArgument ℝ token)
  relevance : (∃ token ∈ queryTokens, 0 < maps.termFrequency isbn token) →
    0 < maps.relevanceIn Real.log isbn queryTokens

private theorem one_lt_idfArgument {self : InvertedIndex} {token : String}
    (bounded : (self.postings token).card ≤ self.totalDocs) :
    1 < self.idfArgument ℝ token := by
  have frequency : ((self.postings token).card : ℝ) ≤ self.totalDocs := by exact_mod_cast bounded
  have numerator : (0 : ℝ) < self.totalDocs - (self.postings token).card + 1 / 2 := by linarith
  have quotient : (0 : ℝ) < (self.totalDocs - (self.postings token).card + 1 / 2) /
      ((self.postings token).card + 1 / 2) := by positivity
  unfold InvertedIndex.idfArgument
  linarith

/-- Terms with a positive weight and no negative ones. -/
theorem relevanceIn_pos {self : InvertedIndex} {isbn : String} {queryTokens : List String}
    {length : Nat} (docLen : self.docLengths.get? isbn = some length) (positive : 0 < length)
    (idf : ∀ token ∈ queryTokens, 0 < self.termFrequency isbn token →
      0 < Real.log (self.idfArgument ℝ token))
    (contains : ∃ token ∈ queryTokens, 0 < self.termFrequency isbn token) :
    0 < self.relevanceIn Real.log isbn queryTokens := by
  have term : ∀ token ∈ queryTokens, 0 < self.termFrequency isbn token →
      (0 : ℝ) < self.termFrequency isbn token / length * Real.log (self.idfArgument ℝ token) := by
    intro token asked frequent
    have counted : (0 : ℝ) < self.termFrequency isbn token := by exact_mod_cast frequent
    have long : (0 : ℝ) < length := by exact_mod_cast positive
    exact mul_pos (div_pos counted long) (idf token asked frequent)
  unfold InvertedIndex.relevanceIn
  rw [docLen, Option.getD_some]
  obtain ⟨token, asked, frequent⟩ := contains
  refine lt_of_lt_of_le (term token asked frequent) (List.single_le_sum ?_ _ ?_)
  · intro weight listed
    obtain ⟨other, asked, same⟩ := List.mem_map.mp listed
    rw [← same]
    split
    · next frequent => exact (term other asked frequent).le
    · exact le_rfl
  · refine List.mem_map.mpr ⟨token, asked, ?_⟩
    rw [if_pos frequent]

namespace Indexes

variable {rules : TextRules} {maps : InvertedIndex} {books : Dict String Book}

private theorem termFrequency_pos_iff (indexes : Indexes rules maps books) {isbn token : String}
    {book : Book} (found : books.get? isbn = some book) :
    0 < maps.termFrequency isbn token ↔ token ∈ bookTokens rules book := by
  rw [InvertedIndex.termFrequency, indexes.frequencies, found, Option.bind_some, termCount]
  split
  · next contained =>
      refine iff_of_true ?_ contained
      exact List.count_pos_iff.mpr contained
  · next absent => exact iff_of_false (Nat.lt_irrefl 0) absent

private theorem card_postings_le (indexes : Indexes rules maps books) (token : String) :
    (maps.postings token).card ≤ maps.totalDocs := by
  calc (maps.postings token).card
      = books.values.countP fun book => token ∈ bookTokens rules book :=
        indexes.card_postings token
    _ ≤ books.values.length := List.countP_le_length
    _ = maps.books.size := by rw [indexes.titles, Dict.values, List.length_map]; rfl
    _ ≤ maps.totalDocs := le_max_right _ _

private theorem safeScore (indexes : Indexes rules maps books) {isbn : String} {book : Book}
    (found : books.get? isbn = some book) (queryTokens : List String) :
    SafeScore maps isbn queryTokens := by
  have docLen : maps.docLengths.get? isbn = some (bookTokens rules book).length := by
    rw [indexes.lengths, found, Option.map_some]
  have long : 2 ≤ (bookTokens rules book).length := by
    simp only [bookTokens, List.append_assoc, List.cons_append, List.length_cons]
    omega
  have idf : ∀ token ∈ queryTokens, 0 < maps.termFrequency isbn token →
      0 < Real.log (maps.idfArgument ℝ token) := fun token _ _ =>
    Real.log_pos (one_lt_idfArgument (indexes.card_postings_le token))
  constructor
  · exact ⟨_, docLen, long⟩
  · intro token _ frequent
    have listed : isbn ∈ maps.postings token := (indexes.postings token isbn).mpr
      ⟨book, found, (indexes.termFrequency_pos_iff found).mp frequent⟩
    exact ⟨Finset.card_pos.mpr ⟨isbn, listed⟩, indexes.card_postings_le token⟩
  · intro token _ _
    exact ⟨by positivity, one_lt_idfArgument (indexes.card_postings_le token)⟩
  · exact idf
  · exact relevanceIn_pos docLen (by omega) idf

end Indexes

/-- Whatever has been indexed and removed, a candidate of a search is a current
title, and its score divides by positive numbers and takes logarithms of numbers
above one. -/
theorem search_scoring_safe (rules : TextRules) (operations : List IndexOperation)
    (query isbn : String)
    (candidate : isbn ∈ (operations.foldl (IndexOperation.exec rules) .empty).candidates
      (rules.tokenize query)) :
    let maps := operations.foldl (IndexOperation.exec rules) .empty
    (∃ book, maps.books.get? isbn = some book) ∧
      SafeScore maps isbn (rules.tokenize query) := by
  intro maps
  have indexes : Indexes rules maps (catalogue operations) := indexes_run rules operations
  obtain ⟨book, found, _⟩ := indexes.mem_candidates_iff.mp candidate
  exact ⟨⟨book, by rw [indexes.titles, found]⟩, indexes.safeScore found _⟩

/-- The title that is left, after another one was removed. -/
theorem search_scoring_safe_renamed :
    let maps := renamedTitle.foldl (IndexOperation.exec asciiRules) .empty
    "B-1" ∈ maps.candidates (asciiRules.tokenize "THEORY") ∧
      0 < maps.relevanceIn Real.log "B-1" (asciiRules.tokenize "THEORY") := by
  obtain ⟨_, safe⟩ := search_scoring_safe asciiRules renamedTitle "THEORY" "B-1"
    (by decide +kernel)
  exact ⟨by decide +kernel, safe.relevance ⟨"theory", by decide +kernel, by decide +kernel⟩⟩

end LibraFlow.Dsa
