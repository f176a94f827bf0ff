import LibraFlow.Dsa.Related
import Mathlib.Data.Finset.Fold

/-! Recommendations for a user, from the categories and keywords of the books the user
has had to do with and from the relations between books. Square roots are those of the
standard library and stay a parameter. -/

set_option autoImplicit false

namespace LibraFlow.Ai

open LibraFlow.Core LibraFlow.Dsa LibraFlow.Library

/-- The engine. Of the interactions of a user it keeps the books, and weights of their
categories and keywords. -/
structure RecommendationEngine where
  graphEngine : BookGraphEngine
  books : Dict String Book
  userHistory : Dict String (Finset String)
  userCategoryWeights : Dict String (Dict String ℚ)

/-- One line of a list of recommendations. -/
structure Recommendation where
  isbn : String
  title : String
  authors : List String
  category : String
  rating : ℚ
  difficultyLevel : String
  matchScore : ℚ
  deriving DecidableEq

/-- The calls that change what is recommended. -/
inductive EngineCall where
  | registerBook (book : Book)
  | recordUserInteraction (userId isbn : String) (rating : Option ℚ)
  | relate (request : GraphCall)

/-- A rating of zero counts as none. -/
def interactionWeight (rating : Option ℚ) : ℚ :=
  match rating with
  | some stars => if stars = 0 then 1 else stars / 5
  | none => 1

def bookVector (book : Book) : Dict String ℚ :=
  book.keywords.foldl (fun vector keyword => vector.set keyword 1)
    (Dict.set .empty book.category (3 / 2))

def cosineSimilarity (sqrt : ℚ → ℚ) (first second : Dict String ℚ) : ℚ :=
  let shared := first.keys.filter second.contains
  if shared = [] then 0
  else
    let dotProduct :=
      (shared.map fun key => (first.get? key).getD 0 * (second.get? key).getD 0).sum
    let firstMagnitude := sqrt (first.values.map fun value => value * value).sum
    let secondMagnitude := sqrt (second.values.map fun value => value * value).sum
    if firstMagnitude = 0 ∨ secondMagnitude = 0 then 0
    else dotProduct / (firstMagnitude * secondMagnitude)

namespace RecommendationEngine

def new : RecommendationEngine := ⟨.new, .empty, .empty, .empty⟩

def registerBook (engine : RecommendationEngine) (book : Book) : RecommendationEngine :=
  { engine with
    books := engine.books.set book.isbn book
    graphEngine := engine.graphEngine.addBookNode book.isbn book.title book.category book.rating }

/-- The books a user has had to do with. -/
def historyOf (engine : RecommendationEngine) (userId : String) : Finset String :=
  (engine.userHistory.get? userId).getD ∅

def weightsOf (engine : RecommendationEngine) (userId : String) : Dict String ℚ :=
  (engine.userCategoryWeights.get? userId).getD .empty

/-- The weights after an interaction with a book that is known. -/
def weigh (weights : Dict String ℚ) (book : Book) (rating : Option ℚ) : Dict String ℚ :=
  book.keywords.foldl (fun weights keyword => weights.add keyword (interactionWeight rating * (1 / 2)))
    (weights.add book.category (interactionWeight rating))

def recordUserInteraction (engine : RecommendationEngine) (userId isbn : String)
    (rating : Option ℚ) : RecommendationEngine :=
  { engine with
    userHistory := engine.userHistory.set userId (insert isbn (engine.historyOf userId))
    userCategoryWeights :=
      match engine.books.get? isbn with
      | none => engine.userCategoryWeights
      | some book => engine.userCategoryWeights.set userId
          (weigh (engine.weightsOf userId) book rating) }

/-- The best similarity to a book of the history. A maximum does not depend on the order
in which a set is gone through. -/
def graphScore (engine : RecommendationEngine) (userId isbn : String) : ℚ :=
  (engine.historyOf userId).fold max 0 fun borrowed =>
    (engine.graphEngine.getRelatedRecommendations borrowed 5).foldl
      (fun best related => if related.isbn = isbn then max best related.similarityScore else best) 0

def finalScore (sqrt : ℚ → ℚ) (engine : RecommendationEngine) (userId : String) (book : Book)
    (isbn : String) : ℚ :=
  5 / 10 * cosineSimilarity sqrt (engine.weightsOf userId) (bookVector book) +
    35 / 100 * engine.graphScore userId isbn + 15 / 100 * (book.rating / 5 * (2 / 10))

/-- The known books that are not in the history of the user, with their scores. -/
def candidates (sqrt : ℚ → ℚ) (engine : RecommendationEngine) (userId : String) :
    List (String × ℚ) :=
  engine.books.entries.filterMap fun (isbn, book) =>
    if isbn ∈ engine.historyOf userId then none
    else some (isbn, engine.finalScore sqrt userId book isbn)

/-- The line of a book and its score. -/
def recommendation (engine : RecommendationEngine) (entry : String × ℚ) : Option Recommendation :=
  (engine.books.get? entry.1).map fun book =>
    ⟨entry.1, book.title, book.authors, book.category, book.rating, book.difficultyLevel,
      roundTo 3 entry.2⟩

def recommendForUser (sqrt : ℚ → ℚ) (engine : RecommendationEngine) (userId : String)
    (topK : Int := 5) : List Recommendation :=
  (sliceTo topK (ranked (engine.candidates sqrt userId))).filterMap engine.recommendation

def call (engine : RecommendationEngine) : EngineCall → RecommendationEngine
  | .registerBook book => engine.registerBook book
  | .recordUserInteraction userId isbn rating => engine.recordUserInteraction userId isbn rating
  | .relate request => { engine with graphEngine := engine.graphEngine.call request }

def build (calls : List EngineCall) : RecommendationEngine := calls.foldl call new

/-- The book of an interaction of the given user. -/
def interactedIsbn? (userId : String) : EngineCall → Option String
  | .recordUserInteraction other isbn _ => if other = userId then some isbn else none
  | _ => none

/-- The last book that was registered under an ISBN. -/
def lastRegistered? (isbn : String) (calls : List EngineCall) : Option Book :=
  calls.reverse.findSome? fun request =>
    match request with
    | .registerBook book => if book.isbn = isbn then some book else none
    | _ => none

/-- The call may matter for the given user: it is no interaction of another user. -/
def concerns (userId : String) : EngineCall → Bool
  | .recordUserInteraction other _ _ => other = userId
  | _ => true

/-- Two engines between which a user cannot tell. -/
structure Agree (userId : String) (first second : RecommendationEngine) : Prop where
  graphEngine : first.graphEngine = second.graphEngine
  books : first.books = second.books
  history : first.historyOf userId = second.historyOf userId
  weights : first.weightsOf userId = second.weightsOf userId

section Calls

variable {userId : String} {first second engine : RecommendationEngine}

private theorem historyOf_record (engine : RecommendationEngine) (userId other isbn : String)
    (rating : Option ℚ) : (engine.recordUserInteraction other isbn rating).historyOf userId =
      if other = userId then insert isbn (engine.historyOf userId)
      else engine.historyOf userId := by
  simp only [recordUserInteraction, historyOf, Dict.get?_set]
  split
  · next same =>
      subst other
      rfl
  · rfl

private theorem weightsOf_record (engine : RecommendationEngine) (userId other isbn : String)
    (rating : Option ℚ) : (engine.recordUserInteraction other isbn rating).weightsOf userId =
      if other = userId then
        match engine.books.get? isbn with
        | none => engine.weightsOf userId
        | some book => weigh (engine.weightsOf userId) book rating
      else engine.weightsOf userId := by
  simp only [recordUserInteraction]
  cases known : engine.books.get? isbn with
  | none =>
      simp only [weightsOf]
      split <;> rfl
  | some book =>
      simp only [weightsOf, Dict.get?_set]
      split
      · next same =>
          subst other
          rfl
      · rfl

/-- A call that concerns the user acts alike on both engines. -/
theorem Agree.call (agree : Agree userId first second) (request : EngineCall) :
    Agree userId (first.call request) (second.call request) := by
  cases request with
  | registerBook book =>
      refine ⟨?_, ?_, agree.history, agree.weights⟩
      · simp only [RecommendationEngine.call, registerBook, agree.graphEngine]
      · simp only [RecommendationEngine.call, registerBook, agree.books]
  | recordUserInteraction other isbn rating =>
      refine ⟨agree.graphEngine, agree.books, ?_, ?_⟩
      · simp only [RecommendationEngine.call, historyOf_record, agree.history]
      · simp only [RecommendationEngine.call, weightsOf_record, agree.weights, agree.books]
  | relate request =>
      refine ⟨?_, agree.books, agree.history, agree.weights⟩
      simp only [RecommendationEngine.call, agree.graphEngine]

/-- What another user does makes no difference. -/
theorem Agree.ignore (agree : Agree userId first second) {request : EngineCall}
    (other : concerns userId request = false) : Agree userId (first.call request) second := by
  cases request with
  | registerBook book => cases other
  | relate request => cases other
  | recordUserInteraction user isbn rating =>
      have different : user ≠ userId := of_decide_eq_false other
      refine ⟨agree.graphEngine, agree.books, ?_, ?_⟩
      · rw [RecommendationEngine.call, historyOf_record, if_neg different]
        exact agree.history
      · rw [RecommendationEngine.call, weightsOf_record, if_neg different]
        exact agree.weights

theorem Agree.calls (agree : Agree userId first second) (calls : List EngineCall) :
    Agree userId (calls.foldl RecommendationEngine.call first)
      ((calls.filter (concerns userId)).foldl RecommendationEngine.call second) := by
  induction calls generalizing first second with
  | nil => exact agree
  | cons request rest ih =>
      cases concerned : concerns userId request with
      | true =>
          rw [List.filter_cons_of_pos concerned]
          exact ih (agree.call request)
      | false =>
          rw [List.filter_cons_of_neg (by simp [concerned])]
          exact ih (agree.ignore concerned)

theorem Agree.recommendForUser (agree : Agree userId first second) (sqrt : ℚ → ℚ) (topK : Int) :
    first.recommendForUser sqrt userId topK = second.recommendForUser sqrt userId topK := by
  have scores : first.finalScore sqrt userId = second.finalScore sqrt userId := by
    funext book isbn
    simp only [finalScore, graphScore, agree.graphEngine, agree.history, agree.weights]
  have lines : first.recommendation = second.recommendation := by
    funext entry
    simp only [recommendation, agree.books]
  simp only [RecommendationEngine.recommendForUser, candidates, agree.books, agree.history, scores,
    lines]

private theorem build_snoc (calls : List EngineCall) (request : EngineCall) :
    build (calls ++ [request]) = (build calls).call request := by
  simp [build, List.foldl_append]

private theorem lastRegistered?_snoc (isbn : String) (calls : List EngineCall)
    (request : EngineCall) :
    lastRegistered? isbn (calls ++ [request]) =
      (match request with
        | .registerBook book => if book.isbn = isbn then some book else none
        | _ => none).or (lastRegistered? isbn calls) := by
  simp only [lastRegistered?, List.reverse_append, List.reverse_singleton, List.singleton_append,
    List.findSome?_cons]
  split <;> simp_all

/-- The history of a user are the books of the interactions of the user. -/
theorem mem_historyOf_build (calls : List EngineCall) (userId isbn : String) :
    isbn ∈ (build calls).historyOf userId ↔ isbn ∈ calls.filterMap (interactedIsbn? userId) := by
  induction calls using List.reverseRecOn with
  | nil => simp [build, new, historyOf]
  | append_singleton earlier request ih =>
      rw [build_snoc, List.filterMap_append, List.mem_append, ← ih]
      cases request with
      | registerBook book => simp [call, registerBook, historyOf, interactedIsbn?]
      | relate request => simp [call, historyOf, interactedIsbn?]
      | recordUserInteraction other changed rating =>
          rw [call, historyOf_record]
          by_cases same : other = userId
          · simp [same, interactedIsbn?, or_comm]
          · simp [same, interactedIsbn?]

/-- The engine knows a book as it was registered last. -/
theorem books_build (calls : List EngineCall) (isbn : String) :
    (build calls).books.get? isbn = lastRegistered? isbn calls := by
  induction calls using List.reverseRecOn with
  | nil => rfl
  | append_singleton earlier request ih =>
      rw [build_snoc, lastRegistered?_snoc, ← ih]
      cases request with
      | registerBook book =>
          simp only [call, registerBook, Dict.get?_set]
          split <;> simp
      | relate | recordUserInteraction => rfl

private theorem mem_candidates (sqrt : ℚ → ℚ) (calls : List EngineCall) (userId isbn : String)
    (score : ℚ) :
    (isbn, score) ∈ (build calls).candidates sqrt userId ↔
      ∃ book, lastRegistered? isbn calls = some book ∧
        isbn ∉ calls.filterMap (interactedIsbn? userId) ∧
        score = (build calls).finalScore sqrt userId book isbn := by
  rw [candidates, List.mem_filterMap, ← mem_historyOf_build]
  constructor
  · intro listed
    obtain ⟨⟨known, book⟩, member, listed⟩ := listed
    by_cases read : known ∈ (build calls).historyOf userId
    · simp only [read, ↓reduceIte] at listed
      cases listed
    · simp only [read, ↓reduceIte, Option.some.injEq, Prod.mk.injEq] at listed
      obtain ⟨rfl, rfl⟩ := listed
      exact ⟨book, books_build calls known ▸ (Dict.get?_eq_some_iff ..).mpr member, read, rfl⟩
  · intro listed
    obtain ⟨book, found, fresh, rfl⟩ := listed
    rw [← books_build] at found
    exact ⟨(isbn, book), (Dict.get?_eq_some_iff ..).mp found, if_neg fresh⟩

private theorem candidates_nodup (sqrt : ℚ → ℚ) (engine : RecommendationEngine) (userId : String) :
    ((engine.candidates sqrt userId).map Prod.fst).Nodup := by
  have kept : ((engine.candidates sqrt userId).map Prod.fst).Sublist engine.books.keys := by
    unfold candidates Dict.keys
    induction engine.books.entries with
    | nil => exact .slnil
    | cons entry rest ih =>
        obtain ⟨isbn, book⟩ := entry
        by_cases read : isbn ∈ engine.historyOf userId
        · simpa [read] using ih.cons isbn
        · simpa [read] using ih
  exact engine.books.keysNodup.sublist kept

end Calls

/-- After any calls: what is recommended to a user are known books that the user has had
nothing to do with, ranked by their scores, as many as the limit asks for and each once, and
no book that is left out has a higher score. What other users do makes no difference. -/
theorem recommendForUser_spec (sqrt : ℚ → ℚ) (calls : List EngineCall) (userId : String)
    (topK : Int) :
    ∃ candidates kept : List (String × ℚ), (candidates.map Prod.fst).Nodup ∧
      (∀ isbn score, (isbn, score) ∈ candidates ↔ ∃ book,
        lastRegistered? isbn calls = some book ∧
        isbn ∉ calls.filterMap (interactedIsbn? userId) ∧
        score = (build calls).finalScore sqrt userId book isbn) ∧
      Best (sliceLength topK candidates.length) candidates kept ∧ (kept.map Prod.fst).Nodup ∧
      ((build calls).recommendForUser sqrt userId topK).map Recommendation.isbn =
        kept.map Prod.fst ∧
      (∀ line ∈ (build calls).recommendForUser sqrt userId topK, ∃ book,
        lastRegistered? line.isbn calls = some book ∧
        line = ⟨line.isbn, book.title, book.authors, book.category, book.rating,
          book.difficultyLevel,
          roundTo 3 ((build calls).finalScore sqrt userId book line.isbn)⟩) ∧
      (build calls).recommendForUser sqrt userId topK =
        (build (calls.filter (concerns userId))).recommendForUser sqrt userId topK := by
  have nodup := candidates_nodup sqrt (build calls) userId
  have members := mem_candidates sqrt calls userId
  have best := best_take_ranked
    (sliceLength topK ((build calls).candidates sqrt userId).length)
    ((build calls).candidates sqrt userId)
  have listed : (build calls).recommendForUser sqrt userId topK =
      ((ranked ((build calls).candidates sqrt userId)).take
        (sliceLength topK ((build calls).candidates sqrt userId).length)).filterMap
          (build calls).recommendation := by
    rw [recommendForUser, sliceTo_eq_take, (ranked_perm _).length_eq]
  generalize (ranked ((build calls).candidates sqrt userId)).take _ = kept at best listed
  have known : ∀ entry ∈ kept, ∃ book, lastRegistered? entry.1 calls = some book ∧
      (build calls).books.get? entry.1 = some book ∧
      entry.2 = (build calls).finalScore sqrt userId book entry.1 := by
    intro entry member
    obtain ⟨book, found, _, score⟩ := (members entry.1 entry.2).mp (best.sub.subset member)
    exact ⟨book, found, (books_build calls entry.1).trans found, score⟩
  refine ⟨_, kept, nodup, members, best, best.keys_nodup nodup, ?_, ?_, ?_⟩
  · rw [listed, List.map_filterMap, ← List.filterMap_eq_map]
    refine List.filterMap_congr fun entry member => ?_
    obtain ⟨book, _, found, _⟩ := known entry member
    simp [recommendation, found]
  · intro line member
    rw [listed] at member
    obtain ⟨entry, inKept, shown⟩ := List.mem_filterMap.mp member
    obtain ⟨book, registered, found, score⟩ := known entry inKept
    simp only [recommendation, found, Option.map_some, Option.some.injEq] at shown
    subst line
    exact ⟨book, registered, by rw [score]⟩
  · have agree : Agree userId new new := ⟨rfl, rfl, rfl, rfl⟩
    exact (agree.calls calls).recommendForUser sqrt topK

end RecommendationEngine

end LibraFlow.Ai
