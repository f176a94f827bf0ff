import LibraFlow.Core.User
import LibraFlow.Library.BinaryHeap
import LibraFlow.Library.Decimal

/-! The smart allocation queue: requests ordered by a priority computed from the
user, and by arrival among equal priorities. Priorities are numbers of an ordered
field, the rational numbers unless another one is named. -/

set_option autoImplicit false

namespace LibraFlow.Dsa

open LibraFlow.Core LibraFlow.Library

/-- A queued request. The priority is negated, so that the least request is the
one to serve first. -/
structure BorrowRequest (κ : Type := ℚ) where
  priority : κ
  entryId : Nat
  requestId : String
  userId : String
  userName : String
  isbn : String
  branchId : String
  timestamp : Datetime
  actualPriority : κ
  role : UserRole
  deriving DecidableEq

/-- Requests compare by priority, then by order of arrival. -/
def BorrowRequest.before {κ : Type} [LinearOrder κ] (left right : BorrowRequest κ) : Bool :=
  left.priority < right.priority ∨
    (left.priority = right.priority ∧ left.entryId < right.entryId)

structure SmartAllocationQueue (κ : Type := ℚ) where
  isbn : String
  heap : List (BorrowRequest κ)
  entryCounter : Nat
  deriving DecidableEq

/-- An entry of the listing of a queue. -/
structure QueuedRequest (κ : Type := ℚ) where
  requestId : String
  userId : String
  userName : String
  priority : κ
  branchId : String
  timestamp : Datetime
  deriving DecidableEq

namespace SmartAllocationQueue

def new {κ : Type} (isbn : String) : SmartAllocationQueue κ := ⟨isbn, [], 0⟩

def size {κ : Type} (queue : SmartAllocationQueue κ) : Nat := queue.heap.length

/-- Urgency of the next exam; `days` is the number of days until it. -/
def examUrgency (days : Int) : ℚ :=
  if days ≤ 1 then 1
  else if days ≤ 3 then 9 / 10
  else if days ≤ 7 then 3 / 4
  else if days ≤ 14 then 1 / 2
  else if days ≤ 30 then 3 / 10
  else 1 / 10

/-- Exam urgency and academic standing of a user, as weights. -/
def standing (user : User) (today : Nat) : ℚ × ℚ :=
  match user.profile with
  | .student academicYear _ examDate =>
      (match examDate with
        | none => 1 / 5
        | some exam => examUrgency ((exam : Int) - today),
       min 1 (max (1 / 4) ((academicYear : ℚ) / 4)))
  | _ => (1 / 2, 9 / 10)

def calculatePriority (user : User) (today : Nat) : ℚ :=
  let completedBorrows := (user.borrowHistory.filter fun entry => entry.returnedAt.isSome).length
  let historyScore := min 1 ((completedBorrows : ℚ) / 10)
  let weights := standing user today
  roundTo 4 (2 / 5 * weights.1 + 3 / 10 * weights.2 + 3 / 10 * historyScore)

section Operations

variable {κ : Type} [Field κ] [LinearOrder κ]

def enqueue (queue : SmartAllocationQueue κ) (requestId : String) (user : User)
    (branchId : String) (customPriority : Option κ) (now : Datetime) :
    BorrowRequest κ × SmartAllocationQueue κ :=
  let priority := customPriority.getD ((calculatePriority user now.date : ℚ) : κ)
  let request : BorrowRequest κ := {
    priority := -priority
    entryId := queue.entryCounter + 1
    requestId
    userId := user.userId
    userName := user.name
    isbn := queue.isbn
    branchId
    timestamp := now
    actualPriority := priority
    role := user.getRole }
  (request, { queue with
    heap := BinaryHeap.heappush BorrowRequest.before queue.heap request
    entryCounter := queue.entryCounter + 1 })

def popHighestPriority (queue : SmartAllocationQueue κ) :
    Option (BorrowRequest κ) × SmartAllocationQueue κ :=
  match BinaryHeap.heappop BorrowRequest.before queue.heap with
  | none => (none, queue)
  | some (request, rest) => (some request, { queue with heap := rest })

def listing (round : κ → κ) (request : BorrowRequest κ) : QueuedRequest κ where
  requestId := request.requestId
  userId := request.userId
  userName := request.userName
  priority := round (-request.priority)
  branchId := request.branchId
  timestamp := request.timestamp

/-- The queued requests, sorted. How priorities are rounded to four places depends on
the field. -/
def toList (round : κ → κ) (queue : SmartAllocationQueue κ) : List (QueuedRequest κ) :=
  (queue.heap.insertionSort fun left right => !right.before left).map (listing round)

end Operations

end SmartAllocationQueue

end LibraFlow.Dsa
