import LibraFlow.Ai.Tracking
import Mathlib.Data.List.Sort

/-! Demand forecasts and the plan of transfers computed from them. The planner
sees the titles as a repository assembles them, each with its copies. -/

set_option autoImplicit false

namespace LibraFlow.Ai

open LibraFlow.Core LibraFlow.Library LibraFlow.Distributed

inductive DemandCategory where
  | surge
  | moderate
  | normal
  deriving DecidableEq, Repr

structure DemandMetrics where
  isbn : String
  demandCategory : DemandCategory
  velocity7d : Nat
  velocity30d : Nat
  recommendedMaxLoanDays : Nat
  fineSurgeMultiplier : ℚ
  deriving DecidableEq

/-- The checkouts that are at most so many days old; later ones count as well. -/
def velocity (days : Int) (dates : List Nat) (referenceDate : Nat) : Nat :=
  (dates.filter fun date => (referenceDate : Int) - date ≤ days).length

def calcDemandMetrics (isbn : String) (dates : List Nat) (referenceDate : Nat) : DemandMetrics :=
  let velocity30d := velocity 30 dates referenceDate
  let velocity7d := velocity 7 dates referenceDate
  if 5 ≤ velocity7d ∨ 15 ≤ velocity30d then
    ⟨isbn, .surge, velocity7d, velocity30d, 7, 3 / 2⟩
  else if 2 ≤ velocity7d ∨ 6 ≤ velocity30d then
    ⟨isbn, .moderate, velocity7d, velocity30d, 14, 1⟩
  else
    ⟨isbn, .normal, velocity7d, velocity30d, 21, 1⟩

def DemandForecaster.forecastDemandAtBranch (forecaster : DemandForecaster)
    (isbn branchId : String) (referenceDate : Nat) : DemandMetrics :=
  calcDemandMetrics isbn ((forecaster.branchBorrowDates.get? (isbn, branchId)).getD [])
    referenceDate

/-- The distance in kilometres, to one decimal place. -/
def branchDistance (left right : LibraryBranch) : ℚ :=
  let latitude := left.latitude - right.latitude
  let longitude := left.longitude - right.longitude
  (roundSqrt ((latitude ^ 2 + longitude ^ 2) * (111 * 10) ^ 2) : ℚ) / 10

/-- A possible transfer. The priority is the negated utility. -/
structure TransferCandidate where
  priority : ℚ
  isbn : String
  copyId : String
  sourceBranchId : String
  destBranchId : String
  predictedGain : ℚ
  transitCost : ℚ
  deriving DecidableEq

structure PlannedTransfer where
  isbn : String
  copyId : String
  sourceBranchId : String
  destBranchId : String
  utilityScore : ℚ
  transitCost : ℚ
  deriving DecidableEq

/-- What the planner reads besides the titles. -/
structure PlanningInputs where
  branches : Dict String LibraryBranch
  transfers : Dict String TransferRequest
  forecaster : DemandForecaster
  referenceDate : Nat
  maxTransfersPerBranch : Int := 3

/-- One more transfer on its way to a branch. -/
def addInFlight (inFlight : Dict String Nat) (branchId : String) : Dict String Nat :=
  inFlight.set branchId ((inFlight.get? branchId).getD 0 + 1)

/-- A title needs stock at a branch under a surge with at most one copy on the
shelf, or under moderate demand with none. -/
def needsStock (category : DemandCategory) (available : Nat) : Bool :=
  (category = .surge ∧ available ≤ 1) ∨ (category = .moderate ∧ available = 0)

def demandWeight (category : DemandCategory) : ℚ := if category = .surge then 250 else 150

def transitCost (source dest : LibraryBranch) : ℚ := branchDistance source dest * (1 / 20)

/-- The copies on the shelf of a branch, in the order of the title. -/
def shelvedAt (copies : List BookCopy) (branchId : String) : List BookCopy :=
  copies.filter fun copy => copy.branchId = branchId ∧ copy.status = .available

/-- The physical titles of a listing, with their copies. -/
def physicalStock (books : List (Heap BookCopy × Book)) : List (String × List BookCopy) :=
  books.filterMap fun (objects, book) =>
    book.copies?.map fun copies => (book.isbn, Book.copyObjects objects copies)

namespace PlanningInputs

variable (inputs : PlanningInputs)

def inFlightDest : Dict String Nat :=
  (inputs.transfers.values.filter fun transfer => transfer.status = .inTransit).foldl
    (fun inFlight transfer => addInFlight inFlight transfer.destBranchId)
    (inputs.branches.keys.foldl (fun inFlight branchId => inFlight.set branchId 0) .empty)

/-- No further transfer may be sent to the branch. -/
def saturated (inFlight : Dict String Nat) (branchId : String) : Bool :=
  inputs.maxTransfersPerBranch ≤ ((inFlight.get? branchId).getD 0 : Nat)

def category (isbn branchId : String) : DemandCategory :=
  (inputs.forecaster.forecastDemandAtBranch isbn branchId inputs.referenceDate).demandCategory

/-- The transfer of a title from one branch to another, when the source has a
spare copy and the gain exceeds the cost. -/
def candidate? (isbn : String) (copies : List BookCopy) (dest source : String × LibraryBranch) :
    Option TransferCandidate :=
  if source.1 = dest.1 then none
  else
    match shelvedAt copies source.1 with
    | first :: _ :: _ =>
        let weight := demandWeight (inputs.category isbn dest.1)
        let cost := transitCost source.2 dest.2
        if weight - cost ≤ 0 then none
        else some {
          priority := -(weight - cost)
          isbn := isbn
          copyId := first.copyId
          sourceBranchId := source.1
          destBranchId := dest.1
          predictedGain := weight
          transitCost := cost }
    | _ => none

def candidatesFor (isbn : String) (copies : List BookCopy) (dest : String × LibraryBranch) :
    List TransferCandidate :=
  if inputs.saturated inputs.inFlightDest dest.1 then []
  else if needsStock (inputs.category isbn dest.1) (shelvedAt copies dest.1).length then
    inputs.branches.entries.filterMap (inputs.candidate? isbn copies dest)
  else []

def candidates (stock : List (String × List BookCopy)) : List TransferCandidate :=
  stock.flatMap fun (isbn, copies) => inputs.branches.entries.flatMap
    (inputs.candidatesFor isbn copies)

end PlanningInputs

/-- What the selection has planned so far. -/
structure Selection where
  plan : List PlannedTransfer
  allocatedCopies : List String
  inFlightDest : Dict String Nat

/-- Take a candidate unless its copy is allocated or its destination is full. -/
def PlanningInputs.consider (inputs : PlanningInputs) (selection : Selection)
    (candidate : TransferCandidate) : Selection :=
  if candidate.copyId ∈ selection.allocatedCopies then selection
  else if inputs.saturated selection.inFlightDest candidate.destBranchId then selection
  else {
    plan := selection.plan ++ [{
      isbn := candidate.isbn
      copyId := candidate.copyId
      sourceBranchId := candidate.sourceBranchId
      destBranchId := candidate.destBranchId
      utilityScore := roundTo 2 (-candidate.priority)
      transitCost := roundTo 2 candidate.transitCost }]
    allocatedCopies := candidate.copyId :: selection.allocatedCopies
    inFlightDest := addInFlight selection.inFlightDest candidate.destBranchId }

/-- The plan made from candidates in the order the heap yields them. -/
def PlanningInputs.select (inputs : PlanningInputs) (ordered : List TransferCandidate) :
    List PlannedTransfer :=
  (ordered.foldl inputs.consider ⟨[], [], inputs.inFlightDest⟩).plan

def TransferCandidate.Before (left right : TransferCandidate) : Prop :=
  left.priority ≤ right.priority

instance : DecidableRel TransferCandidate.Before := fun left right =>
  inferInstanceAs (Decidable (left.priority ≤ right.priority))

/-- The plan for a listing of titles. Of equally useful candidates the one found
first comes off the heap first; the heap's own choice among them is not fixed. -/
def calculateRebalancingPlan (inputs : PlanningInputs) (books : List (Heap BookCopy × Book)) :
    List PlannedTransfer :=
  inputs.select ((inputs.candidates (physicalStock books)).insertionSort TransferCandidate.Before)

end LibraFlow.Ai
