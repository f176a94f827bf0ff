import LibraFlow.Distributed.BranchManager
import LibraFlow.Library.Decimal

/-! What the demand forecaster and the rebalancing engine remember: checkout
dates per title and branch, and the fate of autonomous transfers. -/

set_option autoImplicit false

namespace LibraFlow.Ai

open LibraFlow.Core LibraFlow.Library LibraFlow.Distributed

structure DemandForecaster where
  borrowHistoryDates : Dict String (List Nat)
  branchBorrowDates : Dict (String × String) (List Nat)
  deriving DecidableEq

def DemandForecaster.empty : DemandForecaster := ⟨.empty, .empty⟩

/-- Append to the list kept under a key. -/
def appendDate {κ : Type} [DecidableEq κ] (dates : Dict κ (List Nat)) (key : κ) (date : Nat) :
    Dict κ (List Nat) :=
  dates.set key ((dates.get? key).getD [] ++ [date])

def DemandForecaster.recordCheckout (forecaster : DemandForecaster) (isbn : String) (date : Nat)
    (branchId : String) : DemandForecaster where
  borrowHistoryDates := appendDate forecaster.borrowHistoryDates isbn date
  branchBorrowDates :=
    if branchId = "" then forecaster.branchBorrowDates
    else appendDate forecaster.branchBorrowDates (isbn, branchId) date

inductive TrackedStatus where
  | inTransit
  | arrived
  | checkedOut
  deriving DecidableEq, Repr

/-- Metadata of one autonomous transfer. -/
structure TrackedTransfer where
  transferId : String
  copyId : String
  isbn : String
  sourceBranchId : String
  destBranchId : String
  requestedAt : Datetime
  arrivedAt : Option Datetime
  borrowedAt : Option Datetime
  status : TrackedStatus
  deriving DecidableEq

structure TransferTracking where
  transfersTracked : Dict String TrackedTransfer
  copyToTransfer : Dict String String
  deriving DecidableEq

namespace TransferTracking

def empty : TransferTracking := ⟨.empty, .empty⟩

def recordRequest (tracking : TransferTracking) (request : TransferRequest) (now : Datetime) :
    TransferTracking where
  transfersTracked := tracking.transfersTracked.set request.transferId {
    transferId := request.transferId
    copyId := request.copyId
    isbn := request.isbn
    sourceBranchId := request.sourceBranchId
    destBranchId := request.destBranchId
    requestedAt := now
    arrivedAt := none
    borrowedAt := none
    status := .inTransit }
  copyToTransfer := tracking.copyToTransfer.set request.copyId request.transferId

def recordArrival (tracking : TransferTracking) (transferId : String) (now : Datetime) :
    TransferTracking :=
  match tracking.transfersTracked.get? transferId with
  | none => tracking
  | some tracked =>
      { tracking with
        transfersTracked := tracking.transfersTracked.set transferId
          { tracked with status := .arrived, arrivedAt := some now } }

/-- Seven days in microseconds. -/
def confirmationWindow : Int := 7 * 86400 * 1000000

/-- Credit a checkout to the copy's latest autonomous transfer when the copy was
borrowed at its destination within seven days of arrival, the first time only. -/
def recordCheckoutHook (tracking : TransferTracking) (copyId branchId : String) (now : Datetime) :
    TransferTracking :=
  match tracking.copyToTransfer.get? copyId with
  | none => tracking
  | some transferId =>
      match tracking.transfersTracked.get? transferId with
      | none => tracking
      | some tracked =>
          if tracked.destBranchId ≠ branchId then tracking
          else
            match tracked.arrivedAt, tracked.borrowedAt with
            | some arrived, none =>
                if (now.micros : Int) - arrived.micros ≤ confirmationWindow then
                  { tracking with
                    transfersTracked := tracking.transfersTracked.set transferId
                      { tracked with borrowedAt := some now, status := .checkedOut } }
                else tracking
            | _, _ => tracking

/-- Closed-loop metrics of the autonomous transfers. -/
structure OutcomeMetrics where
  totalAutonomousTransfers : Nat
  arrivedAtDestination : Nat
  checkedOutWithin7d : Nat
  inTransit : Nat
  precisionRatePct : ℚ
  trackedTransfers : List TrackedTransfer

def getOutcomeMetrics (tracking : TransferTracking) : OutcomeMetrics :=
  let tracked := tracking.transfersTracked.values
  let arrived := tracked.countP fun transfer => transfer.arrivedAt.isSome
  let borrowed := tracked.countP fun transfer => transfer.borrowedAt.isSome
  { totalAutonomousTransfers := tracking.transfersTracked.size
    arrivedAtDestination := arrived
    checkedOutWithin7d := borrowed
    inTransit := tracked.countP fun transfer => transfer.status = .inTransit
    precisionRatePct := if 0 < arrived then roundTo 1 ((borrowed : ℚ) / arrived * 100) else 0
    trackedTransfers := tracked.drop (tracked.length - 10) }

end TransferTracking

end LibraFlow.Ai
