import LibraFlow.Core.Book

/-! The branch network and the ledger of transfers between branches. -/

set_option autoImplicit false

namespace LibraFlow.Distributed

open LibraFlow.Core LibraFlow.Library

structure LibraryBranch where
  branchId : String
  name : String
  city : String
  address : String
  phone : String
  latitude : ℚ
  longitude : ℚ
  deriving DecidableEq

inductive TransferStatus where
  | requested
  | approved
  | inTransit
  | completed
  | rejected
  deriving DecidableEq, Repr

structure TransferRequest where
  transferId : String
  copyId : String
  isbn : String
  sourceBranchId : String
  destBranchId : String
  requestedBy : String
  status : TransferStatus
  createdAt : Datetime
  completedAt : Option Datetime
  deriving DecidableEq

structure MultiBranchManager where
  branches : Dict String LibraryBranch
  transfers : Dict String TransferRequest
  deriving DecidableEq

namespace MultiBranchManager

def registerBranch (manager : MultiBranchManager) (branch : LibraryBranch) :
    MultiBranchManager :=
  { manager with branches := manager.branches.set branch.branchId branch }

/-- Put a copy in transit and enter the transfer in the ledger. -/
def requestTransfer (manager : MultiBranchManager) (copy : BookCopy)
    (destBranchId requestedBy transferId : String) (now : Datetime) :
    Except String (BookCopy × TransferRequest × MultiBranchManager) :=
  if ¬ manager.branches.contains destBranchId then
    .error ("Destination branch '" ++ destBranchId ++ "' does not exist.")
  else if copy.branchId = destBranchId then
    .error ("Copy is already located at branch '" ++ destBranchId ++ "'.")
  else
    match copy.startTransfer destBranchId with
    | .error detail => .error detail
    | .ok moved =>
        let request : TransferRequest := {
          transferId
          copyId := moved.copyId
          isbn := moved.bookIsbn
          sourceBranchId := moved.branchId
          destBranchId
          requestedBy
          status := .inTransit
          createdAt := now
          completedAt := none }
        .ok (moved, request,
          { manager with transfers := manager.transfers.set transferId request })

/-- Record the arrival of a copy. -/
def completeTransfer (manager : MultiBranchManager) (transferId : String) (copy : BookCopy)
    (now : Datetime) : Except String (BookCopy × TransferRequest × MultiBranchManager) :=
  match manager.transfers.get? transferId with
  | none => .error ("Transfer request '" ++ transferId ++ "' not found.")
  | some request =>
      if request.status ≠ .inTransit then
        .error ("Transfer '" ++ transferId ++ "' is not in transit.")
      else
        match copy.completeTransfer with
        | .error detail => .error detail
        | .ok arrived =>
            let completed := { request with status := .completed, completedAt := some now }
            .ok (arrived, completed,
              { manager with transfers := manager.transfers.set transferId completed })

end MultiBranchManager

end LibraFlow.Distributed
