import LibraFlow.Services.Circulation

/-! Transfers between branches: the manual route, the autonomous rebalancing plan
and the arrival of a copy. None of them touches the cache. -/

set_option autoImplicit false

namespace LibraFlow.Services

open LibraFlow.Core LibraFlow.Library LibraFlow.Distributed LibraFlow.Ai LibraFlow.Container

/-- Make the copy's own branch known to the manager when the repository has it. -/
def registerSource (copy : BookCopy) (state : State) : State :=
  if state.branchMgr.branches.contains copy.branchId then state
  else
    match state.branchRepo.get? copy.branchId with
    | some source => { state with branchMgr := state.branchMgr.registerBranch source }
    | none => state

/-- Start a transfer of a live copy object. -/
def requestTransfer (ref : Ref) (copy : BookCopy) (destBranchId requestedBy transferId : String)
    (now : Datetime) : Call TransferRequest := fun state =>
  match state.branchMgr.requestTransfer copy destBranchId requestedBy transferId now with
  | .error detail => (.error (.valueError detail), state)
  | .ok (moved, request, manager) =>
      (.ok request, { state.mutateCopy ref moved with branchMgr := manager })

def transferCopy (copyId destBranchId requestedBy transferId : String) (now : Datetime) :
    Call TransferRequest := do
  let found ← Proc.read fun state => state.branchRepo.get? destBranchId
  let dest ← Proc.expect (.branchNotFound destBranchId) found
  Proc.update fun state => { state with branchMgr := state.branchMgr.registerBranch dest }
  let foundCopy ← Proc.read fun state => state.bookRepo.getCopy copyId
  let (ref, copy) ← Proc.expect (.copyNotFound copyId) foundCopy
  Proc.update (registerSource copy)
  let request ← requestTransfer ref copy destBranchId requestedBy transferId now
  Proc.update fun state => state.saveCopy ref
  return request

/-- What the executor reads of a plan item, with the identifier its transfer gets. -/
structure PlanItem where
  copyId : String
  destBranchId : String
  transferId : String

/-- Execute one item; a copy that is gone or not on the shelf is skipped. -/
def executeItem (item : PlanItem) (now : Datetime) : Call (Option TransferRequest) := do
  let found ← Proc.read fun state => state.bookRepo.getCopy item.copyId
  match found with
  | none => return none
  | some (ref, copy) =>
      if copy.status ≠ .available then return none
      else
        let request ← requestTransfer ref copy item.destBranchId "AUTONOMOUS_REBALANCER"
          item.transferId now
        Proc.update fun state => state.saveCopy ref
        Proc.update fun state => { state with
          tracking := state.tracking.recordRequest request now }
        Proc.update fun state => state.publish (.requested request.transferId request.copyId
          request.isbn request.sourceBranchId request.destBranchId)
        return some request

/-- Execute a plan item by item. An item that raises ends the call, with the
earlier items in effect. -/
def executeRebalancingPlan (now : Datetime) : List PlanItem → Call (List TransferRequest)
  | [] => pure []
  | item :: rest => do
      let executed ← executeItem item now
      let others ← executeRebalancingPlan now rest
      return executed.toList ++ others

/-- Record the arrival of a copy at its destination. -/
def completeTransfer (transferId : String) (now : Datetime) : Call (Option TransferRequest) := do
  let found ← Proc.read fun state => state.branchMgr.transfers.get? transferId
  match found with
  | none => return none
  | some transfer =>
      let foundCopy ← Proc.read fun state => state.bookRepo.getCopy transfer.copyId
      match foundCopy with
      | none => return none
      | some (ref, copy) =>
          let manager ← Proc.read fun state => state.branchMgr
          let (arrived, completed, after) ← Proc.lift .valueError
            (manager.completeTransfer transferId copy now)
          Proc.update fun state => { state.mutateCopy ref arrived with branchMgr := after }
          Proc.update fun state => state.saveCopy ref
          Proc.update fun state => { state with
            tracking := state.tracking.recordArrival transferId now }
          Proc.update fun state => state.publish (.completed transferId arrived.copyId
            completed.destBranchId)
          return some completed

end LibraFlow.Services
