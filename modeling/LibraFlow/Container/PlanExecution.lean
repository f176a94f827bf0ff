import LibraFlow.Ai.GreedyPlan
import LibraFlow.Container.Outcomes
import LibraFlow.Storage.Representation

/-! Executing a plan of transfers at once. An item whose copy is on the shelf of
another branch departs, and leaves the other copies and all listings alone. -/

set_option autoImplicit false

namespace LibraFlow.Container

open LibraFlow.Core LibraFlow.Library LibraFlow.Storage LibraFlow.Distributed LibraFlow.Ai
  LibraFlow.Services

/-- What dispatching some copies leaves as it was. -/
structure Dispatches (copyIds : List String) (before after : State) : Prop where
  wellFormed : after.bookRepo.WellFormed
  titles : ∀ isbn, after.bookRepo.getBook isbn = before.bookRepo.getBook isbn
  copies : ∀ copyId, copyId ∉ copyIds →
    after.bookRepo.getCopy copyId = before.bookRepo.getCopy copyId
  network : after.branchMgr.branches = before.branchMgr.branches

variable {before middle after : State}

theorem Dispatches.trans {first second : List String} (left : Dispatches first before middle)
    (right : Dispatches second middle after) : Dispatches (first ++ second) before after where
  wellFormed := right.wellFormed
  titles isbn := (right.titles isbn).trans (left.titles isbn)
  copies copyId absent := by
    rw [List.mem_append, not_or] at absent
    exact (right.copies copyId absent.2).trans (left.copies copyId absent.1)
  network := right.network.trans left.network

/-- The transfer an executed item enters in the ledger. -/
def requestOf (item : PlanItem) (copy : BookCopy) (now : Datetime) : TransferRequest where
  transferId := item.transferId
  copyId := copy.copyId
  isbn := copy.bookIsbn
  sourceBranchId := copy.branchId
  destBranchId := item.destBranchId
  requestedBy := "AUTONOMOUS_REBALANCER"
  status := .inTransit
  createdAt := now
  completedAt := none

end LibraFlow.Container
