import LibraFlow.Library.Run
import LibraFlow.Services.Billing
import LibraFlow.Services.Transfers

/-! The calls clients make on the in-memory container, as the labels of a
transition system. A call may raise; its effects up to that point stay. -/

set_option autoImplicit false

namespace LibraFlow.Container

open LibraFlow.Core LibraFlow.Library LibraFlow.Patterns LibraFlow.Services

inductive Operation where
  | registerBook (formatType actorId : String) (arguments : BookArguments)
  | addPhysicalCopy (isbn copyId branchId shelfLocation : String) (price : ℚ) (actorId : String)
  | registerUser (request : RegisterRequest)
  | issuePhysicalBook (request : IssueRequest)
  | returnPhysicalBook (request : ReturnRequest)
  | reserveBook (isbn userId reservationId : String)
  | requestSmartAllocation (isbn userId requestId : String)
  | processSmartAllocationDrop (isbn transactionId eventId : String)
  | transferCopy (copyId destBranchId requestedBy transferId : String)
  | executeRebalancingPlan (plan : List PlanItem)
  | completeTransfer (transferId : String)
  | chargeFine (userId isbn : String) (overdueDays : Int) (actorId : String)
  | payFine (userId : String) (amount : ℚ) (paymentMethod : String) (metadata : PaymentMetadata)
      (transactionId : String)
  | getBookDetails (isbn : String)

namespace Operation

/-- The state a complete call leaves behind, whether it returns or raises. -/
def exec (operation : Operation) (now : Datetime) (state : State) : State :=
  match operation with
  | registerBook formatType actorId arguments =>
      (Services.registerBook formatType actorId arguments now state).2
  | addPhysicalCopy isbn copyId branchId shelfLocation price actorId =>
      (Services.addPhysicalCopy isbn copyId branchId shelfLocation price actorId now state).2
  | registerUser request => (Services.registerUser request state).2
  | issuePhysicalBook request => (Services.issuePhysicalBook request now state).2
  | returnPhysicalBook request => (Services.returnPhysicalBook request now state).2
  | reserveBook isbn userId reservationId =>
      (Services.reserveBook isbn userId reservationId now state).2
  | requestSmartAllocation isbn userId requestId =>
      (Services.requestSmartAllocation isbn userId requestId now state).2
  | processSmartAllocationDrop isbn transactionId eventId =>
      (Services.processSmartAllocationDrop isbn transactionId eventId now state).2
  | transferCopy copyId destBranchId requestedBy transferId =>
      (Services.transferCopy copyId destBranchId requestedBy transferId now state).2
  | executeRebalancingPlan plan => (Services.executeRebalancingPlan now plan state).2
  | completeTransfer transferId => (Services.completeTransfer transferId now state).2
  | chargeFine userId isbn overdueDays actorId =>
      (Services.chargeFine userId isbn overdueDays actorId now state).2
  | payFine userId amount paymentMethod metadata transactionId =>
      (Services.payFine userId amount paymentMethod metadata transactionId now state).2
  | getBookDetails isbn => (Services.getBookDetails isbn now state).2

end Operation

/-- A call together with the time at which it is made. -/
structure TimedOperation where
  operation : Operation
  now : Datetime

/-- One complete call. -/
def Step (before : State) (call : TimedOperation) (after : State) : Prop :=
  call.operation.exec call.now before = after

end LibraFlow.Container
