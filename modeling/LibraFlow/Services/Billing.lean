import LibraFlow.Container.State

/-! Fines and payments on the in-memory container. -/

set_option autoImplicit false

namespace LibraFlow.Services

open LibraFlow.Core LibraFlow.Library LibraFlow.Patterns LibraFlow.Container

def baseRate : ℚ := 10

/-- The fine a user would owe; unknown titles and users cost nothing. -/
def calculateProjectedFine (state : State) (isbn userId : String) (overdueDays : Int) : ℚ :=
  match state.bookRepo.getBook isbn, state.users.get? userId with
  | some book, some user =>
      calculateFine baseRate overdueDays (state.reservationMgr.getWaitingCount isbn) book.rating
        user.lateReturns
  | _, _ => 0

structure FineReceipt where
  userId : String
  fineCharged : ℚ
  totalUnpaidBalance : ℚ

def chargeFine (userId isbn : String) (overdueDays : Int) (actorId : String) (now : Datetime) :
    Call FineReceipt := do
  let fineAmount ← Proc.read fun state => calculateProjectedFine state isbn userId overdueDays
  let found ← Proc.read fun state => state.users.get? userId
  let user ← Proc.expect (.userNotFound userId) found
  let fined := user.addFine fineAmount
  Proc.update fun state => state.putUser fined
  Proc.update fun state => state.dispatch
    (.overdueFineAccrued userId isbn fineAmount fined.unpaidFinesBalance)
  Proc.update fun state => state.logEvent now actorId userId
    (.chargeFine isbn fineAmount fined.unpaidFinesBalance)
  return ⟨userId, fineAmount, fined.unpaidFinesBalance⟩

structure PaymentReceipt where
  payment : PaymentResult
  appliedToFine : Option ℚ
  remainingUnpaidBalance : Option ℚ

def payFine (userId : String) (amount : ℚ) (paymentMethod : String) (metadata : PaymentMetadata)
    (transactionId : String) (now : Datetime) : Call PaymentReceipt := do
  let found ← Proc.read fun state => state.users.get? userId
  let user ← Proc.expect (.userNotFound userId) found
  let method ← Proc.expect
    (.insufficientInput ("Unsupported payment method '" ++ paymentMethod ++ "'."))
    (PaymentMethod.ofName? paymentMethod)
  let wallets ← Proc.read fun state => state.userWallets
  let (result, after) ← Proc.lift id
    (executePayment method wallets amount userId metadata transactionId)
  Proc.update fun state => { state with userWallets := after }
  if result.status = .completed then
    let paid := user.payFine amount
    Proc.update fun state => state.putUser paid
    Proc.update fun state => state.logEvent now userId transactionId
      (.payFine amount (upper paymentMethod) paid.unpaidFinesBalance)
    return ⟨result, some (user.applied amount), some paid.unpaidFinesBalance⟩
  else return ⟨result, none, none⟩

end LibraFlow.Services
