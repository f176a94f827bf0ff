import LibraFlow.Core.User
import LibraFlow.Library.Decimal
import LibraFlow.Library.Dict

/-! Fine calculation and payment processing. Amounts are exact numbers. -/

set_option autoImplicit false

namespace LibraFlow.Patterns

open LibraFlow.Core LibraFlow.Library

/-- The dynamic fine: a daily rate scaled by demand, by popularity and by the
user's past late returns. -/
def calculateFine (baseRate : ℚ) (overdueDays : Int) (pendingReservations : Nat) (rating : ℚ)
    (pastLateReturns : Nat) : ℚ :=
  if overdueDays ≤ 0 then 0
  else
    let demandMultiplier := 1 + min 2 ((pendingReservations : ℚ) * (1 / 4))
    let popularityMultiplier := 1 + max 0 ((rating - 3) * (1 / 10))
    let historyPenalty := 1 + min (3 / 2) ((pastLateReturns : ℚ) * (1 / 10))
    let totalDailyRate := baseRate * demandMultiplier * popularityMultiplier * historyPenalty
    roundTo 2 (overdueDays * totalDailyRate)

inductive PaymentMethod where
  | upi
  | card
  | wallet
  deriving DecidableEq, Repr

/-- The strategy a payment method selects; the method is upper-cased first. -/
def PaymentMethod.ofName? (name : String) : Option PaymentMethod :=
  if upper name = "UPI" then some .upi
  else if upper name ∈ ["CARD", "CREDIT_CARD", "DEBIT_CARD"] then some .card
  else if upper name = "WALLET" then some .wallet
  else none

/-- The payment metadata the strategies read. -/
structure PaymentMetadata where
  vpa : Option String := none
  cardLast4 : Option String := none
  expiry : Option String := none

inductive PaymentStatus where
  | completed
  | failed
  deriving DecidableEq, Repr

/-- Outcome of a payment attempt. -/
structure PaymentResult where
  transactionId : String
  status : PaymentStatus
  amount : ℚ
  deriving DecidableEq

/-- Run the selected strategy. Only the wallet strategy has a balance of its
own; it debits the rounded difference. -/
def processPayment (method : PaymentMethod) (wallets : Dict String ℚ) (amount : ℚ)
    (payerId : String) (metadata : PaymentMetadata) (transactionId : String) :
    PaymentResult × Dict String ℚ :=
  match method with
  | .upi =>
      if '@' ∈ (metadata.vpa.getD (payerId ++ "@upi")).toList then
        (⟨transactionId, .completed, amount⟩, wallets)
      else (⟨transactionId, .failed, amount⟩, wallets)
  | .card =>
      if (metadata.cardLast4.getD "4242").length = 4 then
        (⟨transactionId, .completed, amount⟩, wallets)
      else (⟨transactionId, .failed, amount⟩, wallets)
  | .wallet =>
      let currentBalance := (wallets.get? payerId).getD 0
      if currentBalance < amount then (⟨transactionId, .failed, amount⟩, wallets)
      else
        (⟨transactionId, .completed, amount⟩,
          wallets.set payerId (roundTo 2 (currentBalance - amount)))

def executePayment (method : PaymentMethod) (wallets : Dict String ℚ) (amount : ℚ)
    (payerId : String) (metadata : PaymentMetadata) (transactionId : String) :
    Except Error (PaymentResult × Dict String ℚ) :=
  if amount ≤ 0 then .error (.valueError "Payment amount must be greater than 0.")
  else .ok (processPayment method wallets amount payerId metadata transactionId)

end LibraFlow.Patterns
