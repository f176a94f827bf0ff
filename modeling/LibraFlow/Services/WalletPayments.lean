import LibraFlow.Services.FineAccounts

/-! Payments from the wallet. The wallet is rounded to whole cents after a payment and
the fine is not, so a payment is free as far as the rest of the wallet is rounded up. -/

set_option autoImplicit false

namespace LibraFlow.Services

open LibraFlow.Core LibraFlow.Library LibraFlow.Patterns LibraFlow.Container

/-- The call pays from the wallet. -/
def BillingCall.FromWallet : BillingCall → Prop
  | charge .. => False
  | pay _ paymentMethod _ _ _ => PaymentMethod.ofName? paymentMethod = some .wallet

/-- A user is stored under the user's own identifier. -/
def StoredUnder (userId : String) (state : State) : Prop :=
  ∀ user, state.users.get? userId = some user → user.userId = userId

/-- The number of cents that a payment leaves in the wallet, before rounding. -/
def centsLeft (userId : String) (state : State) (amount : ℚ) : ℚ :=
  (walletOf userId state - amount) * 100

/-- If an accepted payment leaves a number of cents that is rounded up, then what is
missing to the next cent is paid on top of the fine. -/
def RoundingPaid (userId : String) (state : State) : BillingCall → Prop
  | .charge .. => True
  | .pay amount _ _ _ _ =>
      (∃ user, state.users.get? userId = some user) → 0 < amount →
        amount ≤ walletOf userId state → RoundsUp (centsLeft userId state amount) →
        (1 - Int.fract (centsLeft userId state amount)) / 100 ≤ amount - balance userId state

/-- The call takes from the wallet what it takes off the fine, or more. -/
def NotFree (userId : String) (transition : Transition State BillingCall) : Prop :=
  balance userId transition.before - balance userId transition.after ≤
    walletOf userId transition.before - walletOf userId transition.after

/-- What a payment from the wallet does to the account. -/
inductive WalletEffect (userId : String) (before : State) (amount : ℚ) (after : State) : Prop where
  | unchanged (refused : (∃ user, before.users.get? userId = some user) → 0 < amount →
      ¬ amount ≤ walletOf userId before)
      (sameBalance : balance userId after = balance userId before)
      (sameWallet : walletOf userId after = walletOf userId before)
  | paid (known : ∃ user, before.users.get? userId = some user) (positive : 0 < amount)
      (covered : amount ≤ walletOf userId before)
      (reduced : balance userId after = balance userId before - min (balance userId before) amount)
      (debited : walletOf userId after = roundTo 2 (walletOf userId before - amount))

section Steps

variable {userId : String} {before : State} {amount : ℚ} {paymentMethod : String}
  {metadata : PaymentMetadata} {transactionId : String} {now : Datetime}

private theorem pay_unknown (unknown : before.users.get? userId = none) :
    (BillingCall.pay amount paymentMethod metadata transactionId now).exec userId before = before := by
  simp only [BillingCall.exec, payFine, Proc.read_bind_apply, unknown, Proc.expect_none_bind_apply]

private theorem walletEffect (stored : StoredUnder userId before)
    (wallet : PaymentMethod.ofName? paymentMethod = some .wallet) :
    let after := (BillingCall.pay amount paymentMethod metadata transactionId now).exec userId before
    StoredUnder userId after ∧ WalletEffect userId before amount after := by
  intro after
  cases known : before.users.get? userId with
  | none =>
      have same : after = before := pay_unknown known
      rw [same]
      refine ⟨stored, .unchanged (fun found => ?_) rfl rfl⟩
      obtain ⟨user, found⟩ := found
      rw [known] at found
      cases found
  | some user =>
      have registered : Registered userId before := ⟨user, known, stored user known⟩
      have keyed : Registered userId after → StoredUnder userId after := by
        rintro ⟨payer, found, identity⟩ other same
        rw [found, Option.some.injEq] at same
        exact same ▸ identity
      by_cases accepted : Accepted userId before amount paymentMethod metadata .wallet
      · obtain ⟨still, _, _, reduced, debited⟩ :=
          pay_accepted registered accepted transactionId now
        rw [if_pos rfl] at debited
        refine ⟨keyed still, .paid ⟨user, known⟩ accepted.positive ?_ reduced debited⟩
        simpa [accepts, walletOf] using accepted.accepted
      · have refused : ∀ method, ¬ Accepted userId before amount paymentMethod metadata method := by
          intro method possible
          have same : method = .wallet := Option.some.inj (possible.chosen.symm.trans wallet)
          exact accepted (same ▸ possible)
        obtain ⟨still, _, _, sameBalance, sameWallet⟩ :=
          pay_refused registered refused transactionId now
        refine ⟨keyed still, .unchanged (fun _ positive covered => ?_) sameBalance sameWallet⟩
        exact accepted ⟨wallet, positive, by simpa [accepts, walletOf] using covered⟩

/-- A payment is not free exactly when the rounding is paid for. -/
theorem notFree_iff (stored : StoredUnder userId before)
    (wallet : PaymentMethod.ofName? paymentMethod = some .wallet) :
    let call := BillingCall.pay amount paymentMethod metadata transactionId now
    NotFree userId ⟨before, call, call.exec userId before⟩ ↔ RoundingPaid userId before call := by
  intro call
  have effect := (@walletEffect userId before amount paymentMethod metadata transactionId now stored
    wallet).2
  unfold NotFree
  simp only
  cases effect with
  | unchanged refused sameBalance sameWallet =>
      rw [sameBalance, sameWallet, sub_self, sub_self]
      refine ⟨fun _ known positive covered => absurd covered (refused known positive), fun _ => ?_⟩
      exact le_refl 0
  | paid known positive covered reduced debited =>
      have missing := Int.fract_lt_one (centsLeft userId before amount)
      rw [reduced, debited, roundTo_two]
      unfold RoundingPaid
      by_cases up : RoundsUp (centsLeft userId before amount)
      · have up' : RoundsUp ((walletOf userId before - amount) * 100) := up
        rw [if_pos up']
        constructor
        · intro less _ _ _ _
          rcases le_total (balance userId before) amount with below | above
          · rw [min_eq_left below] at less
            unfold centsLeft
            linarith
          · rw [min_eq_right above] at less
            unfold centsLeft at missing
            linarith
        · intro enough
          have enough := enough known positive covered up
          have below : balance userId before ≤ amount := by
            unfold centsLeft at enough missing
            linarith
          rw [min_eq_left below]
          unfold centsLeft at enough
          linarith
      · have down : ¬ RoundsUp ((walletOf userId before - amount) * 100) := up
        rw [if_neg down]
        refine ⟨fun _ _ _ _ raised => absurd raised up, fun _ => ?_⟩
        have rest := Int.fract_nonneg ((walletOf userId before - amount) * 100)
        have part := min_le_right (balance userId before) amount
        linarith

private theorem wallet_nonneg (stored : StoredUnder userId before)
    (wallet : PaymentMethod.ofName? paymentMethod = some .wallet)
    (nonneg : 0 ≤ walletOf userId before) :
    0 ≤ walletOf userId
      ((BillingCall.pay amount paymentMethod metadata transactionId now).exec userId before) := by
  have effect := (@walletEffect userId before amount paymentMethod metadata transactionId now stored
    wallet).2
  cases effect with
  | unchanged _ _ sameWallet => rwa [sameWallet]
  | paid _ _ covered _ debited =>
      rw [debited]
      exact roundTo_nonneg (sub_nonneg.mpr covered)

end Steps

section Runs

variable {userId : String} {start final : State} {trace : List (Transition State BillingCall)}

/-- One payment from the wallet, as a step of a run. -/
theorem BillingStep.fromWallet {before after : State} {call : BillingCall}
    (stored : StoredUnder userId before) (step : BillingStep userId before call after)
    (wallet : call.FromWallet) :
    StoredUnder userId after ∧
      (NotFree userId ⟨before, call, after⟩ ↔ RoundingPaid userId before call) ∧
      (0 ≤ walletOf userId before → 0 ≤ walletOf userId after) := by
  subst step
  cases call with
  | charge => cases wallet
  | pay => exact ⟨(walletEffect stored wallet).1, notFree_iff stored wallet, wallet_nonneg stored wallet⟩

theorem run_storedUnder (run : Run (BillingStep userId) start trace final)
    (wallet : ∀ transition ∈ trace, transition.label.FromWallet)
    (stored : StoredUnder userId start) : StoredUnder userId final := by
  refine run.invariant wallet stored ?_
  intro before call after known step fromWallet
  exact (step.fromWallet known fromWallet).1

/-- A payment is free exactly when the rounding of the wallet is not paid for. Payments
that are not free never take more off the fine than from the wallet, and no payment
takes the wallet below zero. -/
theorem run_walletPaysFines (run : Run (BillingStep userId) start trace final)
    (stored : StoredUnder userId start)
    (wallet : ∀ transition ∈ trace, transition.label.FromWallet) :
    (∀ transition ∈ trace, NotFree userId transition ↔
      RoundingPaid userId transition.before transition.label) ∧
    ((∀ transition ∈ trace, RoundingPaid userId transition.before transition.label) →
      balance userId start - balance userId final ≤
        walletOf userId start - walletOf userId final) ∧
    (0 ≤ walletOf userId start → 0 ≤ walletOf userId final) := by
  induction run with
  | nil => simp
  | @snoc earlier middle last call earlierRun step ih =>
      have before := fun transition member => wallet transition (List.mem_append_left _ member)
      have here : call.FromWallet := wallet ⟨middle, call, last⟩ (by simp)
      obtain ⟨steps, total, nonneg⟩ := ih before
      obtain ⟨_, exactly, stays⟩ := step.fromWallet (run_storedUnder earlierRun before stored) here
      refine ⟨?_, ?_, fun positive => stays (nonneg positive)⟩
      · intro transition member
        rcases List.mem_append.mp member with old | new
        · exact steps transition old
        · rw [List.mem_singleton.mp new]
          exact exactly
      · intro paid
        have sofar := total fun transition member => paid transition (List.mem_append_left _ member)
        have lastPaid : NotFree userId ⟨middle, call, last⟩ :=
          exactly.mpr (paid ⟨middle, call, last⟩ (by simp))
        unfold NotFree at lastPaid
        simp only at lastPaid
        linarith

end Runs

/-- A user with a fine and one unit of money in the wallet. -/
def owing (fine : ℚ) : State :=
  let payer := User.new
    { userId := "U1", name := "Asha", email := "asha@example", passwordHash := "h" } 50 .admin
  { (.empty .empty .empty : State) with
    users := .set .empty "U1" { payer with unpaidFinesBalance := fine }
    userWallets := .set .empty "U1" 1 }

def oneCentDue : State := owing (1 / 100)

private theorem owing_storedUnder (fine : ℚ) : StoredUnder "U1" (owing fine) := by
  intro user found
  cases found
  rfl

/-- A part of the fine, the rest of it with half a cent on top, another payment when nothing
is due any more, and one of more than the wallet holds. -/
def coveredPayments : List BillingCall :=
  [.pay (10 / 100) "wallet" {} "T1" .min, .pay (205 / 1000) "wallet" {} "T2" .min,
    .pay (304 / 1000) "Wallet" {} "T3" .min, .pay 2 "WALLET" {} "T4" .min]

/-- Two of the roundings go up, and both are paid for. -/
theorem run_walletPaysFines_covered :
    let final := coveredPayments.foldl (BillingCall.exec "U1") (owing (30 / 100))
    balance "U1" final = 0 ∧ walletOf "U1" final = 40 / 100 ∧
      balance "U1" (owing (30 / 100)) - balance "U1" final ≤
        walletOf "U1" (owing (30 / 100)) - walletOf "U1" final := by
  intro final
  have run : Run (BillingStep "U1") (owing (30 / 100)) _ final :=
    Run.of_exec (fun _ _ => rfl) (owing (30 / 100)) coveredPayments
  refine ⟨by decide +kernel, by decide +kernel, ?_⟩
  refine (run_walletPaysFines run (owing_storedUnder _) ?_).2.1 ?_
  · intro transition member
    simp only [coveredPayments, Run.trail, List.mem_cons, List.not_mem_nil, or_false] at member
    rcases member with rfl | rfl | rfl | rfl
    · exact (by decide +kernel : PaymentMethod.ofName? "wallet" = some .wallet)
    · exact (by decide +kernel : PaymentMethod.ofName? "wallet" = some .wallet)
    · exact (by decide +kernel : PaymentMethod.ofName? "Wallet" = some .wallet)
    · exact (by decide +kernel : PaymentMethod.ofName? "WALLET" = some .wallet)
  · intro transition member
    simp only [coveredPayments, Run.trail, List.mem_cons, List.not_mem_nil, or_false] at member
    rcases member with rfl | rfl | rfl | rfl
    · intro _ _ _ up
      exact absurd up (by decide +kernel)
    · intro _ _ _ up
      decide +kernel
    · intro _ _ _ up
      decide +kernel
    · intro _ _ covered
      exact absurd covered (by decide +kernel)

/-- Three small payments clear the fine and leave the wallet as it was. -/
theorem small_payments_are_free :
    let calls := [BillingCall.pay (4 / 1000) "wallet" {} "T1" .min,
      .pay (4 / 1000) "wallet" {} "T2" .min, .pay (2 / 1000) "wallet" {} "T3" .min]
    let final := calls.foldl (BillingCall.exec "U1") oneCentDue
    Run (BillingStep "U1") oneCentDue (Run.trail (BillingCall.exec "U1") oneCentDue calls) final ∧
      balance "U1" oneCentDue - balance "U1" final = 1 / 100 ∧
      walletOf "U1" oneCentDue - walletOf "U1" final = 0 :=
  ⟨Run.of_exec (fun _ _ => rfl) oneCentDue _, by decide +kernel, by decide +kernel⟩

end LibraFlow.Services
