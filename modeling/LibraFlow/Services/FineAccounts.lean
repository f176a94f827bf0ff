import LibraFlow.Library.Run
import LibraFlow.Services.Billing
import LibraFlow.Services.Catalog

/-! The account of one user over a sequence of charges and payments. What a
payment takes from the payer and what it applies to the fine are computed apart;
the account closes exactly when the two agree at every payment. -/

set_option autoImplicit false

namespace LibraFlow.Services

open LibraFlow.Core LibraFlow.Library LibraFlow.Patterns LibraFlow.Container

/-- The strategy accepts the payment; this is all it reads. -/
def accepts (method : PaymentMethod) (wallets : Dict String ℚ) (amount : ℚ) (payerId : String)
    (metadata : PaymentMetadata) : Bool :=
  match method with
  | .upi => '@' ∈ (metadata.vpa.getD (payerId ++ "@upi")).toList
  | .card => (metadata.cardLast4.getD "4242").length = 4
  | .wallet => amount ≤ (wallets.get? payerId).getD 0

private theorem processPayment_of_accepts {method : PaymentMethod} {wallets : Dict String ℚ}
    {amount : ℚ} {payerId : String} {metadata : PaymentMetadata}
    (accepted : accepts method wallets amount payerId metadata = true) (transactionId : String) :
    processPayment method wallets amount payerId metadata transactionId =
      (⟨transactionId, .completed, amount⟩,
        if method = .wallet then
          wallets.set payerId (roundTo 2 ((wallets.get? payerId).getD 0 - amount))
        else wallets) := by
  cases method with
  | upi | card =>
      simp only [accepts, decide_eq_true_eq] at accepted
      simp [processPayment, accepted]
  | wallet =>
      simp only [accepts, decide_eq_true_eq] at accepted
      simp [processPayment, not_lt_of_ge accepted]

private theorem processPayment_of_refuses {method : PaymentMethod} {wallets : Dict String ℚ}
    {amount : ℚ} {payerId : String} {metadata : PaymentMetadata}
    (refused : accepts method wallets amount payerId metadata = false) (transactionId : String) :
    processPayment method wallets amount payerId metadata transactionId =
      (⟨transactionId, .failed, amount⟩, wallets) := by
  cases method with
  | upi | card =>
      simp only [accepts, decide_eq_false_iff_not] at refused
      simp [processPayment, refused]
  | wallet =>
      simp only [accepts, decide_eq_false_iff_not, not_le] at refused
      simp [processPayment, refused]

/-- A call on the account of one user. -/
inductive BillingCall where
  | charge (isbn : String) (overdueDays : Int) (actorId : String) (now : Datetime)
  | pay (amount : ℚ) (paymentMethod : String) (metadata : PaymentMetadata)
      (transactionId : String) (now : Datetime)

namespace BillingCall

variable (userId : String)

def exec (state : State) : BillingCall → State
  | charge isbn overdueDays actorId now =>
      (chargeFine userId isbn overdueDays actorId now state).2
  | pay amount paymentMethod metadata transactionId now =>
      (payFine userId amount paymentMethod metadata transactionId now state).2

/-- The fine a call reports as charged. -/
def fineCharged (state : State) : BillingCall → ℚ
  | charge isbn overdueDays actorId now =>
      match (chargeFine userId isbn overdueDays actorId now state).1 with
      | .ok receipt => receipt.fineCharged
      | .error _ => 0
  | pay .. => 0

/-- The amount of the payment a call reports as completed. -/
def collected (state : State) : BillingCall → ℚ
  | charge .. => 0
  | pay amount paymentMethod metadata transactionId now =>
      match (payFine userId amount paymentMethod metadata transactionId now state).1 with
      | .ok receipt => if receipt.payment.status = .completed then receipt.payment.amount else 0
      | .error _ => 0

/-- The call ends in a completed payment. -/
def Completes (state : State) (call : BillingCall) : Prop :=
  match call with
  | charge .. => False
  | pay amount paymentMethod metadata transactionId now =>
      ∃ receipt, (payFine userId amount paymentMethod metadata transactionId now state).1 =
        .ok receipt ∧ receipt.payment.status = .completed

end BillingCall

def balance (userId : String) (state : State) : ℚ :=
  match state.users.get? userId with
  | some user => user.unpaidFinesBalance
  | none => 0

def walletOf (userId : String) (state : State) : ℚ := (state.userWallets.get? userId).getD 0

/-- What a payment takes from the payer: the amount of the transaction, or the
debit of the wallet. -/
def takings (userId : String) (transition : Transition State BillingCall) : ℚ :=
  match transition.label with
  | .charge .. => 0
  | .pay _ paymentMethod _ _ _ =>
      if PaymentMethod.ofName? paymentMethod = some .wallet then
        walletOf userId transition.before - walletOf userId transition.after
      else transition.label.collected userId transition.before

/-- A payment that goes through is not larger than the balance, and a wallet is
left with whole cents. -/
def Covered (userId : String) (state : State) : BillingCall → Prop
  | .charge .. => True
  | .pay amount paymentMethod metadata _ _ =>
      ∀ method, PaymentMethod.ofName? paymentMethod = some method → 0 < amount →
        accepts method state.userWallets amount userId metadata = true →
        amount ≤ balance userId state ∧ (method = .wallet →
          roundTo 2 (walletOf userId state - amount) = walletOf userId state - amount)

def BillingStep (userId : String) (before : State) (call : BillingCall) (after : State) : Prop :=
  call.exec userId before = after

/-- The account is that of a registered user. -/
def Registered (userId : String) (state : State) : Prop :=
  ∃ user, state.users.get? userId = some user ∧ user.userId = userId

private theorem calculateFine_nonneg (overdueDays : Int) (pendingReservations : Nat) (rating : ℚ)
    (pastLateReturns : Nat) :
    0 ≤ calculateFine baseRate overdueDays pendingReservations rating pastLateReturns := by
  unfold calculateFine
  split
  · exact le_refl 0
  · next overdue =>
      have days : (0 : ℚ) ≤ overdueDays := by
        exact_mod_cast le_of_lt (lt_of_not_ge overdue)
      apply roundTo_nonneg
      unfold baseRate
      positivity

section Steps

variable {userId : String} {before : State}

private theorem charge_spec (registered : Registered userId before) (isbn : String)
    (overdueDays : Int) (actorId : String) (now : Datetime) :
    Registered userId ((BillingCall.charge isbn overdueDays actorId now).exec userId before) ∧
      balance userId ((BillingCall.charge isbn overdueDays actorId now).exec userId before) =
        balance userId before +
          (BillingCall.charge isbn overdueDays actorId now).fineCharged userId before ∧
      0 ≤ (BillingCall.charge isbn overdueDays actorId now).fineCharged userId before ∧
      walletOf userId ((BillingCall.charge isbn overdueDays actorId now).exec userId before) =
        walletOf userId before := by
  obtain ⟨user, known, identity⟩ := registered
  have fine : 0 ≤ calculateProjectedFine before isbn userId overdueDays := by
    unfold calculateProjectedFine
    split
    · exact calculateFine_nonneg _ _ _ _
    · exact le_refl 0
  have after : (BillingCall.charge isbn overdueDays actorId now).exec userId before =
      ((before.putUser (user.addFine (calculateProjectedFine before isbn userId overdueDays))).dispatch
        (.overdueFineAccrued userId isbn (calculateProjectedFine before isbn userId overdueDays)
          (user.addFine (calculateProjectedFine before isbn userId
            overdueDays)).unpaidFinesBalance)).logEvent now actorId userId
        (.chargeFine isbn (calculateProjectedFine before isbn userId overdueDays)
          (user.addFine (calculateProjectedFine before isbn userId
            overdueDays)).unpaidFinesBalance) := by
    simp only [BillingCall.exec, chargeFine, Proc.read_bind_apply, known]
    rfl
  have charged : (BillingCall.charge isbn overdueDays actorId now).fineCharged userId before =
      calculateProjectedFine before isbn userId overdueDays := by
    simp only [BillingCall.fineCharged, chargeFine, Proc.read_bind_apply, known]
    rfl
  have stored : (before.users.set user.userId (user.addFine (calculateProjectedFine before isbn
      userId overdueDays))).get? userId = some (user.addFine (calculateProjectedFine before isbn
        userId overdueDays)) := by
    rw [← identity]
    exact Dict.get?_set_self _ _ _
  rw [after, charged]
  refine ⟨⟨_, stored, identity⟩, ?_, fine, rfl⟩
  simp only [balance, State.logEvent, State.dispatch, State.putUser, User.addFine] at stored ⊢
  rw [stored, known]
  simp only [max_eq_right fine]

/-- The payment goes through. -/
structure Accepted (userId : String) (before : State) (amount : ℚ) (paymentMethod : String)
    (metadata : PaymentMetadata) (method : PaymentMethod) : Prop where
  chosen : PaymentMethod.ofName? paymentMethod = some method
  positive : 0 < amount
  accepted : accepts method before.userWallets amount userId metadata = true

theorem pay_accepted (registered : Registered userId before) {amount : ℚ} {paymentMethod : String}
    {metadata : PaymentMetadata} {method : PaymentMethod}
    (accepted : Accepted userId before amount paymentMethod metadata method)
    (transactionId : String) (now : Datetime) :
    let call := BillingCall.pay amount paymentMethod metadata transactionId now
    Registered userId (call.exec userId before) ∧ call.Completes userId before ∧
      call.collected userId before = amount ∧
      balance userId (call.exec userId before) =
        balance userId before - min (balance userId before) amount ∧
      walletOf userId (call.exec userId before) =
        if method = .wallet then roundTo 2 (walletOf userId before - amount)
        else walletOf userId before := by
  intro call
  obtain ⟨user, known, identity⟩ := registered
  have attempted : executePayment method before.userWallets amount userId metadata transactionId =
      .ok (⟨transactionId, .completed, amount⟩,
        if method = .wallet then before.userWallets.set userId
          (roundTo 2 ((before.userWallets.get? userId).getD 0 - amount))
        else before.userWallets) := by
    rw [executePayment, if_neg (not_le_of_gt accepted.positive),
      processPayment_of_accepts accepted.accepted]
  have ran : payFine userId amount paymentMethod metadata transactionId now before =
      (.ok ⟨⟨transactionId, .completed, amount⟩, some (user.applied amount),
          some (user.payFine amount).unpaidFinesBalance⟩,
        (State.putUser { before with
          userWallets := if method = .wallet then before.userWallets.set userId
            (roundTo 2 ((before.userWallets.get? userId).getD 0 - amount))
          else before.userWallets } (user.payFine amount)).logEvent now userId transactionId
          (.payFine amount (upper paymentMethod) (user.payFine amount).unpaidFinesBalance)) := by
    simp only [payFine, Proc.read_bind_apply, known, Proc.expect_some_bind_apply, accepted.chosen,
      attempted, Proc.lift_ok_bind_apply, Proc.update_bind_apply, ↓reduceIte, Proc.pure_apply]
  have same : (user.payFine amount).userId = userId := identity
  have stored : (before.users.set (user.payFine amount).userId (user.payFine amount)).get? userId =
      some (user.payFine amount) := by
    rw [same]
    exact Dict.get?_set_self _ _ _
  simp only [call, BillingCall.exec, BillingCall.Completes, BillingCall.collected, ran, ↓reduceIte]
  refine ⟨⟨_, stored, identity⟩, ⟨_, rfl, rfl⟩, trivial, ?_, ?_⟩
  · simp only [balance, State.logEvent, State.putUser, stored, known]
    rfl
  · simp only [walletOf, State.logEvent, State.putUser]
    split <;> simp

theorem pay_refused (registered : Registered userId before) {amount : ℚ} {paymentMethod : String}
    {metadata : PaymentMetadata}
    (refused : ∀ method, ¬ Accepted userId before amount paymentMethod metadata method)
    (transactionId : String) (now : Datetime) :
    let call := BillingCall.pay amount paymentMethod metadata transactionId now
    Registered userId (call.exec userId before) ∧ ¬ call.Completes userId before ∧
      call.collected userId before = 0 ∧
      balance userId (call.exec userId before) = balance userId before ∧
      walletOf userId (call.exec userId before) = walletOf userId before := by
  intro call
  obtain ⟨user, known, identity⟩ := registered
  simp only [call, BillingCall.exec, BillingCall.Completes, BillingCall.collected, payFine,
    Proc.read_bind_apply, known, Proc.expect_some_bind_apply]
  cases chosen : PaymentMethod.ofName? paymentMethod with
  | none =>
      simp only [Proc.expect_none_bind_apply, reduceCtorEq, false_and, exists_false,
        not_false_eq_true, and_true]
      exact ⟨user, known, identity⟩
  | some method =>
      simp only [Proc.expect_some_bind_apply, Proc.read_bind_apply]
      by_cases positive : amount ≤ 0
      · simp only [executePayment, positive, ↓reduceIte, Proc.lift_error_bind_apply, reduceCtorEq,
          false_and, exists_false, not_false_eq_true, and_true]
        exact ⟨user, known, identity⟩
      · have failed : accepts method before.userWallets amount userId metadata = false := by
          cases accepted : accepts method before.userWallets amount userId metadata with
          | false => rfl
          | true => exact absurd ⟨chosen, lt_of_not_ge positive, accepted⟩ (refused method)
        simp only [executePayment, positive, ↓reduceIte, processPayment_of_refuses failed,
          Proc.lift_ok_bind_apply, Proc.update_bind_apply, reduceCtorEq, Proc.pure_apply]
        refine ⟨⟨user, known, identity⟩, ?_, trivial, trivial, trivial⟩
        rintro ⟨receipt, same, completed⟩
        cases same
        cases completed

end Steps

/-- What a call moves: it adds its fine to the balance and applies the rest of
the difference. What it collects and takes beyond that is lost to the payer. -/
structure Moves (userId : String) (transition : Transition State BillingCall) : Prop where
  registered : Registered userId transition.after
  nonneg : 0 ≤ balance userId transition.before → 0 ≤ balance userId transition.after
  exact : Covered userId transition.before transition.label →
    transition.label.fineCharged userId transition.before + balance userId transition.before =
        transition.label.collected userId transition.before + balance userId transition.after ∧
      takings userId transition = transition.label.collected userId transition.before
  covered : transition.label.fineCharged userId transition.before +
        balance userId transition.before =
      transition.label.collected userId transition.before + balance userId transition.after →
    takings userId transition = transition.label.collected userId transition.before →
    Covered userId transition.before transition.label
  failed : ∀ amount paymentMethod metadata transactionId now,
    transition.label = .pay amount paymentMethod metadata transactionId now →
    ¬ transition.label.Completes userId transition.before →
    walletOf userId transition.after = walletOf userId transition.before ∧
      balance userId transition.after = balance userId transition.before

theorem BillingStep.moves {userId : String} {transition : Transition State BillingCall}
    (step : BillingStep userId transition.before transition.label transition.after)
    (registered : Registered userId transition.before) : Moves userId transition := by
  obtain ⟨before, call, after⟩ := transition
  have reached : call.exec userId before = after := step
  subst reached
  cases call with
  | charge isbn overdueDays actorId now =>
      obtain ⟨known, total, fine, _⟩ := charge_spec registered isbn overdueDays actorId now
      refine ⟨known, ?_, ?_, fun _ _ => trivial, ?_⟩
      · intro nonneg
        simp only [total]
        exact add_nonneg nonneg fine
      · intro _
        simp only [total, BillingCall.collected, takings, zero_add, and_true]
        exact add_comm _ _
      · intro amount paymentMethod metadata transactionId now same
        cases same
  | pay amount paymentMethod metadata transactionId now =>
      by_cases accepted : ∃ method, Accepted userId before amount paymentMethod metadata method
      · obtain ⟨method, accepted⟩ := accepted
        obtain ⟨known, completes, collected, paid, wallet⟩ :=
          pay_accepted registered accepted transactionId now
        have taken : takings userId ⟨before, .pay amount paymentMethod metadata transactionId now,
            (BillingCall.pay amount paymentMethod metadata transactionId now).exec userId before⟩ =
            if method = .wallet then
              walletOf userId before - roundTo 2 (walletOf userId before - amount)
            else amount := by
          simp only [takings, accepted.chosen, Option.some.injEq, collected, wallet]
          split <;> simp [*]
        refine ⟨known, ?_, ?_, ?_, ?_⟩
        · intro _
          simp only [paid]
          exact sub_nonneg.mpr (min_le_left _ _)
        · intro covered
          obtain ⟨enough, cents⟩ :=
            covered method accepted.chosen accepted.positive accepted.accepted
          simp only [BillingCall.fineCharged, collected, paid, taken, min_eq_right enough]
          refine ⟨by ring, ?_⟩
          split
          · next isWallet =>
              rw [cents isWallet]
              ring
          · rfl
        · intro closes exactly method' chosen _ _
          rw [accepted.chosen, Option.some.injEq] at chosen
          subst method'
          simp only [BillingCall.fineCharged, collected, paid] at closes
          simp only [taken, collected] at exactly
          constructor
          · by_contra larger
            rw [min_eq_left (le_of_not_ge larger)] at closes
            exact larger (by linarith)
          · intro isWallet
            rw [if_pos isWallet] at exactly
            linarith
        · intro _ _ _ _ _ _ incomplete
          exact absurd completes incomplete
      · obtain ⟨known, incomplete, collected, kept, wallet⟩ :=
          pay_refused registered (not_exists.mp accepted) transactionId now
        refine ⟨known, ?_, ?_, ?_, ?_⟩
        · intro nonneg
          simp only [kept]
          exact nonneg
        · intro _
          simp only [BillingCall.fineCharged, collected, kept, takings, wallet, sub_self, ite_self,
            and_self]
        · intro _ _ method chosen positive passes
          exact absurd ⟨method, chosen, positive, passes⟩ accepted
        · intro _ _ _ _ _ _ _
          exact ⟨wallet, kept⟩

/-- The account of a user after a sequence of calls. -/
structure Accounted (userId : String) (trace : List (Transition State BillingCall))
    (final : State) : Prop where
  amounts : (trace.map fun call => call.label.fineCharged userId call.before).sum =
    (trace.map fun call => call.label.collected userId call.before).sum + balance userId final
  takings : (trace.map fun call => call.label.fineCharged userId call.before).sum =
    (trace.map (takings userId)).sum + balance userId final
  nonneg : 0 ≤ balance userId final
  fair : ∀ call ∈ trace, call.label.Completes userId call.before →
    call.label.collected userId call.before ≤
        balance userId call.before - balance userId call.after ∧
      Services.takings userId call ≤ balance userId call.before - balance userId call.after
  failures : ∀ call ∈ trace, ∀ amount paymentMethod metadata transactionId now,
    call.label = .pay amount paymentMethod metadata transactionId now →
    ¬ call.label.Completes userId call.before →
    walletOf userId call.after = walletOf userId call.before ∧
      balance userId call.after = balance userId call.before

section Runs

variable {userId : String} {start final : State} {trace : List (Transition State BillingCall)}

theorem run_registered (run : Run (BillingStep userId) start trace final)
    (registered : Registered userId start) : Registered userId final := by
  refine run.always registered ?_
  intro before call after known step
  have moves : Moves userId ⟨before, call, after⟩ := BillingStep.moves step known
  exact moves.registered

private theorem fineCharged_of_completes {state : State} {call : BillingCall}
    (completes : call.Completes userId state) : call.fineCharged userId state = 0 := by
  cases call with
  | charge isbn overdueDays actorId now => cases completes
  | pay amount paymentMethod metadata transactionId now => rfl

private theorem accounted_snoc {call : BillingCall} {middle : State}
    (accounted : Accounted userId trace middle) (known : Registered userId middle)
    (step : BillingStep userId middle call final) :
    Accounted userId (trace ++ [⟨middle, call, final⟩]) final ↔
      Covered userId middle call := by
  have moves : Moves userId ⟨middle, call, final⟩ := BillingStep.moves step known
  constructor
  · intro extended
    have amounts := extended.amounts
    have takings := extended.takings
    simp only [List.map_append, List.sum_append, List.map_cons, List.map_nil, List.sum_cons,
      List.sum_nil, add_zero, accounted.amounts] at amounts
    simp only [List.map_append, List.sum_append, List.map_cons, List.map_nil, List.sum_cons,
      List.sum_nil, add_zero, accounted.takings] at takings
    refine moves.covered ?_ ?_
    · simp only
      linarith
    · simp only
      linarith [accounted.amounts, accounted.takings, extended.amounts, extended.takings]
  · intro covered
    obtain ⟨closes, exactly⟩ := moves.exact covered
    simp only at closes
    refine ⟨?_, ?_, moves.nonneg accounted.nonneg, ?_, ?_⟩
    · simp only [List.map_append, List.sum_append, List.map_cons, List.map_nil, List.sum_cons,
        List.sum_nil, add_zero, accounted.amounts]
      linarith
    · simp only [List.map_append, List.sum_append, List.map_cons, List.map_nil, List.sum_cons,
        List.sum_nil, add_zero, accounted.takings, exactly]
      linarith
    · intro other member completes
      rcases List.mem_append.mp member with earlier | last
      · exact accounted.fair other earlier completes
      · rw [List.mem_singleton] at last
        subst other
        rw [exactly]
        have nothing := fineCharged_of_completes completes
        simp only at nothing ⊢
        constructor <;> linarith
    · intro other member
      rcases List.mem_append.mp member with earlier | last
      · exact accounted.failures other earlier
      · rw [List.mem_singleton] at last
        subst other
        exact moves.failed

/-- In every state reached the account closes exactly when every payment of the
run that goes through is covered by the balance. -/
theorem run_accounted_iff (run : Run (BillingStep userId) start trace final)
    (registered : Registered userId start) (settled : balance userId start = 0) :
    (∀ leading middle, leading <+: trace → Run (BillingStep userId) start leading middle →
        Accounted userId leading middle) ↔
      ∀ call ∈ trace, Covered userId call.before call.label := by
  induction run with
  | nil =>
      simp only [List.not_mem_nil, false_implies, implies_true, iff_true]
      intro leading middle initial reached
      rw [List.prefix_nil] at initial
      subst leading
      generalize nothing : ([] : List (Transition State BillingCall)) = empty at reached
      cases reached with
      | nil =>
          exact ⟨by simp [settled], by simp [settled], le_of_eq settled.symm, by simp, by simp⟩
      | snoc _ _ => simp at nothing
  | @snoc earlier middle last call earlierRun step ih =>
      have known := run_registered earlierRun registered
      constructor
      · intro accounted
        have before : ∀ leading state, leading <+: earlier →
            Run (BillingStep userId) start leading state → Accounted userId leading state :=
          fun leading state initial =>
            accounted leading state (initial.trans (List.prefix_append _ _))
        have whole := accounted _ last List.prefix_rfl (earlierRun.snoc step)
        have here := (accounted_snoc (before earlier middle List.prefix_rfl earlierRun) known
          step).mp whole
        intro other member
        rcases List.mem_append.mp member with old | new
        · exact ih.mp before other old
        · rw [List.mem_singleton] at new
          subst other
          exact here
      · intro covered leading state initial reached
        have before := ih.mpr fun other member => covered other (List.mem_append_left _ member)
        rcases List.prefix_concat_iff.mp initial with whole | shorter
        · subst leading
          have same : last = state := reached.last.2.2
          subst state
          have here : Covered userId middle call := covered ⟨middle, call, last⟩ (by simp)
          have closed := before earlier middle List.prefix_rfl earlierRun
          exact (accounted_snoc closed known step).mpr here
        · exact before leading state shorter reached

end Runs

/-- A title, and a user who owes nothing and has some money in the wallet. -/
def openAccount : State :=
  let payer := User.new
    { userId := "U1", name := "Asha", email := "asha@example", passwordHash := "h" } 50 .admin
  let registered := (registerBook "physical" "ADMIN" { isbn := some "B1", title := some "Lean" }
    .min (.empty .empty .empty)).2
  { registered with
    users := .set .empty "U1" payer
    userWallets := .set .empty "U1" 100 }

/-- A fine is paid in part by UPI and in part from the wallet. -/
def partialPayments : List BillingCall :=
  [.charge "B1" 3 "SYSTEM" .min, .pay 10 "upi" {} "T1" .min, .pay 20 "wallet" {} "T2" .min]

private theorem openAccount_registered : Registered "U1" openAccount := ⟨_, rfl, rfl⟩

theorem run_accounted_partial_payments :
    balance "U1" (partialPayments.foldl (BillingCall.exec "U1") openAccount) = 3 ∧
      Accounted "U1" (Run.trail (BillingCall.exec "U1") openAccount partialPayments)
        (partialPayments.foldl (BillingCall.exec "U1") openAccount) := by
  have run : Run (BillingStep "U1") openAccount _ _ :=
    Run.of_exec (fun _ _ => rfl) openAccount partialPayments
  refine ⟨by decide +kernel, (run_accounted_iff run openAccount_registered (by decide +kernel)).mpr
    ?_ _ _ List.prefix_rfl run⟩
  intro call member
  simp only [partialPayments, Run.trail, List.mem_cons, List.not_mem_nil, or_false] at member
  rcases member with rfl | rfl | rfl
  · trivial
  · intro method chosen _ _
    have upi : PaymentMethod.ofName? "upi" = some .upi := by decide +kernel
    rw [upi, Option.some.injEq] at chosen
    exact ⟨by decide +kernel, fun wallet => by cases chosen.trans wallet⟩
  · intro method _ _ _
    exact ⟨by decide +kernel, fun _ => by decide +kernel⟩

/-- A payment of more than the balance is collected in full and applied in part. -/
theorem overpayment_collected :
    ∃ trace final, Registered "U1" openAccount ∧ balance "U1" openAccount = 0 ∧
      Run (BillingStep "U1") openAccount trace final ∧ ¬ Accounted "U1" trace final := by
  refine ⟨_, _, openAccount_registered, by decide +kernel,
    Run.of_exec (fun _ _ => rfl) openAccount [.pay 50 "upi" {} "T1" .min], ?_⟩
  intro accounted
  have amounts := accounted.amounts
  revert amounts
  decide +kernel

end LibraFlow.Services
