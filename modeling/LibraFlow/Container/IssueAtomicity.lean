import LibraFlow.Container.Outcomes

/-! When a checkout that raises leaves the in-memory stores as they were. The
copy and the user are changed before the due date is computed, and nothing is
rolled back. -/

set_option autoImplicit false

namespace LibraFlow.Container

open LibraFlow.Core LibraFlow.Library LibraFlow.Storage LibraFlow.Services

/-- The stores a checkout writes are as before. -/
structure SameStores (before after : State) : Prop where
  copies : after.bookRepo = before.bookRepo
  users : after.users = before.users
  records : after.records = before.records
  outbox : after.outbox = before.outbox
  forecaster : after.forecaster = before.forecaster
  tracking : after.tracking = before.tracking

/-- A checkout that raises changes nothing. -/
def IssueAllOrNothing (request : IssueRequest) (now : Datetime) (state : State) : Prop :=
  ∀ error, (issuePhysicalBook request now state).1 = .error error →
    SameStores state (issuePhysicalBook request now state).2

/-- The user may borrow and may take the copy. -/
def acceptsIssue (request : IssueRequest) (state : State) : Bool :=
  (state.users.get? request.userId).any User.canBorrow &&
    (state.bookRepo.getCopy request.copyId).any fun found => mayTake found.2 request.userId

/-- A copy that may be taken can be checked out. -/
theorem checkOut_of_mayTake {copy : BookCopy} {userId : String}
    (allowed : mayTake copy userId = true) : ∃ issued, copy.checkOut userId = .ok issued := by
  simp only [mayTake, decide_eq_true_eq] at allowed
  unfold BookCopy.checkOut BookCopy.stateCheckOut
  rcases allowed with available | ⟨reserved, holder⟩
  · simp only [available]
    exact ⟨_, rfl⟩
  · simp only [reserved, holder, ne_eq, not_true_eq_false, and_false, ↓reduceIte]
    exact ⟨_, rfl⟩

/-- The loan changes the copy. -/
theorem checkOut_ne {copy issued : BookCopy} {userId : String}
    (accepted : copy.checkOut userId = .ok issued) : issued ≠ copy := by
  obtain ⟨status, loan⟩ := BookCopy.checkOut_ok accepted
  intro same
  have onLoan : copy.status = .issued := by rw [← same, loan]
  rw [onLoan] at status
  simp at status

/-- The checks that pass when a checkout goes ahead. -/
theorem taken_of_acceptsIssue {request : IssueRequest} {state : State}
    (accepts : acceptsIssue request state = true) :
    ∃ user ref copy issued, Taken request state user ref copy issued := by
  simp only [acceptsIssue, Bool.and_eq_true, Option.any_eq_true] at accepts
  obtain ⟨⟨user, known, eligible⟩, ⟨ref, copy⟩, held, allowed⟩ := accepts
  obtain ⟨issued, accepted⟩ := checkOut_of_mayTake allowed
  exact ⟨user, ref, copy, issued, known, eligible, held, allowed, accepted⟩

/-- A checkout whose due date overflows has issued the copy already. -/
theorem issue_overflow {request : IssueRequest} {now : Datetime} {state : State} {user : User}
    {ref : Ref} {copy issued : BookCopy} (taken : Taken request state user ref copy issued)
    (overflow : now.addDays? request.loanDays = none) :
    (issuePhysicalBook request now state).1 = .error .overflowError ∧
      (issuePhysicalBook request now state).2.bookRepo =
        state.bookRepo.mutate ref issued := by
  unfold issuePhysicalBook
  simp [taken.known, taken.eligible, taken.held, taken.allowed, taken.accepted, overflow,
    State.mutateCopy, State.putUser]

/-- A checkout that raises before it issues the copy leaves the whole state alone. -/
theorem issue_unchanged {request : IssueRequest} {now : Datetime} {state : State} {error : Error}
    (raised : (issuePhysicalBook request now state).1 = .error error)
    (refused : acceptsIssue request state = false ∨
      (now.addDays? request.loanDays).isSome = true) :
    (issuePhysicalBook request now state).2 = state := by
  unfold issuePhysicalBook at raised ⊢
  cases known : state.users.get? request.userId with
  | none => simp [known]
  | some user =>
      cases eligible : user.canBorrow with
      | false => simp [known, eligible]
      | true =>
          cases held : state.bookRepo.getCopy request.copyId with
          | none => simp [known, eligible, held]
          | some found =>
              cases allowed : mayTake found.2 request.userId with
              | false => simp [known, eligible, held, allowed]
              | true =>
                  obtain ⟨issued, accepted⟩ := checkOut_of_mayTake allowed
                  rcases refused with rejected | representable
                  · simp [acceptsIssue, known, eligible, held, allowed] at rejected
                  · obtain ⟨dueDate, due⟩ := Option.isSome_iff_exists.mp representable
                    simp [known, eligible, held, allowed, accepted, due] at raised

/-- A checkout is all or nothing exactly when it is refused or its due date can be
represented. -/
theorem issue_allOrNothing_iff (request : IssueRequest) (now : Datetime) (state : State) :
    IssueAllOrNothing request now state ↔
      acceptsIssue request state = false ∨ (now.addDays? request.loanDays).isSome = true := by
  constructor
  · intro allOrNothing
    cases accepts : acceptsIssue request state with
    | false => exact .inl rfl
    | true =>
        cases overflow : now.addDays? request.loanDays with
        | some dueDate => exact .inr rfl
        | none =>
            obtain ⟨user, ref, copy, issued, taken⟩ := taken_of_acceptsIssue accepts
            obtain ⟨raised, mutated⟩ := issue_overflow taken overflow
            have same := (allOrNothing _ raised).copies
            obtain ⟨_, read⟩ := BookRepository.getCopy_eq_some_iff.mp taken.held
            have written := Heap.read?_write_self issued read
            have unchanged : (state.bookRepo.objects.write ref issued) = state.bookRepo.objects :=
              congrArg BookRepository.objects (mutated.symm.trans same)
            rw [unchanged, read, Option.some.injEq] at written
            exact absurd written.symm (checkOut_ne taken.accepted)
  · intro refused error raised
    rw [issue_unchanged raised refused]
    exact ⟨rfl, rfl, rfl, rfl, rfl, rfl⟩

/-- A title with one copy on the shelf, and a student. -/
def oneCopy : State :=
  ([.registerBook "physical" "ADMIN" { isbn := some "B1", title := some "Lean" },
    .addPhysicalCopy "B1" "C1" "BRANCH-DELHI" "A1" 100 "ADMIN",
    .registerUser { userId := "U1", name := "Asha", email := "asha@example", passwordHash := "h" }]
      : List Operation).foldl (fun state operation => operation.exec .min state)
    (State.empty .empty .empty)

/-- A loan of four million days, beyond the year 9999. -/
def endlessLoan : IssueRequest where
  copyId := "C1"
  userId := "U1"
  loanDays := 4000000
  transactionId := "T1"
  eventId := "E1"

/-- The endless loan raises and stays on the student's list. -/
theorem endless_loan_is_charged : ¬ IssueAllOrNothing endlessLoan .min oneCopy := by
  intro allOrNothing
  have raised : (issuePhysicalBook endlessLoan .min oneCopy).1 = .error .overflowError := by
    decide +kernel
  have charged : ((issuePhysicalBook endlessLoan .min oneCopy).2.users.get? "U1").map
      User.activeBorrowedCopyIds = some {"C1"} := by decide +kernel
  rw [(allOrNothing _ raised).users] at charged
  have nothing : (oneCopy.users.get? "U1").map User.activeBorrowedCopyIds = some ∅ := by
    decide +kernel
  rw [charged] at nothing
  simp at nothing

end LibraFlow.Container
