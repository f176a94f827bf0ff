import LibraFlow.Container.Acquisition
import LibraFlow.Container.BorrowLimit
import LibraFlow.Core.UserProperties
import LibraFlow.Postgres.Commits

/-! The borrow limit under concurrent checkouts on both backends. In PostgreSQL
a checkout locks the row of the user before it checks the limit and keeps the
lock until the loan is committed, so no other checkout of that user comes in
between. -/

set_option autoImplicit false

namespace LibraFlow.Postgres

open LibraFlow.Core LibraFlow.Library LibraFlow.Storage LibraFlow.Patterns LibraFlow.Container
  LibraFlow.Services

/-- The identifiers of the copy rows issued to a user. -/
def Tables.issuedTo (tables : Tables) (userId : String) : Finset String :=
  tables.copies.rows.keysWhere fun copy => copy.currentBorrowerId = some userId

theorem Tables.mem_issuedTo {tables : Tables} {userId copyId : String} :
    copyId ∈ tables.issuedTo userId ↔ ∃ row, tables.copies.get? copyId = some row ∧
      row.currentBorrowerId = some userId := by
  simp only [issuedTo, Dict.mem_keysWhere, decide_eq_true_eq]
  rfl

/-- The row of a user carries the limit of its role, lists every copy issued to
the user, and is within the limit. -/
structure Limited (userId : String) (tables : Tables) (row : User) : Prop where
  stored : tables.users.get? userId = some row
  limit : row.maxBorrowLimit = roleLimit row.profile
  listed : tables.issuedTo userId ⊆ row.activeBorrowedCopyIds
  within : row.activeBorrowedCopyIds.card ≤ row.maxBorrowLimit

theorem Limited.withinLimit {userId : String} {tables : Tables} {row : User}
    (limited : Limited userId tables row) : WithinLimit row (tables.issuedTo userId) :=
  ⟨limited.within, (Finset.card_le_card limited.listed).trans limited.within⟩

private theorem roleLimit_loadProfile (profile : Profile) :
    roleLimit (loadProfile profile) = roleLimit profile := by
  cases profile <;> rfl

private theorem eligible_of_issueWrites {request : IssueRequest} {now : Datetime} {model : User}
    {copy : BookCopy} {record : CirculationRecord} {writes : List Write}
    (checked : issueWrites request now model copy = .ok (record, writes)) :
    (modelToUser model).canBorrow = true := by
  unfold issueWrites at checked
  split at checked
  · cases checked
  · next eligible => simpa using eligible

section Steps

variable {ticket : Ticket} {before after : System} {id : Nat} {userId : String}
  {request : IssueRequest}

/-- A checkout in progress has found its borrower eligible. -/
theorem InTransaction.eligible {row : BookCopy} {written todo : List Write} {next : Next}
    {model updated : User} (inside : InTransaction ticket before id row written todo next)
    (asked : ticket.request = .issue request)
    (member : Write.user model updated ∈ written ++ todo) :
    (modelToUser model).canBorrow = true := by
  have planned := inside.planned
  generalize written ++ todo = writes at planned member
  cases planned with
  | issuing _ _ checked _ =>
      have eligible := eligible_of_issueWrites checked
      obtain ⟨_, issued, dueDate, _, _, rfl⟩ := issueWrites_ok checked
      simp only [List.mem_cons, reduceCtorEq, Write.user.injEq, List.not_mem_nil, or_false,
        false_or] at member
      rw [member.1]
      exact eligible
  | closing other | returned other | finished other =>
      rw [asked] at other
      cases other

/-- A committed checkout of an eligible user keeps the limit. -/
theorem Limited.issue {tables committed : Tables} {row model : User} {copy issued : BookCopy}
    {now : Datetime} {record : CirculationRecord} (limited : Limited request.userId tables row)
    (current : tables.users.get? request.userId = some model)
    (eligible : (modelToUser model).canBorrow = true)
    (commit : IssueCommit request now copy issued model record tables committed) :
    Limited request.userId committed
      ((modelToUser model).addBorrow request.copyId issued.bookIsbn now) := by
  have same := limited.stored
  rw [current, Option.some.injEq] at same
  subst row
  refine ⟨?_, ?_, ?_, ?_⟩
  · rw [commit.users, ← commit.named]
    exact Table.get?_merge_self _ _
  · exact (roleLimit_loadProfile model.profile).symm
  · intro copyId member
    rw [Tables.mem_issuedTo, commit.copies, Table.get?_merge] at member
    obtain ⟨found, present, borrower⟩ := member
    split at present
    · next own =>
        rw [← own, (BookCopy.sameCopy_checkOut commit.accepted).copyId, commit.copyId]
        exact Finset.mem_insert_self _ _
    · exact Finset.mem_insert_of_mem
        (limited.listed (Tables.mem_issuedTo.mpr ⟨found, present, borrower⟩))
  · have longer := Finset.card_insert_le request.copyId model.activeBorrowedCopyIds
    have room := User.limit_of_canBorrow eligible
    exact longer.trans room

/-- A step of a checkout keeps the limit of its borrower. -/
theorem Moves.limited {row : User} (moves : Moves ticket before id after)
    (stands : Stands ticket before id (before.phases id))
    (asked : ticket.request = .issue request)
    (limited : Limited request.userId before.tables row) :
    ∃ later, Limited request.userId after.tables later := by
  cases moves with
  | lockedCopy | checkedOut | beganReturn | inserted | updatedCopy | updatedUser | returned
  | offered | invalidated | aborted | mergedCopy | cleared | readDetails | storedDetails
  | proceeded => exact ⟨row, limited⟩
  | committed phase =>
      rw [phase] at stands
      cases stands.outcome with
      | issued again member commit =>
          rw [asked] at again
          cases again
          have eligible := stands.eligible asked (List.mem_append_left _ member)
          have current := (stands.borrower _ asked _ _ (List.mem_append_left _ member)).2
          rw [show ((modelToUser _).addBorrow _ _ _).userId = _ from commit.named] at current
          exact ⟨_, limited.issue current eligible commit⟩
      | returned again =>
          rw [asked] at again
          cases again
  | storedUser phase =>
      rw [phase] at stands
      have bills : Bills _ ticket.request _ _ := stands
      rw [asked] at bills
      cases bills
  | storedCopy phase =>
      rw [phase] at stands
      have moves := stands.2.2
      rw [asked] at moves
      cases moves
  | storedNew phase =>
      rw [phase] at stands
      have stocks : ticket.request.stocks? = _ := stands
      rw [asked] at stocks
      cases stocks
  | committedTitle phase =>
      rw [phase] at stands
      have stocks := stands.1
      rw [asked] at stocks
      cases stocks

end Steps

/-- The lock discipline together with the limit of one user. -/
structure Guarded (tickets : Nat → Ticket) (userId : String) (system : System) : Prop where
  disciplined : Disciplined tickets system
  limited : ∃ row, Limited userId system.tables row

/-- In every run of checkouts for one user, the loans of the user stay within the limit. -/
theorem run_limited {tickets : Nat → Ticket} {userId : String} {tables : Tables}
    {processes : Nat → Process} {row : User} {trace : List (Transition System Action)}
    {final : System}
    (issues : ∀ id, ∃ request, (tickets id).request = .issue request ∧ request.userId = userId)
    (stored : tables.users.get? userId = some row)
    (limit : row.maxBorrowLimit = roleLimit row.profile)
    (balanced : Balanced userId row (tables.issuedTo userId))
    (run : Run (Step tickets) (.start tables processes) trace final) :
    ∃ borrower, final.tables.users.get? userId = some borrower ∧
      WithinLimit borrower (final.tables.issuedTo userId) := by
  have initially : Limited userId tables row :=
    ⟨stored, limit, balanced.listed.ge, by rw [balanced.listed]; exact balanced.within⟩
  have guarded : Guarded tickets userId final := by
    refine run.always ⟨disciplined_start tickets tables processes, row, initially⟩ ?_
    intro before action after invariant taken
    refine ⟨taken.disciplined invariant.disciplined, ?_⟩
    obtain ⟨current, limited⟩ := invariant.limited
    obtain ⟨id, moves, _⟩ | ⟨isbn, rfl⟩ := taken.moves
    · obtain ⟨request, asked, rfl⟩ := issues id
      exact moves.limited (invariant.disciplined id) asked limited
    · exact ⟨current, limited⟩
  obtain ⟨borrower, limited⟩ := guarded.limited
  exact ⟨borrower, limited.stored, limited.withinLimit⟩

/-- Concurrent checkouts of different copies for one user, from a state in which
the user's list is exactly the copies issued to the user and within the limit.
In memory the loans stay within the limit in every run whose passing checks leave
room for the loans already admitted; in PostgreSQL they do in every run. -/
theorem concurrentIssues_withinLimit (userId : String) :
    (∀ (n : Nat) (checkouts : Fin n → Checkout) (state : State) (user : User)
      (trace : List (Transition (Threads n) (IssueAction n))) (final : Threads n),
      ForOneUser checkouts userId → state.bookRepo.Keyed →
      state.users.get? userId = some user → user.maxBorrowLimit = roleLimit user.profile →
      Balanced userId user (state.bookRepo.issuedTo userId) →
      Run (Threads.Step checkouts) (.start state) trace final →
      (∀ transition ∈ trace, Threads.LeavesRoom checkouts transition) →
      ∃ borrower, final.state.users.get? userId = some borrower ∧
        WithinLimit borrower (final.state.bookRepo.issuedTo userId)) ∧
    ∀ (tickets : Nat → Ticket) (tables : Tables) (processes : Nat → Process)
      (row : User) (trace : List (Transition System Action)) (final : System),
      (∀ id, ∃ request, (tickets id).request = .issue request ∧ request.userId = userId) →
      tables.users.get? userId = some row → row.maxBorrowLimit = roleLimit row.profile →
      Balanced userId row (tables.issuedTo userId) →
      Run (Step tickets) (.start tables processes) trace final →
      ∃ borrower, final.tables.users.get? userId = some borrower ∧
        WithinLimit borrower (final.tables.issuedTo userId) := by
  constructor
  · intro n checkouts state user trace final forOne keyed stored _ balanced run leaves
    exact run_withinLimit forOne keyed stored balanced run leaves
  · intro tickets tables processes row trace final issues stored limit balanced run
    exact run_limited issues stored limit balanced run

/-- A title with five copies, and a student who has borrowed three of them. -/
def threeLoans : List TimedOperation :=
  ([.registerBook "physical" "ADMIN" { isbn := some "B1", title := some "Lean" },
    .addPhysicalCopy "B1" "C1" "BRANCH-DELHI" "A1" 100 "ADMIN",
    .addPhysicalCopy "B1" "C2" "BRANCH-DELHI" "A1" 100 "ADMIN",
    .addPhysicalCopy "B1" "C3" "BRANCH-DELHI" "A1" 100 "ADMIN",
    .addPhysicalCopy "B1" "C4" "BRANCH-DELHI" "A1" 100 "ADMIN",
    .addPhysicalCopy "B1" "C5" "BRANCH-DELHI" "A1" 100 "ADMIN",
    .registerUser { userId := "U1", name := "Asha", email := "asha@example", passwordHash := "h" },
    .issuePhysicalBook { copyId := "C1", userId := "U1", transactionId := "T1", eventId := "E1" },
    .issuePhysicalBook { copyId := "C2", userId := "U1", transactionId := "T2", eventId := "E2" },
    .issuePhysicalBook { copyId := "C3", userId := "U1", transactionId := "T3", eventId := "E3" }] :
      List Operation).map fun operation => ⟨operation, .min⟩

def afterThreeLoans : State :=
  threeLoans.foldl (fun state call => call.operation.exec call.now state) (State.empty .empty .empty)

/-- Checkouts of the two copies that are left. -/
def lastCopies : Fin 2 → Checkout
  | 0 => ⟨{ copyId := "C4", userId := "U1", transactionId := "T4", eventId := "E4" }, .min⟩
  | 1 => ⟨{ copyId := "C5", userId := "U1", transactionId := "T5", eventId := "E5" }, .min⟩

private theorem lastCopies_forOneUser : ForOneUser lastCopies "U1" := by
  constructor
  · decide +kernel
  · decide +kernel

private theorem afterThreeLoans_keyed : afterThreeLoans.bookRepo.Keyed :=
  run_keyed (Run.of_exec (fun _ _ => rfl) (State.empty .empty .empty) threeLoans)

/-- The student's list is the three loans, one below the limit. -/
theorem afterThreeLoans_balanced : ∃ user, afterThreeLoans.users.get? "U1" = some user ∧
    user.maxBorrowLimit = roleLimit user.profile ∧
    Balanced "U1" user (afterThreeLoans.bookRepo.issuedTo "U1") := by
  have checked : (afterThreeLoans.users.get? "U1").any (fun user =>
      user.maxBorrowLimit = roleLimit user.profile ∧ user.userId = "U1" ∧
        user.activeBorrowedCopyIds = afterThreeLoans.bookRepo.issuedTo "U1" ∧
        (afterThreeLoans.bookRepo.issuedTo "U1").card ≤ user.maxBorrowLimit) = true := by
    decide +kernel
  rw [Option.any_eq_true] at checked
  obtain ⟨user, stored, facts⟩ := checked
  rw [decide_eq_true_eq] at facts
  obtain ⟨limit, named, listed, within⟩ := facts
  exact ⟨user, stored, limit, named, listed, within⟩

/-- Both requests pass the check of the limit before either charges the user. -/
theorem fifth_loan_exceeds_limit :
    ForOneUser lastCopies "U1" ∧ afterThreeLoans.bookRepo.Keyed ∧
    (∃ user, afterThreeLoans.users.get? "U1" = some user ∧
      user.maxBorrowLimit = roleLimit user.profile ∧
      Balanced "U1" user (afterThreeLoans.bookRepo.issuedTo "U1")) ∧
    ∃ trace final borrower, Run (Threads.Step lastCopies) (.start afterThreeLoans) trace final ∧
      final.state.users.get? "U1" = some borrower ∧
      ¬ WithinLimit borrower (final.state.bookRepo.issuedTo "U1") := by
  refine ⟨lastCopies_forOneUser, afterThreeLoans_keyed, afterThreeLoans_balanced, ?_⟩
  have replayed : (Run.replay (Threads.exec lastCopies) (fun _ _ => true) (.start afterThreeLoans)
      (List.replicate 3 (.advance 0) ++ List.replicate 7 (.advance 1) ++
        List.replicate 4 (.advance 0))).bind
        (fun final => (final.state.users.get? "U1").map fun borrower =>
          (borrower.maxBorrowLimit, borrower.activeBorrowedCopyIds.card)) = some (4, 5) := by
    decide +kernel
  obtain ⟨final, ran, found⟩ := Option.bind_eq_some_iff.mp replayed
  obtain ⟨borrower, stored, counted⟩ := Option.map_eq_some_iff.mp found
  obtain ⟨trace, run, _, _⟩ := Run.of_replay ran
  refine ⟨trace, final, borrower, run, stored, ?_⟩
  intro within
  have limit := within.1
  rw [Prod.mk.injEq] at counted
  rw [counted.1, counted.2] at limit
  omega

def leavesRoom {n : Nat} (checkouts : Fin n → Checkout) (threads : Threads n) :
    IssueAction n → Bool
  | .advance thread =>
      match threads.phases thread, threads.state.users.get? (checkouts thread).request.userId with
      | .loaded, some user => decide (user.activeBorrowedCopyIds.card +
          (threads.pending checkouts).card < user.maxBorrowLimit)
      | _, _ => true
  | .timeOut _ => true

private theorem leavesRoom_sound {n : Nat} {checkouts : Fin n → Checkout}
    {transition : Transition (Threads n) (IssueAction n)}
    (checked : leavesRoom checkouts transition.before transition.label = true) :
    Threads.LeavesRoom checkouts transition := by
  intro thread user advanced stands stored _ _
  rw [advanced] at checked
  simp only [leavesRoom, stands, stored, decide_eq_true_eq] at checked
  exact checked

/-- Tickets for the two copies of a small library. -/
def twoIssues : Nat → Ticket
  | 0 => ⟨0, .min, .issue
      { copyId := "C1", userId := "U1", transactionId := "T1", eventId := "E1" }⟩
  | _ => ⟨0, .min, .issue
      { copyId := "C2", userId := "U1", transactionId := "T2", eventId := "E2" }⟩

/-- In memory one request is through before the other is checked; in PostgreSQL
the two run side by side. -/
theorem concurrentIssues_withinLimit_fourth_loan :
    (∃ trace final borrower, Run (Threads.Step lastCopies) (.start afterThreeLoans) trace final ∧
      final.state.users.get? "U1" = some borrower ∧
      WithinLimit borrower (final.state.bookRepo.issuedTo "U1")) ∧
    ∃ trace final borrower, Run (Step twoIssues) smallSystem trace final ∧
      final.tables.users.get? "U1" = some borrower ∧
      WithinLimit borrower (final.tables.issuedTo "U1") := by
  constructor
  · have replayed : (Run.replay (Threads.exec lastCopies) (leavesRoom lastCopies)
        (.start afterThreeLoans) (List.replicate 2 (.advance 1) ++
          List.replicate 7 (.advance 0))).isSome = true := by decide +kernel
    obtain ⟨final, ran⟩ := Option.isSome_iff_exists.mp replayed
    obtain ⟨trace, run, _, checked⟩ := Run.of_replay ran
    obtain ⟨user, stored, limit, balanced⟩ := afterThreeLoans_balanced
    obtain ⟨borrower, found, within⟩ := (concurrentIssues_withinLimit "U1").1 2 lastCopies
      afterThreeLoans user trace final lastCopies_forOneUser afterThreeLoans_keyed stored limit
      balanced run (fun transition member => leavesRoom_sound (checked transition member))
    exact ⟨trace, final, borrower, run, found, within⟩
  · have replayed : (Run.replay (System.exec twoIssues) (fun _ _ => true) smallSystem
        ([.advance 0, .advance 1] ++ List.replicate 7 (.advance 0) ++
          List.replicate 7 (.advance 1))).isSome = true := by decide +kernel
    obtain ⟨final, ran⟩ := Option.isSome_iff_exists.mp replayed
    obtain ⟨trace, run, _, _⟩ := Run.of_replay ran
    have issues : ∀ id, ∃ request, (twoIssues id).request = .issue request ∧
        request.userId = "U1" := by
      intro id
      cases id with
      | zero => exact ⟨_, rfl, rfl⟩
      | succ => exact ⟨_, rfl, rfl⟩
    have stored : smallLibrary.users.get? "U1" = some (.new
        { userId := "U1", name := "N", email := "E", passwordHash := "H" } 4
        (.student 1 "Computer Science" none)) := by decide +kernel
    obtain ⟨borrower, found, within⟩ := (concurrentIssues_withinLimit "U1").2 twoIssues
      smallLibrary _ _ trace final issues stored rfl
      ⟨rfl, by decide +kernel, by decide +kernel⟩ run
    exact ⟨trace, final, borrower, run, found, within⟩

end LibraFlow.Postgres
