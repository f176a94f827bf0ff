import LibraFlow.Postgres.Commits
import Mathlib.Algebra.BigOperators.Group.List.Basic

/-! Updates of a user row. Checkouts lock the row from the read to the commit.
Returns and billing read it without a lock, so each of their writes has to find
the row they have read; then no update is lost, and the committed row is the one
that the successful requests produce one after the other. -/

set_option autoImplicit false

namespace LibraFlow.Postgres

open LibraFlow.Core LibraFlow.Library LibraFlow.Storage LibraFlow.Patterns LibraFlow.Container
  LibraFlow.Services

/-- A successful request with its answer. -/
abbrev Service := Nat × Receipt

/-- What a request does to the row when nothing else runs beside it. -/
inductive Serves (tickets : Nat → Ticket) (books : Table Book.isbn) (before : User) :
    Service → User → Prop where
  | issued {id : Nat} {request : IssueRequest} {record : CirculationRecord}
      (asked : (tickets id).request = .issue request) (copy : record.copyId = request.copyId) :
      Serves tickets books before (id, .issued record)
        ((modelToUser before).addBorrow record.copyId record.isbn record.borrowedAt)
  | returned {id : Nat} {request : ReturnRequest} {receipt : ReturnReceipt}
      (asked : (tickets id).request = .giveBack request)
      (copy : receipt.copyId = request.copyId) :
      Serves tickets books before (id, .returned receipt)
        ((modelToUser before).recordReturn receipt.copyId request.isLate request.isDamaged
          (tickets id).now)
  | charged {id waiting : Nat} {userId isbn : String} {overdueDays : Int}
      {receipt : FineReceipt} (asked : (tickets id).request = .charge userId isbn overdueDays)
      (fine : receipt.fineCharged = Tables.fineOn books waiting isbn overdueDays before)
      (balance : receipt.totalUnpaidBalance =
        ((modelToUser before).addFine receipt.fineCharged).unpaidFinesBalance) :
      Serves tickets books before (id, .charged waiting receipt)
        ((modelToUser before).addFine receipt.fineCharged)
  | paid {id : Nat} {userId paymentMethod transactionId : String} {amount : ℚ}
      {metadata : PaymentMetadata} {result : PaymentResult}
      (asked : (tickets id).request = .pay userId amount paymentMethod metadata transactionId) :
      Serves tickets books before (id, .paid ⟨result, some ((modelToUser before).applied amount),
          some ((modelToUser before).payFine amount).unpaidFinesBalance⟩)
        ((modelToUser before).payFine amount)

/-- The loans of a user after one more request. -/
def shelve (active : Finset String) : Service → Finset String
  | (_, .issued record) => insert record.copyId active
  | (_, .returned receipt) => active.erase receipt.copyId
  | _ => active

def opensLoan : Service → Bool
  | (_, .issued _) => true
  | _ => false

def charged : Service → ℚ
  | (_, .charged _ receipt) => max 0 receipt.fineCharged
  | _ => 0

def applied : Service → ℚ
  | (_, .paid receipt) => receipt.appliedToFine.getD 0
  | _ => 0

/-- The row of a user reflects every successful request: it is what some serial
order of these requests produces. -/
structure Reflects (tickets : Nat → Ticket) (books : Table Book.isbn) (userId : String)
    (first row : User) (order : List (Transition User Service)) (system : System) : Prop where
  serial : Run (Serves tickets books) first order row
  committed : system.tables.users.get? userId = some row
  distinct : (order.map fun service => service.label.1).Nodup
  complete : ∀ id receipt, (id, receipt) ∈ order.map Transition.label ↔
    system.phases id = .done receipt ∧ (tickets id).request.touched receipt = some userId

/-- No update of the row is lost, in the terms of the requests: the loans, the
length of the history and the balance add up. -/
def NoLostUpdate (tickets : Nat → Ticket) (books : Table Book.isbn) (userId : String)
    (first : User) (system : System) : Prop :=
  ∃ row order, Reflects tickets books userId first row order system ∧
    row.activeBorrowedCopyIds =
      (order.map Transition.label).foldl shelve first.activeBorrowedCopyIds ∧
    row.borrowHistory.length =
      first.borrowHistory.length + (order.map Transition.label).countP opensLoan ∧
    row.unpaidFinesBalance = first.unpaidFinesBalance +
      ((order.map Transition.label).map charged).sum -
      ((order.map Transition.label).map applied).sum

/-- The next write of a request to the row of a user finds the row it was computed
from: the row a return or a bill has read, and for a fine also the row it was
calculated on. -/
structure WritesCurrent (tickets : Nat → Ticket) (userId : String) (before : System) (id : Nat) :
    Prop where
  returns : ∀ request row written todo next model updated,
    (tickets id).request = .giveBack request →
    before.phases id = .writing row written (.user model updated :: todo) next →
    updated.userId = userId → before.tables.users.get? userId = some model
  bills : ∀ model row receipt, before.phases id = .storingUser model row receipt →
    row.userId = userId → before.tables.users.get? userId = some model
  fines : ∀ isbn overdueDays model row waiting receipt,
    (tickets id).request = .charge userId isbn overdueDays →
    before.phases id = .storingUser model row (.charged waiting receipt) →
    receipt.fineCharged = before.tables.projectedFine waiting isbn userId overdueDays

section Sums

variable {tickets : Nat → Ticket} {books : Table Book.isbn} {first row : User}
  {order : List (Transition User Service)}

private theorem closeFirst_length (copyId : String) (isLate isDamaged : Bool) (now : Datetime)
    (history : List HistoryEntry) :
    (User.closeFirst copyId isLate isDamaged now history).length = history.length := by
  induction history with
  | nil => rfl
  | cons entry rest ih =>
      unfold User.closeFirst
      split
      · rfl
      · simp only [List.length_cons, ih]

private theorem serial_loans (serial : Run (Serves tickets books) first order row) :
    row.activeBorrowedCopyIds =
      (order.map Transition.label).foldl shelve first.activeBorrowedCopyIds := by
  induction serial with
  | nil => rfl
  | snoc _ taken ih =>
      rw [List.map_append, List.foldl_append, ← ih]
      cases taken <;> rfl

private theorem serial_history (serial : Run (Serves tickets books) first order row) :
    row.borrowHistory.length =
      first.borrowHistory.length + (order.map Transition.label).countP opensLoan := by
  induction serial with
  | nil => rfl
  | snoc _ taken ih =>
      rw [List.map_append, List.countP_append, ← Nat.add_assoc, ← ih]
      cases taken with
      | issued => exact List.length_append
      | returned =>
          simp only [User.recordReturn, User.closeLatest, List.length_reverse,
            closeFirst_length]
          rfl
      | charged | paid => rfl

private theorem serial_balance (serial : Run (Serves tickets books) first order row) :
    row.unpaidFinesBalance = first.unpaidFinesBalance +
      ((order.map Transition.label).map charged).sum -
      ((order.map Transition.label).map applied).sum := by
  induction serial with
  | nil => simp
  | snoc _ taken ih =>
      simp only [List.map_append, List.sum_append, List.map_cons, List.map_nil, List.sum_cons,
        List.sum_nil]
      cases taken with
      | issued | returned =>
          simp only [charged, applied, add_zero]
          exact ih
      | charged =>
          simp only [User.addFine, modelToUser, charged, applied, ih]
          ring
      | paid =>
          simp only [User.payFine, User.applied, modelToUser, charged, applied, ih,
            Option.getD_some]
          ring

end Sums

section Steps

variable {tickets : Nat → Ticket} {books : Table Book.isbn} {userId : String} {first row : User}
  {order : List (Transition User Service)} {before after : System} {id : Nat}

/-- A request that ends without touching the row, or does not end. -/
theorem Reflects.quiet {phase : Phase}
    (reflects : Reflects tickets books userId first row order before)
    (phases : after.phases = Function.update before.phases id phase)
    (unfinished : ∀ receipt, before.phases id ≠ .done receipt)
    (untouched : ∀ receipt, phase = .done receipt →
      (tickets id).request.touched receipt ≠ some userId)
    (users : after.tables.users.get? userId = before.tables.users.get? userId) :
    Reflects tickets books userId first row order after := by
  refine ⟨reflects.serial, users.trans reflects.committed, reflects.distinct, ?_⟩
  intro other receipt
  rw [reflects.complete, phases]
  by_cases same : other = id
  · subst other
    rw [Function.update_self]
    constructor
    · intro earlier
      exact absurd earlier.1 (unfinished receipt)
    · intro later
      exact absurd later.2 (untouched receipt later.1)
  · rw [Function.update_of_ne same]

/-- A request that ends successfully with its effect on the row. -/
theorem Reflects.serve {receipt : Receipt} {next : User}
    (reflects : Reflects tickets books userId first row order before)
    (phases : after.phases = Function.update before.phases id (.done receipt))
    (unfinished : ∀ receipt, before.phases id ≠ .done receipt)
    (touches : (tickets id).request.touched receipt = some userId)
    (serves : Serves tickets books row (id, receipt) next)
    (users : after.tables.users.get? userId = some next) :
    Reflects tickets books userId first next (order ++ [⟨row, (id, receipt), next⟩]) after := by
  refine ⟨reflects.serial.snoc serves, users, ?_, ?_⟩
  · rw [List.map_append, List.nodup_append]
    refine ⟨reflects.distinct, List.nodup_singleton _, ?_⟩
    intro earlier member other last same
    rw [List.map_cons, List.map_nil, List.mem_singleton] at last
    subst other
    subst earlier
    obtain ⟨service, present, equal⟩ := List.mem_map.mp member
    have done := (reflects.complete service.label.1 service.label.2).mp
      (List.mem_map.mpr ⟨service, present, rfl⟩)
    rw [equal] at done
    exact unfinished _ done.1
  · intro other answer
    rw [List.map_append, List.mem_append, reflects.complete, phases]
    by_cases same : other = id
    · subst other
      rw [Function.update_self]
      constructor
      · intro found
        obtain earlier | last := found
        · exact absurd earlier.1 (unfinished answer)
        · cases List.mem_singleton.mp last
          exact ⟨rfl, touches⟩
      · intro found
        cases found.1
        exact .inr (List.mem_singleton.mpr rfl)
    · rw [Function.update_of_ne same]
      constructor
      · intro found
        obtain earlier | last := found
        · exact earlier
        · cases List.mem_singleton.mp last
          exact absurd rfl same
      · exact .inl

/-- The row of a user, the requests that have it locked, and the returns that
will write it. -/
structure Watched (tickets : Nat → Ticket) (books : Table Book.isbn) (userId : String)
    (first : User) (system : System) : Prop where
  disciplined : Disciplined tickets system
  books_eq : system.tables.books = books
  reflected : ∃ row order, Reflects tickets books userId first row order system
  current : ∀ id row written todo next model updated,
    system.phases id = .writing row written todo next → Write.user model updated ∈ written →
    updated.userId = userId → system.tables.users.get? userId = some model
  known : ∀ id request row written todo next,
    system.phases id = .writing row written todo next →
    (tickets id).request = .giveBack request → row.currentBorrowerId = some userId →
    ∃ model updated, Write.user model updated ∈ written ++ todo

theorem Watched.row_eq (watched : Watched tickets books userId first before) {model : User}
    (found : before.tables.users.get? userId = some model) :
    ∃ order, Reflects tickets books userId first model order before := by
  obtain ⟨row, order, reflects⟩ := watched.reflected
  have same := reflects.committed
  rw [found] at same
  cases same
  exact ⟨order, reflects⟩

theorem Watched.issue {request : IssueRequest} {issued copy : BookCopy} {model : User}
    {record : CirculationRecord} (watched : Watched tickets books userId first before)
    (asked : (tickets id).request = .issue request)
    (phases : after.phases = Function.update before.phases id (.done (.issued record)))
    (unfinished : ∀ receipt, before.phases id ≠ .done receipt)
    (found : before.tables.users.get? request.userId = some model)
    (commit : IssueCommit request (tickets id).now copy issued model record before.tables
      after.tables) : ∃ row order, Reflects tickets books userId first row order after := by
  have key : ((modelToUser model).addBorrow request.copyId issued.bookIsbn
    (tickets id).now).userId = request.userId := commit.named
  have touches : (tickets id).request.touched (.issued record) = some request.userId := by
    rw [asked]
    rfl
  by_cases own : request.userId = userId
  · subst own
    obtain ⟨order, reflects⟩ := watched.row_eq found
    have serves : Serves tickets books model (id, .issued record) _ :=
      .issued asked commit.recordCopy
    rw [commit.recordCopy, commit.recordIsbn, commit.recordTime] at serves
    refine ⟨_, _, reflects.serve phases unfinished touches serves ?_⟩
    rw [commit.users, ← key, Table.get?_merge_self]
  · obtain ⟨row, order, reflects⟩ := watched.reflected
    refine ⟨row, order, reflects.quiet phases unfinished ?_ ?_⟩
    · intro receipt done
      cases done
      rw [touches]
      exact fun same => own (Option.some.inj same)
    · rw [commit.users, Table.get?_merge_of_ne _ (by rw [key]; exact own)]

theorem Watched.giveBack {request : ReturnRequest} {copy final : BookCopy} {borrowerId : String}
    {found : Option User} {assigned : Option ReservationEntry}
    (watched : Watched tickets books userId first before)
    (asked : (tickets id).request = .giveBack request)
    (phases : after.phases = Function.update before.phases id
      (.done (returnReceipt request borrowerId final assigned)))
    (unfinished : ∀ receipt, before.phases id ≠ .done receipt)
    (reads : borrowerId = userId → ∃ model, found = some model ∧
      before.tables.users.get? userId = some model)
    (commit : ReturnCommit request (tickets id).now copy final borrowerId found assigned
      before.tables after.tables) :
    ∃ row order, Reflects tickets books userId first row order after := by
  have touches : (tickets id).request.touched
      (returnReceipt request borrowerId final assigned) = some borrowerId := by
    rw [asked]
    rfl
  by_cases own : borrowerId = userId
  · obtain ⟨model, known, stored⟩ := reads own
    subst own
    obtain ⟨order, reflects⟩ := watched.row_eq stored
    refine ⟨_, _, reflects.serve phases unfinished touches (.returned asked rfl) ?_⟩
    have named : ((modelToUser model).recordReturn request.copyId request.isLate
      request.isDamaged (tickets id).now).userId = borrowerId := commit.named model known
    rw [commit.users, known, ← named]
    exact Table.get?_merge_self _ _
  · obtain ⟨row, order, reflects⟩ := watched.reflected
    refine ⟨row, order, reflects.quiet phases unfinished ?_ ?_⟩
    · intro receipt done
      cases done
      rw [touches]
      exact fun same => own (Option.some.inj same)
    · rw [commit.users]
      cases found with
      | none => rfl
      | some model =>
          have named := commit.named model rfl
          exact Table.get?_merge_of_ne _ (fun same => own (named.symm.trans same))

theorem Watched.bill {model stored : User} {receipt : Receipt}
    (watched : Watched tickets books userId first before)
    (phase : before.phases id = .storingUser model stored receipt)
    (bills : Bills model (tickets id).request stored receipt)
    (current : WritesCurrent tickets userId before id)
    (phases : after.phases = Function.update before.phases id (.done receipt))
    (users : after.tables.users = before.tables.users.merge stored) :
    ∃ row order, Reflects tickets books userId first row order after := by
  have unfinished : ∀ answer, before.phases id ≠ .done answer := by simp [phase]
  generalize asked : (tickets id).request = request at bills
  have same : stored.userId = model.userId := by cases bills <;> rfl
  by_cases own : model.userId = userId
  · have found := current.bills model stored receipt phase (same.trans own)
    obtain ⟨order, reflects⟩ := watched.row_eq found
    have touches : (tickets id).request.touched receipt = some userId := by
      rw [asked, ← own]
      cases bills with
      | charge named | pay named =>
          rw [named]
          rfl
    have serves : Serves tickets books model (id, receipt) stored := by
      cases bills with
      | charge named =>
          have billed : model.userId = userId := own
          rw [named] at billed
          subst billed
          have fine := current.fines _ _ _ _ _ _ asked phase
          unfold Tables.projectedFine at fine
          rw [found, watched.books_eq] at fine
          exact .charged asked fine rfl
      | pay => exact .paid asked
    refine ⟨_, _, reflects.serve phases unfinished touches serves ?_⟩
    rw [users, ← own, ← same, Table.get?_merge_self]
  · obtain ⟨row, order, reflects⟩ := watched.reflected
    refine ⟨row, order, reflects.quiet phases unfinished ?_ ?_⟩
    · intro answer done
      cases done
      rw [asked]
      cases bills with
      | charge named => exact fun equal => own (named.trans (Option.some.inj equal))
      | pay named => exact fun equal => own (named.trans (Option.some.inj equal))
    · rw [users, Table.get?_merge_of_ne _ (by rw [same]; exact own)]

/-- How a request comes to the writes of a transaction it is in. -/
inductive Continues (ticket : Ticket) (before : System) (id : Nat) (row : BookCopy) :
    List Write → List Write → Prop where
  | began {todo : List Write} (closes : ∀ request borrowerId, ticket.request = .giveBack request →
      row.currentBorrowerId = some borrowerId →
      todo = closingWrites request ticket.now (before.tables.users.get? borrowerId)) :
      Continues ticket before id row [] todo
  | wrote {written todo : List Write} {first : Write} {next : Next}
      (phase : before.phases id = .writing row written (first :: todo) next) :
      Continues ticket before id row (written ++ [first]) todo
  | resumed {written todo : List Write} {next : Next}
      (phase : before.phases id = .writing row written [] next) :
      Continues ticket before id row written todo

theorem Moves.continues {ticket : Ticket} {copy : BookCopy} {written todo : List Write}
    {next : Next} (moves : Moves ticket before id after)
    (stands : Stands ticket before id (before.phases id))
    (phase : after.phases id = .writing copy written todo next) :
    Continues ticket before id copy written todo ∧ after.tables = before.tables := by
  have entered : ∀ phase, Function.update before.phases id phase id = phase :=
    fun phase => Function.update_self id phase before.phases
  cases moves with
  | checkedOut _ asked _ _ _ =>
      simp only [System.enter, entered, Phase.writing.injEq] at phase
      obtain ⟨rfl, rfl, rfl, rfl⟩ := phase
      refine ⟨.began ?_, rfl⟩
      intro request _ impossible
      rw [asked] at impossible
      cases impossible
  | beganReturn _ asked borrower =>
      simp only [System.enter, entered, Phase.writing.injEq] at phase
      obtain ⟨rfl, rfl, rfl, rfl⟩ := phase
      refine ⟨.began ?_, rfl⟩
      intro request borrowerId again same
      rw [asked] at again
      cases again
      rw [borrower] at same
      cases same
      rfl
  | inserted earlier | updatedCopy earlier | updatedUser earlier =>
      simp only [System.enter, entered, Phase.writing.injEq] at phase
      obtain ⟨rfl, rfl, rfl, rfl⟩ := phase
      exact ⟨.wrote earlier, rfl⟩
  | returned earlier | offered earlier =>
      simp only [System.enter, entered, Phase.writing.injEq] at phase
      obtain ⟨rfl, rfl, rfl, rfl⟩ := phase
      exact ⟨.resumed earlier, rfl⟩
  | invalidated earlier =>
      simp only [System.enter, System.invalidate, entered, Phase.writing.injEq] at phase
      obtain ⟨rfl, rfl, rfl, rfl⟩ := phase
      exact ⟨.resumed earlier, rfl⟩
  | lockedCopy | storedCopy | storedUser | storedNew | mergedCopy | readDetails =>
      simp [System.enter] at phase
  | committed | aborted => simp [System.close] at phase
  | committedTitle => simp [System.commitTitle, System.close] at phase
  | cleared => simp [System.enter, System.invalidate] at phase
  | storedDetails => simp [System.storeDetails, System.enter] at phase
  | proceeded outside prepared _ _ =>
      simp only [System.enter, entered] at phase
      rw [phase] at prepared
      exact (prepared (stands.prepared outside)).elim

theorem Watched.current_step (watched : Watched tickets books userId first before)
    (moves : Moves (tickets id) before id after)
    (current : after.phases id ≠ .failed none → WritesCurrent tickets userId before id)
    (other : Nat) (copy : BookCopy) (written todo : List Write) (next : Next)
    (model updated : User) (phase : after.phases other = .writing copy written todo next)
    (member : Write.user model updated ∈ written) (key : updated.userId = userId) :
    after.tables.users.get? userId = some model := by
  have frame := moves.frame (watched.disciplined id)
  by_cases same : other = id
  · subst other
    obtain ⟨continues, tables⟩ := moves.continues (watched.disciplined id) phase
    rw [tables]
    cases continues with
    | began => cases member
    | resumed earlier => exact watched.current _ _ _ _ _ _ _ earlier member key
    | wrote earlier =>
        obtain old | last := List.mem_append.mp member
        · exact watched.current _ _ _ _ _ _ _ earlier old key
        · cases List.mem_singleton.mp last
          -- a checkout owns the row since it was read; a return has to find it unchanged
          have stands := watched.disciplined id
          rw [earlier] at stands
          have locks := stands.owns.asked
          cases asked : (tickets id).request with
          | issue request =>
              have found := (stands.borrower request asked model updated (by simp)).2
              rw [key] at found
              exact found
          | giveBack request =>
              exact (current (by simp [phase])).returns _ _ _ _ _ _ _ asked earlier key
          | charge | pay | transfer | rebalance | complete | reserve | addCopy | details =>
              rw [asked] at locks
              cases locks
  · rw [frame.phases other same] at phase
    have stands := watched.disciplined other
    rw [phase] at stands
    have unchanged := (frame.users other _ same (stands.locked model updated member)).2
    rw [key] at unchanged
    rw [unchanged]
    exact watched.current _ _ _ _ _ _ _ phase member key

theorem Watched.known_step (watched : Watched tickets books userId first before)
    (moves : Moves (tickets id) before id after) (other : Nat) (request : ReturnRequest)
    (copy : BookCopy) (written todo : List Write) (next : Next)
    (phase : after.phases other = .writing copy written todo next)
    (asked : (tickets other).request = .giveBack request)
    (borrower : copy.currentBorrowerId = some userId) :
    ∃ model updated, Write.user model updated ∈ written ++ todo := by
  by_cases same : other = id
  · subst other
    obtain ⟨continues, _⟩ := moves.continues (watched.disciplined id) phase
    cases continues with
    | began closes =>
        obtain ⟨row, order, reflects⟩ := watched.reflected
        rw [closes request userId asked borrower, reflects.committed]
        exact ⟨row, _, List.mem_singleton.mpr rfl⟩
    | resumed earlier =>
        obtain ⟨model, updated, member⟩ := watched.known _ _ _ _ _ _ earlier asked borrower
        rw [List.append_nil] at member
        exact ⟨model, updated, List.mem_append_left _ member⟩
    | wrote earlier =>
        obtain ⟨model, updated, member⟩ := watched.known _ _ _ _ _ _ earlier asked borrower
        exact ⟨model, updated, by simpa using member⟩
  · rw [(moves.frame (watched.disciplined id)).phases other same] at phase
    exact watched.known _ _ _ _ _ _ phase asked borrower

theorem Watched.reflected_step (watched : Watched tickets books userId first before)
    (moves : Moves (tickets id) before id after)
    (current : after.phases id ≠ .failed none → WritesCurrent tickets userId before id) :
    ∃ row order, Reflects tickets books userId first row order after := by
  have stands := watched.disciplined id
  obtain ⟨row, order, reflects⟩ := watched.reflected
  cases moves with
  | lockedCopy phase | checkedOut phase | beganReturn phase | inserted phase
  | updatedCopy phase | updatedUser phase | returned phase | offered phase | invalidated phase
  | mergedCopy phase | readDetails phase | storedCopy phase | storedNew phase =>
      exact ⟨row, order, reflects.quiet rfl (by simp [phase]) (by simp) rfl⟩
  | cleared phase | storedDetails phase =>
      exact ⟨row, order, reflects.quiet rfl (by simp [phase]) (by simp [Request.touched]) rfl⟩
  | aborted unfinished =>
      exact ⟨row, order, reflects.quiet rfl unfinished (by simp) rfl⟩
  | proceeded outside _ quiet _ =>
      refine ⟨row, order, reflects.quiet rfl outside.unfinished ?_ rfl⟩
      intro receipt done
      rw [quiet receipt done]
      simp
  | committedTitle phase =>
      refine ⟨row, order, reflects.quiet rfl (by simp [phase]) (by simp) ?_⟩
      refine commit_users_of_ne ?_
      intro model updated member
      obtain ⟨_, _, impossible⟩ := List.mem_map.mp member
      cases impossible
  | storedUser phase =>
      rw [phase] at stands
      exact watched.bill phase stands (current (by simp [System.enter])) rfl rfl
  | committed phase =>
      have writing := phase
      rw [phase] at stands
      cases stands.outcome with
      | @issued request issued model record asked member commit =>
          have found := (stands.borrower request asked _ _ (List.mem_append_left _ member)).2
          have key : ((modelToUser model).addBorrow request.copyId issued.bookIsbn
            (tickets id).now).userId = request.userId := commit.named
          rw [key] at found
          exact watched.issue asked rfl (by simp [writing]) found commit
      | returned asked members onlyThese commit =>
          refine watched.giveBack asked rfl (by simp [writing]) ?_ commit
          rintro rfl
          obtain ⟨model, updated, member⟩ :=
            watched.known _ _ _ _ _ _ writing asked commit.borrower
          rw [List.append_nil] at member
          have known := onlyThese model updated member
          subst known
          have closing := members _ (List.mem_singleton.mpr rfl)
          exact ⟨model, rfl, watched.current _ _ _ _ _ _ _ writing closing
            (commit.named model rfl)⟩

theorem Step.watched {action : Action} (taken : Step tickets before action after)
    (current : ∀ id, action = .advance id → WritesCurrent tickets userId before id)
    (watched : Watched tickets books userId first before) :
    Watched tickets books userId first after := by
  have disciplined := taken.disciplined watched.disciplined
  obtain ⟨id, moves, advanced⟩ | ⟨isbn, rfl⟩ := taken.moves
  · have writes : after.phases id ≠ .failed none → WritesCurrent tickets userId before id := by
      intro working
      obtain advanced | failed := advanced
      · exact current id advanced
      · exact absurd failed working
    exact ⟨disciplined, moves.books_kept.trans watched.books_eq,
      watched.reflected_step moves writes, watched.current_step moves writes,
      watched.known_step moves⟩
  · obtain ⟨row, order, reflects⟩ := watched.reflected
    exact ⟨disciplined, watched.books_eq, ⟨row, order, reflects.serial, reflects.committed,
      reflects.distinct, reflects.complete⟩, watched.current, watched.known⟩

end Steps

/-- In every run whose returns and bills write the row of a user only over the
row they have read, no update of that row is lost. -/
theorem run_noLostUpdate (tickets : Nat → Ticket) (tables : Tables) (processes : Nat → Process)
    {trace : List (Transition System Action)} {final : System}
    (run : Run (Step tickets) (.start tables processes) trace final) (userId : String)
    (first : User) (found : tables.users.get? userId = some first)
    (current : ∀ transition ∈ trace, ∀ id, transition.label = .advance id →
      WritesCurrent tickets userId transition.before id) :
    NoLostUpdate tickets tables.books userId first final := by
  have watched : Watched tickets tables.books userId first final := by
    refine run.invariant current ⟨disciplined_start tickets tables processes, rfl,
      ⟨first, [], .nil, found, List.nodup_nil, ?_⟩, ?_, ?_⟩ ?_
    · intro id receipt
      simp [System.start]
    · intro id row written todo next model updated phase
      cases phase
    · intro id request row written todo next phase
      cases phase
    · intro before action after watched taken permitted
      exact taken.watched permitted watched
  obtain ⟨row, order, reflects⟩ := watched.reflected
  exact ⟨row, order, reflects, serial_loans reflects.serial, serial_history reflects.serial,
    serial_balance reflects.serial⟩

/-- Two fines for the same user. -/
def twoFines : Nat → Ticket := fun _ => ⟨0, .min, .charge "U1" "B1" 1⟩

def writesCurrent (tickets : Nat → Ticket) (userId : String) (system : System) : Action → Bool
  | .advance id =>
      match system.phases id with
      | .writing _ _ (.user model _ :: _) _ => system.tables.users.get? userId = some model
      | .storingUser model _ receipt => decide (system.tables.users.get? userId = some model) &&
          match receipt, (tickets id).request with
          | .charged waiting fine, .charge _ isbn overdueDays => fine.fineCharged =
              system.tables.projectedFine waiting isbn userId overdueDays
          | _, _ => true
      | _ => true
  | _ => true

private theorem writesCurrent_sound {tickets : Nat → Ticket} {userId : String} {system : System}
    {id : Nat} (checked : writesCurrent tickets userId system (.advance id) = true) :
    WritesCurrent tickets userId system id := by
  constructor
  · intro request row written todo next model updated _ phase _
    simpa [writesCurrent, phase] using checked
  · intro model row receipt phase _
    simp only [writesCurrent, phase, Bool.and_eq_true, decide_eq_true_eq] at checked
    exact checked.1
  · intro isbn overdueDays model row waiting receipt asked phase
    simp only [writesCurrent, phase, asked, Bool.and_eq_true, decide_eq_true_eq] at checked
    exact checked.2

theorem run_noLostUpdate_one_by_one :
    ∃ trace final, Run (Step twoFines) smallSystem trace final ∧
      (final.tables.users.get? "U1").map User.unpaidFinesBalance = some 22 ∧
      ∃ first, NoLostUpdate twoFines smallLibrary.books "U1" first final := by
  have replayed : (Run.replay (System.exec twoFines) (writesCurrent twoFines "U1") smallSystem
      (List.replicate 3 (.advance 0) ++ List.replicate 3 (.advance 1))).map
        (fun final => (final.tables.users.get? "U1").map User.unpaidFinesBalance) =
      some (some 22) := by decide +kernel
  obtain ⟨final, ran, balance⟩ := Option.map_eq_some_iff.mp replayed
  obtain ⟨trace, run, _, checked⟩ := Run.of_replay ran
  obtain ⟨first, found⟩ : ∃ first, smallLibrary.users.get? "U1" = some first := ⟨_, rfl⟩
  refine ⟨trace, final, run, balance, first, ?_⟩
  refine run_noLostUpdate twoFines smallLibrary _ run "U1" first found ?_
  intro transition member id advanced
  apply writesCurrent_sound
  rw [← advanced]
  exact checked transition member

/-- Both charges read the balance before either stores it: one of them is lost. -/
theorem concurrent_fines_lose_one :
    ∃ trace final first, Run (Step twoFines) smallSystem trace final ∧
      smallLibrary.users.get? "U1" = some first ∧
      (∀ id, final.phases id = .idle ∨ ∃ receipt, final.phases id = .done receipt) ∧
      ¬ NoLostUpdate twoFines smallLibrary.books "U1" first final := by
  obtain ⟨final, ran⟩ : ∃ final, Run.replay (System.exec twoFines) (fun _ _ => true) smallSystem
      [.advance 0, .advance 0, .advance 1, .advance 1, .advance 0, .advance 1] = some final :=
    ⟨_, rfl⟩
  obtain ⟨first, found⟩ : ∃ first, smallLibrary.users.get? "U1" = some first := ⟨_, rfl⟩
  obtain ⟨trace, run, _, _⟩ := Run.of_replay ran
  obtain ⟨left, zero, leftFine⟩ : ∃ receipt, final.phases 0 = .done (.charged 0 receipt) ∧
      receipt.fineCharged = 11 := by
    cases ran
    exact ⟨_, rfl, by decide +kernel⟩
  obtain ⟨right, one, rightFine⟩ : ∃ receipt, final.phases 1 = .done (.charged 0 receipt) ∧
      receipt.fineCharged = 11 := by
    cases ran
    exact ⟨_, rfl, by decide +kernel⟩
  have others : ∀ id, final.phases (id + 2) = .idle := by
    cases ran
    intro id
    rfl
  have balances : first.unpaidFinesBalance = 0 ∧
      (final.tables.users.get? "U1").map User.unpaidFinesBalance = some 11 := by
    cases ran
    cases found
    decide +kernel
  refine ⟨trace, final, first, run, found, ?_, ?_⟩
  · intro id
    match id with
    | 0 => exact .inr ⟨_, zero⟩
    | 1 => exact .inr ⟨_, one⟩
    | id + 2 => exact .inl (others id)
  intro noLost
  obtain ⟨row, order, reflects, _, _, balance⟩ := noLost
  have services : (order.map Transition.label).Perm
      [(0, .charged 0 left), (1, .charged 0 right)] := by
    rw [List.perm_ext_iff_of_nodup]
    · intro service
      obtain ⟨id, receipt⟩ := service
      rw [reflects.complete]
      match id with
      | 0 =>
          rw [zero]
          simp [twoFines, eq_comm]
          intro same
          cases same
          rfl
      | 1 =>
          rw [one]
          simp [twoFines, eq_comm]
          intro same
          cases same
          rfl
      | id + 2 => simp [others]
    · apply List.Nodup.of_map Prod.fst
      rw [List.map_map]
      exact reflects.distinct
    · simp
  rw [(services.map charged).sum_eq, (services.map applied).sum_eq, balances.1] at balance
  have stored := balances.2
  rw [reflects.committed] at stored
  simp [charged, applied, leftFine, rightFine] at balance stored
  rw [stored] at balance
  norm_num at balance
end LibraFlow.Postgres
