import LibraFlow.Postgres.Commits

/-! Committed copy rows follow the lifecycle. Locked sections always do; a transfer
does when it stores its copy over the row it has read, which nothing ensures. -/

set_option autoImplicit false

namespace LibraFlow.Postgres

open LibraFlow.Core LibraFlow.Library LibraFlow.Storage LibraFlow.Container LibraFlow.Services

/-- The event that ends the loan of a copy to a user. -/
def IsReturn (copyId userId : String) (event : OutboxEvent CopyEvent) : Prop :=
  ∃ isbn isLate isDamaged assigned,
    event.payload = .returned copyId isbn userId isLate isDamaged assigned

/-- Each copy row is unchanged or the result of one lifecycle operation on the
previous row, and a loan ends only together with its return event. -/
def Legal (before after : Tables) : Prop :=
  ∀ copyId, after.copies.get? copyId = before.copies.get? copyId ∨
    ∃ old new, before.copies.get? copyId = some old ∧ after.copies.get? copyId = some new ∧
      old.Lifecycle new ∧
      ∀ userId, old.status = .issued → old.currentBorrowerId = some userId →
        ∃ event, after.events = before.events ++ [event] ∧ IsReturn copyId userId event

/-- A copy row stored without a lock replaces the row the request has read. -/
def StoresCurrent (transition : Transition System Action) : Prop :=
  ∀ id copy row rest, transition.label = .advance id →
    transition.before.phases id = .storingCopy copy row rest →
    transition.before.tables.copies.get? copy.copyId = some copy

private theorem legal_of_copies {before after : Tables} (same : after.copies = before.copies) :
    Legal before after := fun _ => .inl (by rw [same])

theorem IssueCommit.legal {request : IssueRequest} {now : Datetime} {row issued : BookCopy}
    {model : User} {record : CirculationRecord} {before after : Tables}
    (commit : IssueCommit request now row issued model record before after)
    (current : before.copies.get? row.copyId = some row) : Legal before after := by
  have sameId := (BookCopy.sameCopy_checkOut commit.accepted).copyId
  intro copyId
  rw [commit.copies, Table.get?_merge]
  split
  · next own =>
      rw [sameId] at own
      subst copyId
      refine .inr ⟨row, issued, current, rfl, .checkOut request.userId commit.accepted, ?_⟩
      intro userId out
      obtain ⟨shelved, _⟩ := BookCopy.checkOut_ok commit.accepted
      simp [out] at shelved
  · exact .inl rfl

theorem ReturnCommit.legal {request : ReturnRequest} {now : Datetime} {row final : BookCopy}
    {borrowerId : String} {found : Option User} {assigned : Option Patterns.ReservationEntry}
    {before after : Tables}
    (commit : ReturnCommit request now row final borrowerId found assigned before after)
    (current : before.copies.get? row.copyId = some row) : Legal before after := by
  obtain ⟨returned, _, gaveBack, held⟩ := commit.returned
  have legal : row.Lifecycle final := by
    obtain rfl | ⟨reserverId, held⟩ := held.cases
    · exact .returnBook gaveBack
    · exact .returnAndReserve reserverId gaveBack held
  intro copyId
  rw [commit.copies, Table.get?_merge]
  split
  · next own =>
      rw [legal.copyId] at own
      subst copyId
      refine .inr ⟨row, final, current, rfl, legal, ?_⟩
      intro userId _ borrower
      rw [commit.borrower] at borrower
      cases borrower
      refine ⟨_, commit.events, final.bookIsbn, request.isLate, request.isDamaged,
        assigned.map Patterns.ReservationEntry.reservationId, ?_⟩
      rw [commit.copyId]
      rfl
  · exact .inl rfl

theorem Moves.legal {ticket : Ticket} {before after : System} {id : Nat}
    (moves : Moves ticket before id after) (stands : Stands ticket before id (before.phases id))
    (stockless : ticket.request.stocks? = none)
    (current : ∀ copy row rest, before.phases id = .storingCopy copy row rest →
      after.phases id = .planning rest → before.tables.copies.get? copy.copyId = some copy) :
    Legal before.tables after.tables := by
  cases moves with
  | lockedCopy | checkedOut | beganReturn | inserted | updatedCopy | updatedUser | returned
  | offered | invalidated | aborted | mergedCopy | cleared | readDetails | storedDetails
  | storedUser | proceeded => exact legal_of_copies rfl
  | committed phase =>
      rw [phase] at stands
      cases stands.outcome with
      | issued _ _ commit => exact commit.legal stands.owns.current
      | returned _ _ _ commit => exact commit.legal stands.owns.current
  | @storedCopy copy row rest phase _ =>
      rw [phase] at stands
      obtain ⟨legal, shelved, _⟩ := stands
      have read := current copy row rest phase (Function.update_self id _ before.phases)
      intro copyId
      refine (Table.get?_merge before.tables.copies row copyId).symm ▸ ?_
      split
      · next own =>
          rw [legal.copyId] at own
          subst copyId
          exact .inr ⟨copy, row, read, rfl, legal, fun _ out => absurd out shelved⟩
      · exact .inl rfl
  | storedNew phase _ =>
      rw [phase] at stands
      have stocking : ticket.request.stocks? = some _ := stands
      rw [stockless] at stocking
      cases stocking
  | committedTitle phase =>
      rw [phase] at stands
      have stocking := stands.1
      rw [stockless] at stocking
      cases stocking

/-- In every run of checkouts, returns, transfers, plans and arrivals (and of
billing, reservations and reads beside them) whose transfers store their copies
over the rows they have read, every step is legal. -/
theorem run_legal (tickets : Nat → Ticket)
    (stockless : ∀ id, (tickets id).request.stocks? = none) (tables : Tables)
    (processes : Nat → Process) {trace : List (Transition System Action)} {final : System}
    (run : Run (Step tickets) (.start tables processes) trace final)
    (current : ∀ transition ∈ trace, StoresCurrent transition) :
    ∀ transition ∈ trace, Legal transition.before.tables transition.after.tables := by
  intro transition member
  obtain ⟨disciplined, taken⟩ := run.transition_invariant current
    (disciplined_start tickets tables processes)
    (fun _ _ _ disciplined taken _ => taken.disciplined disciplined) transition member
  obtain ⟨id, moves, advanced⟩ | ⟨isbn, expired⟩ := taken.moves
  · apply moves.legal (disciplined id) (stockless id)
    intro copy row rest phase planning
    obtain advanced | failed := advanced
    · exact current transition member id copy row rest advanced phase
    · rw [planning] at failed
      cases failed
  · rw [expired]
    exact legal_of_copies rfl

/-- A transfer and a checkout of one copy. -/
def transferAndLoan : Nat → Ticket
  | 0 => ⟨0, .min, .transfer "C1" "PUNE" "DESK" "T1"⟩
  | _ => ⟨0, .min, .issue
      { copyId := "C1", userId := "U1", transactionId := "TX", eventId := "E1" }⟩

def storesCurrent (system : System) : Action → Bool
  | .advance id =>
      match system.phases id with
      | .storingCopy copy _ _ => system.tables.copies.get? copy.copyId = some copy
      | _ => true
  | _ => true

private theorem storesCurrent_sound {transition : Transition System Action}
    (checked : storesCurrent transition.before transition.label = true) :
    StoresCurrent transition := by
  intro id copy row rest advanced phase
  rw [advanced] at checked
  simp only [storesCurrent, phase, decide_eq_true_eq] at checked
  exact checked

/-- The transfer is through before the checkout begins. -/
theorem run_legal_transfer_first :
    ∃ trace final, Run (Step transferAndLoan) smallSystem trace final ∧
      (∀ transition ∈ trace, StoresCurrent transition) ∧
      (final.tables.copies.get? "C1").map BookCopy.status = some .inTransit ∧
      ∀ transition ∈ trace, Legal transition.before.tables transition.after.tables := by
  have replayed : (Run.replay (System.exec transferAndLoan) storesCurrent smallSystem
      (List.replicate 4 (.advance 0) ++ List.replicate 2 (.advance 1))).map
        (fun final => (final.tables.copies.get? "C1").map BookCopy.status) =
      some (some .inTransit) := by decide +kernel
  obtain ⟨final, ran, moved⟩ := Option.map_eq_some_iff.mp replayed
  obtain ⟨trace, run, _, checked⟩ := Run.of_replay ran
  have current := fun transition member => storesCurrent_sound (checked transition member)
  exact ⟨trace, final, run, current, moved, run_legal transferAndLoan
    (fun id => by cases id <;> rfl) smallLibrary _ run current⟩

/-- The copy is lent between the read and the save of its transfer: the save puts
it in transit, and the loan is gone without a return. -/
theorem late_transfer_drops_loan :
    ∃ trace final, Run (Step transferAndLoan) smallSystem trace final ∧
      ∃ transition ∈ trace, ¬ Legal transition.before.tables transition.after.tables := by
  have replayed : (Run.replay (System.exec transferAndLoan) (fun _ _ => true) smallSystem
      (List.replicate 2 (.advance 0) ++ List.replicate 8 (.advance 1))).map
        (fun lent => ((lent.tables.copies.get? "C1").map fun row =>
            (row.status, row.currentBorrowerId), lent.tables.events.length,
          (lent.exec transferAndLoan (.advance 0)).map fun moved =>
            ((moved.tables.copies.get? "C1").map BookCopy.status, moved.tables.events.length))) =
      some (some (.issued, some "U1"), 1, some (some .inTransit, 1)) := by decide +kernel
  obtain ⟨lent, ran, shown⟩ := Option.map_eq_some_iff.mp replayed
  simp only [Prod.mk.injEq, Option.map_eq_some_iff] at shown
  obtain ⟨⟨row, found, out, borrower⟩, oneEvent, moved, taken, ⟨new, foundNew, inTransit⟩,
    stillOne⟩ := shown
  obtain ⟨trace, run, _, _⟩ := Run.of_replay ran
  refine ⟨_, moved, run.snoc taken, ⟨lent, .advance 0, moved⟩, by simp, ?_⟩
  intro legal
  obtain same | ⟨old, _, foundOld, _, _, ends⟩ := legal "C1"
  · rw [found, foundNew] at same
    cases same
    rw [out] at inTransit
    cases inTransit
  · rw [found] at foundOld
    cases foundOld
    obtain ⟨event, appended, _⟩ := ends "U1" out borrower
    have longer := congrArg List.length appended
    rw [List.length_append, stillOne, oneEvent] at longer
    cases longer

end LibraFlow.Postgres
