import LibraFlow.Postgres.Commits

/-! Adding a copy beside running loans. The title is loaded with all its copies
and saved with all of them later, so every copy of the title is written back; a
loan survives when the row written back is still the committed one. -/

set_option autoImplicit false

namespace LibraFlow.Postgres

open LibraFlow.Core LibraFlow.Library LibraFlow.Storage LibraFlow.Patterns LibraFlow.Container
  LibraFlow.Services

/-- What a checkout or a return does to the row of its copy when nothing else
runs beside it. -/
inductive Circulates (tickets : Nat → Ticket) (before : BookCopy) :
    Nat × Receipt → BookCopy → Prop where
  | issued {id : Nat} {request : IssueRequest} {record : CirculationRecord} {after : BookCopy}
      (asked : (tickets id).request = .issue request)
      (allowed : mayTake before request.userId = true)
      (accepted : before.checkOut request.userId = .ok after) :
      Circulates tickets before (id, .issued record) after
  | returned {id : Nat} {request : ReturnRequest} {borrowerId : String}
      {assigned : Option ReservationEntry} {returned after : BookCopy} {holds : List Write}
      (asked : (tickets id).request = .giveBack request)
      (borrower : before.currentBorrowerId = some borrowerId)
      (gaveBack : before.returnBook = .ok returned) (held : Held returned assigned after holds) :
      Circulates tickets before (id, returnReceipt request borrowerId after assigned) after

/-- The request that a step commits, when it is about the given copy. -/
def commitOn (copyId : String) (transition : Transition System Action) :
    Option (Nat × Receipt) :=
  match transition.label with
  | .advance id =>
      match transition.before.phases id, transition.after.phases id with
      | .writing row _ [] (.commit receipt), .done _ =>
          if row.copyId = copyId then some (id, receipt) else none
      | _, _ => none
  | _ => none

/-- The checkouts and returns of a copy, in the order of their commits. -/
def commitsOn (copyId : String) (trace : List (Transition System Action)) :
    List (Nat × Receipt) := trace.filterMap (commitOn copyId)

/-- A title is saved over rows that are still the ones it was loaded with. -/
def MergesCurrent (transition : Transition System Action) : Prop :=
  ∀ id copy first written todo, transition.label = .advance id →
    transition.before.phases id = .merging copy written (first :: todo) →
    first.copyId ≠ copy.copyId →
    transition.before.tables.copies.get? first.copyId = some first

/-- The row of a copy is what its checkouts and returns have made of it. -/
structure Circulated (tickets : Nat → Ticket) (first : BookCopy)
    (trace : List (Transition System Action)) (system : System) : Prop where
  disciplined : Disciplined tickets system
  merged : ∀ id copy written todo, system.phases id = .merging copy written todo →
    ∀ row ∈ written, row.copyId ≠ copy.copyId →
      system.tables.copies.get? row.copyId = some row
  history : ∃ order row, Run (Circulates tickets) first order row ∧
    order.map Transition.label = commitsOn first.copyId trace ∧
    system.tables.copies.get? first.copyId = some row

theorem commit_current {tables : Tables} {written : List BookCopy} {key : String}
    (current : ∀ row ∈ written, row.copyId = key → tables.copies.get? key = some row) :
    (tables.commit (written.map .copy)).copies.get? key = tables.copies.get? key := by
  induction written generalizing tables with
  | nil => rfl
  | cons row rest ih =>
      have here : (tables.copies.merge row).get? key = tables.copies.get? key := by
        rw [Table.get?_merge]
        split
        · next own => exact (current row List.mem_cons_self own).symm
        · rfl
      have later : ((tables.apply (.copy row)).commit (rest.map .copy)).copies.get? key =
          (tables.copies.merge row).get? key := by
        refine ih ?_
        intro other member own
        exact here.trans (current other (List.mem_cons_of_mem _ member) own)
      exact later.trans here

section Steps

variable {tickets : Nat → Ticket} {first : BookCopy} {trace : List (Transition System Action)}
  {before after : System} {action : Action} {id : Nat}

private theorem commitsOn_snoc (copyId : String) (transition : Transition System Action) :
    commitsOn copyId (trace ++ [transition]) =
      commitsOn copyId trace ++ (commitOn copyId transition).toList := by
  unfold commitsOn
  rw [List.filterMap_append]
  cases committed : commitOn copyId transition with
  | none => simp [committed]
  | some service => simp [committed]

/-- A step that commits nothing about the copy and leaves its row. -/
theorem history_quiet (circulated : Circulated tickets first trace before)
    (uncommitted : commitOn first.copyId ⟨before, action, after⟩ = none)
    (kept : after.tables.copies.get? first.copyId = before.tables.copies.get? first.copyId) :
    ∃ order row, Run (Circulates tickets) first order row ∧
      order.map Transition.label = commitsOn first.copyId (trace ++ [⟨before, action, after⟩]) ∧
      after.tables.copies.get? first.copyId = some row := by
  obtain ⟨order, row, serial, labels, found⟩ := circulated.history
  refine ⟨order, row, serial, ?_, kept.trans found⟩
  rw [commitsOn_snoc, uncommitted, labels]
  simp

private theorem history_commit {row next : BookCopy} {receipt : Receipt}
    (circulated : Circulated tickets first trace before)
    (current : before.tables.copies.get? row.copyId = some row)
    (committed : commitOn first.copyId ⟨before, action, after⟩ =
      if row.copyId = first.copyId then some (id, receipt) else none)
    (same : BookCopy.SameCopy row next)
    (copies : after.tables.copies = before.tables.copies.merge next)
    (circulates : Circulates tickets row (id, receipt) next) :
    ∃ order final, Run (Circulates tickets) first order final ∧
      order.map Transition.label = commitsOn first.copyId (trace ++ [⟨before, action, after⟩]) ∧
      after.tables.copies.get? first.copyId = some final := by
  by_cases own : row.copyId = first.copyId
  · obtain ⟨order, known, serial, labels, found⟩ := circulated.history
    rw [← own, current] at found
    cases found
    refine ⟨_, next, serial.snoc circulates, ?_, ?_⟩
    · rw [commitsOn_snoc, committed, if_pos own, List.map_append, labels]
      rfl
    · rw [copies, ← own, ← same.copyId, Table.get?_merge_self]
  · rw [if_neg own] at committed
    refine history_quiet circulated committed ?_
    rw [copies, Table.get?_merge_of_ne _ (by rw [same.copyId]; exact own)]

private theorem commitOn_unfinished {copyId : String}
    (unfinished : ∀ receipt, after.phases id ≠ .done receipt) :
    commitOn copyId ⟨before, .advance id, after⟩ = none := by
  simp only [commitOn]
  split
  · next done => exact absurd done (unfinished _)
  · rfl

private theorem commitOn_outside {copyId : String}
    (outside : ∀ row written receipt,
      before.phases id ≠ .writing row written [] (.commit receipt)) :
    commitOn copyId ⟨before, .advance id, after⟩ = none := by
  simp only [commitOn]
  split
  · next writing _ => exact absurd writing (outside _ _ _)
  · rfl

theorem Moves.history (moves : Moves (tickets id) before id after)
    (settled : (tickets id).request.movesCopies = false)
    (others : (tickets id).request.stocks? ≠ some first.copyId)
    (circulated : Circulated tickets first trace before) :
    ∃ order row, Run (Circulates tickets) first order row ∧
      order.map Transition.label =
        commitsOn first.copyId (trace ++ [⟨before, .advance id, after⟩]) ∧
      after.tables.copies.get? first.copyId = some row := by
  have stands := circulated.disciplined id
  cases moves with
  | lockedCopy phase | checkedOut phase | beganReturn phase | inserted phase
  | updatedCopy phase | updatedUser phase | returned phase | offered phase | invalidated phase
  | mergedCopy phase | cleared phase | readDetails phase | storedDetails phase
  | storedUser phase =>
      exact history_quiet circulated (commitOn_outside (by simp [phase])) rfl
  | aborted =>
      exact history_quiet circulated (commitOn_unfinished (by simp [System.close])) rfl
  | proceeded outside =>
      refine history_quiet circulated (commitOn_outside ?_) rfl
      intro row written receipt writing
      rw [writing] at outside
      exact outside
  | @committed row written receipt phase =>
      have committed : commitOn first.copyId ⟨before, .advance id,
          { before.close id (.done receipt) with tables := before.tables.commit written }⟩ =
          if row.copyId = first.copyId then some (id, receipt) else none := by
        simp [commitOn, phase, System.close]
      rw [phase] at stands
      cases stands.outcome with
      | issued asked _ commit =>
          exact history_commit circulated stands.owns.current committed
            (BookCopy.sameCopy_checkOut commit.accepted) commit.copies
            (.issued asked commit.allowed commit.accepted)
      | returned asked _ _ commit =>
          obtain ⟨returned, holds, gaveBack, held⟩ := commit.returned
          exact history_commit circulated stands.owns.current committed commit.sameCopy
            commit.copies (.returned asked commit.borrower gaveBack held)
  | storedCopy phase _ =>
      rw [phase] at stands
      have moving := stands.2.2
      rw [settled] at moving
      cases moving
  | storedNew phase _ =>
      have writing : ∀ row written receipt,
          before.phases id ≠ .writing row written [] (.commit receipt) := by simp [phase]
      rw [phase] at stands
      refine history_quiet circulated (commitOn_outside writing) (Table.get?_merge_of_ne _ ?_)
      intro own
      have stocking : (tickets id).request.stocks? = some _ := stands
      rw [own] at stocking
      exact others stocking
  | @committedTitle copy written phase =>
      have writing : ∀ row written receipt,
          before.phases id ≠ .writing row written [] (.commit receipt) := by simp [phase]
      rw [phase] at stands
      refine history_quiet circulated (commitOn_outside writing) (commit_current ?_)
      intro row member own
      have different : row.copyId ≠ copy.copyId := by
        intro same
        have stocking := stands.1
        rw [← same, own] at stocking
        exact others stocking
      rw [← own]
      exact circulated.merged id copy written [] phase row member different

/-- The rows a title save has written are locked, so they stay as they are. -/
theorem Moves.merged (moves : Moves (tickets id) before id after)
    (current : ∀ copy row written todo, before.phases id = .merging copy written (row :: todo) →
      row.copyId ≠ copy.copyId → before.tables.copies.get? row.copyId = some row)
    (circulated : Circulated tickets first trace before) (other : Nat) (copy : BookCopy)
    (written todo : List BookCopy) (phase : after.phases other = .merging copy written todo)
    (row : BookCopy) (member : row ∈ written) (different : row.copyId ≠ copy.copyId) :
    after.tables.copies.get? row.copyId = some row := by
  have frame := moves.frame (circulated.disciplined id)
  by_cases same : other = id
  · subst other
    have entered : ∀ phase, Function.update before.phases id phase id = phase :=
      fun phase => Function.update_self id phase before.phases
    cases moves with
    | mergedCopy earlier _ =>
        simp only [System.enter, entered, Phase.merging.injEq] at phase
        obtain ⟨rfl, rfl, rfl⟩ := phase
        obtain old | last := List.mem_append.mp member
        · exact circulated.merged id _ _ _ earlier row old different
        · cases List.mem_singleton.mp last
          exact current _ _ _ _ earlier different
    | storedNew =>
        simp only [System.enter, entered, Phase.merging.injEq] at phase
        obtain ⟨rfl, rfl, rfl⟩ := phase
        cases member
    | lockedCopy | checkedOut | beganReturn | inserted | updatedCopy | updatedUser | returned
    | offered | storedUser | storedCopy | readDetails => simp [System.enter] at phase
    | invalidated | cleared => simp [System.enter, System.invalidate] at phase
    | committed | aborted => simp [System.close] at phase
    | committedTitle => simp [System.commitTitle, System.close] at phase
    | storedDetails => simp [System.storeDetails, System.enter] at phase
    | proceeded outside prepared _ _ =>
        simp only [System.enter, entered] at phase
        rw [phase] at prepared
        exact (prepared ((circulated.disciplined id).prepared outside)).elim
  · rw [frame.phases other same] at phase
    have stands := circulated.disciplined other
    rw [phase] at stands
    rw [(frame.copies other row.copyId same (stands.2 row member)).2]
    exact circulated.merged other copy written todo phase row member different

theorem Step.circulated (taken : Step tickets before action after)
    (settled : ∀ id, (tickets id).request.movesCopies = false)
    (others : ∀ id, (tickets id).request.stocks? ≠ some first.copyId)
    (current : MergesCurrent ⟨before, action, after⟩)
    (circulated : Circulated tickets first trace before) :
    Circulated tickets first (trace ++ [⟨before, action, after⟩]) after := by
  have disciplined := taken.disciplined circulated.disciplined
  cases action with
  | advance id =>
      have moves : Moves (tickets id) before id after := advance_moves taken
      refine ⟨disciplined, moves.merged ?_ circulated, moves.history (settled id) (others id)
        circulated⟩
      intro copy row written todo phase different
      exact current id copy row written todo rfl phase different
  | fail id =>
      have moves : Moves (tickets id) before id after := fail_moves taken
      have same := fail_tables taken
      refine ⟨disciplined, ?_, history_quiet circulated rfl (by rw [same])⟩
      intro other copy written todo phase row member different
      have unchanged : other ≠ id := by
        intro equal
        subst other
        rw [fail_phase taken] at phase
        cases phase
      rw [moves.phases_other unchanged] at phase
      rw [same]
      exact circulated.merged other copy written todo phase row member different
  | expire isbn =>
      cases taken
      exact ⟨disciplined, circulated.merged, history_quiet circulated rfl rfl⟩

end Steps

/-- In every run of checkouts, returns and additions of copies (and of billing,
reservations and reads beside them) whose title saves find the rows they were
loaded with: the committed row of a copy that nobody adds is the one that its
checkouts and returns alone produce, in the order of their commits. -/
theorem run_circulated (tickets : Nat → Ticket)
    (settled : ∀ id, (tickets id).request.movesCopies = false) (tables : Tables)
    (processes : Nat → Process) {trace : List (Transition System Action)} {final : System}
    (run : Run (Step tickets) (.start tables processes) trace final)
    (current : ∀ transition ∈ trace, MergesCurrent transition) (copyId : String)
    (first : BookCopy) (found : tables.copies.get? copyId = some first)
    (others : ∀ id, (tickets id).request.stocks? ≠ some copyId) :
    ∃ order row, Run (Circulates tickets) first order row ∧
      order.map Transition.label = commitsOn copyId trace ∧
      final.tables.copies.get? copyId = some row := by
  obtain rfl := Table.key_of_get? found
  have circulated : Circulated tickets first trace final := by
    induction run with
    | nil =>
        refine ⟨disciplined_start tickets tables processes, ?_, [], first, .nil, rfl, found⟩
        intro id copy written todo phase
        cases phase
    | snoc _ taken ih =>
        have earlier := ih fun transition member =>
          current transition (List.mem_append_left _ member)
        exact taken.circulated settled others (current _ (by simp)) earlier
  exact circulated.history

/-- A checkout and a third copy for the same title. -/
def loanAndStock : Nat → Ticket
  | 0 => ⟨0, .min, .issue
      { copyId := "C1", userId := "U1", transactionId := "TX", eventId := "E1" }⟩
  | 1 => ⟨0, .min, .addCopy "B1" "C3" "DELHI" "A1-01" 500⟩
  | _ => ⟨0, .min, .reserve "B1" "U1" "R1"⟩

def mergesCurrent (system : System) : Action → Bool
  | .advance id =>
      match system.phases id with
      | .merging copy _ (first :: _) =>
          first.copyId == copy.copyId ||
            decide (system.tables.copies.get? first.copyId = some first)
      | _ => true
  | _ => true

private theorem mergesCurrent_sound {transition : Transition System Action}
    (checked : mergesCurrent transition.before transition.label = true) :
    MergesCurrent transition := by
  intro id copy first written todo advanced phase different
  rw [advanced] at checked
  simp only [mergesCurrent, phase, Bool.or_eq_true, beq_iff_eq, decide_eq_true_eq] at checked
  obtain same | current := checked
  · exact absurd same different
  · exact current

private theorem loanAndStock_settled (id : Nat) :
    (loanAndStock id).request.movesCopies = false := by
  match id with
  | 0 | 1 => rfl
  | id + 2 => rfl

private theorem loanAndStock_others (id : Nat) : (loanAndStock id).request.stocks? ≠ some "C1" := by
  match id with
  | 0 => simp [loanAndStock, Request.stocks?]
  | 1 => simp [loanAndStock, Request.stocks?]
  | id + 2 => simp [loanAndStock, Request.stocks?]

theorem run_circulated_stocked_first :
    ∃ trace final order row, Run (Step loanAndStock) smallSystem trace final ∧
      (∀ transition ∈ trace, MergesCurrent transition) ∧
      Run (Circulates loanAndStock) (.new "C1" "B1" "DELHI" "A1-01" 500) order row ∧
      order.map Transition.label = commitsOn "C1" trace ∧
      final.tables.copies.get? "C1" = some row ∧ (final.phases 1).isDone = true := by
  have replayed : (Run.replay (System.exec loanAndStock) mergesCurrent smallSystem
      (List.replicate 7 (.advance 1) ++ List.replicate 8 (.advance 0))).map
        (fun final => (final.phases 1).isDone) = some true := by decide +kernel
  obtain ⟨final, ran, ended⟩ := Option.map_eq_some_iff.mp replayed
  obtain ⟨trace, run, _, checked⟩ := Run.of_replay ran
  have current : ∀ transition ∈ trace, MergesCurrent transition :=
    fun transition member => mergesCurrent_sound (checked transition member)
  obtain ⟨order, row, serial, labels, found⟩ := run_circulated loanAndStock
    loanAndStock_settled smallLibrary _ run current "C1" (.new "C1" "B1" "DELHI" "A1-01" 500)
    rfl loanAndStock_others
  exact ⟨trace, final, order, row, run, current, serial, labels, found, ended⟩

/-- The title is loaded before the checkout and saved after it: every request is
over, one checkout of the copy is committed, and its row is that of no checkout. -/
theorem title_save_undoes_loan :
    ∃ trace final, Run (Step loanAndStock) smallSystem trace final ∧
      (∀ id, final.phases id = .idle ∨ ∃ receipt, final.phases id = .done receipt) ∧
      ¬ ∃ order row,
        Run (Circulates loanAndStock) (.new "C1" "B1" "DELHI" "A1-01" 500) order row ∧
          order.map Transition.label = commitsOn "C1" trace ∧
          final.tables.copies.get? "C1" = some row := by
  let labels : List Action :=
    [.advance 1] ++ List.replicate 8 (.advance 0) ++ List.replicate 6 (.advance 1)
  have replayed : (Run.replay (System.exec loanAndStock) (fun _ _ => true) smallSystem
      labels).map (fun final => (((final.phases 0).isDone && (final.phases 1).isDone),
        (final.tables.copies.get? "C1").map BookCopy.status)) =
      some (true, some .available) := by decide +kernel
  have lent : (commitsOn "C1" (Run.path (System.exec loanAndStock) smallSystem labels)).map
      Prod.fst = [0] := by decide +kernel
  obtain ⟨final, ran, shown⟩ := Option.map_eq_some_iff.mp replayed
  simp only [Prod.mk.injEq, Bool.and_eq_true] at shown
  obtain ⟨⟨zero, one⟩, shelved⟩ := shown
  obtain ⟨run, same⟩ := Run.path_of_replay ran
  refine ⟨_, final, run, all_over run same (by decide) zero one, ?_⟩
  rintro ⟨order, row, serial, services, found⟩
  rw [found, Option.map_some, Option.some.injEq] at shelved
  rw [← services, List.map_map] at lent
  cases serial with
  | nil => cases lent
  | snoc _ taken =>
      cases taken with
      | issued _ _ accepted =>
          obtain ⟨_, rfl⟩ := BookCopy.checkOut_ok accepted
          cases shelved
      | @returned id _ _ _ _ _ _ asked =>
          have zeroth : id ∈ [0] := by
            rw [← lent]
            simp [returnReceipt]
          cases List.mem_singleton.mp zeroth
          cases asked

end LibraFlow.Postgres
