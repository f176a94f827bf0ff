import LibraFlow.Core.BookProperties
import LibraFlow.Patterns.ReservationProperties
import LibraFlow.Postgres.LoanHistory

/-! What a call that raises leaves behind. The transaction restores the tables, but
a checkout tells the forecaster and the rebalancer before the last flush and the
commit, and a return takes a waiter from the queue and writes its audit entry. -/

set_option autoImplicit false

namespace LibraFlow.Postgres

open LibraFlow.Core LibraFlow.Library LibraFlow.Storage LibraFlow.Patterns LibraFlow.Container
  LibraFlow.Services LibraFlow.Ai

/-- Tables and memory are as before, and the call can be repeated with the outcome
it would have had. -/
structure NoTrace {α : Type} (call : (DatabaseStep → Bool) → StationCall α)
    (before after : Station) : Prop where
  tables : after.tables = before.tables
  locals : after.locals = before.locals
  retry : ∀ fails, (call fails after).1 = (call fails before).1

/-- The same but for the cache. -/
def Alike (station other : Station) : Prop := other = { station with cache := other.cache }

section Respecting

variable {fails : DatabaseStep → Bool}

private theorem attempt_respects (step : DatabaseStep) : Proc.Respects Alike (attempt fails step) :=
  (Proc.stateless_check _ _).respects

private theorem pending_respects {α : Type} (look : Tables → α) :
    Proc.Respects Alike (Proc.read fun station => look station.pending : StationCall α) :=
  Proc.respects_read fun _ _ alike => by rw [alike]

private theorem inLocals_respects (change : Locals → Locals) :
    Proc.Respects Alike (Proc.update (Station.inLocals change) : StationCall Unit) :=
  Proc.respects_update fun _ _ alike => by rw [alike]; rfl

private theorem invalidate_respects (isbn : String) :
    Proc.Respects Alike (Proc.update (Station.invalidate isbn) : StationCall Unit) :=
  Proc.respects_update fun _ _ alike => by rw [alike]; rfl

private theorem add_respects (write : Write) :
    Proc.Respects Alike (Proc.update (Station.add write) : StationCall Unit) :=
  Proc.respects_update fun _ _ alike => by rw [alike]; rfl

private theorem inSession_respects {α : Type} (change : UserSession → UserSession × α) :
    Proc.Respects Alike (inSession change) := by
  intro station other alike
  rw [alike]
  exact ⟨rfl, rfl⟩

private theorem flush_respects (step : DatabaseStep) : Proc.Respects Alike (flush fails step) := by
  refine (Proc.respects_read fun _ _ alike => by rw [alike]; rfl).bind fun dirty => ?_
  cases dirty with
  | false => exact (Proc.stateless_pure _).respects
  | true =>
      exact (attempt_respects step).bind fun _ =>
        Proc.respects_update fun _ _ alike => by rw [alike]; rfl

private theorem getUser_respects (userId : String) : Proc.Respects Alike
    (getUser fails userId) := by
  refine (attempt_respects _).bind fun _ => ?_
  refine (pending_respects (Table.get? ·.users userId)).bind fun row => ?_
  exact inSession_respects _

private theorem saveCopy_respects (step : DatabaseStep) (copy : BookCopy) :
    Proc.Respects Alike (saveCopy fails step copy) :=
  (flush_respects step).bind fun _ => add_respects _

private theorem saveUser_respects (user : LiveUser) : Proc.Respects Alike
    (saveUser fails user) := by
  refine (flush_respects _).bind fun _ => ?_
  refine (attempt_respects _).bind fun _ => ?_
  exact Proc.respects_update fun _ _ alike => by rw [alike]; rfl

private theorem issueWritten_respects (request : IssueRequest) (now : Datetime) :
    Proc.Respects Alike (issueWritten fails request now) := by
  refine (getUser_respects _).bind fun foundUser => ?_
  refine (Proc.stateless_expect _ _).respects.bind fun user => ?_
  refine (Proc.stateless_check _ _).respects.bind fun _ => ?_
  refine (pending_respects (Table.get? ·.copies request.copyId)).bind fun foundCopy => ?_
  refine (Proc.stateless_expect _ _).respects.bind fun copy => ?_
  refine (Proc.stateless_check _ _).respects.bind fun _ => ?_
  refine (Proc.stateless_lift _ _).respects.bind fun issued => ?_
  refine (inSession_respects _).bind fun borrower => ?_
  refine (Proc.stateless_expect _ _).respects.bind fun dueDate => ?_
  refine (add_respects _).bind fun _ => ?_
  refine (saveCopy_respects _ _).bind fun _ => ?_
  refine (saveUser_respects _).bind fun _ => ?_
  refine (add_respects _).bind fun _ => ?_
  exact (Proc.stateless_pure _).respects

private theorem issueSection_respects (request : IssueRequest) (now : Datetime) :
    Proc.Respects Alike (issueSection fails request now) := by
  refine (issueWritten_respects request now).bind fun (record, issued) => ?_
  refine (inLocals_respects _).bind fun _ => ?_
  refine (attempt_respects _).bind fun _ => ?_
  refine (invalidate_respects _).bind fun _ => ?_
  exact (Proc.stateless_pure _).respects

private theorem saveReturned_respects (request : ReturnRequest) (now : Datetime)
    (found : Option LiveUser) : Proc.Respects Alike (saveReturned fails request now found) := by
  cases found with
  | none => exact (Proc.stateless_pure _).respects
  | some user => exact (inSession_respects _).bind fun closed => saveUser_respects closed

private theorem returnWritten_respects (request : ReturnRequest) (now : Datetime) :
    Proc.Respects Alike (returnWritten fails request now) := by
  refine (pending_respects (Table.get? ·.copies request.copyId)).bind fun foundCopy => ?_
  refine (Proc.stateless_expect _ _).respects.bind fun copy => ?_
  refine (Proc.stateless_check _ _).respects.bind fun _ => ?_
  refine (getUser_respects _).bind fun user => ?_
  refine (saveReturned_respects request now user).bind fun _ => ?_
  refine (Proc.stateless_lift _ _).respects.bind fun returned => ?_
  refine (saveCopy_respects _ _).bind fun _ => ?_
  exact (Proc.stateless_pure _).respects

private theorem offerLocally_respects (isbn copyId : String) (now : Datetime) :
    Proc.Respects Alike (offerLocally isbn copyId now) := by
  intro station other alike
  rw [alike]
  unfold offerLocally
  rcases station.locals.reservationMgr.handleCopyReturned isbn copyId now with ⟨outcome, manager⟩
  cases outcome with
  | error error => exact ⟨rfl, rfl⟩
  | ok assigned => cases assigned <;> exact ⟨rfl, rfl⟩

private theorem holdRow_respects (returned : BookCopy) (assigned : Option ReservationEntry) :
    Proc.Respects Alike (holdRow fails returned assigned) := by
  cases assigned with
  | none => exact (Proc.stateless_pure _).respects
  | some entry =>
      refine (Proc.stateless_lift _ _).respects.bind fun held => ?_
      refine (saveCopy_respects _ _).bind fun _ => ?_
      exact (Proc.stateless_pure _).respects

private theorem returnSettled_respects (request : ReturnRequest) (now : Datetime)
    (borrowerId : String) (returned : BookCopy) (assigned : Option ReservationEntry) :
    Proc.Respects Alike (returnSettled fails request now borrowerId returned assigned) := by
  refine (holdRow_respects returned assigned).bind fun final => ?_
  refine (add_respects _).bind fun _ => ?_
  refine (attempt_respects _).bind fun _ => ?_
  refine (invalidate_respects _).bind fun _ => ?_
  refine (inLocals_respects _).bind fun _ => ?_
  exact (Proc.stateless_pure _).respects

private theorem returnSection_respects (request : ReturnRequest) (now : Datetime) :
    Proc.Respects Alike (returnSection fails request now) := by
  refine (returnWritten_respects request now).bind fun (borrowerId, returned) => ?_
  refine (offerLocally_respects _ _ _).bind fun assigned => ?_
  exact returnSettled_respects request now borrowerId returned assigned

/-- A locked section looks at the tables and at the memory of the process only. -/
theorem lockingSection_outcome {α : Type} {copyId : String} {body : StationCall α}
    (respects : Proc.Respects Alike body) {station other : Station}
    (tables : station.tables = other.tables) (locals : station.locals = other.locals) :
    (lockingSection fails copyId body station).1 = (lockingSection fails copyId body other).1 := by
  have whole : Proc.Respects Alike (inTransaction fails copyId body) := by
    refine (attempt_respects _).bind fun _ => ?_
    refine (pending_respects (Table.get? ·.copies copyId)).bind fun row => ?_
    refine (Proc.stateless_expect _ _).respects.bind fun _ => ?_
    refine respects.bind fun value => ?_
    refine (flush_respects _).bind fun _ => ?_
    refine (attempt_respects _).bind fun _ => ?_
    exact (Proc.stateless_pure _).respects
  have alike : Alike station.opened other.opened := by
    simp only [Alike, Station.opened, tables, locals]
  have same := (whole station.opened other.opened alike).1
  unfold lockingSection
  rcases left : inTransaction fails copyId body station.opened with ⟨outcome, after⟩
  rcases right : inTransaction fails copyId body other.opened with ⟨otherOutcome, otherAfter⟩
  rw [left, right] at same
  subst same
  cases outcome with
  | error failure => rfl
  | ok value => rfl

end Respecting

/-- What a transaction leaves of a view that opening it does not change. -/
theorem inTransaction_view {α τ : Type} {fails : DatabaseStep → Bool} {copyId : String}
    {body : StationCall α} (view : Station → τ)
    (flushed : ∀ station, view station.flushed = view station) (station : Station) :
    view (inTransaction fails copyId body station).2 =
      if fails .lockCopy = false ∧ (station.pending.copies.get? copyId).isSome = true then
        view (body station).2
      else view station := by
  have closing : ∀ value, Proc.Keeps view
      (flush fails .flush >>= fun _ => attempt fails .commit >>= fun _ =>
        (pure value : StationCall α)) := fun value =>
    (flush_keeps flushed _).bind fun _ => (attempt_keeps _).bind fun _ =>
      (Proc.stateless_pure _).keeps
  unfold inTransaction attempt
  cases locked : fails .lockCopy with
  | true => rw [if_neg (by simp)]; rfl
  | false =>
      rw [Bool.not_false, Proc.check_true_bind_apply, Proc.read_bind_apply]
      cases found : station.pending.copies.get? copyId with
      | none => rw [if_neg (by simp)]; rfl
      | some row =>
          rw [Proc.expect_some_bind_apply, if_pos (by simp), Proc.bind_apply]
          rcases body station with ⟨outcome, between⟩
          cases outcome with
          | error failure => rfl
          | ok value => exact closing value between

private theorem lockingSection_error {α : Type} {fails : DatabaseStep → Bool} {copyId : String}
    {body : StationCall α} {station after : Station} {failure : Failure}
    (raised : lockingSection fails copyId body station = (.error failure, after)) :
    after = (inTransaction fails copyId body station.opened).2.opened := by
  unfold lockingSection at raised
  split at raised
  · cases raised
  · next error between ran =>
      cases raised
      rw [ran]

/-- A call whose locking section raised leaves no trace exactly when the section left the
objects in memory alone: the database takes back what was pending. -/
theorem noTrace_iff_of_section {α β : Type} {fails : DatabaseStep → Bool} {copyId : String}
    {call : (DatabaseStep → Bool) → StationCall β} {body : (DatabaseStep → Bool) → StationCall α}
    {hidden : Prop} {station after : Station} {failure : Failure}
    (respects : ∀ fails, Proc.Respects Alike (body fails))
    (raised : lockingSection fails copyId (body fails) station = (.error failure, after))
    (again : ∀ fails other, (lockingSection fails copyId (body fails) other).1 =
      (lockingSection fails copyId (body fails) station).1 →
        (call fails other).1 = (call fails station).1)
    (keeps : (body fails station.opened).2.tables = station.opened.tables)
    (alone : fails .lockCopy = false →
      ((body fails station.opened).2.locals = station.opened.locals ↔ hidden))
    (stops : ¬ (fails .lockCopy = false ∧
      (station.opened.pending.copies.get? copyId).isSome = true) → hidden) :
    NoTrace call station after ↔ hidden := by
  have reached := lockingSection_error raised
  have tables : after.tables = station.tables := by
    rw [reached]
    refine (inTransaction_view Station.tables (fun _ => rfl) station.opened).trans ?_
    rw [keeps, ite_self]
    rfl
  have locals : after.locals = station.locals ↔ hidden := by
    rw [reached]
    have left := @inTransaction_view _ _ fails copyId (body fails) Station.locals (fun _ => rfl)
      station.opened
    split at left
    · next runs => exact (Eq.congr_left left).trans (alone runs.1)
    · next stopped => exact iff_of_true left (stops stopped)
  constructor
  · intro clean
    exact locals.mp clean.locals
  · intro stopped
    refine ⟨tables, locals.mpr stopped, fun fails => again fails after ?_⟩
    exact lockingSection_outcome (respects fails) tables (locals.mpr stopped)

/-- A checkout gets to the point where it tells the forecaster: no operation fails
before, and the checks pass. -/
structure IssueReaches (fails : DatabaseStep → Bool) (request : IssueRequest) (now : Datetime)
    (tables : Tables) : Prop where
  runs : ∀ step ∈ [DatabaseStep.lockCopy, .loadUser, .saveCopy, .saveUser, .reloadUser],
    fails step = false
  eligible : ∃ model, tables.users.get? request.userId = some model ∧
    (modelToUser model).canBorrow = true
  takes : ∃ copy, tables.copies.get? request.copyId = some copy ∧
    mayTake copy request.userId = true ∧ ∃ issued, copy.checkOut request.userId = .ok issued
  due : (now.addDays? request.loanDays).isSome = true

/-- A return of this copy gets to the point where it asks the reservation queue. A
borrower who is known has been loaded again by then, and the row updated. -/
structure ReturnReaches (fails : DatabaseStep → Bool) (tables : Tables) (copy : BookCopy) :
    Prop where
  runs : ∀ step ∈ [DatabaseStep.lockCopy, .loadUser], fails step = false
  lent : truthy copy.currentBorrowerId = true
  comesBack : ∃ returned, copy.returnBook = .ok returned
  saved : (tables.users.get? (copy.currentBorrowerId.getD "")).isSome = true →
    fails .reloadUser = false ∧ fails .saveCopy = false

section Issuing

variable {fails : DatabaseStep → Bool} {request : IssueRequest} {now : Datetime}
  {station : Station}

private theorem issueWritten_keeps {τ : Type} {view : Station → τ} (outside : Outside view) :
    Proc.Keeps view (issueWritten fails request now) := by
  refine (outside.getUser _).bind fun foundUser => ?_
  refine (Proc.stateless_expect _ _).keeps.bind fun user => ?_
  refine (Proc.stateless_check _ _).keeps.bind fun _ => ?_
  refine (Proc.keeps_read _).bind fun foundCopy => ?_
  refine (Proc.stateless_expect _ _).keeps.bind fun copy => ?_
  refine (Proc.stateless_check _ _).keeps.bind fun _ => ?_
  refine (Proc.stateless_lift _ _).keeps.bind fun issued => ?_
  refine (outside.inSession _).bind fun borrower => ?_
  refine (Proc.stateless_expect _ _).keeps.bind fun dueDate => ?_
  refine (Proc.keeps_update (outside.added _)).bind fun _ => ?_
  refine (outside.saveCopy _ _).bind fun _ => ?_
  refine (outside.saveUser _).bind fun _ => ?_
  refine (Proc.keeps_update (outside.added _)).bind fun _ => ?_
  exact (Proc.stateless_pure _).keeps

private theorem issueWritten_ok {after : Station} {written : CirculationRecord × BookCopy}
    (clean : station.dirty = false) (locked : fails .lockCopy = false)
    (succeeded : issueWritten fails request now station = (.ok written, after)) :
    IssueReaches fails request now station.pending := by
  obtain ⟨found, loaded, got, ran⟩ := Proc.bind_eq_ok_iff.mp succeeded
  cases stored : station.pending.users.get? request.userId with
  | none =>
      rw [getUser_unknown fails stored] at got
      split at got
      · cases got
      · cases got
        cases ran
  | some row =>
      obtain ⟨session, live, loads, unchanged, stands⟩ := getUser_known fails clean stored
      rw [loads] at got
      split at got
      · cases got
      next loadUser =>
      cases got
      rw [Proc.expect_some_bind_apply] at ran
      obtain ⟨eligible, ran⟩ := Proc.ok_of_check ran
      rw [Proc.read_bind_apply] at ran
      obtain ⟨copy, foundCopy, ran⟩ := Proc.ok_of_expect ran
      obtain ⟨takes, ran⟩ := Proc.ok_of_check ran
      obtain ⟨issued, accepted, ran⟩ := Proc.ok_of_lift ran
      rw [inSession_bind_apply] at ran
      obtain ⟨dueDate, due, ran⟩ := Proc.ok_of_expect ran
      rw [Proc.update_bind_apply] at ran
      obtain ⟨_, copied, copies, ran⟩ := Proc.bind_eq_ok_iff.mp ran
      obtain ⟨_, saved, saves, ran⟩ := Proc.bind_eq_ok_iff.mp ran
      obtain ⟨rfl, saveCopy⟩ := saveCopy_ok copies
      obtain ⟨rfl, saveUser, reloadUser⟩ := saveUser_ok saves
      exact {
        runs := by simp [locked, loadUser, saveCopy (Station.dirty_add _),
          saveUser (Station.dirty_add _), reloadUser]
        eligible := ⟨row, stored, stands.canBorrow ▸ eligible⟩
        takes := ⟨copy, foundCopy, takes, issued, accepted⟩
        due := by rw [due]; rfl }

private theorem issueWritten_of_reaches (clean : station.dirty = false)
    (reaches : IssueReaches fails request now station.pending) :
    ∃ written after, issueWritten fails request now station = (.ok written, after) := by
  obtain ⟨runs, ⟨model, foundUser, eligible⟩, ⟨copy, foundCopy, takes, issued, accepted⟩, due⟩ :=
    reaches
  obtain ⟨dueDate, due⟩ := Option.isSome_iff_exists.mp due
  obtain ⟨session, live, loads, unchanged, stands⟩ := getUser_known fails clean foundUser
  simp only [List.forall_mem_cons, List.not_mem_nil, false_implies, implies_true, and_true] at runs
  obtain ⟨_, loadUser, saveCopy, saveUser, reloadUser⟩ := runs
  rw [← stands.canBorrow] at eligible
  unfold issueWritten
  rw [Proc.bind_apply, loads]
  simp only [loadUser, Bool.false_eq_true, ↓reduceIte, Proc.expect_some_bind_apply, eligible,
    Proc.check_true_bind_apply, Proc.read_bind_apply, foundCopy, takes, accepted,
    Proc.lift_ok_bind_apply, inSession_bind_apply, due, Proc.update_bind_apply,
    saveCopy_bind_apply saveCopy, saveUser_bind_apply saveUser reloadUser]
  exact ⟨_, _, rfl⟩

private theorem appendDate_ne {κ : Type} [DecidableEq κ] (dates : Dict κ (List Nat)) (key : κ)
    (date : Nat) : appendDate dates key date ≠ dates := by
  intro same
  have found : (appendDate dates key date).get? key = some ((dates.get? key).getD [] ++ [date]) :=
    Dict.get?_set_self _ _ _
  rw [same] at found
  rw [found, Option.getD_some] at found
  simp at found

/-- The forecaster does not forget, so a checkout it was told of shows. -/
theorem recordCheckout_ne (issued : BookCopy) (locals : Locals) :
    recordCheckout request now issued locals ≠ locals := by
  intro same
  have forecaster := congrArg (fun locals => locals.forecaster.borrowHistoryDates) same
  exact appendDate_ne _ _ _ forecaster

private theorem issueSection_tables :
    (issueSection fails request now station).2.tables = station.tables := by
  have keeps : Proc.Keeps Station.tables (issueSection fails request now) := by
    refine Proc.Keeps.bind (issueWritten_keeps ⟨fun _ => rfl, fun _ _ => rfl, fun _ _ => rfl⟩)
      fun (record, issued) => ?_
    refine Proc.Keeps.bind (Proc.keeps_update fun _ => rfl) fun _ => ?_
    refine (attempt_keeps _).bind fun _ => ?_
    refine Proc.Keeps.bind (Proc.keeps_update fun _ => rfl) fun _ => ?_
    exact (Proc.stateless_pure _).keeps
  exact keeps station

private theorem issueSection_locals_iff (clean : station.dirty = false)
    (locked : fails .lockCopy = false) :
    (issueSection fails request now station).2.locals = station.locals ↔
      ¬ IssueReaches fails request now station.pending := by
  have kept := @issueWritten_keeps fails request now _ Station.locals
    ⟨fun _ => rfl, fun _ _ => rfl, fun _ _ => rfl⟩ station
  have closing : ∀ record issued, Proc.Keeps Station.locals (attempt fails .invalidate >>= fun _ =>
      Proc.update (Station.invalidate issued.bookIsbn) >>= fun _ =>
        (pure (record, issued) : StationCall (CirculationRecord × BookCopy))) := by
    intro record issued
    refine (attempt_keeps _).bind fun _ => ?_
    refine Proc.Keeps.bind (Proc.keeps_update fun _ => rfl) fun _ => ?_
    exact (Proc.stateless_pure _).keeps
  unfold issueSection
  rw [Proc.bind_apply]
  rcases ran : issueWritten fails request now station with ⟨outcome, between⟩
  rw [ran] at kept
  cases outcome with
  | error failure =>
      refine iff_of_true kept fun reaches => ?_
      obtain ⟨written, after, succeeded⟩ := issueWritten_of_reaches clean reaches
      cases ran.symm.trans succeeded
  | ok written =>
      refine iff_of_false ?_ fun stopped => stopped (issueWritten_ok clean locked ran)
      obtain ⟨record, issued⟩ := written
      intro same
      have told := closing record issued (between.inLocals (recordCheckout request now issued))
      rw [← kept] at same
      exact recordCheckout_ne issued between.locals (told.symm.trans same)

private theorem issuePhysicalBook_outcome :
    (Station.issuePhysicalBook fails request now station).1 =
      (lockingSection fails request.copyId (issueSection fails request now) station).1.map
        Prod.fst := by
  unfold Station.issuePhysicalBook
  rw [Proc.bind_apply]
  rcases lockingSection fails request.copyId (issueSection fails request now) station with
    ⟨outcome, between⟩
  cases outcome <;> rfl

private theorem issuePhysicalBook_error {after : Station} {failure : Failure}
    (raised : Station.issuePhysicalBook fails request now station = (.error failure, after)) :
    lockingSection fails request.copyId (issueSection fails request now) station =
      (.error failure, after) := by
  unfold Station.issuePhysicalBook at raised
  rw [Proc.bind_apply] at raised
  rcases ran : lockingSection fails request.copyId (issueSection fails request now) station with
    ⟨outcome, between⟩
  rw [ran] at raised
  cases outcome with
  | error error =>
      cases raised
      rfl
  | ok written => cases raised

private theorem issue_noTrace_iff {after : Station} {failure : Failure}
    (raised : Station.issuePhysicalBook fails request now station = (.error failure, after)) :
    NoTrace (fun fails => Station.issuePhysicalBook fails request now) station after ↔
      ¬ IssueReaches fails request now station.tables := by
  have respects : ∀ fails, Proc.Respects Alike (issueSection fails request now) :=
    fun fails => issueSection_respects request now
  refine noTrace_iff_of_section respects (issuePhysicalBook_error raised) ?_ issueSection_tables
    (issueSection_locals_iff rfl) ?_
  · intro fails other same
    rw [issuePhysicalBook_outcome, issuePhysicalBook_outcome, same]
  · intro stops reaches
    obtain ⟨copy, found, _⟩ := reaches.takes
    exact stops ⟨reaches.runs _ (by simp), Option.isSome_iff_exists.mpr ⟨copy, found⟩⟩

end Issuing

section Returning

variable {fails : DatabaseStep → Bool} {request : ReturnRequest} {now : Datetime}
  {station : Station}

private theorem returnWritten_keeps {τ : Type} {view : Station → τ} (outside : Outside view) :
    Proc.Keeps view (returnWritten fails request now) := by
  refine (Proc.keeps_read _).bind fun foundCopy => ?_
  refine (Proc.stateless_expect _ _).keeps.bind fun copy => ?_
  refine (Proc.stateless_check _ _).keeps.bind fun _ => ?_
  refine (outside.getUser _).bind fun found => ?_
  refine Proc.Keeps.bind ?_ fun _ => ?_
  · cases found with
    | none => exact (Proc.stateless_pure _).keeps
    | some user => exact (outside.inSession _).bind fun closed => outside.saveUser closed
  · refine (Proc.stateless_lift _ _).keeps.bind fun returned => ?_
    refine (outside.saveCopy _ _).bind fun _ => ?_
    exact (Proc.stateless_pure _).keeps

private theorem returnWritten_ok {after : Station} {borrowerId : String} {returned : BookCopy}
    (clean : station.dirty = false) (locked : fails .lockCopy = false)
    (succeeded : returnWritten fails request now station = (.ok (borrowerId, returned), after)) :
    ∃ copy, station.pending.copies.get? request.copyId = some copy ∧
      ReturnReaches fails station.pending copy ∧ returned.bookIsbn = copy.bookIsbn := by
  unfold returnWritten at succeeded
  rw [Proc.read_bind_apply] at succeeded
  obtain ⟨copy, foundCopy, ran⟩ := Proc.ok_of_expect succeeded
  obtain ⟨lent, ran⟩ := Proc.ok_of_check ran
  obtain ⟨found, loaded, got, ran⟩ := Proc.bind_eq_ok_iff.mp ran
  obtain ⟨_, closed, saving, ran⟩ := Proc.bind_eq_ok_iff.mp ran
  obtain ⟨final, accepted, ran⟩ := Proc.ok_of_lift ran
  obtain ⟨_, kept, keeping, ran⟩ := Proc.bind_eq_ok_iff.mp ran
  cases ran
  refine ⟨copy, foundCopy, ?_, (BookCopy.sameCopy_returnBook accepted).bookIsbn⟩
  obtain ⟨rfl, saveCopy⟩ := saveCopy_ok keeping
  cases stored : station.pending.users.get? (copy.currentBorrowerId.getD "") with
  | none =>
      rw [getUser_unknown fails stored] at got
      split at got
      · cases got
      next loadUser =>
      exact {
        runs := by simp [locked, loadUser]
        lent := lent
        comesBack := ⟨_, accepted⟩
        saved := fun known => by simp [stored] at known }
  | some row =>
      obtain ⟨session, live, loads, unchanged, stands⟩ := getUser_known fails clean stored
      rw [loads] at got
      split at got
      · cases got
      next loadUser =>
      cases got
      rw [saveReturned_some_apply] at saving
      obtain ⟨rfl, _, reloadUser⟩ := saveUser_ok saving
      exact {
        runs := by simp [locked, loadUser]
        lent := lent
        comesBack := ⟨_, accepted⟩
        saved := fun _ => ⟨reloadUser, saveCopy (Station.dirty_mergeUser _)⟩ }

private theorem returnWritten_of_reaches {copy : BookCopy} (clean : station.dirty = false)
    (found : station.pending.copies.get? request.copyId = some copy)
    (reaches : ReturnReaches fails station.pending copy) :
    ∃ written after, returnWritten fails request now station = (.ok written, after) := by
  obtain ⟨runs, lent, ⟨returned, accepted⟩, saved⟩ := reaches
  have loadUser : fails .loadUser = false := runs _ (by simp)
  unfold returnWritten
  simp only [Proc.read_bind_apply, found, Proc.expect_some_bind_apply, lent,
    Proc.check_true_bind_apply, accepted]
  rw [Proc.bind_apply]
  cases known : station.pending.users.get? (copy.currentBorrowerId.getD "") with
  | none =>
      have saves : saveCopy fails .saveCopy returned station =
          (.ok (), station.flushed.add (.copy returned)) := by
        rw [saveCopy_apply, clean]
        rfl
      rw [getUser_unknown fails known, if_neg (by simp [loadUser])]
      dsimp only [saveReturned]
      rw [Proc.pure_bind_apply, Proc.lift_ok_bind_apply, Proc.bind_apply, saves]
      exact ⟨_, _, rfl⟩
  | some model =>
      obtain ⟨reloadUser, saveCopy⟩ := saved (by rw [known]; rfl)
      obtain ⟨session, live, loads, unchanged, _⟩ := getUser_known fails clean known
      have loaded : Station.dirty { station with session := session } = false :=
        Station.clean_iff.mpr ⟨(Station.clean_iff.mp clean).1, unchanged⟩
      rw [loads, if_neg (by simp [loadUser])]
      dsimp only
      rw [Proc.bind_apply, saveReturned_runs loaded reloadUser]
      dsimp only
      rw [Proc.lift_ok_bind_apply, saveCopy_bind_apply saveCopy]
      exact ⟨_, _, rfl⟩

private theorem offerLocally_vacant {isbn : String} (copyId : String) (now : Datetime)
    (vacant : station.locals.reservationMgr.queue isbn = []) :
    offerLocally isbn copyId now station = (.ok none, station) := by
  unfold offerLocally ReservationManager.handleCopyReturned
  rw [if_pos vacant]
  rfl

private theorem offerLocally_manager (isbn copyId : String) (now : Datetime) (station : Station) :
    (offerLocally isbn copyId now station).2.locals.reservationMgr =
      (station.locals.reservationMgr.handleCopyReturned isbn copyId now).2 := by
  unfold offerLocally
  rcases station.locals.reservationMgr.handleCopyReturned isbn copyId now with ⟨outcome, manager⟩
  cases outcome with
  | error error => rfl
  | ok assigned => cases assigned <;> rfl

/-- With nobody waiting, the audit entry is all that a return leaves in memory. -/
theorem returnSettled_locals_iff (borrowerId : String) (returned : BookCopy) :
    (returnSettled fails request now borrowerId returned none station).2.locals = station.locals ↔
      fails .invalidate = true := by
  unfold returnSettled holdRow attempt
  rw [Proc.pure_bind_apply, Proc.update_bind_apply]
  cases fails .invalidate with
  | true => exact iff_of_true rfl rfl
  | false =>
      refine iff_of_false ?_ (by simp)
      intro same
      have audit := congrArg (fun locals => locals.audit.length) same
      exact absurd audit (Nat.ne_of_gt (by
        change station.locals.audit.length < (station.locals.audit ++ [_]).length
        simp))

/-- A return that gets to the queue finds nobody there and stops before its audit
entry. -/
def ReturnHidden (fails : DatabaseStep → Bool) (request : ReturnRequest) (tables : Tables)
    (manager : ReservationManager) : Prop :=
  ∀ copy, tables.copies.get? request.copyId = some copy → ReturnReaches fails tables copy →
    manager.queue copy.bookIsbn = [] ∧ fails .invalidate = true

private theorem returnSection_locals_iff (clean : station.dirty = false)
    (locked : fails .lockCopy = false) :
    (returnSection fails request now station).2.locals = station.locals ↔
      ReturnHidden fails request station.pending station.locals.reservationMgr := by
  have kept := @returnWritten_keeps fails request now _ Station.locals
    ⟨fun _ => rfl, fun _ _ => rfl, fun _ _ => rfl⟩ station
  unfold returnSection
  rw [Proc.bind_apply]
  rcases ran : returnWritten fails request now station with ⟨outcome, between⟩
  rw [ran] at kept
  cases outcome with
  | error failure =>
      refine iff_of_true kept fun copy found reaches => ?_
      obtain ⟨written, after, succeeded⟩ := returnWritten_of_reaches clean found reaches
      cases ran.symm.trans succeeded
  | ok written =>
      obtain ⟨borrowerId, returned⟩ := written
      obtain ⟨copy, found, reaches, isbn⟩ := returnWritten_ok clean locked ran
      have hidden : ReturnHidden fails request station.pending station.locals.reservationMgr ↔
          station.locals.reservationMgr.queue copy.bookIsbn = [] ∧ fails .invalidate = true := by
        constructor
        · intro hidden
          exact hidden copy found reaches
        · intro hidden other same _
          cases found.symm.trans same
          exact hidden
      rw [hidden, ← kept, ← isbn]
      dsimp only
      by_cases vacant : between.locals.reservationMgr.queue returned.bookIsbn = []
      · rw [Proc.bind_apply, offerLocally_vacant _ _ vacant]
        dsimp only
        rw [returnSettled_locals_iff, and_iff_right vacant]
      · refine iff_of_false ?_ fun hidden => vacant hidden.1
        intro same
        have asked := offerLocally_manager returned.bookIsbn request.copyId now between
        rw [Proc.bind_apply] at same
        rcases offered : offerLocally returned.bookIsbn request.copyId now between with
          ⟨outcome, asks⟩
        rw [offered] at same asked
        have manager : asks.locals.reservationMgr = between.locals.reservationMgr := by
          cases outcome with
          | error failure => exact congrArg Locals.reservationMgr same
          | ok assigned =>
              have settled := @returnSettled_keeps fails _
                (fun station => station.locals.reservationMgr) request now borrowerId returned
                assigned (fun _ => rfl) (fun _ _ => rfl) (fun _ _ => rfl) (fun _ _ => rfl)
                (fun _ _ _ _ _ => rfl) asks
              exact settled.symm.trans (congrArg Locals.reservationMgr same)
        exact ReservationManager.handleCopyReturned_ne _ _ _ vacant (asked.symm.trans manager)

private theorem returnSection_tables :
    (returnSection fails request now station).2.tables = station.tables := by
  have keeps : Proc.Keeps Station.tables (returnSection fails request now) := by
    refine Proc.Keeps.bind (returnWritten_keeps ⟨fun _ => rfl, fun _ _ => rfl, fun _ _ => rfl⟩)
      fun (borrowerId, returned) => ?_
    refine Proc.Keeps.bind (offerLocally_keeps (fun _ _ => rfl) _ _ _) fun assigned => ?_
    exact returnSettled_keeps (fun _ => rfl) (fun _ _ => rfl) (fun _ _ => rfl) (fun _ _ => rfl)
      fun _ _ _ _ _ => rfl
  exact keeps station

private theorem return_noTrace_iff {after : Station} {failure : Failure}
    (raised : Station.returnPhysicalBook fails request now station = (.error failure, after)) :
    NoTrace (fun fails => Station.returnPhysicalBook fails request now) station after ↔
      ReturnHidden fails request station.tables station.locals.reservationMgr := by
  have respects : ∀ fails, Proc.Respects Alike (returnSection fails request now) :=
    fun fails => returnSection_respects request now
  refine noTrace_iff_of_section respects raised (fun _ _ same => same) returnSection_tables
    (returnSection_locals_iff rfl) ?_
  intro stops copy found reaches
  exact absurd ⟨reaches.runs _ (by simp), Option.isSome_iff_exists.mpr ⟨copy, found⟩⟩ stops

end Returning

/-- A checkout that raises leaves no trace exactly when it has not told the
forecaster, and a return exactly when it has neither taken a waiter from the queue
nor written its audit entry. -/
theorem raised_noTrace_iff (fails : DatabaseStep → Bool) (now : Datetime) (station : Station) :
    (∀ request failure after,
      Station.issuePhysicalBook fails request now station = (.error failure, after) →
        (NoTrace (fun fails => Station.issuePhysicalBook fails request now) station after ↔
          ¬ IssueReaches fails request now station.tables)) ∧
    (∀ request failure after,
      Station.returnPhysicalBook fails request now station = (.error failure, after) →
        (NoTrace (fun fails => Station.returnPhysicalBook fails request now) station after ↔
          ReturnHidden fails request station.tables station.locals.reservationMgr)) := by
  constructor
  · intro request failure after raised
    exact issue_noTrace_iff raised
  · intro request failure after raised
    exact return_noTrace_iff raised

/-- The only operation that fails. -/
def failsAt (broken step : DatabaseStep) : Bool := decide (step = broken)

private theorem exists_raised {α : Type} {call : StationCall α} {station : Station}
    (raised : (call station).1.isOk = false) :
    ∃ failure after, call station = (.error failure, after) := by
  rcases ran : call station with ⟨outcome, after⟩
  rw [ran] at raised
  cases outcome with
  | ok value => cases raised
  | error failure => exact ⟨failure, after, rfl⟩

/-- A second reader waits for the lent title. -/
def awaitedStation : Station :=
  (lentStation []).inLocals fun locals =>
    { locals with
      reservationMgr := (locals.reservationMgr.reserveBook "B1" "U2" 0 "R1" .min).2 }

def secondLoan : IssueRequest :=
  { copyId := "C2", userId := "U1", transactionId := "TX1", eventId := "E2" }

/-- The update of the copy fails, and with it the checkout; the flush before the commit
fails after the forecaster was told; the update of the borrower fails while a waiter is
still in the queue. -/
theorem raised_noTrace_iff_flushes :
    (∃ failure after, Station.issuePhysicalBook (failsAt .saveUser) secondLoan .min
        (lentStation []) = (.error failure, after) ∧
      NoTrace (fun fails => Station.issuePhysicalBook fails secondLoan .min) (lentStation [])
        after) ∧
    (∃ failure after, Station.issuePhysicalBook (failsAt .flush) secondLoan .min
        (lentStation []) = (.error failure, after) ∧
      ¬ NoTrace (fun fails => Station.issuePhysicalBook fails secondLoan .min) (lentStation [])
        after) ∧
    ∃ failure after, Station.returnPhysicalBook (failsAt .saveCopy) lateReturn .min
        awaitedStation = (.error failure, after) ∧
      NoTrace (fun fails => Station.returnPhysicalBook fails lateReturn .min) awaitedStation
        after := by
  have reader : (lentStation []).tables.users.get? "U1" = some (readerRow []) := by
    decide +kernel
  refine ⟨?_, ?_, ?_⟩
  · obtain ⟨failure, after, raised⟩ := @exists_raised _ (Station.issuePhysicalBook
      (failsAt .saveUser) secondLoan .min) (lentStation []) (by decide +kernel)
    refine ⟨failure, after, raised, ?_⟩
    refine ((raised_noTrace_iff (failsAt .saveUser) .min (lentStation [])).1 secondLoan failure
      after raised).mpr fun reaches => ?_
    exact absurd (reaches.runs .saveUser (by simp)) (by decide)
  · obtain ⟨failure, after, raised⟩ := @exists_raised _ (Station.issuePhysicalBook
      (failsAt .flush) secondLoan .min) (lentStation []) (by decide +kernel)
    refine ⟨failure, after, raised, fun clean => ?_⟩
    refine ((raised_noTrace_iff (failsAt .flush) .min (lentStation [])).1 secondLoan failure
      after raised).mp clean ?_
    exact {
      runs := by decide
      eligible := ⟨readerRow [], reader, by decide +kernel⟩
      takes := ⟨.new "C2" "B1" "DELHI" "A1-01" 500, by decide +kernel, by decide, _, rfl⟩
      due := by decide +kernel }
  · obtain ⟨failure, after, raised⟩ := @exists_raised _ (Station.returnPhysicalBook
      (failsAt .saveCopy) lateReturn .min) awaitedStation (by decide +kernel)
    refine ⟨failure, after, raised, ?_⟩
    refine ((raised_noTrace_iff (failsAt .saveCopy) .min awaitedStation).2 lateReturn failure
      after raised).mpr fun copy held reaches => ?_
    have lent : awaitedStation.tables.copies.get? "C1" = some lentRow := by decide +kernel
    cases lent.symm.trans held
    have known : (awaitedStation.tables.users.get? (lentRow.currentBorrowerId.getD "")).isSome =
        true := by decide +kernel
    exact absurd (reaches.saved known).2 (by decide)

/-- The commit of a return fails: the waiter has lost the place in the queue, so the
return that follows leaves the copy to nobody. -/
theorem failed_commit_loses_waiter :
    ∃ failure after, Station.returnPhysicalBook (failsAt .commit) lateReturn .min
        awaitedStation = (.error failure, after) ∧
      ¬ NoTrace (fun fails => Station.returnPhysicalBook fails lateReturn .min) awaitedStation
        after := by
  obtain ⟨failure, after, raised⟩ := @exists_raised _ (Station.returnPhysicalBook
    (failsAt .commit) lateReturn .min) awaitedStation (by decide +kernel)
  have lost : (Station.returnPhysicalBook (failsAt .commit) lateReturn .min
      awaitedStation).2.locals.reservationMgr.queue "B1" ≠
        awaitedStation.locals.reservationMgr.queue "B1" := by decide +kernel
  rw [raised] at lost
  refine ⟨failure, after, raised, fun clean => lost ?_⟩
  rw [clean.locals]

end LibraFlow.Postgres
