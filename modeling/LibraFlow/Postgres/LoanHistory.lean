import LibraFlow.Container.Outcomes
import LibraFlow.Postgres.Circulation

/-! The loan history that a return leaves in the database. The return changes an entry
object in place, but the row that the user is merged into has been loaded again, so the
flush sees that the history has changed. -/

set_option autoImplicit false

namespace LibraFlow.Postgres

open LibraFlow.Core LibraFlow.Library LibraFlow.Storage LibraFlow.Patterns LibraFlow.Container
  LibraFlow.Services

/-- A view of what a transaction does not work on. -/
structure Outside {τ : Type} (view : Station → τ) : Prop where
  flushed : ∀ station, view station.flushed = view station
  added : ∀ write station, view (Station.add write station) = view station
  session : ∀ session station, view { station with session := session } = view station

section Keeping

variable {fails : DatabaseStep → Bool} {τ : Type} {view : Station → τ}

theorem attempt_keeps (step : DatabaseStep) : Proc.Keeps view (attempt fails step) :=
  (Proc.stateless_check _ _).keeps

theorem flush_keeps (flushed : ∀ station, view station.flushed = view station)
    (step : DatabaseStep) : Proc.Keeps view (flush fails step) := by
  intro station
  rw [flush_apply]
  split
  · rfl
  · exact flushed station

theorem Outside.saveCopy (outside : Outside view) (step : DatabaseStep) (copy : BookCopy) :
    Proc.Keeps view (saveCopy fails step copy) :=
  (flush_keeps outside.flushed step).bind fun _ => Proc.keeps_update (outside.added _)

theorem Outside.saveUser (outside : Outside view) (user : LiveUser) :
    Proc.Keeps view (saveUser fails user) := by
  refine (flush_keeps outside.flushed _).bind fun _ => ?_
  exact (attempt_keeps _).bind fun _ => Proc.keeps_update fun station => outside.session _ station

theorem Outside.inSession {α : Type} (outside : Outside view)
    (change : UserSession → UserSession × α) : Proc.Keeps view (inSession change) :=
  fun station => outside.session _ station

theorem Outside.getUser (outside : Outside view) (userId : String) :
    Proc.Keeps view (getUser fails userId) := by
  refine (attempt_keeps _).bind fun _ => ?_
  exact (Proc.keeps_read _).bind fun _ => outside.inSession _

theorem offerLocally_keeps (locals : ∀ change station,
    view (Station.inLocals change station) = view station) (isbn copyId : String)
    (now : Datetime) : Proc.Keeps view (offerLocally isbn copyId now) := by
  intro station
  unfold offerLocally
  split <;>
  · dsimp only
    exact locals _ station

/-- The rest of a return keeps what neither a flush nor a row of the copy or the outbox
changes. -/
theorem returnSettled_keeps {request : ReturnRequest} {now : Datetime} {borrowerId : String}
    {returned : BookCopy} {assigned : Option ReservationEntry}
    (flushed : ∀ station, view station.flushed = view station)
    (copy : ∀ row station, view (Station.add (.copy row) station) = view station)
    (event : ∀ event station, view (Station.add (.event event) station) = view station)
    (cache : ∀ isbn station, view (Station.invalidate isbn station) = view station)
    (audit : ∀ timestamp actorId resourceId details station,
      view (Station.inLocals (Locals.logEvent timestamp actorId resourceId details) station) =
        view station) :
    Proc.Keeps view (returnSettled fails request now borrowerId returned assigned) := by
  refine Proc.Keeps.bind ?_ fun final => ?_
  · cases assigned with
    | none => exact (Proc.stateless_pure _).keeps
    | some entry =>
        refine (Proc.stateless_lift _ _).keeps.bind fun held => ?_
        refine Proc.Keeps.bind ?_ fun _ => (Proc.stateless_pure _).keeps
        exact (flush_keeps flushed _).bind fun _ => Proc.keeps_update (copy _)
  · refine (Proc.keeps_update (event _)).bind fun _ => ?_
    refine (attempt_keeps _).bind fun _ => ?_
    refine (Proc.keeps_update (cache _)).bind fun _ => ?_
    refine (Proc.keeps_update (audit _ _ _ _)).bind fun _ => ?_
    exact (Proc.stateless_pure _).keeps

end Keeping

section UserRows

/-- The user rows once the changes of the session are flushed. -/
def Station.userRows (station : Station) : Table User.userId := station.flushed.pending.users

private theorem userRows_add {write : Write} (aside : ∀ tables : Tables,
    (tables.apply write).users = tables.users) (station : Station) :
    (station.add write).userRows = station.userRows := by
  have kept : (station.pending.commit (station.unflushed ++ [write])).users =
      (station.pending.commit station.unflushed).users := by
    rw [Tables.commit, List.foldl_append]
    exact aside _
  exact congrArg station.session.flush kept

private theorem userRows_flushed (station : Station) :
    station.flushed.userRows = station.userRows := by
  rw [Station.userRows, Station.flushed_flushed, Station.userRows]

variable {fails : DatabaseStep → Bool} {request : ReturnRequest} {now : Datetime}
  {station after : Station}

private theorem lockingSection_ok {α : Type} {copyId : String} {body : StationCall α} {value : α}
    (succeeded : lockingSection fails copyId body station = (.ok value, after)) :
    ∃ done, body station.opened = (.ok value, done) ∧ after.tables = done.flushed.pending := by
  unfold lockingSection at succeeded
  split at succeeded
  · next result done ran =>
      cases succeeded
      obtain ⟨_, ran⟩ := Proc.ok_of_check ran
      rw [Proc.read_bind_apply] at ran
      obtain ⟨row, _, ran⟩ := Proc.ok_of_expect ran
      obtain ⟨value, between, body, ran⟩ := Proc.bind_eq_ok_iff.mp ran
      obtain ⟨_, sent, flush, ran⟩ := Proc.bind_eq_ok_iff.mp ran
      obtain ⟨_, ran⟩ := Proc.ok_of_check ran
      cases ran
      rw [flush_apply] at flush
      split at flush
      · cases flush
      · cases flush
        exact ⟨_, body, rfl⟩
  · cases succeeded

theorem saveUser_ok {user : LiveUser}
    (succeeded : saveUser fails user station = (.ok (), after)) :
    after = station.flushed.mergeUser user ∧ (station.dirty = true → fails .saveUser = false) ∧
      fails .reloadUser = false := by
  rw [saveUser_apply] at succeeded
  split at succeeded
  · cases succeeded
  · next sent =>
      split at succeeded
      · cases succeeded
      · next reloads =>
          cases succeeded
          exact ⟨rfl, fun dirty => by simpa [dirty] using sent, by simpa using reloads⟩

theorem saveCopy_ok {step : DatabaseStep} {copy : BookCopy}
    (succeeded : saveCopy fails step copy station = (.ok (), after)) :
    after = station.flushed.add (.copy copy) ∧ (station.dirty = true → fails step = false) := by
  rw [saveCopy_apply] at succeeded
  split at succeeded
  · cases succeeded
  · next sent =>
      cases succeeded
      exact ⟨rfl, fun dirty => by simpa [dirty] using sent⟩

theorem getUser_known (fails : DatabaseStep → Bool) {userId : String} {row : User}
    (clean : station.dirty = false) (stored : station.pending.users.get? userId = some row) :
    ∃ session live, getUser fails userId station =
        (if fails .loadUser then (.error none, station)
          else (.ok (some live), { station with session := session })) ∧
      session.changed = none ∧ StandsFor session.objects live (modelToUser row) := by
  have unchanged := (Station.clean_iff.mp clean).2
  obtain ⟨live, loads, stands⟩ := @UserSession.getUser_standsFor station.session row unchanged
  refine ⟨{ station.session with objects := station.session.objects.allocAll row.borrowHistory },
    live, ?_, unchanged, stands⟩
  rw [getUser_apply, stored, inSession, loads]

theorem getUser_unknown (fails : DatabaseStep → Bool) {userId : String}
    (nobody : station.pending.users.get? userId = none) :
    getUser fails userId station =
      if fails .loadUser then (.error none, station) else (.ok none, station) := by
  rw [getUser_apply, nobody]
  rfl

theorem dirty_recordReturn (clean : station.dirty = false) (live : LiveUser) {copyId : String}
    {isLate isDamaged : Bool} :
    Station.dirty { station with
      session := (station.session.recordReturn live copyId isLate isDamaged now).1 } = false := by
  obtain ⟨sent, unchanged⟩ := Station.clean_iff.mp clean
  exact Station.clean_iff.mpr
    ⟨sent, (UserSession.changed_recordReturn live copyId isLate isDamaged now).trans unchanged⟩

theorem saveReturned_runs (clean : station.dirty = false) (reloads : fails .reloadUser = false)
    (live : LiveUser) :
    let closing := station.session.recordReturn live request.copyId request.isLate
      request.isDamaged now
    saveReturned fails request now (some live) station =
      (.ok (), Station.mergeUser closing.2 { station with session := closing.1 }) := by
  have nothing := @dirty_recordReturn now station clean live request.copyId request.isLate
    request.isDamaged
  dsimp only
  rw [saveReturned_some_apply, saveUser_apply, nothing, Bool.false_and, reloads,
    Station.flushed_of_clean nothing]
  rfl

/-- After the rows are written, the borrower is saved with the changed entry. -/
theorem returnWritten_userRows {copy : BookCopy} {row : User} {written : String × BookCopy}
    (clean : station.dirty = false) (held : station.pending.copies.get? request.copyId = some copy)
    (borrower : copy.currentBorrowerId = some row.userId)
    (found : station.pending.users.get? row.userId = some row)
    (succeeded : returnWritten fails request now station = (.ok written, after)) :
    after.userRows = station.pending.users.merge ((modelToUser row).recordReturn request.copyId
      request.isLate request.isDamaged now) := by
  unfold returnWritten at succeeded
  rw [Proc.read_bind_apply, held, Proc.expect_some_bind_apply, borrower] at succeeded
  obtain ⟨_, ran⟩ := Proc.ok_of_check succeeded
  obtain ⟨found?, loaded, got, ran⟩ := Proc.bind_eq_ok_iff.mp ran
  obtain ⟨session, live, loads, unchanged, stands⟩ := getUser_known fails clean found
  rw [Option.getD_some, loads] at got
  split at got
  · cases got
  cases got
  obtain ⟨_, saved, saving, ran⟩ := Proc.bind_eq_ok_iff.mp ran
  obtain ⟨returned, _, ran⟩ := Proc.ok_of_lift ran
  obtain ⟨_, kept, keeping, ran⟩ := Proc.bind_eq_ok_iff.mp ran
  cases ran
  obtain ⟨rfl, _⟩ := saveCopy_ok keeping
  have closed := stands.recordReturn request.copyId request.isLate request.isDamaged now
  have sent := (Station.clean_iff.mp clean).1
  have nothing := @dirty_recordReturn now { station with session := session }
    (Station.clean_iff.mpr ⟨sent, unchanged⟩) live request.copyId request.isLate request.isDamaged
  rw [saveReturned_some_apply] at saving
  obtain ⟨rfl, _⟩ := saveUser_ok saving
  rw [Station.flushed_of_clean nothing, userRows_add fun _ => rfl, userRows_flushed,
    Station.userRows]
  refine Eq.trans ?_ (closed.flush_merge (Station.clean_iff.mp nothing).2 station.pending.users)
  simp only [Station.flushed, Station.mergeUser, sent]
  rfl

/-- The row of the borrower that a return leaves. -/
theorem returned_row {receipt : ReturnReceipt} {copy : BookCopy} {row : User}
    (succeeded : Station.returnPhysicalBook fails request now station = (.ok receipt, after))
    (held : station.tables.copies.get? request.copyId = some copy)
    (borrower : copy.currentBorrowerId = some row.userId)
    (found : station.tables.users.get? row.userId = some row) :
    after.tables.users.get? row.userId = some
      ((modelToUser row).recordReturn request.copyId request.isLate request.isDamaged now) := by
  obtain ⟨done, ran, tables⟩ := lockingSection_ok succeeded
  obtain ⟨⟨borrowerId, returned⟩, written, first, ran⟩ := Proc.bind_eq_ok_iff.mp ran
  obtain ⟨assigned, offered, second, ran⟩ := Proc.bind_eq_ok_iff.mp ran
  have saved := @returnWritten_userRows _ _ _ station.opened _ _ _ _ rfl held borrower found first
  have asked := @offerLocally_keeps _ Station.userRows (fun _ _ => rfl) returned.bookIsbn
    request.copyId now written
  have settled := @returnSettled_keeps fails _ Station.userRows request now borrowerId returned
    assigned userRows_flushed (fun _ => userRows_add fun _ => rfl)
    (fun _ => userRows_add fun _ => rfl) (fun _ _ => rfl) (fun _ _ _ _ _ => rfl) offered
  rw [second] at asked
  rw [ran] at settled
  rw [tables]
  change done.userRows.get? row.userId = _
  rw [settled, asked, saved]
  exact Table.get?_merge_self _ _

end UserRows

section Reading

/-- The history that `get_user` shows in a new session. -/
def Station.history? (station : Station) (userId : String) : Option (List HistoryEntry) :=
  match getUser noFailure userId station.opened with
  | (.ok (some live), loaded) => some (entries loaded.session.objects live.history)
  | _ => none

theorem Station.history?_eq (station : Station) (userId : String) :
    station.history? userId = (station.tables.users.get? userId).map User.borrowHistory := by
  unfold history?
  rw [getUser_apply]
  have rows : station.opened.pending.users = station.tables.users := rfl
  rw [rows]
  cases station.tables.users.get? userId with
  | none => rfl
  | some row => exact congrArg some (entries_nextRefs .empty row.borrowHistory)

end Reading

section InMemory

variable {request : ReturnRequest} {now : Datetime} {state : State} {borrowerId : String}
  {ref : Ref} {copy : BookCopy}

/-- Once a return has passed its checks the loan is closed, whatever comes after. -/
theorem users_of_presented (presented : Presented request state borrowerId ref copy) :
    (Services.returnPhysicalBook request now state).2.users =
      closeLoan request borrowerId now state.users := by
  have offered : ∀ isbn, Proc.Keeps State.users (offerToQueue isbn request.copyId now) := by
    intro isbn state
    unfold offerToQueue
    split <;> rfl
  have named := presented.named
  rw [presented.borrower] at named
  unfold Services.returnPhysicalBook
  simp only [Proc.read_bind_apply, presented.held, Proc.expect_some_bind_apply,
    presented.borrower, named, Proc.check_true_bind_apply, Proc.update_bind_apply,
    Option.getD_some]
  refine Proc.Keeps.bind (Proc.stateless_lift _ _).keeps (fun returned => ?_)
    { state with users := closeLoan request borrowerId now state.users }
  refine Proc.Keeps.bind (Proc.keeps_update fun _ => rfl) fun _ => ?_
  refine Proc.Keeps.bind (Proc.keeps_update fun _ => rfl) fun _ => ?_
  refine (offered returned.bookIsbn).bind fun assigned => ?_
  refine Proc.Keeps.bind ?_ fun final => ?_
  · cases assigned with
    | none => exact (Proc.stateless_pure _).keeps
    | some entry =>
        refine (Proc.stateless_lift _ _).keeps.bind fun held => ?_
        refine Proc.Keeps.bind (Proc.keeps_update fun _ => rfl) fun _ => ?_
        exact Proc.Keeps.bind (Proc.keeps_update fun _ => rfl) fun _ =>
          (Proc.stateless_pure _).keeps
  · refine Proc.Keeps.bind (Proc.keeps_update fun _ => rfl) fun _ => ?_
    refine Proc.Keeps.bind (Proc.keeps_update fun _ => rfl) fun _ => ?_
    exact Proc.Keeps.bind (Proc.keeps_update fun _ => rfl) fun _ => (Proc.stateless_pure _).keeps

private theorem closeLoan_history {user : User} (known : state.users.get? user.userId = some user) :
    ((Services.closeLoan request user.userId now state.users).get? user.userId).map
        User.borrowHistory = some (User.closeLatest request.copyId request.isLate
      request.isDamaged now user.borrowHistory) := by
  rw [closeLoan, known]
  exact congrArg (Option.map User.borrowHistory) (Dict.get?_set_self _ _ _)

end InMemory

/-- After a return a new session shows the history in which the latest open loan of the
copy is closed: the one that the container in memory has, if its reader has the same
history and brings the copy back. -/
theorem returned_history (fails : DatabaseStep → Bool) (request : ReturnRequest)
    (now : Datetime) {station after : Station} {receipt : ReturnReceipt} {copy : BookCopy}
    {row : User}
    (succeeded : Station.returnPhysicalBook fails request now station = (.ok receipt, after))
    (held : station.tables.copies.get? request.copyId = some copy)
    (borrower : copy.currentBorrowerId = some row.userId)
    (found : station.tables.users.get? row.userId = some row) :
    ∃ history, after.history? row.userId = some history ∧
      User.ClosesLatest request.copyId request.isLate request.isDamaged now row.borrowHistory
        history ∧
      ∀ (state : State) (ref : Ref) (kept : BookCopy) (user : User),
        Presented request state row.userId ref kept →
        state.users.get? row.userId = some user → user.userId = row.userId →
        user.borrowHistory = row.borrowHistory →
        ((Services.returnPhysicalBook request now state).2.users.get? row.userId).map
          User.borrowHistory = some history := by
  refine ⟨User.closeLatest request.copyId request.isLate request.isDamaged now row.borrowHistory,
    ?_, User.closesLatest_closeLatest _ _ _ _ _, ?_⟩
  · rw [Station.history?_eq, returned_row succeeded held borrower found]
    rfl
  · intro state ref kept user presented known identity same
    rw [users_of_presented presented, ← identity, ← same]
    exact closeLoan_history (by rw [identity]; exact known)

/-- The copy that is lent, the reader who has it, and her return. -/
def lentRow : BookCopy :=
  { BookCopy.new "C1" "B1" "DELHI" "A1-01" 500 with
    status := .issued, currentBorrowerId := some "U1", borrowCount := 1 }

def readerRow (history : List HistoryEntry) : User :=
  { User.new { userId := "U1", name := "N", email := "E", passwordHash := "H" } 4
      (.student 1 "Computer Science" none) with
    activeBorrowedCopyIds := {"C1"}, borrowHistory := history }

def lateReturn : ReturnRequest := { copyId := "C1", isLate := true, eventId := "E1" }

def lentStation (history : List HistoryEntry) : Station where
  tables := { smallLibrary with
    copies := smallLibrary.copies.merge lentRow
    users := smallLibrary.users.merge (readerRow history) }
  pending := smallLibrary
  session := .empty
  unflushed := []
  cache := fun _ => none
  locals := ⟨.empty, [], .empty, .empty, []⟩

/-- Two open loans of the copy, and one of another. -/
def pastLoans : List HistoryEntry :=
  [User.openLoan "C1" "B1" .min, User.openLoan "C1" "B1" .min, User.openLoan "C2" "B1" .min]

/-- The same reader and the same copy in the container in memory. -/
def lentState (history : List HistoryEntry) : State :=
  { State.empty .empty .empty with
    bookRepo := ⟨.empty, Dict.empty.set "C1" 0, ⟨[lentRow]⟩⟩
    users := Dict.empty.set "U1" (readerRow history) }

/-- The return closes the second of three loans, as it does in memory. -/
theorem returned_history_pastLoans :
    ∃ receipt after, Station.returnPhysicalBook noFailure lateReturn .min
        (lentStation pastLoans) = (.ok receipt, after) ∧
      after.history? "U1" = some
        [User.openLoan "C1" "B1" .min,
          { User.openLoan "C1" "B1" .min with returnedAt := some .min, isLate := true },
          User.openLoan "C2" "B1" .min] := by
  have succeeds : (Station.returnPhysicalBook noFailure lateReturn .min
      (lentStation pastLoans)).1.isOk = true := by decide +kernel
  rcases succeeded : Station.returnPhysicalBook noFailure lateReturn .min (lentStation pastLoans)
    with ⟨outcome, after⟩
  rw [succeeded] at succeeds
  cases outcome with
  | error failure => cases succeeds
  | ok receipt =>
      have held : (lentStation pastLoans).tables.copies.get? lateReturn.copyId = some lentRow := by
        decide +kernel
      have found : (lentStation pastLoans).tables.users.get? (readerRow pastLoans).userId =
          some (readerRow pastLoans) := by decide +kernel
      obtain ⟨history, shown, _, memory⟩ :=
        returned_history noFailure lateReturn .min succeeded held rfl found
      have presented : Presented lateReturn (lentState pastLoans) "U1" 0 lentRow :=
        ⟨rfl, rfl, by decide⟩
      have same := memory (lentState pastLoans) 0 lentRow (readerRow pastLoans) presented rfl rfl rfl
      refine ⟨receipt, after, rfl, shown.trans (same.symm.trans ?_)⟩
      decide +kernel

end LibraFlow.Postgres
