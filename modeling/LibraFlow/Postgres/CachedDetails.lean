import LibraFlow.Postgres.Commits

/-! The shared cache beside the database. A checkout or a return drops the cached
details before its commit becomes visible, so a reader may put the old details
back; the cache stays correct as long as no reader is in that window. -/

set_option autoImplicit false

namespace LibraFlow.Postgres

open LibraFlow.Core LibraFlow.Library LibraFlow.Storage LibraFlow.Container LibraFlow.Services

/-- Nobody can bring back what a commit makes outdated: when a checkout or a
return commits, the cache has no entry for the title, and no reader has read the
rows of the title without having stored its result yet. -/
def CommitsUnseen (tickets : Nat → Ticket) (transition : Transition System Action) : Prop :=
  ∀ id row written receipt, transition.label = .advance id →
    transition.before.phases id = .writing row written [] (.commit receipt) →
    transition.before.cache row.bookIsbn = none ∧
    ∀ reader details, transition.before.phases reader = .computed details →
      (tickets reader).request ≠ .details row.bookIsbn

/-- Cached details, and details about to be cached, are those of the committed rows. -/
structure Coherent (tickets : Nat → Ticket) (system : System) : Prop where
  disciplined : Disciplined tickets system
  cached : ∀ isbn details, system.cache isbn = some details →
    system.tables.details isbn = some details
  computed : ∀ id isbn details, system.phases id = .computed details →
    (tickets id).request = .details isbn → system.tables.details isbn = some details

/-- A change of a copy row does not show in the details of other titles. -/
theorem details_merge {before after : Tables} {row final : BookCopy} {isbn : String}
    (books : after.books = before.books) (copies : after.copies = before.copies.merge final)
    (current : before.copies.get? row.copyId = some row) (same : BookCopy.SameCopy row final)
    (other : row.bookIsbn ≠ isbn) : after.details isbn = before.details isbn := by
  have kept : after.copiesOf isbn = before.copiesOf isbn := by
    unfold Tables.copiesOf
    rw [copies]
    refine Dict.values_set_filter before.copies.rows ?_ ?_
    · rw [same.bookIsbn]
      simpa using other
    · intro old found
      rw [same.copyId] at found
      have equal : some old = some row := found.symm.trans current
      cases equal
      simpa using other
  unfold Tables.details Tables.getBook
  rw [books, kept]

section Steps

variable {tickets : Nat → Ticket} {before after : System} {id : Nat}

theorem Coherent.quiet (coherent : Coherent tickets before)
    (disciplined : Disciplined tickets after) (tables : after.tables = before.tables)
    (cache : ∀ isbn details, after.cache isbn = some details →
      before.cache isbn = some details)
    (phases : ∀ other details, after.phases other = .computed details →
      before.phases other = .computed details) : Coherent tickets after := by
  refine ⟨disciplined, ?_, ?_⟩
  · intro isbn details entry
    rw [tables]
    exact coherent.cached isbn details (cache isbn details entry)
  · intro other isbn details phase
    rw [tables]
    exact coherent.computed other isbn details (phases other details phase)

/-- Only the step that reads the rows leads to details about to be cached. -/
theorem computed_of_enter {phase : Phase} (entered : ∀ details, phase ≠ .computed details)
    (other : Nat) (details : Book.Details)
    (computed : Function.update before.phases id phase other = .computed details) :
    before.phases other = .computed details := by
  by_cases same : other = id
  · subst other
    rw [Function.update_self] at computed
    exact absurd computed (entered details)
  · rw [Function.update_of_ne same] at computed
    exact computed

private theorem cache_of_invalidate {isbn other : String} {details : Book.Details}
    (entry : (before.invalidate isbn).cache other = some details) :
    before.cache other = some details := by
  simp only [System.invalidate] at entry
  by_cases same : other = isbn
  · subst other
    rw [Function.update_self] at entry
    cases entry
  · rw [Function.update_of_ne same] at entry
    exact entry

/-- A commit changes the details of one title, and nobody holds the old ones. -/
theorem Coherent.commit {row final : BookCopy} {tables : Tables} {phase : Phase}
    (coherent : Coherent tickets before)
    (disciplined : Disciplined tickets { before.close id phase with tables := tables })
    (entered : ∀ details, phase ≠ .computed details)
    (books : tables.books = before.tables.books)
    (copies : tables.copies = before.tables.copies.merge final)
    (current : before.tables.copies.get? row.copyId = some row)
    (same : BookCopy.SameCopy row final) (uncached : before.cache row.bookIsbn = none)
    (unread : ∀ reader details, before.phases reader = .computed details →
      (tickets reader).request ≠ .details row.bookIsbn) :
    Coherent tickets { before.close id phase with tables := tables } := by
  refine ⟨disciplined, ?_, ?_⟩
  · intro isbn details entry
    have other : row.bookIsbn ≠ isbn := by
      intro equal
      subst isbn
      have cached : before.cache row.bookIsbn = some details := entry
      rw [uncached] at cached
      cases cached
    exact (details_merge books copies current same other).trans
      (coherent.cached isbn details entry)
  · intro reader isbn details computed asked
    have earlier := computed_of_enter entered reader details computed
    have other : row.bookIsbn ≠ isbn := by
      intro equal
      subst isbn
      exact unread reader details earlier asked
    exact (details_merge books copies current same other).trans
      (coherent.computed reader isbn details earlier asked)

theorem Step.coherent {action : Action} (taken : Step tickets before action after)
    (settled : ∀ id, (tickets id).request.movesCopies = false ∧
      (tickets id).request.stocks? = none)
    (unseen : CommitsUnseen tickets ⟨before, action, after⟩)
    (coherent : Coherent tickets before) : Coherent tickets after := by
  have disciplined := taken.disciplined coherent.disciplined
  obtain ⟨id, moves, advanced⟩ | ⟨isbn, rfl⟩ := taken.moves
  · have stands := coherent.disciplined id
    cases moves with
    | lockedCopy | checkedOut | beganReturn | inserted | updatedCopy | updatedUser | returned
    | offered | mergedCopy =>
        exact coherent.quiet disciplined rfl (fun _ _ entry => entry)
          (computed_of_enter (by simp))
    | proceeded _ _ _ uncomputed =>
        exact coherent.quiet disciplined rfl (fun _ _ entry => entry)
          (computed_of_enter uncomputed)
    | aborted =>
        exact coherent.quiet disciplined rfl (fun _ _ entry => entry)
          (computed_of_enter (by simp))
    | invalidated =>
        exact coherent.quiet disciplined rfl (fun _ _ entry => cache_of_invalidate entry)
          (computed_of_enter (by simp))
    | cleared =>
        exact coherent.quiet disciplined rfl (fun _ _ entry => cache_of_invalidate entry)
          (computed_of_enter (by simp))
    | @readDetails isbn details phase asked found =>
        refine ⟨disciplined, coherent.cached, ?_⟩
        intro other title result computed read
        simp only [System.enter] at computed
        by_cases same : other = id
        · subst other
          rw [Function.update_self] at computed
          cases computed
          rw [asked] at read
          cases read
          exact found
        · rw [Function.update_of_ne same] at computed
          exact coherent.computed other title result computed read
    | @storedDetails isbn details phase asked =>
        have known := coherent.computed id isbn details phase asked
        refine ⟨disciplined, ?_, ?_⟩
        · intro other result entry
          simp only [System.storeDetails] at entry
          by_cases same : other = isbn
          · subst other
            rw [Function.update_self] at entry
            cases entry
            exact known
          · rw [Function.update_of_ne same] at entry
            exact coherent.cached other result entry
        · intro other title result computed
          exact coherent.computed other title result
            (computed_of_enter (by simp) other result computed)
    | storedUser =>
        refine ⟨disciplined, coherent.cached, ?_⟩
        intro other title result computed
        exact coherent.computed other title result
          (computed_of_enter (by simp) other result computed)
    | @committed row written receipt phase =>
        have advanced : action = .advance id := by
          obtain advanced | failed := advanced
          · exact advanced
          · simp [System.close] at failed
        obtain ⟨uncached, unread⟩ := unseen id row written receipt advanced phase
        rw [phase] at stands
        cases stands.outcome with
        | issued _ _ commit =>
            exact coherent.commit disciplined (by simp) commit.books commit.copies
              stands.owns.current (BookCopy.sameCopy_checkOut commit.accepted) uncached unread
        | returned _ _ _ commit =>
            exact coherent.commit disciplined (by simp) commit.books commit.copies
              stands.owns.current commit.sameCopy uncached unread
    | storedCopy phase _ =>
        rw [phase] at stands
        have moving := stands.2.2
        rw [(settled id).1] at moving
        cases moving
    | storedNew phase _ =>
        rw [phase] at stands
        have stocking : (tickets id).request.stocks? = some _ := stands
        rw [(settled id).2] at stocking
        cases stocking
    | committedTitle phase =>
        rw [phase] at stands
        have stocking := stands.1
        rw [(settled id).2] at stocking
        cases stocking
  · exact coherent.quiet disciplined rfl (fun _ _ entry => cache_of_invalidate entry)
      fun _ _ computed => computed

end Steps

/-- In every run of checkouts, returns and reads (and of billing and reservations
beside them) whose commits are unseen, every cache entry equals the details of
the committed rows, whether or not requests are in progress. -/
theorem run_cacheCurrent (tickets : Nat → Ticket)
    (settled : ∀ id, (tickets id).request.movesCopies = false ∧
      (tickets id).request.stocks? = none)
    (tables : Tables) (processes : Nat → Process) {trace : List (Transition System Action)}
    {final : System} (run : Run (Step tickets) (.start tables processes) trace final)
    (unseen : ∀ transition ∈ trace, CommitsUnseen tickets transition) (isbn : String)
    (details : Book.Details) (entry : final.cache isbn = some details) :
    final.tables.details isbn = some details := by
  have coherent : Coherent tickets final := by
    refine run.invariant unseen ⟨disciplined_start tickets tables processes, ?_, ?_⟩ ?_
    · intro title found impossible
      cases impossible
    · intro id title found impossible
      cases impossible
    · intro before action after coherent taken permitted
      exact taken.coherent settled permitted coherent
  exact coherent.cached isbn details entry

/-- A checkout and a read of its title. -/
def loanAndRead : Nat → Ticket
  | 0 => ⟨0, .min, .issue
      { copyId := "C1", userId := "U1", transactionId := "TX", eventId := "E1" }⟩
  | 1 => ⟨0, .min, .details "B1"⟩
  | _ => ⟨0, .min, .reserve "B1" "U1" "R1"⟩

def commitsUnseen (system : System) : Action → Bool
  | .advance id =>
      match system.phases id, system.phases 1 with
      | .writing _ _ [] (.commit _), .computed _ => false
      | .writing row _ [] (.commit _), _ => (system.cache row.bookIsbn).isNone
      | _, _ => true
  | _ => true

private theorem commitsUnseen_sound {transition : Transition System Action}
    (checked : commitsUnseen transition.before transition.label = true) :
    CommitsUnseen loanAndRead transition := by
  intro id row written receipt advanced phase
  rw [advanced] at checked
  constructor
  · unfold commitsUnseen at checked
    simp only [phase] at checked
    split at checked
    · cases checked
    · next same _ =>
        cases same
        exact Option.isNone_iff_eq_none.mp checked
    · next other _ => exact absurd rfl (other _ _ _)
  · intro reader details computed asked
    match reader with
    | 0 => cases asked
    | 1 => simp [commitsUnseen, phase, computed] at checked
    | reader + 2 => cases asked

theorem run_cacheCurrent_read_after :
    ∃ trace final details, Run (Step loanAndRead) smallSystem trace final ∧
      final.cache "B1" = some details ∧ final.tables.details "B1" = some details := by
  have replayed : (Run.replay (System.exec loanAndRead) commitsUnseen smallSystem
      (List.replicate 8 (.advance 0) ++ List.replicate 3 (.advance 1))).map
        (fun final => (final.cache "B1").isSome) = some true := by decide +kernel
  obtain ⟨final, ran, cached⟩ := Option.map_eq_some_iff.mp replayed
  obtain ⟨details, entry⟩ := Option.isSome_iff_exists.mp cached
  obtain ⟨trace, run, _, checked⟩ := Run.of_replay ran
  refine ⟨trace, final, details, run, entry, ?_⟩
  refine run_cacheCurrent loanAndRead ?_ smallLibrary _ run ?_ "B1" details entry
  · intro id
    match id with
    | 0 | 1 => exact ⟨rfl, rfl⟩
    | id + 2 => exact ⟨rfl, rfl⟩
  · intro transition member
    exact commitsUnseen_sound (checked transition member)

/-- The reader reads the rows before the checkout commits and stores them after:
both requests are over, and the outdated details stay in the cache. -/
theorem reader_restores_outdated_details :
    ∃ trace final, Run (Step loanAndRead) smallSystem trace final ∧
      (∀ id, final.phases id = .idle ∨ ∃ receipt, final.phases id = .done receipt) ∧
      ∃ details, final.cache "B1" = some details ∧
        final.tables.details "B1" ≠ some details := by
  have replayed : (Run.replay (System.exec loanAndRead) (fun _ _ => true) smallSystem
      (List.replicate 2 (.advance 1) ++ List.replicate 8 (.advance 0) ++ [.advance 1])).map
        (fun final => (((final.phases 0).isDone && (final.phases 1).isDone),
          (final.cache "B1").isSome, decide (final.tables.details "B1" = final.cache "B1"))) =
      some (true, true, false) := by decide +kernel
  obtain ⟨final, ran, shown⟩ := Option.map_eq_some_iff.mp replayed
  simp only [Prod.mk.injEq, Bool.and_eq_true, decide_eq_false_iff_not] at shown
  obtain ⟨⟨zero, one⟩, cached, differ⟩ := shown
  obtain ⟨trace, run, labels, _⟩ := Run.of_replay ran
  obtain ⟨details, entry⟩ := Option.isSome_iff_exists.mp cached
  refine ⟨trace, final, run, ?_, details, entry, ?_⟩
  · exact all_over run labels (by decide) zero one
  · rw [← entry]
    exact differ

end LibraFlow.Postgres
