import LibraFlow.Container.Acquisition
import LibraFlow.Postgres.Stocking

/-! Adding copies to the PostgreSQL backend while no other request runs, and the
exact conditions under which either backend leaves the circulating stock alone. -/

set_option autoImplicit false

namespace LibraFlow.Postgres

open LibraFlow.Core LibraFlow.Library LibraFlow.Storage LibraFlow.Storage.BookRepository
  LibraFlow.Container LibraFlow.Services

namespace Tables

/-- The copies of a title that was loaded and given a new copy, in its order. -/
def restocked (tables : Tables) (isbn : String) (copy : BookCopy) : List BookCopy :=
  (Dict.store copy.copyId copy
    ((tables.copiesOf isbn).map fun row => (row.copyId, row))).map Prod.snd

/-- Save a loaded title: its row, with empty columns filled in, and its copies. -/
def saveBook (tables : Tables) (model : Book) (copies : List BookCopy) : Tables :=
  { tables with books := tables.books.merge { model with edition := loadEdition model.edition } }
    |>.commit (copies.map .copy)

/-- `admits` are the constraints of the schema on a row that is inserted or
changed; a row that breaks one raises and its transaction is rolled back. -/
def addPhysicalCopy (admits : Tables → BookCopy → Bool) (tables : Tables)
    (isbn copyId branchId shelfLocation : String) (price : ℚ) :
    Except (Option Error) BookCopy × Tables :=
  match tables.books.get? isbn with
  | none => (.error (some (.bookNotFound isbn)), tables)
  | some model =>
      if model.copies?.isNone then (.error (some (.bookNotFound isbn)), tables)
      else
        let copy := BookCopy.new copyId isbn branchId shelfLocation price
        if admits tables copy then
          (.ok copy, (tables.apply (.copy copy)).saveBook model (tables.restocked isbn copy))
        else (.error none, tables)

/-- The foreign keys of a copy row. -/
def foreignKeys (tables : Tables) (copy : BookCopy) : Bool :=
  (tables.books.get? copy.bookIsbn).isSome && tables.branches.contains copy.branchId

theorem copyIds_nodup (tables : Tables) :
    (tables.copies.rows.values.map BookCopy.copyId).Nodup := by
  rw [Dict.map_values tables.copies.keyed]
  exact tables.copies.rows.keysNodup

theorem copiesOf_nodup (tables : Tables) (isbn : String) :
    ((tables.copiesOf isbn).map BookCopy.copyId).Nodup :=
  tables.copyIds_nodup.sublist (List.filter_sublist.map _)

theorem get?_of_mem_copiesOf {tables : Tables} {isbn : String} {row : BookCopy}
    (member : row ∈ tables.copiesOf isbn) : tables.copies.get? row.copyId = some row := by
  obtain ⟨copyId, found⟩ := (Dict.mem_values_iff _ _).mp (List.mem_of_mem_filter member)
  rw [tables.copies.keyed copyId row found]
  exact found

/-- Once the new copy is stored, every row the title is saved with is in place. -/
theorem restocked_current {tables : Tables} {isbn : String} {copy row : BookCopy}
    (member : row ∈ tables.restocked isbn copy) :
    (tables.copies.merge copy).get? row.copyId = some row := by
  let loaded : Dict String BookCopy := ⟨(tables.copiesOf isbn).map fun row => (row.copyId, row), by
    simpa [Function.comp_def] using tables.copiesOf_nodup isbn⟩
  have value : row ∈ (loaded.set copy.copyId copy).values := member
  obtain ⟨key, found⟩ := (Dict.mem_values_iff _ _).mp value
  rw [Dict.get?_set] at found
  split at found
  · cases found
    exact Table.get?_merge_self tables.copies _
  · next different =>
      have entry := (Dict.get?_eq_some_iff _ _ _).mp found
      obtain ⟨other, own, same⟩ := List.mem_map.mp entry
      cases same
      rw [Table.get?_merge_of_ne _ different]
      exact get?_of_mem_copiesOf own

private theorem saveBook_copies (tables : Tables) (model : Book) {copies : List BookCopy}
    (current : ∀ row ∈ copies, tables.copies.get? row.copyId = some row) (copyId : String) :
    (tables.saveBook model copies).copies.get? copyId = tables.copies.get? copyId := by
  unfold saveBook
  refine commit_current ?_
  intro row member same
  exact same ▸ current row member

/-- What a title that takes the copy leaves in the table of copies. -/
theorem addPhysicalCopy_copies {admits : Tables → BookCopy → Bool} {tables : Tables}
    {isbn copyId branchId shelfLocation : String} {price : ℚ} {model : Book}
    (found : tables.books.get? isbn = some model) (physical : model.copies?.isNone = false)
    (admitted : admits tables (.new copyId isbn branchId shelfLocation price) = true)
    (other : String) :
    (tables.addPhysicalCopy admits isbn copyId branchId shelfLocation price).2.copies.get? other =
      (tables.copies.merge (.new copyId isbn branchId shelfLocation price)).get? other := by
  simp only [addPhysicalCopy, found, physical, admitted, Bool.false_eq_true, ↓reduceIte]
  exact saveBook_copies _ model (fun row member => restocked_current member) other

/-- The title is not physical, the schema refuses the row, or the identifier is
not in use except by a copy that looks like the new one. -/
def sparesStock (admits : Tables → BookCopy → Bool) (tables : Tables) (copy : BookCopy) : Bool :=
  ((tables.books.get? copy.bookIsbn).bind Book.copies?).isNone || !admits tables copy ||
    (tables.copies.get? copy.copyId).all fun old => old.circulating = copy.circulating

theorem addPhysicalCopy_undisturbed_iff (admits : Tables → BookCopy → Bool) (tables : Tables)
    (isbn copyId branchId shelfLocation : String) (price : ℚ) :
    Undisturbed tables.users.get? tables.copies.get? (tables.addPhysicalCopy admits isbn copyId
        branchId shelfLocation price).2.copies.get? ↔
      tables.sparesStock admits (.new copyId isbn branchId shelfLocation price) = true := by
  rw [undisturbed_iff]
  have title : (BookCopy.new copyId isbn branchId shelfLocation price).bookIsbn = isbn := rfl
  have untouched : (tables.addPhysicalCopy admits isbn copyId branchId shelfLocation
      price).2 = tables → ∀ key old, tables.copies.get? key = some old →
      ∃ kept, (tables.addPhysicalCopy admits isbn copyId branchId shelfLocation
        price).2.copies.get? key = some kept ∧ kept.circulating = old.circulating := by
    intro same key old held
    rw [same]
    exact ⟨old, held, rfl⟩
  cases found : tables.books.get? isbn with
  | none =>
      simp only [sparesStock, title, found, Option.bind_none, Option.isNone_none, Bool.true_or,
        iff_true]
      exact untouched (by simp only [addPhysicalCopy, found])
  | some model =>
      cases physical : model.copies?.isNone with
      | true =>
          simp only [sparesStock, title, found, Option.bind_some, physical, Bool.true_or, iff_true]
          exact untouched (by simp only [addPhysicalCopy, found, physical, ↓reduceIte])
      | false =>
          cases admitted : admits tables (.new copyId isbn branchId shelfLocation price) with
          | false =>
              simp only [sparesStock, admitted, Bool.not_false, Bool.or_true, Bool.true_or,
                iff_true]
              exact untouched (by
                simp only [addPhysicalCopy, found, physical, admitted, Bool.false_eq_true,
                  ↓reduceIte])
          | true =>
              simp only [addPhysicalCopy_copies found physical admitted, sparesStock, title, found,
                Option.bind_some, physical, admitted, Bool.not_true, Bool.false_or,
                Option.all_eq_true, decide_eq_true_eq]
              constructor
              · intro kept old held
                obtain ⟨new, isNew, same⟩ := kept copyId old held
                have stored : (tables.copies.merge
                    (.new copyId isbn branchId shelfLocation price)).get? copyId =
                    some (.new copyId isbn branchId shelfLocation price) :=
                  Table.get?_merge_self tables.copies _
                rw [stored, Option.some.injEq] at isNew
                rw [isNew]
                exact same.symm
              · intro fresh key old held
                rw [Table.get?_merge]
                split
                · next same =>
                    subst key
                    exact ⟨_, rfl, (fresh old held).symm⟩
                · exact ⟨old, held, rfl⟩

end Tables

section Alone

variable {tickets : Nat → Ticket} {id : Nat} {system : System} {copy : BookCopy}

/-- With no other owner of a lock, the copies of a title are merged one by one. -/
theorem merges_alone {written todo : List BookCopy}
    (merging : system.phases id = .merging copy written todo)
    (own : ∀ key, system.copyLocks key = none ∨ system.copyLocks key = some id) :
    ∃ trace final, Run (Step tickets) system trace final ∧
      (∀ taken ∈ trace, taken.label = .advance id) ∧
      final.phases id = .merging copy (written ++ todo) [] ∧ final.tables = system.tables := by
  induction todo generalizing system written with
  | nil => exact ⟨[], system, .nil, by simp, by rw [merging, List.append_nil], rfl⟩
  | cons first rest ih =>
      obtain ⟨locks, acquired, nextOwn⟩ := Locks.acquire?_alone own first.copyId
      let next : System :=
        { system.enter id (.merging copy (written ++ [first]) rest) with copyLocks := locks }
      have step : Step tickets system (.advance id) next := by
        simp only [Step, System.exec, System.advance, merging, System.mergeCopy, acquired,
          Option.map_some, next]
      have nextMerging : next.phases id = .merging copy (written ++ [first]) rest := by
        simp [next, System.enter]
      obtain ⟨trace, final, run, labels, ended, tables⟩ := ih nextMerging nextOwn
      refine ⟨_, final, run.cons step, ?_, by simpa using ended, tables⟩
      intro taken member
      rcases List.mem_cons.mp member with rfl | later
      · rfl
      · exact labels taken later

/-- A request that runs alone stores exactly what `addPhysicalCopy` does. -/
theorem addPhysicalCopy_alone {isbn copyId branchId shelfLocation : String} {price : ℚ}
    {model : Book} (asked : (tickets id).request =
      .addCopy isbn copyId branchId shelfLocation price)
    (idle : system.phases id = .idle) (free : ∀ key, system.copyLocks key = none)
    (found : system.tables.books.get? isbn = some model)
    (physical : model.copies?.isNone = false) :
    ∃ trace final, Run (Step tickets) system trace final ∧
      (∀ taken ∈ trace, taken.label = .advance id) ∧
      final.phases id = .done (.stocked (.new copyId isbn branchId shelfLocation price)) ∧
      ∀ key, final.tables.copies.get? key = (system.tables.addPhysicalCopy (fun _ _ => true) isbn
        copyId branchId shelfLocation price).2.copies.get? key := by
  obtain ⟨listed, edition⟩ : ∃ listed, model.copies? = some listed := by
    cases edition : model.copies? with
    | none => simp [edition] at physical
    | some listed => exact ⟨listed, rfl⟩
  let copy := BookCopy.new copyId isbn branchId shelfLocation price
  let loaded := system.enter id (.stocking copy (system.tables.copiesOf isbn))
  have first : Step tickets system (.advance id) loaded := by
    simp only [Step, System.exec, System.advance, idle, System.begin, asked, System.beginStocking,
      found, Option.bind_some, edition]
    rfl
  let stored : System := { loaded.enter id
    (.merging copy [] (system.tables.restocked isbn copy)) with
    tables := { system.tables with copies := system.tables.copies.merge copy } }
  have second : Step tickets loaded (.advance id) stored := by
    have unlocked : loaded.copyLocks copy.copyId = none := free copy.copyId
    have loading : loaded.phases id = .stocking copy (system.tables.copiesOf isbn) := by
      simp [loaded, System.enter]
    simp only [Step, System.exec, System.advance, loading, System.storeNew, unlocked]
    rfl
  have merging : stored.phases id = .merging copy [] (system.tables.restocked isbn copy) := by
    simp [stored, System.enter]
  obtain ⟨trace, merged, run, labels, ended, tables⟩ : ∃ trace merged,
      Run (Step tickets) stored trace merged ∧ (∀ taken ∈ trace, taken.label = .advance id) ∧
      merged.phases id = .merging copy ([] ++ system.tables.restocked isbn copy) [] ∧
      merged.tables = stored.tables := merges_alone merging fun key => .inl (free key)
  let saved := merged.commitTitle id copy (system.tables.restocked isbn copy)
  have third : Step tickets merged (.advance id) saved := by
    rw [List.nil_append] at ended
    simp only [Step, System.exec, System.advance, ended, saved]
  let final := (saved.invalidate isbn).enter id (.done (.stocked copy))
  have fourth : Step tickets saved (.advance id) final := by
    have closing : saved.phases id = .stocked copy := by
      simp [saved, System.commitTitle, System.close]
    simp only [Step, System.exec, System.advance, closing]
    rfl
  refine ⟨_, final, ((run.snoc third).snoc fourth).cons second |>.cons first, ?_, ?_, ?_⟩
  · intro taken member
    simp only [List.append_assoc, List.cons_append, List.nil_append, List.mem_cons,
      List.mem_append, List.not_mem_nil, or_false] at member
    rcases member with rfl | rfl | inside | rfl | rfl
    · rfl
    · rfl
    · exact labels taken inside
    · rfl
    · rfl
  · simp [final, System.enter, copy]
  · intro key
    rw [Tables.addPhysicalCopy_copies found physical rfl]
    have committed : final.tables.copies.get? key =
        (merged.tables.commit ((system.tables.restocked isbn copy).map .copy)).copies.get? key := rfl
    rw [committed, tables]
    refine commit_current ?_
    intro row member same
    exact same ▸ Tables.restocked_current member

end Alone

/-- Both backends leave the circulating stock alone exactly when nothing they
write over is in circulation. -/
theorem addPhysicalCopy_spares (isbn copyId branchId shelfLocation : String) (price : ℚ) :
    (∀ branchRepo registered trace state,
      Run Container.Step (State.empty branchRepo registered) trace state →
      ∀ actorId now,
        Undisturbed state.users.get? state.bookRepo.view (Services.addPhysicalCopy isbn copyId
          branchId shelfLocation price actorId now state).2.bookRepo.view ↔
        Container.sparesStock state.bookRepo isbn copyId = true) ∧
    ∀ (admits : Tables → BookCopy → Bool) (tables : Tables),
      Undisturbed tables.users.get? tables.copies.get? (tables.addPhysicalCopy admits isbn copyId
          branchId shelfLocation price).2.copies.get? ↔
        tables.sparesStock admits (.new copyId isbn branchId shelfLocation price) = true := by
  constructor
  · intro branchRepo registered trace state run actorId now
    exact Container.addPhysicalCopy_undisturbed_iff (run_keyed run) isbn copyId branchId
      shelfLocation price actorId now
  · intro admits tables
    exact Tables.addPhysicalCopy_undisturbed_iff admits tables isbn copyId branchId shelfLocation price

/-- A reader has a copy of a title. -/
def lentCopy : List TimedOperation :=
  ([.registerBook "physical" "ADMIN" { isbn := some "B1", title := some "Lean" },
    .addPhysicalCopy "B1" "C1" "BRANCH-DELHI" "A1" 100 "ADMIN",
    .registerUser { userId := "U1", name := "Asha", email := "asha@example", passwordHash := "h" },
    .issuePhysicalBook { copyId := "C1", userId := "U1", transactionId := "T1", eventId := "E1" }] :
      List Operation).map fun operation => ⟨operation, .min⟩

/-- The container after the loan. -/
def lendingDesk : State :=
  lentCopy.foldl (fun state call => call.operation.exec call.now state) (.empty .empty .empty)

private theorem lendingDesk_reached : ∃ trace,
    Run Container.Step (State.empty .empty .empty) trace lendingDesk :=
  ⟨_, Run.of_exec (fun _ _ => rfl) _ lentCopy⟩

theorem addPhysicalCopy_spares_second_copy :
    Undisturbed lendingDesk.users.get? lendingDesk.bookRepo.view
        (Services.addPhysicalCopy "B1" "C2" "BRANCH-DELHI" "A1" 100 "ADMIN" .min
          lendingDesk).2.bookRepo.view ∧
      Undisturbed smallLibrary.users.get? smallLibrary.copies.get?
        (smallLibrary.addPhysicalCopy Tables.foreignKeys "B1" "C3" "PUNE" "A1" 100).2.copies.get? := by
  obtain ⟨trace, run⟩ := lendingDesk_reached
  constructor
  · exact ((addPhysicalCopy_spares "B1" "C2" "BRANCH-DELHI" "A1" 100).1 .empty .empty trace
      lendingDesk run "ADMIN" .min).mpr (by decide +kernel)
  · exact ((addPhysicalCopy_spares "B1" "C3" "PUNE" "A1" 100).2 Tables.foreignKeys
      smallLibrary).mpr (by decide +kernel)

/-- A copy added under the identifier of a lent one takes its place: the loan has
no borrower any more. -/
theorem added_copy_replaces_loan :
    ∃ trace state, Run Container.Step (State.empty .empty .empty) trace state ∧
      ¬ Undisturbed state.users.get? state.bookRepo.view
        (Services.addPhysicalCopy "B1" "C1" "BRANCH-DELHI" "A1" 100 "ADMIN" .min
          state).2.bookRepo.view := by
  obtain ⟨trace, run⟩ := lendingDesk_reached
  refine ⟨trace, lendingDesk, run, ?_⟩
  intro undisturbed
  have lent : (lendingDesk.bookRepo.view "C1").map BookCopy.status = some .issued := by
    decide +kernel
  have replaced : ((Services.addPhysicalCopy "B1" "C1" "BRANCH-DELHI" "A1" 100 "ADMIN" .min
      lendingDesk).2.bookRepo.view "C1").map BookCopy.status = some .available := by
    decide +kernel
  obtain ⟨copy, held, issued⟩ := Option.map_eq_some_iff.mp lent
  obtain ⟨kept, found, same⟩ := undisturbed.copies "C1" copy held
  rw [found, Option.map_some, Option.some.injEq] at replaced
  have sameStatus := congrArg BookCopy.Circulating.status same
  simp only [BookCopy.circulating, replaced, issued] at sameStatus
  cases sameStatus

end LibraFlow.Postgres
