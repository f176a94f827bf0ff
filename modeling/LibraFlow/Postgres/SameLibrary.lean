import LibraFlow.Postgres.AvailabilitySearch
import LibraFlow.Postgres.Interchange

/-! Runs of the desk on both backends. Neither the outcomes of the calls nor the details of
a title tell which of the two has served them. -/

set_option autoImplicit false

namespace LibraFlow.Postgres

open LibraFlow.Core LibraFlow.Library LibraFlow.Storage LibraFlow.Patterns LibraFlow.Container
  LibraFlow.Services

section Details

/-- The same details, but for the order in which the copies are listed. -/
inductive SameDetails (details : Book.Details) : Book.Details → Prop where
  | same : SameDetails details details
  | reordered {total available : Nat} {weightGrams pageCount : Int}
      {copies others : List BookCopy.Details}
      (edition : details.edition = .physical total available weightGrams pageCount copies)
      (order : copies.Perm others) :
      SameDetails details
        { details with edition := .physical total available weightGrams pageCount others }

variable {objects other : Heap BookCopy} {book loaded : Book}

theorem SameDetails.of_copies {listed relisted : Dict String Ref}
    (fields : loaded.withoutCopies = book.withoutCopies) (physical : book.copies? = some listed)
    (relists : loaded.copies? = some relisted) (size : relisted.size = listed.size)
    (order : (Book.copyObjects objects listed).Perm (Book.copyObjects other relisted)) :
    SameDetails (book.toDict objects) (loaded.toDict other) := by
  obtain ⟨weightGrams, pageCount, edition⟩ := edition_of_copies? physical
  obtain ⟨loadedWeight, loadedPages, loadedEdition⟩ := edition_of_copies? relists
  have available : (Book.getAvailableCopies other relisted).length =
      (Book.getAvailableCopies objects listed).length := (order.filter _).length_eq.symm
  simp only [Book.withoutCopies, edition, loadedEdition, Book.mk.injEq, Edition.physical.injEq,
    and_true] at fields
  have shown : loaded.toDict other = { book.toDict objects with
      edition := .physical listed.size (Book.getAvailableCopies objects listed).length weightGrams
        pageCount ((Book.copyObjects other relisted).map BookCopy.toDict) } := by
    simp [Book.toDict, Book.isAvailable, Book.getFormat, edition, loadedEdition, available, size,
      fields]
  rw [shown]
  refine .reordered ?_ (order.map BookCopy.toDict)
  simp [Book.toDict, edition]

private theorem mem_copiesOf {tables : Tables} {isbn : String} {row : BookCopy} :
    row ∈ tables.copiesOf isbn ↔
      tables.copies.get? row.copyId = some row ∧ row.bookIsbn = isbn := by
  constructor
  · intro member
    exact ⟨Tables.get?_of_mem_copiesOf member, by simpa using (List.mem_filter.mp member).2⟩
  · intro held
    obtain ⟨stored, title⟩ := held
    have value := (Dict.mem_values_iff _ _).mpr ⟨row.copyId, stored⟩
    exact List.mem_filter.mpr ⟨value, by simpa using title⟩

end Details

section Reading

variable {state : State} {station : Station} {isbn : String} {book : Book}

/-- A stored title, read by itself. -/
def liveBook {repository : BookRepository} (valid : repository.WellFormed)
    (found : repository.getBook isbn = some book) : LiveBook where
  objects := repository.objects
  book := book
  keyed copies copyId ref listed member :=
    valid.copyIds copyId ref (valid.shared isbn book copies copyId ref found listed member)

theorem copyIds_copyObjects {repository : BookRepository} (valid : repository.WellFormed)
    (found : repository.getBook isbn = some book) {listed : Dict String Ref}
    (physical : book.copies? = some listed) :
    (Book.copyObjects repository.objects listed).map BookCopy.copyId = listed.keys := by
  have held : (liveBook valid found).book.copies? = some listed := physical
  have copyIds := (liveBook valid found).copyIds_eq physical
  simp only [LiveBook.copies, held] at copyIds
  exact copyIds

theorem Corresponds.copiesOf_perm (corresponds : Corresponds state station)
    (represented : StockRepresented state) (found : state.bookRepo.getBook isbn = some book)
    {listed : Dict String Ref} (physical : book.copies? = some listed) :
    (Book.copyObjects state.bookRepo.objects listed).Perm (station.tables.copiesOf isbn) := by
  have distinct : (Book.copyObjects state.bookRepo.objects listed).Nodup := by
    refine List.Nodup.of_map BookCopy.copyId ?_
    rw [copyIds_copyObjects represented.wellFormed found physical]
    exact listed.keysNodup
  refine (List.perm_ext_iff_of_nodup distinct
    (List.Nodup.of_map _ (Tables.copiesOf_nodup station.tables isbn))).mpr fun copy => ?_
  rw [mem_copiesOf, corresponds.copies, BookRepository.view, Option.map_eq_some_iff]
  simp only [Book.copyObjects, List.mem_filterMap, Dict.mem_values_iff,
    represented.lists_iff found physical]
  constructor
  · intro listed
    obtain ⟨ref, ⟨copyId, own, held, title⟩, read⟩ := listed
    have same : own = copy :=
      Option.some.inj ((BookRepository.getCopy_eq_some_iff.mp held).2.symm.trans read)
    subst same
    rw [represented.wellFormed.copyId_eq held]
    exact ⟨⟨(ref, own), held, rfl⟩, title⟩
  · intro stored
    obtain ⟨⟨⟨ref, own⟩, held, same⟩, title⟩ := stored
    cases same
    exact ⟨ref, ⟨own.copyId, own, held, title⟩, (BookRepository.getCopy_eq_some_iff.mp held).2⟩

private theorem toDict_digital (objects other : Heap BookCopy) (digital : book.copies? = none) :
    book.toDict objects = book.toDict other := by
  cases edition : book.edition with
  | physical _ _ _ => simp [Book.copies?, edition] at digital
  | ebook _ _ _ _ _ _ | audiobook _ _ _ => simp [Book.toDict, Book.isAvailable, edition]

/-- The details of a physical title read from the rows. -/
theorem Corresponds.details_physical (corresponds : Corresponds state station)
    (represented : StockRepresented state) (found : state.bookRepo.getBook isbn = some book)
    {listed : Dict String Ref} (physical : book.copies? = some listed) {model : Book}
    (same : filled model = filled book)
    (fields : (filled book).withoutCopies = book.withoutCopies) :
    SameDetails (book.toDict state.bookRepo.objects)
      ((modelToBook model (station.tables.copiesOf isbn)).2.toDict
        (modelToBook model (station.tables.copiesOf isbn)).1) := by
  have bare : (filled model).copies? = some .empty := by
    obtain ⟨weightGrams, pageCount, edition⟩ := edition_of_copies? physical
    rw [same]
    simp [filled, Book.copies?, edition, loadEdition]
  have unused : ∀ copyId ref, (Dict.empty : Dict String Ref).get? copyId = some ref →
      ref < (Heap.empty : Heap BookCopy).next := by
    intro copyId ref member
    simp at member
  have loaded := addCopies_contents (station.tables.copiesOf isbn) bare unused
    (Tables.copiesOf_nodup station.tables isbn)
  obtain ⟨sameFields, copies⟩ := Prod.mk.inj loaded
  have unchanged : (filled model).withoutCopies = book.withoutCopies := by rw [same, fields]
  obtain ⟨relisted, relists, entries⟩ := Option.map_eq_some_iff.mp copies
  have rows : Book.copyObjects (modelToBook model (station.tables.copiesOf isbn)).1 relisted =
      station.tables.copiesOf isbn := by
    refine (copyObjects_eq _ relisted).trans ?_
    refine (congrArg (List.filterMap Prod.snd) entries).trans ?_
    simp [listedCopies, Dict.empty, List.filterMap_map]
  have order := corresponds.copiesOf_perm represented found physical
  have size : relisted.size = listed.size := by
    have total := congrArg List.length entries
    have counted := congrArg List.length
      (copyIds_copyObjects represented.wellFormed found physical)
    simp only [listedCopies, Dict.empty, Dict.keys, List.map_nil, List.nil_append,
      List.length_map] at total counted
    rw [Dict.size, total, ← order.length_eq, counted, Dict.size]
  rw [← rows] at order
  exact .of_copies (sameFields.trans unchanged) physical relists size order

theorem Corresponds.details (corresponds : Corresponds state station)
    (represented : StockRepresented state)
    (kept : ∀ book, state.bookRepo.getBook isbn = some book → Edition.Filled book.edition) :
    Option.Rel SameDetails (state.bookRepo.details isbn) (station.tables.details isbn) := by
  cases found : state.bookRepo.getBook isbn with
  | none =>
      have titles := corresponds.titles isbn
      rw [found, Option.map_none, Option.map_eq_none_iff] at titles
      rw [BookRepository.details, found, Tables.details, Tables.getBook, titles]
      exact .none
  | some book =>
      have titles := corresponds.titles isbn
      rw [found, Option.map_some, Option.map_eq_some_iff] at titles
      obtain ⟨model, stored, same⟩ := titles
      have fields := (loadEdition_eq_iff book).mpr (kept book found)
      rw [BookRepository.details, found, Tables.details]
      cases edition : book.copies? with
      | none =>
          have digital : model.copies? = none := by
            rw [← Option.isNone_iff_eq_none, ← copies?_isNone_filled, same, copies?_isNone_filled,
              edition, Option.isNone_none]
          obtain ⟨objects, read⟩ := getBook_digital stored digital
          have loaded : ({ model with edition := loadEdition model.edition } : Book) = book := by
            refine same.trans ?_
            cases held : book.edition <;> simp_all [filled, Book.withoutCopies, loadEdition,
              Book.copies?]
          rw [read, loaded]
          refine .some ?_
          dsimp only
          rw [toDict_digital objects state.bookRepo.objects edition]
          exact .same
      | some listed =>
          rw [Tables.getBook, stored]
          exact .some (corresponds.details_physical represented found edition same fields)

end Reading

section Runs

variable {state : State} {station : Station} {request : DeskRequest}

/-- The database before the first call. -/
def Station.empty (branchRepo : Dict String Distributed.LibraryBranch) : Station :=
  let tables : Tables := ⟨.empty, branchRepo, .empty, .empty, [], []⟩
  ⟨tables, tables, .empty, [], fun _ => none, ⟨.empty, [], .empty, .empty, []⟩⟩

private theorem corresponds_empty (branchRepo registered : Dict String Distributed.LibraryBranch) :
    Corresponds (State.empty branchRepo registered) (Station.empty branchRepo) where
  branches := rfl
  titles _ := rfl
  copies _ := rfl
  users _ := rfl
  loadable _ _ stored := by cases stored
  records := rfl
  events := rfl
  locals := rfl

/-- The two containers side by side, with what every reachable state has. -/
structure Paired (state : State) (station : Station) : Prop where
  inOrder : InOrder state
  represented : StockRepresented state
  corresponds : Corresponds state station

theorem Granted.promised (granted : Granted state request) (after : State) :
    Promised ⟨state, request.timed, after⟩ := by
  obtain ⟨call, now⟩ := request
  cases call with
  | registerUser registration =>
      refine ⟨trivial, ?_⟩
      intro other same
      cases same
      exact granted.1
  | addPhysicalCopy isbn copyId branchId shelfLocation price actorId =>
      exact ⟨granted.1, fun _ same => by cases same⟩
  | registerBook _ _ _ | issuePhysicalBook _ | returnPhysicalBook _ | reserveBook _ _ _ =>
      exact ⟨trivial, fun _ same => by cases same⟩

theorem Granted.unclaimed (granted : Granted state request) :
    unclaimedStock state (.call request.timed) = true := by
  obtain ⟨call, now⟩ := request
  cases call with
  | registerBook formatType actorId arguments =>
      simp only [DeskRequest.timed, DeskCall.operation, unclaimedStock]
      cases accepted : createBook formatType arguments with
      | error error => rfl
      | ok book => exact decide_eq_true (granted book accepted)
  | addPhysicalCopy isbn copyId branchId shelfLocation price actorId =>
      have absent : state.bookRepo.getCopy copyId = none := by
        rw [BookRepository.getCopy, granted.1]
      simp only [DeskRequest.timed, DeskCall.operation, unclaimedStock, absent, Option.all_none,
        Bool.or_true]
  | registerUser _ | issuePhysicalBook _ | returnPhysicalBook _ | reserveBook _ _ _ => rfl

theorem Paired.together (paired : Paired state station) (granted : Granted state request) :
    Together state request.call (request.inMemory state) (request.onDatabase station) := by
  have valid := paired.represented.wellFormed
  obtain ⟨call, now⟩ := request
  cases call with
  | registerUser registration => exact paired.corresponds.enrol registration now granted.2
  | registerBook formatType actorId arguments =>
      exact paired.corresponds.listTitle valid formatType actorId arguments now
  | addPhysicalCopy isbn copyId branchId shelfLocation price actorId =>
      exact paired.corresponds.stock isbn copyId branchId shelfLocation price actorId now valid
        granted.1 granted.2
  | issuePhysicalBook loan => exact paired.corresponds.issue valid loan now granted
  | returnPhysicalBook back => exact paired.corresponds.giveBack paired.inOrder back now granted
  | reserveBook isbn userId reservationId =>
      exact paired.corresponds.reserve isbn userId reservationId now

private theorem simulates_desk :
    Simulates DeskRequest.inMemory DeskRequest.onDatabase Paired Granted
    fun state request => SameOutcome state request.call where
  outcomes _ _ _ paired granted := (paired.together granted).outcome
  related state station request paired granted := by
    have step := request.inMemory_step state
    refine ⟨paired.inOrder.step step (granted.promised _), ?_,
      (paired.together granted).corresponds⟩
    exact @stockStep_represented _ _ (.call request.timed) step granted.unclaimed
      paired.represented

/-- Every call has the same outcome on both backends, they end with the same library, and
readers see the same titles where no column that is read with a default is falsy. -/
theorem run_interchangeable (branchRepo registered : Dict String Distributed.LibraryBranch)
    {trace : List (Transition (State × Station) DeskRequest)} {state : State} {station : Station}
    (run : Run (SideBySide DeskRequest.inMemory DeskRequest.onDatabase)
      (State.empty branchRepo registered, Station.empty branchRepo) trace (state, station))
    (granted : ∀ served ∈ trace, Granted served.before.1 served.label) :
    (∀ served ∈ trace, SameOutcome served.before.1 served.label.call
      (served.label.inMemory served.before.1).1 (served.label.onDatabase served.before.2).1) ∧
    Corresponds state station ∧
    ∀ isbn, (∀ book, state.bookRepo.getBook isbn = some book → Edition.Filled book.edition) →
      Option.Rel SameDetails (state.bookRepo.details isbn) (station.tables.details isbn) := by
  have initially : Paired (State.empty branchRepo registered) (Station.empty branchRepo) :=
    ⟨inOrder_empty branchRepo registered, BookRepository.represented_empty,
      corresponds_empty branchRepo registered⟩
  obtain ⟨outcomes, paired⟩ := simulates_desk.run run initially granted
  refine ⟨outcomes, paired.corresponds, ?_⟩
  intro isbn kept
  exact paired.corresponds.details paired.represented kept

end Runs

section Witness

/-- A test of what callers promise. -/
def DeskRequest.granted (state : State) (request : DeskRequest) : Bool :=
  match request.call with
  | .registerUser registration => registration.userId ≠ "" &&
      match createUser registration.role registration.arguments with
      | .ok user => state.branchRepo.contains user.branchId
      | .error _ => true
  | .registerBook formatType _ arguments =>
      match createBook formatType arguments with
      | .ok book => state.bookRepo.countCopiesForIsbn book.isbn = 0
      | .error _ => true
  | .addPhysicalCopy _ copyId branchId _ _ _ =>
      (state.bookRepo.copies.get? copyId).isNone && state.branchRepo.contains branchId
  | .issuePhysicalBook loan => (request.now.addDays? loan.loanDays).isSome
  | .returnPhysicalBook _ => (request.now.addHours? ReservationManager.pickupWindowHours).isSome
  | .reserveBook .. => true

theorem DeskRequest.granted_sound {state : State} {request : DeskRequest}
    (checked : request.granted state = true) : Granted state request := by
  obtain ⟨call, now⟩ := request
  unfold DeskRequest.granted at checked
  unfold Granted
  cases call with
  | registerUser registration =>
      simp only [Bool.and_eq_true, decide_eq_true_eq] at checked
      refine ⟨checked.1, ?_⟩
      intro user accepted
      have housed := checked.2
      rw [accepted] at housed
      exact housed
  | registerBook formatType actorId arguments =>
      intro book accepted
      simp only [accepted, decide_eq_true_eq] at checked
      exact checked
  | addPhysicalCopy isbn copyId branchId shelfLocation price actorId =>
      simpa using checked
  | issuePhysicalBook loan => exact Option.isSome_iff_ne_none.mp checked
  | returnPhysicalBook back => exact Option.isSome_iff_ne_none.mp checked
  | reserveBook isbn userId reservationId => trivial

def serveBoth (states : State × Station) (request : DeskRequest) : State × Station :=
  ((request.inMemory states.1).2, (request.onDatabase states.2).2)

def delhi : Dict String Distributed.LibraryBranch :=
  Dict.empty.set "BRANCH-DELHI" ⟨"BRANCH-DELHI", "Delhi", "Delhi", "Ring Road", "011", 0, 0⟩

/-- A copy comes back to a waiter, and somebody asks for a copy that does not exist. -/
def awaitedReturn : List DeskRequest :=
  ([.registerUser { userId := "U1", name := "Asha", email := "asha@example", passwordHash := "h" },
    .registerBook "physical" "ADMIN" { isbn := some "B1", title := some "Lean" },
    .addPhysicalCopy "B1" "C1" "BRANCH-DELHI" "A1" 100 "ADMIN",
    .issuePhysicalBook { copyId := "C1", userId := "U1", transactionId := "T1", eventId := "E1" },
    .reserveBook "B1" "U2" "R1",
    .returnPhysicalBook { copyId := "C1", isLate := true, eventId := "E2" },
    .issuePhysicalBook { copyId := "C2", userId := "U2", transactionId := "T2", eventId := "E3" }] :
      List DeskCall).map fun call => ⟨call, .min⟩

theorem run_interchangeable_awaitedReturn :
    Corresponds
        (awaitedReturn.foldl serveBoth (State.empty delhi .empty, Station.empty delhi)).1
        (awaitedReturn.foldl serveBoth (State.empty delhi .empty, Station.empty delhi)).2 ∧
      ((awaitedReturn.foldl serveBoth (State.empty delhi .empty,
        Station.empty delhi)).2.tables.copies.get? "C1").map BookCopy.status = some .reserved ∧
      ((awaitedReturn.foldl serveBoth (State.empty delhi .empty,
        Station.empty delhi)).2.history? "U1").map (List.map HistoryEntry.isLate) =
          some [true] := by
  have checked : ∀ served ∈ Run.trail serveBoth (State.empty delhi .empty, Station.empty delhi)
      awaitedReturn, served.label.granted served.before.1 = true := by decide +kernel
  have reached := run_interchangeable delhi .empty
    (Run.of_exec (fun _ _ => rfl) (State.empty delhi .empty, Station.empty delhi) awaitedReturn)
    fun served member => DeskRequest.granted_sound (checked served member)
  exact ⟨reached.2.1, by decide +kernel, by decide +kernel⟩

end Witness

end LibraFlow.Postgres
