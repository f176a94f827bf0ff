import LibraFlow.Postgres.LoanOutcomes

/-! Each call of the desk takes corresponding libraries to corresponding libraries, and
its outcomes are the same. -/

set_option autoImplicit false

namespace LibraFlow.Postgres

open LibraFlow.Core LibraFlow.Library LibraFlow.Storage LibraFlow.Patterns LibraFlow.Container
  LibraFlow.Services

section Correspondence

variable {state after : State} {station done : Station}

theorem Corresponds.opened (corresponds : Corresponds state station) :
    Corresponds state station.opened :=
  ⟨corresponds.branches, corresponds.titles, corresponds.copies, corresponds.users,
    corresponds.loadable, corresponds.records, corresponds.events, corresponds.locals⟩

theorem Corresponds.borrower (corresponds : Corresponds state station) {userId : String}
    {user : User} (known : state.users.get? userId = some user) :
    station.tables.users.get? userId = some user ∧ modelToUser user = user := by
  have stored := (corresponds.users userId).trans known
  exact ⟨stored, corresponds.loadable userId user stored⟩

theorem Corresponds.copy (corresponds : Corresponds state station) {copyId : String} {ref : Ref}
    {copy : BookCopy} (held : state.bookRepo.getCopy copyId = some (ref, copy)) :
    station.tables.copies.get? copyId = some copy := by
  rw [corresponds.copies]
  exact view_of_getCopy held

private theorem loadable_of {user : User} (limit : user.maxBorrowLimit = roleLimit user.profile)
    (profile : loadProfile user.profile = user.profile) : modelToUser user = user := by
  rw [modelToUser, profile, ← limit]

private theorem loadable_congr {row other : User} (loads : modelToUser row = row)
    (limit : other.maxBorrowLimit = row.maxBorrowLimit) (profile : other.profile = row.profile) :
    modelToUser other = other := by
  have sameLimit : roleLimit row.profile = row.maxBorrowLimit := congrArg User.maxBorrowLimit loads
  have sameProfile : loadProfile row.profile = row.profile := congrArg User.profile loads
  exact loadable_of (by rw [limit, profile, sameLimit]) (by rw [profile, sameProfile])

/-- The same user stored on both sides. -/
theorem users_merge {users : Dict String User} {rows : Table User.userId}
    (same : ∀ userId, rows.get? userId = users.get? userId) (user : User) (userId : String) :
    (rows.merge user).get? userId = (users.set user.userId user).get? userId := by
  rw [Table.get?_merge, Dict.get?_set, same]

private theorem loadable_merge {rows : Table User.userId}
    (loadable : ∀ userId row, rows.get? userId = some row → modelToUser row = row) {row : User}
    (loads : modelToUser row = row) (userId : String) (found : User)
    (stored : (rows.merge row).get? userId = some found) : modelToUser found = found := by
  rw [Table.get?_merge] at stored
  split at stored
  · cases stored
    exact loads
  · exact loadable userId found stored

/-- The same copy stored on both sides. -/
theorem copies_merge {rows : Table BookCopy.copyId} {view : String → Option BookCopy}
    (same : ∀ copyId, rows.get? copyId = view copyId) (copy : BookCopy) (copyId : String) :
    (rows.merge copy).get? copyId = Function.update view copy.copyId (some copy) copyId := by
  rw [Table.get?_merge, Function.update_apply]
  by_cases this : copyId = copy.copyId
  · rw [if_pos this, if_pos this.symm]
  · rw [if_neg this, if_neg (Ne.symm this)]
    exact same copyId

theorem Lent.corresponds {request : IssueRequest} {now dueDate : Datetime} {user : User}
    {ref : Ref} {copy issued : BookCopy} (lent : Lent request now dueDate user ref issued state after)
    (corresponds : Corresponds state station) (valid : state.bookRepo.WellFormed)
    (taken : Taken request state user ref copy issued)
    (tables : done.tables = lendTo request now dueDate user issued station.tables)
    (locals : done.locals = tellLoan request now dueDate issued station.locals) :
    Corresponds after done := by
  obtain ⟨stored, loads⟩ := corresponds.borrower taken.known
  have same := BookCopy.sameCopy_checkOut taken.accepted
  have view := (valid.mutate_saveCopy taken.held same).2.1
  have identity : issued.copyId = request.copyId := by
    rw [same.copyId]
    exact valid.copyId_eq taken.held
  constructor
  · rw [tables, lent.branchRepo]
    exact corresponds.branches
  · intro isbn
    rw [tables, lent.bookRepo]
    have titles := congrFun (@titlesOf_saveCopy (state.bookRepo.mutate ref issued) ref) isbn
    exact (corresponds.titles isbn).trans titles.symm
  · intro copyId
    rw [tables, lent.bookRepo, view, ← identity]
    exact copies_merge corresponds.copies issued copyId
  · intro userId
    rw [tables, lent.users]
    rw [lendTo, loads]
    exact users_merge corresponds.users _ userId
  · intro userId found stored
    rw [tables, lendTo, loads] at stored
    have loads : modelToUser (user.addBorrow request.copyId issued.bookIsbn now) =
        user.addBorrow request.copyId issued.bookIsbn now := loadable_congr loads rfl rfl
    exact loadable_merge corresponds.loadable loads userId found stored
  · rw [tables, lent.records, ← corresponds.records]
    rfl
  · rw [tables, lent.outbox, ← corresponds.events]
    rfl
  · rw [locals, lent.locals, corresponds.locals]

/-- A call has the same outcome on both backends, and leaves the same library. -/
structure Together (state : State) (call : DeskCall) (memory : Except Error DeskAnswer × State)
    (database : Except Failure DeskAnswer × Station) : Prop where
  outcome : SameOutcome state call memory.1 database.1
  corresponds : Corresponds memory.2 database.2

theorem Corresponds.refused (kept : Corresponds state done) {call : DeskCall}
    {memory : Call DeskAnswer} {database : StationCall DeskAnswer} (error : Error)
    (inMemory : memory state = (.error error, state))
    (onDatabase : database station = (.error (some error), done)) :
    Together state call (memory state) (database station) := by
  rw [inMemory, onDatabase]
  exact ⟨.raised error, kept⟩

theorem Corresponds.issue_unknownCopy (corresponds : Corresponds state station)
    (request : IssueRequest) (now : Datetime)
    (unknown : state.bookRepo.getCopy request.copyId = none) :
    Together state (.issuePhysicalBook request)
      (DeskRequest.inMemory ⟨.issuePhysicalBook request, now⟩ state)
      (DeskRequest.onDatabase ⟨.issuePhysicalBook request, now⟩ station) := by
  have unseen : state.bookRepo.view request.copyId = none := by
    rw [BookRepository.view, unknown, Option.map_none]
  have absent : station.tables.copies.get? request.copyId = none := by
    rw [corresponds.copies, unseen]
  have onDatabase : DeskRequest.onDatabase ⟨.issuePhysicalBook request, now⟩ station =
      (.error (some (.copyNotFound request.copyId)), station.opened) := by
    simp only [DeskRequest.onDatabase, Proc.returning, Station.issuePhysicalBook]
    rw [Proc.bind_apply, lockingSection_unknown absent]
    rfl
  rw [onDatabase]
  simp only [DeskRequest.inMemory, Proc.returning, Services.issuePhysicalBook,
    Proc.read_bind_apply]
  cases state.users.get? request.userId with
  | none => exact ⟨.unknownCopy rfl unseen (.inl rfl), corresponds.opened⟩
  | some user =>
      cases eligible : user.canBorrow with
      | false =>
          simp only [Proc.expect_some_bind_apply, eligible, Proc.check_false_bind_apply]
          exact ⟨.unknownCopy rfl unseen (.inr rfl), corresponds.opened⟩
      | true =>
          simp only [Proc.expect_some_bind_apply, eligible, Proc.check_true_bind_apply,
            Proc.read_bind_apply, unknown, Proc.expect_none_bind_apply]
          exact ⟨.raised _, corresponds.opened⟩

theorem Corresponds.issue (corresponds : Corresponds state station)
    (valid : state.bookRepo.WellFormed) (request : IssueRequest) (now : Datetime)
    (due : now.addDays? request.loanDays ≠ none) :
    Together state (.issuePhysicalBook request)
      (DeskRequest.inMemory ⟨.issuePhysicalBook request, now⟩ state)
      (DeskRequest.onDatabase ⟨.issuePhysicalBook request, now⟩ station) := by
  obtain ⟨dueDate, due⟩ := Option.ne_none_iff_exists'.mp due
  cases found : state.bookRepo.getCopy request.copyId with
  | none => exact corresponds.issue_unknownCopy request now found
  | some held =>
      obtain ⟨ref, copy⟩ := held
      have row := corresponds.copy found
      have refused : ∀ error session,
          Services.issuePhysicalBook request now state = (.error error, state) →
          issueWritten noFailure request now station.opened =
            (.error (some error), { station.opened with session := session }) →
          Together state (.issuePhysicalBook request)
            (DeskRequest.inMemory ⟨.issuePhysicalBook request, now⟩ state)
            (DeskRequest.onDatabase ⟨.issuePhysicalBook request, now⟩ station) := by
        intro error session inMemory written
        refine corresponds.opened.refused error ?_ ?_
        · simp only [DeskRequest.inMemory, Proc.returning, inMemory]
          rfl
        · simp only [DeskRequest.onDatabase, Proc.returning, issue_refused row written]
          rfl
      cases known : state.users.get? request.userId with
      | none =>
          have nobody : station.opened.pending.users.get? request.userId = none :=
            (corresponds.users request.userId).trans known
          refine refused (.userNotFound request.userId) .empty ?_ (issueWritten_unknown nobody)
          simp [Services.issuePhysicalBook, known]
      | some user =>
          obtain ⟨stored, loads⟩ := corresponds.borrower known
          have checked : ∀ error, Services.issuePhysicalBook request now state =
                (.error error, state) →
              issueWrites request now user copy = .error error →
              Together state (.issuePhysicalBook request)
                (DeskRequest.inMemory ⟨.issuePhysicalBook request, now⟩ state)
                (DeskRequest.onDatabase ⟨.issuePhysicalBook request, now⟩ station) := by
            intro error inMemory writes
            obtain ⟨session, written⟩ := @issueWritten_refused request now station.opened user copy
              error rfl stored row writes
            exact refused error session inMemory written
          cases eligible : user.canBorrow with
          | false =>
              apply checked (.userNotEligible request.userId "borrow limit reached or unpaid fines")
              · simp [Services.issuePhysicalBook, known, eligible]
              · simp [issueWrites, loads, eligible]
          | true =>
              cases allowed : mayTake copy request.userId with
              | false =>
                  apply checked (.copyUnavailable request.copyId copy.status.value)
                  · simp [Services.issuePhysicalBook, known, eligible, found, allowed]
                  · simp [issueWrites, loads, eligible, allowed]
              | true =>
                  cases accepted : copy.checkOut request.userId with
                  | error detail =>
                      apply checked (.invalidStateTransition detail)
                      · simp [Services.issuePhysicalBook, known, eligible, found, allowed, accepted]
                      · simp [issueWrites, loads, eligible, allowed, accepted]
                  | ok issued =>
                      have taken : Taken request state user ref copy issued :=
                        ⟨known, eligible, found, allowed, accepted⟩
                      have may : (modelToUser user).canBorrow = true := by rw [loads, eligible]
                      obtain ⟨after, inMemory, lent⟩ := issue_inMemory taken due
                      obtain ⟨done, onDatabase, tables, locals⟩ :=
                        issue_onDatabase may allowed accepted due stored row
                      simp only [DeskRequest.inMemory, DeskRequest.onDatabase, Proc.returning,
                        inMemory, onDatabase]
                      exact ⟨.returned _, lent.corresponds corresponds valid taken tables locals⟩

theorem BroughtBack.corresponds {request : ReturnRequest} {now : Datetime}
    {borrowerId isbn : String} {final : BookCopy} {assigned : Option ReservationEntry}
    {manager : ReservationManager} {user : User}
    (back : BroughtBack request now borrowerId isbn final assigned manager state after)
    (corresponds : Corresponds state station) (known : state.users.get? borrowerId = some user)
    (identity : final.copyId = request.copyId)
    (tables : GivenBack request now borrowerId user final assigned station.tables done.tables)
    (locals : done.locals =
      tellReturn request now borrowerId isbn assigned manager station.locals) :
    Corresponds after done := by
  obtain ⟨_, loads⟩ := corresponds.borrower known
  constructor
  · rw [tables.branches, back.branchRepo]
    exact corresponds.branches
  · intro isbn
    have titles := congrFun back.titles isbn
    rw [tables.books]
    exact (corresponds.titles isbn).trans titles.symm
  · intro copyId
    rw [tables.copies, back.copies, ← identity]
    exact copies_merge corresponds.copies final copyId
  · intro userId
    rw [tables.users, back.users, closeLoan, known, closedRow, loads]
    exact users_merge corresponds.users _ userId
  · intro userId found stored
    rw [tables.users, closedRow, loads] at stored
    have closed : modelToUser (user.recordReturn request.copyId request.isLate request.isDamaged
        now) = user.recordReturn request.copyId request.isLate request.isDamaged now :=
      loadable_congr loads rfl rfl
    exact loadable_merge corresponds.loadable closed userId found stored
  · rw [tables.records, back.records]
    exact corresponds.records
  · rw [tables.events, back.outbox, corresponds.events]
  · rw [locals, back.locals, corresponds.locals]

theorem Corresponds.giveBack (corresponds : Corresponds state station) (inOrder : InOrder state)
    (request : ReturnRequest) (now : Datetime)
    (due : now.addHours? ReservationManager.pickupWindowHours ≠ none) :
    Together state (.returnPhysicalBook request)
      (DeskRequest.inMemory ⟨.returnPhysicalBook request, now⟩ state)
      (DeskRequest.onDatabase ⟨.returnPhysicalBook request, now⟩ station) := by
  cases found : state.bookRepo.getCopy request.copyId with
  | none =>
      have absent : station.tables.copies.get? request.copyId = none := by
        rw [corresponds.copies, BookRepository.view, found, Option.map_none]
      refine corresponds.opened.refused (.copyNotFound request.copyId) ?_ ?_
      · simp [DeskRequest.inMemory, Proc.returning, Services.returnPhysicalBook, found, Except.map]
      · simp [DeskRequest.onDatabase, Proc.returning, Station.returnPhysicalBook,
          lockingSection_unknown absent, Except.map]
  | some held =>
      obtain ⟨ref, copy⟩ := held
      have row := corresponds.copy found
      have valid := inOrder.sound.repository
      have coherent := inOrder.sound.consistent.coherent request.copyId copy (view_of_getCopy found)
      by_cases status : copy.status = .issued
      · obtain ⟨borrowerId, user, presented, known, _⟩ := inOrder.presented found status
        obtain ⟨stored, _⟩ := corresponds.borrower known
        have accepted : copy.returnBook =
            .ok { copy with status := .available, currentBorrowerId := none } := by
          simp [BookCopy.returnBook, status]
        cases offered : state.reservationMgr.handleCopyReturned copy.bookIsbn request.copyId now with
        | mk outcome manager =>
            cases outcome with
            | error error =>
                exact absurd (ReservationManager.handleCopyReturned_error offered).1 due
            | ok assigned =>
                have asked : station.locals.reservationMgr.handleCopyReturned copy.bookIsbn
                    request.copyId now = (.ok assigned, manager) := by
                  rw [corresponds.locals]
                  exact offered
                obtain ⟨after, inMemory, back⟩ :=
                  return_inMemory valid presented accepted rfl offered
                obtain ⟨done, onDatabase, tables, locals⟩ := return_onDatabase row
                  presented.borrower presented.named stored accepted rfl asked
                simp only [DeskRequest.inMemory, DeskRequest.onDatabase, Proc.returning, inMemory,
                  onDatabase]
                have identity : copy.copyId = request.copyId := valid.copyId_eq found
                have given : GivenBack request now borrowerId user (settled _ assigned) assigned
                    station.tables done.tables := tables ▸ givenBack_commit user _ assigned _
                refine ⟨.returned _, back.corresponds corresponds known ?_ given locals⟩
                cases assigned <;> exact identity
      · have nobody : copy.currentBorrowerId = none := coherent.borrower_none status
        refine corresponds.opened.refused (.invalidStateTransition
          ("Copy '" ++ request.copyId ++ "' is not currently issued to any user.")) ?_ ?_
        · simp [DeskRequest.inMemory, Proc.returning, Services.returnPhysicalBook, found, nobody,
            truthy, Except.map]
        · have held : station.opened.pending.copies.get? request.copyId = some copy := row
          have written : returnWritten noFailure request now station.opened =
              (.error (some (.invalidStateTransition
                ("Copy '" ++ request.copyId ++ "' is not currently issued to any user."))),
                station.opened) := by
            simp [returnWritten, held, nobody, truthy]
          have ran : returnSection noFailure request now station.opened =
              (.error (some (.invalidStateTransition
                ("Copy '" ++ request.copyId ++ "' is not currently issued to any user."))),
                station.opened) := by
            rw [returnSection, Proc.bind_apply, written]
          simp [DeskRequest.onDatabase, Proc.returning, Station.returnPhysicalBook,
            lockingSection_rollsBack row ran, Except.map]
          rfl

theorem Corresponds.reserve (corresponds : Corresponds state station)
    (isbn userId reservationId : String) (now : Datetime) :
    Together state (.reserveBook isbn userId reservationId)
      (DeskRequest.inMemory ⟨.reserveBook isbn userId reservationId, now⟩ state)
      (DeskRequest.onDatabase ⟨.reserveBook isbn userId reservationId, now⟩ station) := by
  have manager : station.locals.reservationMgr = state.reservationMgr :=
    congrArg Locals.reservationMgr corresponds.locals
  simp only [DeskRequest.inMemory, DeskRequest.onDatabase, Proc.returning, Services.reserveBook,
    Station.reserveBook, manager]
  refine ⟨.returned _, corresponds.branches, corresponds.titles, corresponds.copies,
    corresponds.users, corresponds.loadable, corresponds.records, corresponds.events, ?_⟩
  simp only [Station.inLocals, corresponds.locals]
  rfl

/-- A registered user has the limit of the role and no empty column. -/
theorem created_loadable {request : RegisterRequest} {user : User}
    (accepted : createUser request.role request.arguments = .ok user) : modelToUser user = user := by
  unfold createUser at accepted
  split at accepted
  · cases accepted
  · cases accepted
    refine loadable_of rfl ((loadProfile_eq_iff _).mpr ⟨?_, ?_⟩)
    · cases given : request.academicYear with
      | none => simp [RegisterRequest.arguments, given]
      | some year => by_cases zero : year = 0 <;> simp [RegisterRequest.arguments, given, zero]
    · cases given : request.major with
      | none => simp [RegisterRequest.arguments, given, truthy]
      | some text =>
          by_cases empty : text = "" <;> simp [RegisterRequest.arguments, given, truthy, empty]
  all_goals
    cases accepted
    rfl

theorem Corresponds.enrol (corresponds : Corresponds state station) (request : RegisterRequest)
    (now : Datetime) (housed : ∀ user, createUser request.role request.arguments = .ok user →
      state.branchRepo.contains user.branchId = true) :
    Together state (.registerUser request)
      (DeskRequest.inMemory ⟨.registerUser request, now⟩ state)
      (DeskRequest.onDatabase ⟨.registerUser request, now⟩ station) := by
  simp only [DeskRequest.inMemory, DeskRequest.onDatabase, Proc.returning, Services.registerUser,
    Station.registerUser, Proc.read_bind_apply]
  cases known : state.users.get? request.userId with
  | some user =>
      obtain ⟨stored, _⟩ := corresponds.borrower known
      have taken : state.users.contains request.userId = true :=
        (Dict.contains_iff _ _).mpr ⟨user, known⟩
      rw [stored, taken]
      exact ⟨.raised _, corresponds⟩
  | none =>
      have free : state.users.contains request.userId = false := by
        rw [Dict.contains, known, Option.isSome_none]
      rw [corresponds.users, known, free]
      simp only [Bool.not_false, Proc.check_true_bind_apply, Option.isNone_none]
      cases accepted : createUser request.role request.arguments with
      | error error => exact ⟨.raised _, corresponds⟩
      | ok user =>
          have branch : station.tables.branches.contains user.branchId = true := by
            rw [corresponds.branches]
            exact housed user accepted
          simp only [Proc.lift_ok_bind_apply, Proc.update_bind_apply, Proc.read_bind_apply, branch,
            Proc.check_true_bind_apply]
          refine ⟨.returned _, corresponds.branches, corresponds.titles, corresponds.copies,
            users_merge corresponds.users user,
            loadable_merge corresponds.loadable (created_loadable accepted), corresponds.records,
            corresponds.events, corresponds.locals⟩

theorem Corresponds.listTitle (corresponds : Corresponds state station)
    (valid : state.bookRepo.WellFormed) (formatType actorId : String) (arguments : BookArguments)
    (now : Datetime) :
    Together state (.registerBook formatType actorId arguments)
      (DeskRequest.inMemory ⟨.registerBook formatType actorId arguments, now⟩ state)
      (DeskRequest.onDatabase ⟨.registerBook formatType actorId arguments, now⟩ station) := by
  simp only [DeskRequest.inMemory, DeskRequest.onDatabase, Proc.returning, Services.registerBook,
    Station.registerBook]
  cases accepted : createBook formatType arguments with
  | error error => exact ⟨.raised _, corresponds⟩
  | ok book =>
      simp only [Proc.lift_ok_bind_apply, Proc.update_bind_apply]
      have nothing : ∀ copies copyId ref, book.copies? = some copies →
          copies.get? copyId = some ref → state.bookRepo.copies.get? copyId = some ref := by
        intro copies copyId ref edition member
        rw [createBook_ok accepted copies edition] at member
        cases member
      have same := (BookRepository.sameCopies_saveBook valid nothing).view
      refine ⟨.returned _, corresponds.branches, ?_, ?_, corresponds.users,
        corresponds.loadable, corresponds.records, corresponds.events, ?_⟩
      · intro isbn
        have titles := congrFun (@titlesOf_saveBook state.bookRepo book) isbn
        have rows : ((station.tables.books.merge book).get? isbn).map filled =
            Function.update (titlesOf state.bookRepo) book.isbn (some (filled book)) isbn := by
          rw [Table.get?_merge, Function.update_apply]
          by_cases this : isbn = book.isbn
          · rw [if_pos this, if_pos this.symm, Option.map_some]
          · rw [if_neg this, if_neg (Ne.symm this)]
            exact corresponds.titles isbn
        exact rows.trans titles.symm
      · intro copyId
        exact (corresponds.copies copyId).trans (congrFun same copyId).symm
      · exact congrArg (Locals.logEvent now actorId book.isbn
          (.createBook book.title book.getFormat.value)) corresponds.locals

/-- Saving the copies of a title writes copy rows only. -/
theorem commit_copies (copies : List BookCopy) (tables : Tables) :
    ∃ rows, tables.commit (copies.map .copy) = { tables with copies := rows } := by
  induction copies generalizing tables with
  | nil => exact ⟨tables.copies, rfl⟩
  | cons copy rest ih =>
      obtain ⟨rows, reached⟩ := ih (tables.apply (.copy copy))
      exact ⟨rows, reached⟩

/-- The other tables when a copy has been added, with the columns of its title filled in. -/
theorem addPhysicalCopy_frame {tables : Tables} {isbn copyId branchId shelfLocation : String}
    {price : ℚ} {model : Book} (found : tables.books.get? isbn = some model)
    (physical : model.copies?.isNone = false)
    (admitted : tables.foreignKeys (.new copyId isbn branchId shelfLocation price) = true) :
    ∃ rows : Table BookCopy.copyId,
      tables.addPhysicalCopy Tables.foreignKeys isbn copyId branchId shelfLocation price =
        (.ok (.new copyId isbn branchId shelfLocation price),
          { tables with books := tables.books.merge (filled model), copies := rows }) ∧
      ∀ other, rows.get? other =
        (tables.copies.merge (.new copyId isbn branchId shelfLocation price)).get? other := by
  obtain ⟨rows, reached⟩ := commit_copies
    (tables.restocked isbn (.new copyId isbn branchId shelfLocation price))
    { tables.apply (.copy (.new copyId isbn branchId shelfLocation price)) with
      books := tables.books.merge (filled model) }
  have added : tables.addPhysicalCopy Tables.foreignKeys isbn copyId branchId shelfLocation price =
      (.ok (.new copyId isbn branchId shelfLocation price),
        { tables with books := tables.books.merge (filled model), copies := rows }) := by
    simp only [Tables.addPhysicalCopy, found, physical, admitted, Bool.false_eq_true, ↓reduceIte]
    exact congrArg _ reached
  refine ⟨rows, added, fun other => ?_⟩
  have copies := Tables.addPhysicalCopy_copies found physical admitted other
  rw [added] at copies
  exact copies

private theorem loadEdition_loadEdition (edition : Edition) :
    loadEdition (loadEdition edition) = loadEdition edition := by
  cases edition with
  | physical weightGrams pageCount copies =>
      by_cases weight : weightGrams = 0 <;> by_cases pages : pageCount = 0 <;>
        simp [loadEdition, weight, pages]
  | ebook downloadUrl fileSizeMb fileFormat drmProtected maxConcurrentDownloads
      activeReadersCount =>
      by_cases format : fileFormat = "" <;> by_cases limit : maxConcurrentDownloads = 0 <;>
        simp [loadEdition, format, limit]
  | audiobook streamUrl durationMinutes narrator =>
      by_cases nobody : narrator = "" <;> simp [loadEdition, nobody]

private theorem filled_filled (book : Book) : filled (filled book) = filled book := by
  simp only [filled, loadEdition_loadEdition]

theorem copies?_isNone_filled (book : Book) :
    (filled book).copies?.isNone = book.copies?.isNone := by
  cases edition : book.edition <;> simp [filled, Book.copies?, edition, loadEdition]

/-- Filling in the columns of a title changes nothing that is read. -/
theorem filled_merge {books : Table Book.isbn} {isbn : String} {model : Book}
    (stored : books.get? isbn = some model) (other : String) :
    ((books.merge (filled model)).get? other).map filled = (books.get? other).map filled := by
  have key : model.isbn = isbn := Table.key_of_get? stored
  have written : (books.merge (filled model)).get? other =
      if model.isbn = other then some (filled model) else books.get? other := Table.get?_merge ..
  rw [written, key]
  by_cases this : isbn = other
  · rw [if_pos this, ← this, stored, Option.map_some, Option.map_some, filled_filled]
  · rw [if_neg this]

/-- The repository when a copy has been added, by the titles and the copies in it. -/
theorem restocked_inMemory {repository : BookRepository} (valid : repository.WellFormed)
    {isbn : String} {book : Book} (found : repository.getBook isbn = some book) {copy : BookCopy}
    (title : copy.bookIsbn = isbn) (fresh : repository.copies.get? copy.copyId = none) :
    titlesOf (((repository.attach isbn book copy).saveCopy repository.objects.next).resaveBook
        isbn) = titlesOf repository ∧
      (((repository.attach isbn book copy).saveCopy repository.objects.next).resaveBook isbn).view =
        Function.update repository.view copy.copyId (some copy) := by
  have wellFormed := valid.attach_saveCopy found title fresh
  obtain ⟨resaved, _⟩ := BookRepository.resaveBook_spec wellFormed isbn
  refine ⟨?_, resaved.view.trans (valid.view_attach_saveCopy title)⟩
  rw [titlesOf_resaveBook wellFormed, titlesOf_saveCopy, titlesOf_attach copy found]

section Stock

variable (isbn copyId branchId shelfLocation : String) (price : ℚ) (actorId : String)
  (now : Datetime)

theorem Corresponds.stock_refused (corresponds : Corresponds state station)
    (nothing : physicalOnly (state.bookRepo.getBook isbn) = none)
    (noRow : station.tables.addPhysicalCopy Tables.foreignKeys isbn copyId branchId shelfLocation
      price = (.error (some (.bookNotFound isbn)), station.tables)) :
    Together state (.addPhysicalCopy isbn copyId branchId shelfLocation price actorId)
      (DeskRequest.inMemory
        ⟨.addPhysicalCopy isbn copyId branchId shelfLocation price actorId, now⟩ state)
      (DeskRequest.onDatabase
        ⟨.addPhysicalCopy isbn copyId branchId shelfLocation price actorId, now⟩ station) := by
  refine corresponds.refused (.bookNotFound isbn) ?_ ?_
  · simp [DeskRequest.inMemory, Proc.returning, Services.addPhysicalCopy, nothing, Except.map]
  · simp [DeskRequest.onDatabase, Proc.returning, Station.addPhysicalCopy, Proc.bind_apply,
      Station.storeCopy, noRow, Except.map]

theorem Corresponds.stock_added (corresponds : Corresponds state station)
    (valid : state.bookRepo.WellFormed) (fresh : state.bookRepo.copies.get? copyId = none)
    (housed : state.branchRepo.contains branchId = true) {book model : Book}
    (found : state.bookRepo.getBook isbn = some book)
    (chosen : physicalOnly (state.bookRepo.getBook isbn) = some book)
    (stored : station.tables.books.get? isbn = some model)
    (physical : model.copies?.isNone = false) :
    Together state (.addPhysicalCopy isbn copyId branchId shelfLocation price actorId)
      (DeskRequest.inMemory
        ⟨.addPhysicalCopy isbn copyId branchId shelfLocation price actorId, now⟩ state)
      (DeskRequest.onDatabase
        ⟨.addPhysicalCopy isbn copyId branchId shelfLocation price actorId, now⟩ station) := by
  let copy := BookCopy.new copyId isbn branchId shelfLocation price
  have admitted : station.tables.foreignKeys copy = true := by
    rw [Tables.foreignKeys, corresponds.branches, Bool.and_eq_true]
    exact ⟨Option.isSome_iff_exists.mpr ⟨model, stored⟩, housed⟩
  obtain ⟨rows, added, copies⟩ := addPhysicalCopy_frame stored physical admitted
  have inMemory : Services.addPhysicalCopy isbn copyId branchId shelfLocation price actorId now
      state = (.ok copy, ({ state with bookRepo := ((state.bookRepo.attach isbn book copy).saveCopy
        state.bookRepo.objects.next).resaveBook isbn }.invalidateBook isbn).logEvent now actorId
          copyId (.addBookCopy isbn branchId)) := by
    unfold Services.addPhysicalCopy
    simp only [Proc.read_bind_apply, chosen]
    rfl
  have onDatabase : Station.addPhysicalCopy isbn copyId branchId shelfLocation price actorId now
      station = (.ok copy, (({ station with tables := { station.tables with
        books := station.tables.books.merge (filled model), copies := rows } }).invalidate
          isbn).inLocals (Locals.logEvent now actorId copyId (.addBookCopy isbn branchId))) := by
    unfold Station.addPhysicalCopy
    rw [Proc.bind_apply, Station.storeCopy, added]
    rfl
  have title : copy.bookIsbn = isbn := rfl
  obtain ⟨listed, view⟩ := restocked_inMemory valid found title fresh
  simp only [DeskRequest.inMemory, DeskRequest.onDatabase, Proc.returning, inMemory, onDatabase]
  refine ⟨.returned _, corresponds.branches, ?_, ?_, corresponds.users, corresponds.loadable,
    corresponds.records, corresponds.events, ?_⟩
  · intro other
    exact ((filled_merge stored other).trans (corresponds.titles other)).trans
      (congrFun listed other).symm
  · intro other
    exact ((copies other).trans (copies_merge corresponds.copies copy other)).trans
      (congrFun view other).symm
  · exact congrArg (Locals.logEvent now actorId copyId (.addBookCopy isbn branchId))
      corresponds.locals

theorem Corresponds.stock (corresponds : Corresponds state station)
    (valid : state.bookRepo.WellFormed) (fresh : state.bookRepo.copies.get? copyId = none)
    (housed : state.branchRepo.contains branchId = true) :
    Together state (.addPhysicalCopy isbn copyId branchId shelfLocation price actorId)
      (DeskRequest.inMemory
        ⟨.addPhysicalCopy isbn copyId branchId shelfLocation price actorId, now⟩ state)
      (DeskRequest.onDatabase
        ⟨.addPhysicalCopy isbn copyId branchId shelfLocation price actorId, now⟩ station) := by
  have titles := corresponds.titles isbn
  cases found : state.bookRepo.getBook isbn with
  | none =>
      rw [found, Option.map_none, Option.map_eq_none_iff] at titles
      apply corresponds.stock_refused
      · rw [found]
        rfl
      · rw [Tables.addPhysicalCopy, titles]
  | some book =>
      rw [found, Option.map_some, Option.map_eq_some_iff] at titles
      obtain ⟨model, stored, same⟩ := titles
      have sameKind : model.copies?.isNone = book.copies?.isNone := by
        rw [← copies?_isNone_filled, same, copies?_isNone_filled]
      cases physical : book.copies?.isNone with
      | true =>
          apply corresponds.stock_refused
          · rw [found, physicalOnly, Option.filter_some, if_neg (by simp_all)]
          · simp only [Tables.addPhysicalCopy, stored, sameKind, physical, ↓reduceIte]
      | false =>
          have chosen : physicalOnly (state.bookRepo.getBook isbn) = some book := by
            rw [found, physicalOnly, Option.filter_some, if_pos (by simp_all)]
          rw [physical] at sameKind
          exact corresponds.stock_added isbn copyId branchId shelfLocation price actorId now valid
            fresh housed found chosen stored sameKind

end Stock

end Correspondence

end LibraFlow.Postgres
