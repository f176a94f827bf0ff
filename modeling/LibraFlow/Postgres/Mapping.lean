import LibraFlow.Dsa.AllocationQueue
import LibraFlow.Postgres.Tables
import LibraFlow.Storage.Loading

/-! The rows of users, titles and copies with their nullable columns, and the
mapping between rows and objects. A column that is empty or null takes a default
when it is read; each round trip is exact as long as no column is falsy. -/

set_option autoImplicit false

namespace LibraFlow.Postgres

open LibraFlow.Core LibraFlow.Library LibraFlow.Storage LibraFlow.Dsa

/-- Python's `value or default` for a nullable column with the given falsy value. -/
def orElse {α : Type} [DecidableEq α] (falsy : α) (value : Option α) (default : α) : α :=
  match value with
  | none => default
  | some present => if present = falsy then default else present

/-- The `users` table: one row type for every role. -/
structure UserModel where
  userId : String
  name : String
  email : String
  passwordHash : String
  role : String
  maxBorrowLimit : Nat
  branchId : String
  activeBorrowedCopyIds : List String
  borrowHistory : List HistoryEntry
  activeReservations : List String
  unpaidFinesBalance : ℚ
  securityDepositBalance : ℚ
  isSuspended : Bool
  academicYear : Option Int := none
  major : Option String := none
  examDate : Option Nat := none
  department : Option String := none
  staffCode : Option String := none

/-- The order in which a set is listed does not matter; it is sorted here. -/
def userToModel (user : User) : UserModel :=
  let model : UserModel := {
    userId := user.userId
    name := user.name
    email := user.email
    passwordHash := user.passwordHash
    role := user.getRole.value
    maxBorrowLimit := user.maxBorrowLimit
    branchId := user.branchId
    activeBorrowedCopyIds := user.activeBorrowedCopyIds.sort
    borrowHistory := user.borrowHistory
    activeReservations := user.activeReservations.sort
    unpaidFinesBalance := user.unpaidFinesBalance
    securityDepositBalance := user.securityDepositBalance
    isSuspended := user.isSuspended }
  match user.profile with
  | .student academicYear major examDate =>
      { model with academicYear := some academicYear, major := some major, examDate := examDate }
  | .faculty department => { model with department := some department }
  | .librarian staffCode => { model with staffCode := some staffCode }
  | .admin => model

namespace UserModel

/-- The keyword arguments for the factory. The limit of the row is among them in
the source, but the factory reads no such argument. -/
def arguments (model : UserModel) : UserArguments :=
  let common : UserArguments := {
    userId := model.userId
    name := model.name
    email := model.email
    passwordHash := model.passwordHash
    branchId := some model.branchId }
  if model.role = UserRole.student.value then
    { common with
      academicYear := some (orElse 0 model.academicYear 1)
      major := some (orElse "" model.major "Computer Science")
      examDate := model.examDate }
  else if model.role = UserRole.faculty.value then { common with department := model.department }
  else if model.role = UserRole.librarian.value then { common with staffCode := model.staffCode }
  else common

def modelToUser (model : UserModel) : Except Error User :=
  match createUser model.role model.arguments with
  | .error error => .error error
  | .ok user => .ok { user with
      activeBorrowedCopyIds := model.activeBorrowedCopyIds.toFinset
      borrowHistory := model.borrowHistory
      activeReservations := model.activeReservations.toFinset
      unpaidFinesBalance := model.unpaidFinesBalance
      securityDepositBalance := model.securityDepositBalance
      isSuspended := model.isSuspended }

end UserModel

/-- What a user looks like after saving and loading. -/
theorem modelToUser_userToModel (user : User) :
    (userToModel user).modelToUser = .ok (modelToUser user) := by
  cases profile : user.profile with
  | student academicYear major examDate =>
      have role : UserRole.ofValue? (upper "STUDENT") = some .student := by decide +kernel
      simp [UserModel.modelToUser, UserModel.arguments, userToModel, profile, User.getRole,
        UserRole.value, createUser, role, User.new, modelToUser, roleLimit, loadProfile, orElse]
  | faculty department =>
      have role : UserRole.ofValue? (upper "FACULTY") = some .faculty := by decide +kernel
      simp [UserModel.modelToUser, UserModel.arguments, userToModel, profile, User.getRole,
        UserRole.value, createUser, role, User.new, modelToUser, roleLimit, loadProfile]
  | librarian staffCode =>
      have role : UserRole.ofValue? (upper "LIBRARIAN") = some .librarian := by decide +kernel
      simp [UserModel.modelToUser, UserModel.arguments, userToModel, profile, User.getRole,
        UserRole.value, createUser, role, User.new, modelToUser, roleLimit, loadProfile]
  | admin =>
      have role : UserRole.ofValue? (upper "ADMIN") = some .admin := by decide +kernel
      simp [UserModel.modelToUser, UserModel.arguments, userToModel, profile, User.getRole,
        UserRole.value, createUser, role, User.new, modelToUser, roleLimit, loadProfile]

/-- The columns of a profile that are read with a default are not falsy. -/
def Profile.Filled : Profile → Prop
  | .student academicYear major _ => academicYear ≠ 0 ∧ major ≠ ""
  | _ => True

theorem loadProfile_eq_iff (profile : Profile) :
    loadProfile profile = profile ↔ Profile.Filled profile := by
  cases profile with
  | student academicYear major examDate =>
      by_cases year : academicYear = 0
      · simp [loadProfile, Profile.Filled, year]
      · by_cases empty : major = ""
        · simp [loadProfile, Profile.Filled, empty]
        · simp [loadProfile, Profile.Filled, year, empty]
  | faculty department | librarian staffCode | admin => simp [loadProfile, Profile.Filled]

/-- A user comes back unchanged, and with it every decision that is made from its
fields, exactly when its limit is the one of its role and no column is falsy. -/
theorem user_round_trip_iff (user : User) :
    (∃ loaded, (userToModel user).modelToUser = .ok loaded ∧ loaded = user ∧
        loaded.canBorrow = user.canBorrow ∧ loaded.maxBorrowLimit = user.maxBorrowLimit ∧
        ∀ today, SmartAllocationQueue.calculatePriority loaded today =
          SmartAllocationQueue.calculatePriority user today) ↔
      user.maxBorrowLimit = roleLimit user.profile ∧ Profile.Filled user.profile := by
  rw [modelToUser_userToModel, ← loadProfile_eq_iff]
  constructor
  · rintro ⟨loaded, found, same, _⟩
    cases found
    have limit : roleLimit user.profile = user.maxBorrowLimit :=
      congrArg User.maxBorrowLimit same
    have profile : loadProfile user.profile = user.profile := congrArg User.profile same
    exact ⟨limit.symm, profile⟩
  · rintro ⟨limit, profile⟩
    have same : modelToUser user = user := by
      unfold modelToUser
      rw [← limit, profile]
    exact ⟨modelToUser user, rfl, same, by rw [same], by rw [same], by rw [same]; simp⟩

/-- A student with a limit of her own comes back with the limit of her role. -/
theorem student_limit_lost :
    ∃ user : User, ¬ ∃ loaded, (userToModel user).modelToUser = .ok loaded ∧ loaded = user ∧
      loaded.canBorrow = user.canBorrow ∧ loaded.maxBorrowLimit = user.maxBorrowLimit ∧
      ∀ today, SmartAllocationQueue.calculatePriority loaded today =
        SmartAllocationQueue.calculatePriority user today := by
  let user := User.new
    { userId := "U1", name := "Asha", email := "asha@example", passwordHash := "h" } 2
    (.student 1 "Physics" none)
  refine ⟨user, ?_⟩
  rintro ⟨loaded, found, _, _, limit, _⟩
  rw [modelToUser_userToModel] at found
  cases found
  exact absurd limit (by decide)

/-- The `book_copies` table. -/
structure BookCopyModel where
  copyId : String
  bookIsbn : String
  branchId : String
  shelfLocation : String
  price : ℚ
  status : String
  currentBorrowerId : Option String
  currentReserverId : Option String
  targetBranchId : Option String
  borrowCount : Nat

def copyToModel (copy : BookCopy) : BookCopyModel where
  copyId := copy.copyId
  bookIsbn := copy.bookIsbn
  branchId := copy.branchId
  shelfLocation := copy.shelfLocation
  price := copy.price
  status := copy.status.value
  currentBorrowerId := copy.currentBorrowerId
  currentReserverId := copy.currentReserverId
  targetBranchId := copy.targetBranchId
  borrowCount := copy.borrowCount

/-- The state object for a stored status. -/
def statusToState? (value : String) : Option BookStatus :=
  [.available, .reserved, .issued, .inTransit, .underRepair, .lost].find? fun status =>
    decide (BookStatus.value status = value)

def BookCopyModel.modelToCopy (model : BookCopyModel) : Except Error BookCopy :=
  match statusToState? model.status with
  | none => .error (.keyError model.status)
  | some status => .ok {
      BookCopy.new model.copyId model.bookIsbn model.branchId model.shelfLocation model.price with
      status := status
      currentBorrowerId := model.currentBorrowerId
      currentReserverId := model.currentReserverId
      targetBranchId := model.targetBranchId
      borrowCount := model.borrowCount }

/-- Copies come back unchanged, whatever their state. -/
theorem modelToCopy_copyToModel (copy : BookCopy) :
    (copyToModel copy).modelToCopy = .ok copy := by
  have state : statusToState? copy.status.value = some copy.status := by
    cases copy.status <;> decide +kernel
  simp only [BookCopyModel.modelToCopy, copyToModel, state]
  rfl

/-- The `books` table: one row type for every format. -/
structure BookModel where
  isbn : String
  title : String
  authors : List String
  category : String
  publicationYear : Int
  publisher : String
  description : String
  rating : ℚ
  difficultyLevel : String
  keywords : List String
  borrowHistoryCount : Nat
  format : String
  weightGrams : Option Int := none
  pageCount : Option Int := none
  downloadUrl : Option String := none
  fileSizeMb : Option ℚ := none
  fileFormat : Option String := none
  drmProtected : Option Bool := none
  maxConcurrentDownloads : Option Int := none
  activeReadersCount : Option Int := none
  streamUrl : Option String := none
  durationMinutes : Option Int := none
  narrator : Option String := none

def bookToModel (book : Book) : BookModel :=
  let model : BookModel := {
    isbn := book.isbn
    title := book.title
    authors := book.authors
    category := book.category
    publicationYear := book.publicationYear
    publisher := book.publisher
    description := book.description
    rating := book.rating
    difficultyLevel := book.difficultyLevel
    keywords := book.keywords
    borrowHistoryCount := book.borrowHistoryCount
    format := book.getFormat.value }
  match book.edition with
  | .physical weightGrams pageCount _ =>
      { model with weightGrams := some weightGrams, pageCount := some pageCount }
  | .ebook downloadUrl fileSizeMb fileFormat drmProtected maxConcurrentDownloads
      activeReadersCount =>
      { model with
        downloadUrl := some downloadUrl
        fileSizeMb := some fileSizeMb
        fileFormat := some fileFormat
        drmProtected := some drmProtected
        maxConcurrentDownloads := some maxConcurrentDownloads
        activeReadersCount := some activeReadersCount }
  | .audiobook streamUrl durationMinutes narrator =>
      { model with
        streamUrl := some streamUrl
        durationMinutes := some durationMinutes
        narrator := some narrator }

namespace BookModel

/-- The edition of a row, without its copies. -/
def edition (model : BookModel) : BookFormat → Edition
  | .physical =>
      .physical (orElse 0 model.weightGrams 500) (orElse 0 model.pageCount 400) .empty
  | .ebook =>
      .ebook (orElse "" model.downloadUrl "") (orElse 0 model.fileSizeMb 0)
        (orElse "" model.fileFormat "PDF") (orElse false model.drmProtected false)
        (orElse 0 model.maxConcurrentDownloads 100) (orElse 0 model.activeReadersCount 0)
  | .audiobook =>
      .audiobook (orElse "" model.streamUrl "") (orElse 0 model.durationMinutes 0)
        (orElse "" model.narrator "Narrator")

/-- Assemble a title from its row and its copies; other formats ignore copies. -/
def modelToBook (model : BookModel) (copies : List BookCopy) :
    Except Error (Heap BookCopy × Book) :=
  match BookFormat.ofValue? model.format with
  | none => .error (.valueError ("Unknown book format in DB: " ++ model.format))
  | some format =>
      let book : Book := {
        isbn := model.isbn
        title := model.title
        authors := model.authors
        category := model.category
        publicationYear := model.publicationYear
        publisher := model.publisher
        description := model.description
        rating := model.rating
        difficultyLevel := model.difficultyLevel
        keywords := model.keywords
        borrowHistoryCount := model.borrowHistoryCount
        edition := model.edition format }
      .ok (copies.foldl (fun (objects, book) copy =>
        (objects.alloc copy, book.addCopy copy.copyId objects.next)) (.empty, book))

end BookModel

/-- What a title looks like after saving and loading. -/
theorem modelToBook_bookToModel (book : Book) (copies : List BookCopy) :
    (bookToModel book).modelToBook copies = .ok (modelToBook book copies) := by
  have format : BookFormat.ofValue? book.getFormat.value = some book.getFormat := by
    cases book.getFormat <;> decide +kernel
  have assembled : (bookToModel book).format = book.getFormat.value := by
    cases edition : book.edition <;> simp [bookToModel, edition]
  have loaded : (bookToModel book).edition book.getFormat = loadEdition book.edition := by
    cases edition : book.edition with
    | physical weightGrams pageCount held =>
        simp [BookModel.edition, bookToModel, Book.getFormat, edition, loadEdition, orElse]
    | ebook downloadUrl fileSizeMb fileFormat drmProtected maxConcurrentDownloads
        activeReadersCount =>
        simp only [BookModel.edition, bookToModel, Book.getFormat, edition, loadEdition, orElse,
          Edition.ebook.injEq, true_and]
        refine ⟨?_, ?_, ?_, ?_⟩ <;> split <;> simp_all
    | audiobook streamUrl durationMinutes narrator =>
        simp only [BookModel.edition, bookToModel, Book.getFormat, edition, loadEdition, orElse,
          Edition.audiobook.injEq, and_true]
        refine ⟨?_, ?_⟩ <;> split <;> simp_all
  unfold BookModel.modelToBook modelToBook
  rw [assembled, format]
  simp only [loaded]
  cases edition : book.edition <;> simp [bookToModel, edition]

/-- A title with the copy objects it lists, each under its own identifier. -/
structure LiveBook where
  objects : Heap BookCopy
  book : Book
  keyed : ∀ copies copyId ref, book.copies? = some copies → copies.get? copyId = some ref →
    ∃ copy, objects.read? ref = some copy ∧ copy.copyId = copyId

/-- The copies a title lists, by identifier. -/
def listedCopies (objects : Heap BookCopy) (copies : Dict String Ref) :
    List (String × Option BookCopy) :=
  copies.entries.map fun (copyId, ref) => (copyId, objects.read? ref)

/-- A title by value: its own fields, and its copies if it is physical. Two titles
with the same contents differ in the identity of their objects only. -/
def contents (objects : Heap BookCopy) (book : Book) :
    Book × Option (List (String × Option BookCopy)) :=
  (book.withoutCopies, book.copies?.map (listedCopies objects))

theorem copyObjects_eq (objects : Heap BookCopy) (copies : Dict String Ref) :
    Book.copyObjects objects copies = (listedCopies objects copies).filterMap Prod.snd := by
  simp only [Book.copyObjects, listedCopies, Dict.values, List.filterMap_map]
  rfl

private theorem isAvailable_congr {objects other : Heap BookCopy} {book copied : Book}
    (same : contents objects book = contents other copied) :
    book.isAvailable objects = copied.isAvailable other := by
  obtain ⟨fields, copies⟩ := Prod.mk.inj same
  cases edition : book.edition with
  | physical weightGrams pageCount listed =>
      cases copiedEdition : copied.edition with
      | physical copiedWeight copiedPages copiedListed =>
          simp only [Book.copies?, edition, copiedEdition, Option.map_some,
            Option.some.injEq] at copies
          simp only [Book.isAvailable, edition, copiedEdition, Book.getAvailableCopies,
            copyObjects_eq, copies]
      | ebook _ _ _ _ _ _ | audiobook _ _ _ =>
          simp [Book.copies?, edition, copiedEdition] at copies
  | ebook _ _ _ _ _ _ | audiobook _ _ _ =>
      have sameEdition := congrArg Book.edition fields
      cases copiedEdition : copied.edition <;>
        simp [Book.withoutCopies, edition, copiedEdition] at sameEdition
      simp [Book.isAvailable, edition, copiedEdition, sameEdition]

private theorem listedCopies_alloc {objects : Heap BookCopy} {copies : Dict String Ref}
    (copy : BookCopy) (held : ∀ copyId ref, copies.get? copyId = some ref → ref < objects.next) :
    listedCopies (objects.alloc copy) copies = listedCopies objects copies := by
  apply List.map_congr_left
  rintro ⟨copyId, ref⟩ member
  have older := held copyId ref ((Dict.get?_eq_some_iff _ _ _).mpr member)
  simp only [Heap.read?_alloc, if_neg (Nat.ne_of_lt older)]

private theorem withoutCopies_addCopy (book : Book) (copyId : String) (ref : Ref) :
    (book.addCopy copyId ref).withoutCopies = book.withoutCopies := by
  cases edition : book.edition <;> simp [Book.addCopy, Book.withoutCopies, edition]

/-- Adding copies with new identifiers lists them in order. -/
theorem addCopies_contents (copies : List BookCopy) {objects : Heap BookCopy} {book : Book}
    {listed : Dict String Ref} (physical : book.copies? = some listed)
    (held : ∀ copyId ref, listed.get? copyId = some ref → ref < objects.next)
    (distinct : (listed.keys ++ copies.map BookCopy.copyId).Nodup) :
    let loaded := copies.foldl (fun (objects, book) copy =>
      (objects.alloc copy, book.addCopy copy.copyId objects.next)) (objects, book)
    contents loaded.1 loaded.2 = (book.withoutCopies, some (listedCopies objects listed ++
      copies.map fun copy => (copy.copyId, some copy))) := by
  induction copies generalizing objects book listed with
  | nil => simp [contents, physical]
  | cons copy rest ih =>
      rw [List.map_cons] at distinct
      have absent : listed.get? copy.copyId = none := by
        cases found : listed.get? copy.copyId with
        | none => rfl
        | some ref =>
            have key := (Dict.mem_keys_iff listed copy.copyId).mpr ⟨ref, found⟩
            exact absurd rfl ((List.nodup_append.mp distinct).2.2 _ key _ (by simp))
      have entries := Dict.entries_set_fresh listed objects.next absent
      have added : (book.addCopy copy.copyId objects.next).copies? =
          some (listed.set copy.copyId objects.next) := by
        rw [Book.copies?_addCopy, physical, Option.map_some]
      have keys : (listed.set copy.copyId objects.next).keys = listed.keys ++ [copy.copyId] := by
        simp [Dict.keys, entries]
      have bounded : ∀ copyId ref, (listed.set copy.copyId objects.next).get? copyId = some ref →
          ref < (objects.alloc copy).next := by
        intro copyId ref found
        rw [Heap.next_alloc]
        rw [Dict.get?_set] at found
        split at found
        · cases found
          exact Nat.lt_succ_self _
        · exact Nat.lt_succ_of_lt (held copyId ref found)
      have later := ih added bounded (by rw [keys]; simpa using distinct)
      simp only [List.foldl_cons] at later ⊢
      rw [later, withoutCopies_addCopy]
      have here : listedCopies (objects.alloc copy) (listed.set copy.copyId objects.next) =
          listedCopies objects listed ++ [(copy.copyId, some copy)] := by
        rw [← listedCopies_alloc copy held]
        simp [listedCopies, entries]
      simp [here]

namespace LiveBook

variable (live : LiveBook)

/-- The copies of the title, in its order; other formats have none. -/
def copies : List BookCopy :=
  match live.book.copies? with
  | some copies => Book.copyObjects live.objects copies
  | none => []

/-- Save the title and its copies, and load them again. -/
def roundTrip : Except Error (Heap BookCopy × Book) :=
  match live.copies.mapM fun copy => (copyToModel copy).modelToCopy with
  | .error error => .error error
  | .ok copies => (bookToModel live.book).modelToBook copies

private theorem roundTrip_eq : live.roundTrip = .ok (modelToBook live.book live.copies) := by
  have unchanged : live.copies.mapM (fun copy => (copyToModel copy).modelToCopy) =
      .ok live.copies := by
    generalize live.copies = copies
    induction copies with
    | nil => rfl
    | cons copy rest ih => rw [List.mapM_cons, modelToCopy_copyToModel, ih]; rfl
  rw [roundTrip, unchanged]
  exact modelToBook_bookToModel live.book live.copies

private theorem copies_listed {listed : Dict String Ref}
    (physical : live.book.copies? = some listed) :
    live.copies.map (fun copy => (copy.copyId, some copy)) = listedCopies live.objects listed := by
  have held : ∀ entry ∈ listed.entries, ∃ copy, live.objects.read? entry.2 = some copy ∧
      copy.copyId = entry.1 := by
    rintro ⟨copyId, ref⟩ member
    exact live.keyed listed copyId ref physical ((Dict.get?_eq_some_iff _ _ _).mpr member)
  simp only [copies, physical, Book.copyObjects, listedCopies, Dict.values, List.filterMap_map]
  generalize listed.entries = entries at held
  induction entries with
  | nil => rfl
  | cons entry rest ih =>
      obtain ⟨copy, read, identity⟩ := held entry (by simp)
      have later := ih fun other member => held other (by simp [member])
      simp only [List.filterMap_cons, Function.comp_apply, read, List.map_cons, identity] at later ⊢
      rw [later]

end LiveBook

/-- The columns of an edition that are read with a default are not falsy. -/
def Edition.Filled : Edition → Prop
  | .physical weightGrams pageCount _ => weightGrams ≠ 0 ∧ pageCount ≠ 0
  | .ebook _ _ fileFormat _ maxConcurrentDownloads _ =>
      fileFormat ≠ "" ∧ maxConcurrentDownloads ≠ 0
  | .audiobook _ _ narrator => narrator ≠ ""

theorem loadEdition_eq_iff (book : Book) :
    ({ book with edition := loadEdition book.edition } : Book).withoutCopies =
      book.withoutCopies ↔ Edition.Filled book.edition := by
  obtain ⟨isbn, title, authors, category, publicationYear, publisher, description, rating,
    difficultyLevel, keywords, borrowHistoryCount, edition⟩ := book
  cases edition with
  | physical weightGrams pageCount listed =>
      simp only [Book.withoutCopies, loadEdition, Edition.Filled, Book.mk.injEq, true_and,
        Edition.physical.injEq, and_true]
      constructor
      · rintro ⟨weight, pages⟩
        constructor <;> intro zero <;> simp [zero] at weight pages
      · rintro ⟨weight, pages⟩
        simp [weight, pages]
  | ebook downloadUrl fileSizeMb fileFormat drmProtected maxConcurrentDownloads
      activeReadersCount =>
      simp only [Book.withoutCopies, loadEdition, Edition.Filled, Book.mk.injEq, true_and,
        Edition.ebook.injEq, and_true]
      constructor
      · rintro ⟨format, limit⟩
        constructor <;> intro empty <;> simp [empty] at format limit
      · rintro ⟨format, limit⟩
        simp [format, limit]
  | audiobook streamUrl durationMinutes narrator =>
      simp only [Book.withoutCopies, loadEdition, Edition.Filled, Book.mk.injEq, true_and,
        Edition.audiobook.injEq]
      constructor
      · intro same empty
        simp [empty] at same
      · intro named
        simp [named]

namespace LiveBook

variable (live : LiveBook)

theorem copyIds_eq {listed : Dict String Ref} (physical : live.book.copies? = some listed) :
    live.copies.map BookCopy.copyId = listed.keys := by
  have identifiers := congrArg (List.map Prod.fst) (live.copies_listed physical)
  simpa [listedCopies, Dict.keys, Function.comp_def] using identifiers

/-- Loading replaces fields of the edition and nothing else. -/
theorem contents_loaded :
    let loaded := modelToBook live.book live.copies
    contents loaded.1 loaded.2 =
      (({ live.book with edition := loadEdition live.book.edition } : Book).withoutCopies,
        live.book.copies?.map (listedCopies live.objects)) := by
  cases edition : live.book.edition with
  | physical weightGrams pageCount listed =>
      have physical : live.book.copies? = some listed := by simp [Book.copies?, edition]
      have bare : ({ live.book with edition := loadEdition live.book.edition } : Book).copies? =
          some .empty := by
        simp [Book.copies?, loadEdition, edition]
      have distinct : ((Dict.empty : Dict String Ref).keys ++
          live.copies.map BookCopy.copyId).Nodup := by
        rw [live.copyIds_eq physical]
        exact listed.keysNodup
      have unused : ∀ copyId ref, (Dict.empty : Dict String Ref).get? copyId = some ref →
          ref < (Heap.empty : Heap BookCopy).next := by
        intro copyId ref found
        simp at found
      have loaded := addCopies_contents live.copies bare unused distinct
      simp only [modelToBook]
      rw [loaded, live.copies_listed physical, physical, edition]
      rfl
  | ebook _ _ _ _ _ _ | audiobook _ _ _ =>
      have digital : live.copies = [] := by simp [copies, Book.copies?, edition]
      simp [modelToBook, digital, contents, Book.copies?, edition, loadEdition]

end LiveBook

/-- A title survives the round trip iff no field of its edition that is read with a
default is falsy; its copies always survive. -/
theorem book_round_trip_iff (live : LiveBook) :
    (∃ objects book, live.roundTrip = .ok (objects, book) ∧
      contents objects book = contents live.objects live.book ∧
      book.isAvailable objects = live.book.isAvailable live.objects) ↔
    Edition.Filled live.book.edition := by
  have loaded := live.contents_loaded
  rw [← loadEdition_eq_iff live.book, live.roundTrip_eq]
  constructor
  · rintro ⟨objects, book, found, same, _⟩
    rw [Except.ok.inj found] at loaded
    exact (Prod.mk.inj (loaded.symm.trans same)).1
  · intro fields
    have same : contents (modelToBook live.book live.copies).1
        (modelToBook live.book live.copies).2 = contents live.objects live.book := by
      rw [loaded, fields]
      rfl
    exact ⟨_, _, rfl, same, isAvailable_congr same⟩

/-- An e-book that nobody may download comes back open to a hundred readers. -/
theorem closed_ebook_reopened :
    ∃ live : LiveBook, ¬ ∃ objects book, live.roundTrip = .ok (objects, book) ∧
      contents objects book = contents live.objects live.book ∧
      book.isAvailable objects = live.book.isAvailable live.objects := by
  let book : Book := {
    isbn := "I1", title := "Optics", authors := ["Newton"], category := "Physics"
    publicationYear := 1704, publisher := "Unknown", description := "", rating := 4
    difficultyLevel := "Advanced", keywords := [], borrowHistoryCount := 0
    edition := .ebook "url" 3 "PDF" true 0 0 }
  refine ⟨⟨.empty, book, by intro copies copyId ref listed; cases listed⟩, ?_⟩
  rintro ⟨objects, loaded, found, _, available⟩
  rw [LiveBook.roundTrip_eq] at found
  cases found
  exact absurd available (by decide +kernel)

end LibraFlow.Postgres
