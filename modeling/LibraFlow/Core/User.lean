import LibraFlow.Core.Errors

/-! Library users: roles, borrowing privileges, loan history and fines. -/

set_option autoImplicit false

namespace LibraFlow.Core

inductive UserRole where
  | student
  | faculty
  | librarian
  | admin
  deriving DecidableEq, Repr

def UserRole.value : UserRole → String
  | student => "STUDENT"
  | faculty => "FACULTY"
  | librarian => "LIBRARIAN"
  | admin => "ADMIN"

def UserRole.ofValue? (value : String) : Option UserRole :=
  [student, faculty, librarian, admin].find? (fun role => decide (role.value = value))

/-- One loan in a user's history. Timestamps are kept as points in time; the
source keeps their ISO text, which determines them. -/
structure HistoryEntry where
  copyId : String
  isbn : String
  borrowedAt : Datetime
  returnedAt : Option Datetime
  isLate : Bool
  isDamaged : Bool
  deriving DecidableEq, Repr

/-- A loan of the given copy that has not been returned. -/
def HistoryEntry.isOpenFor (copyId : String) (entry : HistoryEntry) : Bool :=
  entry.copyId = copyId ∧ entry.returnedAt = none

/-- The fields only one role has. -/
inductive Profile where
  | student (academicYear : Int) (major : String) (examDate : Option Nat)
  | faculty (department : String)
  | librarian (staffCode : String)
  | admin
  deriving DecidableEq, Repr

structure User where
  userId : String
  name : String
  email : String
  passwordHash : String
  maxBorrowLimit : Nat
  branchId : String
  activeBorrowedCopyIds : Finset String
  borrowHistory : List HistoryEntry
  activeReservations : Finset String
  unpaidFinesBalance : ℚ
  securityDepositBalance : ℚ
  isSuspended : Bool
  profile : Profile
  deriving DecidableEq

namespace User

def getRole (user : User) : UserRole :=
  match user.profile with
  | .student .. => .student
  | .faculty .. => .faculty
  | .librarian .. => .librarian
  | .admin => .admin

def canBorrow (user : User) : Bool :=
  if user.isSuspended then false
  else if 100 < user.unpaidFinesBalance then false
  else if user.maxBorrowLimit ≤ user.activeBorrowedCopyIds.card then false
  else true

/-- The history entry a checkout appends. -/
def openLoan (copyId isbn : String) (now : Datetime) : HistoryEntry where
  copyId := copyId
  isbn := isbn
  borrowedAt := now
  returnedAt := none
  isLate := false
  isDamaged := false

def addBorrow (user : User) (copyId isbn : String) (now : Datetime) : User :=
  { user with
    activeBorrowedCopyIds := insert copyId user.activeBorrowedCopyIds
    borrowHistory := user.borrowHistory ++ [openLoan copyId isbn now] }

/-- Close the first open loan of a copy. -/
def closeFirst (copyId : String) (isLate isDamaged : Bool) (now : Datetime) :
    List HistoryEntry → List HistoryEntry
  | [] => []
  | entry :: rest =>
      if entry.isOpenFor copyId then
        { entry with returnedAt := some now, isLate := isLate, isDamaged := isDamaged } :: rest
      else entry :: closeFirst copyId isLate isDamaged now rest

/-- Close the latest open loan of a copy: the source scans the history backwards. -/
def closeLatest (copyId : String) (isLate isDamaged : Bool) (now : Datetime)
    (history : List HistoryEntry) : List HistoryEntry :=
  (closeFirst copyId isLate isDamaged now history.reverse).reverse

def recordReturn (user : User) (copyId : String) (isLate isDamaged : Bool) (now : Datetime) :
    User :=
  { user with
    activeBorrowedCopyIds := user.activeBorrowedCopyIds.erase copyId
    borrowHistory := closeLatest copyId isLate isDamaged now user.borrowHistory }

def addFine (user : User) (amount : ℚ) : User :=
  { user with unpaidFinesBalance := user.unpaidFinesBalance + max 0 amount }

/-- The part of a payment that is applied to the fine. -/
def applied (user : User) (amount : ℚ) : ℚ := min user.unpaidFinesBalance amount

def payFine (user : User) (amount : ℚ) : User :=
  { user with unpaidFinesBalance := user.unpaidFinesBalance - user.applied amount }

/-- Number of loans returned late, which scales later fines. -/
def lateReturns (user : User) : Nat := (user.borrowHistory.filter HistoryEntry.isLate).length

end User

/-- The keyword arguments of the user factory beyond the required ones. -/
structure UserArguments where
  userId : String
  name : String
  email : String
  passwordHash : String
  branchId : Option String := none
  academicYear : Option Int := none
  major : Option String := none
  examDate : Option Nat := none
  department : Option String := none
  staffCode : Option String := none

/-- A user as the constructor leaves it. -/
def User.new (arguments : UserArguments) (maxBorrowLimit : Nat) (profile : Profile) : User where
  userId := arguments.userId
  name := arguments.name
  email := arguments.email
  passwordHash := arguments.passwordHash
  maxBorrowLimit := maxBorrowLimit
  branchId := arguments.branchId.getD "BRANCH-CENTRAL"
  activeBorrowedCopyIds := ∅
  borrowHistory := []
  activeReservations := ∅
  unpaidFinesBalance := 0
  securityDepositBalance := 0
  isSuspended := false
  profile := profile

/-- Build a user of a role given by name. The limits are those the role's
constructor passes on. -/
def createUser (role : String) (arguments : UserArguments) : Except Error User :=
  match UserRole.ofValue? (upper role) with
  | none => .error (.valueError ("'" ++ upper role ++ "' is not a valid UserRole"))
  | some .student =>
      .ok (.new arguments 4 (.student (arguments.academicYear.getD 1)
        (arguments.major.getD "Computer Science") arguments.examDate))
  | some .faculty =>
      .ok (.new arguments 10 (.faculty
        (arguments.department.getD "Computer Science & Engineering")))
  | some .librarian =>
      .ok (.new arguments 15 (.librarian
        (arguments.staffCode.getD ("LIB-" ++ arguments.userId))))
  | some .admin => .ok (.new arguments 50 .admin)

end LibraFlow.Core
