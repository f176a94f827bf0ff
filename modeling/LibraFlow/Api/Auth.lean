import LibraFlow.Library.Run
import LibraFlow.Services.Circulation
import LibraFlow.Storage.RedisCache

/-! Accounts, access tokens and the permissions that routes ask for. Any number of
clients register, log in and send requests. A registration looks for the identifier and
saves the account in two steps, so that two of them may overlap. -/

set_option autoImplicit false

namespace LibraFlow.Core

/-- The permissions of a role. -/
def UserRole.getPermissions : UserRole → Finset String
  | student => {"BOOK_SEARCH", "BOOK_RESERVE", "BOOK_READ_DIGITAL", "VIEW_PROFILE", "PAY_FINES"}
  | faculty => {"BOOK_SEARCH", "BOOK_RESERVE", "BOOK_READ_DIGITAL", "VIEW_PROFILE", "PAY_FINES",
      "FACULTY_PRIORITY_BORROW"}
  | librarian => {"BOOK_SEARCH", "BOOK_ISSUE", "BOOK_RETURN", "BOOK_MANAGE_INVENTORY",
      "BOOK_TRANSFER_INITIATE", "BOOK_TRANSFER_RECEIVE", "BOOK_ALLOCATE", "BOOK_RESERVE",
      "BILLING_PAY", "INTEL_RECOMMENDATIONS", "INTEL_RISK_ASSESSMENT", "INTEL_LEARNING_PATH",
      "INTEL_GRAPH_TRAVERSE", "FINE_WAIVE_PARTIAL", "USER_VIEW_CIRCULATION"}
  | admin => {"ALL"}

def UserRole.hasPermission (role : UserRole) (permission : String) : Bool :=
  permission ∈ role.getPermissions ∨ "ALL" ∈ role.getPermissions

end LibraFlow.Core

namespace LibraFlow.Api

open LibraFlow.Core LibraFlow.Library LibraFlow.Services LibraFlow.Storage

/-- The routes that need a permission. -/
inductive Route where
  | payFine
  | transferCopy
  | registerBook
  | addBookCopy
  | searchBooks
  | autocomplete
  | getBookDetails
  | issuePhysicalCopy
  | returnPhysicalCopy
  | reserveBook
  | requestSmartAllocation
  | processSmartAllocationDrop
  | getRecommendations
  | assessLateRisk
  | getLearningPath
  | findShortestPath
  | getRebalancingPlan
  | runRebalancing
  | completeTransfer
  | getRebalancingMetrics
  | getUserNotifications
  | getAuditLogs
  | getCacheStats
  deriving DecidableEq

def Route.permission : Route → String
  | payFine => "BILLING_PAY"
  | transferCopy => "BOOK_TRANSFER_INITIATE"
  | registerBook | addBookCopy => "BOOK_MANAGE_INVENTORY"
  | searchBooks | autocomplete | getBookDetails => "BOOK_SEARCH"
  | issuePhysicalCopy => "BOOK_ISSUE"
  | returnPhysicalCopy => "BOOK_RETURN"
  | reserveBook => "BOOK_RESERVE"
  | requestSmartAllocation | processSmartAllocationDrop => "BOOK_ALLOCATE"
  | getRecommendations => "INTEL_RECOMMENDATIONS"
  | assessLateRisk => "INTEL_RISK_ASSESSMENT"
  | getLearningPath => "INTEL_LEARNING_PATH"
  | findShortestPath => "INTEL_GRAPH_TRAVERSE"
  | getRebalancingPlan | runRebalancing | completeTransfer => "BRANCH_MANAGE"
  | getRebalancingMetrics => "BRANCH_VIEW"
  | getUserNotifications => "SYSTEM_NOTIFICATIONS"
  | getAuditLogs => "SYSTEM_AUDIT"
  | getCacheStats => "SYSTEM_CACHE"

/-- What a token says. -/
structure Claims where
  sub : String
  name : String
  role : String
  permissions : List String
  iat : Int
  exp : Int
  deriving DecidableEq

/-- The exceptions of the token library: `ExpiredSignatureError`, and the other errors of an
invalid token with their texts. -/
inductive JwtError where
  | expiredSignature
  | invalidToken (reason : String)
  deriving DecidableEq

/-- The token library under the key of the service; decoding reads the clock. -/
structure Jwt where
  encode : Claims → String
  decode : String → ℚ → Except JwtError Claims

/-- Password hashing; the salt is drawn afresh for each hash. -/
structure PasswordContext where
  hash : String → String → String
  verify : String → String → Bool

/-- The library reads the tokens of the service itself, from their `iat` on and before
their `exp`. -/
structure Jwt.ReadsOwn (jwt : Jwt) : Prop where
  valid : ∀ claims now, (claims.iat : ℚ) ≤ now → now < claims.exp →
    jwt.decode (jwt.encode claims) now = .ok claims
  immature : ∀ claims now, now < (claims.iat : ℚ) → jwt.decode (jwt.encode claims) now =
    .error (.invalidToken "The token is not yet valid (iat)")
  expired : ∀ claims now, (claims.iat : ℚ) ≤ now → (claims.exp : ℚ) ≤ now →
    jwt.decode (jwt.encode claims) now = .error .expiredSignature

/-- A password is recognised by each of its hashes, and no hash is empty. -/
def PasswordContext.Recognises (context : PasswordContext) : Prop :=
  ∀ salt password, context.hash salt password ≠ "" ∧
    context.verify password (context.hash salt password) = true

structure HttpRefusal where
  statusCode : Nat
  detail : String
  deriving DecidableEq

def unauthorized (detail : String) : HttpRefusal := ⟨401, detail⟩

def forbidden (detail : String) : HttpRefusal := ⟨403, detail⟩

def defaultExpiry : Int := 3600

/-- The claims of a new token. The clock is read twice, and the set of permissions is
listed in no particular order. -/
def accessClaims (user : User) (permissions : List String) (now later : ℚ) : Claims where
  sub := user.userId
  name := user.name
  role := user.getRole.value
  permissions := permissions
  iat := truncate now
  exp := truncate later + defaultExpiry

def createAccessToken (jwt : Jwt) (user : User) (permissions : List String) (now later : ℚ) :
    String :=
  jwt.encode (accessClaims user permissions now later)

def decodeAccessToken (jwt : Jwt) (token : String) (now : ℚ) : Except HttpRefusal Claims :=
  match jwt.decode token now with
  | .ok claims => .ok claims
  | .error .expiredSignature => .error (unauthorized "Token has expired.")
  | .error (.invalidToken reason) => .error (unauthorized ("Invalid token: " ++ reason))

def getCurrentUserClaims (jwt : Jwt) (credentials : Option String) (now : ℚ) :
    Except HttpRefusal Claims :=
  match credentials with
  | none => .error (unauthorized "Not authenticated. Please provide a Bearer token.")
  | some token => decodeAccessToken jwt token now

def requirePermission (jwt : Jwt) (permission : String) (credentials : Option String) (now : ℚ) :
    Except HttpRefusal Claims :=
  match getCurrentUserClaims jwt credentials now with
  | .error refusal => .error refusal
  | .ok claims =>
      if permission ∉ claims.permissions ∧ "ALL" ∉ claims.permissions then
        .error (forbidden ("Missing required permission: '" ++ permission ++ "'."))
      else .ok claims

def verifyPassword (context : PasswordContext) (plain hashed : String) : Bool :=
  if hashed = "" then false else context.verify plain hashed

/-- Why a login fails. -/
inductive LoginError where
  | unknownUser (error : Error)
  | refused (refusal : HttpRefusal)

def loginUser (jwt : Jwt) (context : PasswordContext) (users : Dict String User)
    (userId password : String) (permissions : List String) (now later : ℚ) :
    Except LoginError String :=
  match users.get? userId with
  | none => .error (.unknownUser (.userNotFound userId))
  | some user =>
      if verifyPassword context password user.passwordHash then
        .ok (createAccessToken jwt user permissions now later)
      else .error (.refused (unauthorized "Invalid credentials."))

/-- Where a registration stands. -/
inductive RegisterPhase where
  | idle
  | checked
  | registered
  | refused (error : Error)

/-- A registration: its request, and the password that the request sends. -/
structure Registration where
  request : RegisterRequest
  password : String

/-- The account a registration asks for. -/
def Registration.account (registration : Registration) (hashed : String) : Except Error User :=
  createUser registration.request.role
    { registration.request.arguments with passwordHash := hashed }

structure AuthSystem where
  users : Dict String User
  registrations : Nat → RegisterPhase
  clock : ℚ

inductive AuthAction where
  | checkUser (call : Nat)
  | saveUser (call : Nat) (salt : String)
  | login (userId password : String) (permissions : List String)
  | access (route : Route) (credentials : Option String)
  | profile (credentials : Option String)
  | service (user : User)

/-- An action with the times at which it begins and ends. -/
structure TimedAuthAction where
  now : ℚ
  later : ℚ
  action : AuthAction

/-- What an account keeps from its registration on. -/
def identityOf (user : User) : String × String × String × String × Profile :=
  (user.userId, user.name, user.email, user.passwordHash, user.profile)

namespace AuthSystem

variable (context : PasswordContext) (registrations : Nat → Registration)

def enter (system : AuthSystem) (call : Nat) (phase : RegisterPhase) : AuthSystem :=
  { system with registrations := Function.update system.registrations call phase }

def checkUser (system : AuthSystem) (call : Nat) : AuthSystem :=
  let userId := (registrations call).request.userId
  system.enter call
    (if system.users.contains userId then .refused (.duplicateUser userId) else .checked)

def saveUser (system : AuthSystem) (call : Nat) (salt : String) : AuthSystem :=
  let registration := registrations call
  match registration.account (context.hash salt registration.password) with
  | .error error => system.enter call (.refused error)
  | .ok user => { system.enter call .registered with
      users := Dict.set system.users user.userId user }

/-- The set of permissions of a user, in some order. -/
def lists (system : AuthSystem) (userId : String) (permissions : List String) : Bool :=
  match system.users.get? userId with
  | none => true
  | some user => permissions.toFinset = user.getRole.getPermissions

/-- Only registrations and services change accounts, and a service that saves a user
leaves its identity as it is. -/
def exec (system : AuthSystem) : AuthAction → Option AuthSystem
  | .checkUser call =>
      match system.registrations call with
      | .idle => some (system.checkUser registrations call)
      | _ => none
  | .saveUser call salt =>
      match system.registrations call with
      | .checked => some (system.saveUser context registrations call salt)
      | _ => none
  | .login userId _ permissions => if system.lists userId permissions then some system else none
  | .access .. | .profile _ => some system
  | .service user =>
      if (system.users.get? user.userId).map identityOf = some (identityOf user) then
        some { system with users := Dict.set system.users user.userId user }
      else none

end AuthSystem

/-- An action that does not begin before the last one. -/
def AuthStep (context : PasswordContext) (registrations : Nat → Registration)
    (before : AuthSystem) (label : TimedAuthAction) (after : AuthSystem) : Prop :=
  before.clock ≤ label.now ∧ label.now ≤ label.later ∧
    ∃ acted, before.exec context registrations label.action = some acted ∧
      after = { acted with clock := label.now }

abbrev AuthTrace : Type := List (Transition AuthSystem TimedAuthAction)

/-- The token a transition hands out. -/
def tokenOf (jwt : Jwt) (context : PasswordContext)
    (transition : Transition AuthSystem TimedAuthAction) : Option String :=
  match transition.label.action with
  | .login userId password permissions =>
      (loginUser jwt context transition.before.users userId password permissions
        transition.label.now transition.label.later).toOption
  | _ => none

/-- The profile of the caller, or the claims of a caller without an account. -/
def getCurrentProfile (jwt : Jwt) (users : Dict String User) (credentials : Option String)
    (now : ℚ) : Except HttpRefusal (Claims ⊕ User) :=
  match getCurrentUserClaims jwt credentials now with
  | .error refusal => .error refusal
  | .ok claims =>
      match users.get? claims.sub with
      | none => .ok (.inl claims)
      | some user => .ok (.inr user)

end LibraFlow.Api
