import LibraFlow.Api.Auth
import Mathlib.Logic.Encodable.Basic

/-! Who gets through to a route. A request that is let in goes back to a login and to a
registration before it; an account whose registration overlaps with no other of its
identifier stays as it was registered. -/

set_option autoImplicit false

namespace LibraFlow.Api

open LibraFlow.Core LibraFlow.Library LibraFlow.Services LibraFlow.Storage

/-- The system when it starts. -/
def AuthSystem.start (born : ℚ) : AuthSystem := ⟨.empty, fun _ => .idle, born⟩

/-- The token that an action presents. -/
def AuthAction.presented : AuthAction → Option String
  | .access _ credentials | .profile credentials => credentials
  | _ => none

/-- Who does not know the key only presents tokens that do not pass, or that were handed
out before. -/
def Unforged (jwt : Jwt) (context : PasswordContext) (trace : AuthTrace) : Prop :=
  ∀ leading transition trailing, trace = leading ++ transition :: trailing →
    ∀ token claims, transition.label.action.presented = some token →
      jwt.decode token transition.label.now = .ok claims →
        ∃ earlier ∈ leading, tokenOf jwt context earlier = some token

/-- No two registrations of one identifier overlap. -/
def Alone (registrations : Nat → Registration)
    (transition : Transition AuthSystem TimedAuthAction) : Prop :=
  ∀ call, transition.label.action = .checkUser call → ∀ other,
    transition.before.registrations other = .checked →
      (registrations other).request.userId ≠ (registrations call).request.userId

/-- A registration saves an account. -/
structure Saves (context : PasswordContext) (registrations : Nat → Registration)
    (transition : Transition AuthSystem TimedAuthAction) (call : Nat) (salt : String)
    (user : User) : Prop where
  action : transition.label.action = .saveUser call salt
  account : (registrations call).account (context.hash salt (registrations call).password) =
    .ok user

/-- Every account was saved by a registration. -/
def Registered (context : PasswordContext) (registrations : Nat → Registration)
    (trace : AuthTrace) (system : AuthSystem) : Prop :=
  ∀ userId user, system.users.get? userId = some user → user.userId = userId ∧
    ∃ transition ∈ trace, ∃ call salt created,
      Saves context registrations transition call salt created ∧
        identityOf created = identityOf user

/-- An identifier that a registration has found free is free, and no other has found it. -/
structure Exclusive (registrations : Nat → Registration) (system : AuthSystem) : Prop where
  free : ∀ call, system.registrations call = .checked →
    system.users.get? (registrations call).request.userId = none
  distinct : ∀ first second, system.registrations first = .checked →
    system.registrations second = .checked →
    (registrations first).request.userId = (registrations second).request.userId →
    first = second

section Steps

variable {context : PasswordContext} {registrations : Nat → Registration}
  {before after final : AuthSystem} {label : TimedAuthAction} {trace : AuthTrace}

private theorem account_ok {registration : Registration} {hashed : String} {user : User}
    (opened : registration.account hashed = .ok user) :
    user.userId = registration.request.userId ∧ user.passwordHash = hashed := by
  unfold Registration.account createUser at opened
  split at opened <;> cases opened <;> exact ⟨rfl, rfl⟩

/-- What an action does to accounts and registrations. -/
inductive Acts (context : PasswordContext) (registrations : Nat → Registration)
    (before : AuthSystem) : AuthAction → AuthSystem → Prop where
  | found {call : Nat} {error : Error} :
      Acts context registrations before (.checkUser call)
        (before.enter call (.refused error))
  | free {call : Nat}
      (absent : before.users.get? (registrations call).request.userId = none) :
      Acts context registrations before (.checkUser call) (before.enter call .checked)
  | rejected {call : Nat} {salt : String} {error : Error}
      (invalid : (registrations call).account
        (context.hash salt (registrations call).password) = .error error) :
      Acts context registrations before (.saveUser call salt)
        (before.enter call (.refused error))
  | saved {call : Nat} {salt : String} {user : User}
      (checked : before.registrations call = .checked)
      (opened : (registrations call).account
        (context.hash salt (registrations call).password) = .ok user) :
      Acts context registrations before (.saveUser call salt)
        { before.enter call .registered with users := Dict.set before.users user.userId user }
  | served {user stored : User} (found : before.users.get? user.userId = some stored)
      (same : identityOf stored = identityOf user) :
      Acts context registrations before (.service user)
        { before with users := Dict.set before.users user.userId user }
  | read {action : AuthAction} (reads : ∀ call salt, action ≠ .saveUser call salt) :
      Acts context registrations before action before

private theorem exec_acts {action : AuthAction}
    (ran : before.exec context registrations action = some after) :
    Acts context registrations before action after := by
  cases action with
  | checkUser call =>
      simp only [AuthSystem.exec, AuthSystem.checkUser] at ran
      split at ran <;> cases ran
      split
      · exact .found
      · next absent =>
          refine .free ?_
          rwa [Dict.contains, Bool.not_eq_true, Option.isSome_eq_false_iff,
            Option.isNone_iff_eq_none] at absent
  | saveUser call salt =>
      simp only [AuthSystem.exec] at ran
      split at ran <;> cases ran
      next checked =>
        cases opened : (registrations call).account
            (context.hash salt (registrations call).password) with
        | error error =>
            simp only [AuthSystem.saveUser, opened]
            exact .rejected opened
        | ok user =>
            simp only [AuthSystem.saveUser, opened]
            exact .saved checked opened
  | login userId password permissions =>
      simp only [AuthSystem.exec] at ran
      split at ran <;> cases ran
      exact .read (by simp)
  | access route credentials =>
      cases ran
      exact .read (by simp)
  | profile credentials =>
      cases ran
      exact .read (by simp)
  | service user =>
      simp only [AuthSystem.exec] at ran
      split at ran <;> cases ran
      next same =>
        obtain ⟨stored, found, same⟩ := Option.map_eq_some_iff.mp same
        exact .served found same

theorem AuthStep.acts (taken : AuthStep context registrations before label after) :
    ∃ acted, Acts context registrations before label.action acted ∧
      after = { acted with clock := label.now } := by
  obtain ⟨_, _, acted, ran, same⟩ := taken
  exact ⟨acted, exec_acts ran, same⟩

theorem Saves.userId {transition : Transition AuthSystem TimedAuthAction} {call : Nat}
    {salt : String} {user : User} (saves : Saves context registrations transition call salt user) :
    user.userId = (registrations call).request.userId :=
  (account_ok saves.account).1

theorem Registered.later (registered : Registered context registrations trace before)
    (transition : Transition AuthSystem TimedAuthAction) :
    Registered context registrations (trace ++ [transition]) before := by
  intro userId user found
  obtain ⟨keyed, saved, member, origin⟩ := registered userId user found
  exact ⟨keyed, saved, List.mem_append_left _ member, origin⟩

theorem Registered.step (registered : Registered context registrations trace before)
    (taken : AuthStep context registrations before label after) :
    Registered context registrations (trace ++ [⟨before, label, after⟩]) after := by
  obtain ⟨acted, acts, same⟩ := taken.acts
  have kept := registered.later ⟨before, label, after⟩
  subst after
  generalize action : label.action = performed at acts
  cases acts with
  | found | free | rejected | read => exact kept
  | @saved call salt user checked opened =>
      intro userId account found
      rw [Dict.get?_set] at found
      split at found
      · next same =>
          cases found
          exact ⟨same, _, List.mem_append_right _ List.mem_cons_self, call, salt, user,
            ⟨action, opened⟩, rfl⟩
      · exact kept userId account found
  | @served user stored found same =>
      intro userId account present
      rw [Dict.get?_set] at present
      split at present
      · next keyed =>
          cases present
          obtain ⟨_, saved, member, call, salt, created, saves, identity⟩ := kept _ _ found
          exact ⟨keyed, saved, member, call, salt, created, saves, identity.trans same⟩
      · exact kept userId account present

private theorem registered_run {born : ℚ}
    (run : Run (AuthStep context registrations) (.start born) trace final) :
    Registered context registrations trace final := by
  induction run with
  | nil =>
      intro userId user impossible
      cases impossible
  | snoc _ taken ih => exact ih.step taken

/-- A registration that moves to another phase than `checked`. -/
theorem Exclusive.enter (exclusive : Exclusive registrations before) (call : Nat)
    {phase : RegisterPhase} (settled : phase ≠ .checked) :
    Exclusive registrations (before.enter call phase) := by
  have still : ∀ other, (before.enter call phase).registrations other = .checked →
      before.registrations other = .checked := by
    intro other checked
    simp only [AuthSystem.enter] at checked
    by_cases same : other = call
    · subst other
      rw [Function.update_self] at checked
      exact absurd checked settled
    · rwa [Function.update_of_ne same] at checked
  refine ⟨fun other checked => exclusive.free other (still other checked), ?_⟩
  intro first second one two
  exact exclusive.distinct first second (still first one) (still second two)

theorem Exclusive.claim (exclusive : Exclusive registrations before) {call : Nat}
    (absent : before.users.get? (registrations call).request.userId = none)
    (alone : ∀ other, before.registrations other = .checked →
      (registrations other).request.userId ≠ (registrations call).request.userId) :
    Exclusive registrations (before.enter call .checked) := by
  have still : ∀ other, other ≠ call →
      (before.enter call .checked).registrations other = .checked →
      before.registrations other = .checked := by
    intro other different checked
    simp only [AuthSystem.enter] at checked
    rwa [Function.update_of_ne different] at checked
  constructor
  · intro other checked
    by_cases same : other = call
    · subst other
      exact absent
    · exact exclusive.free other (still other same checked)
  · intro first second one two same
    by_cases isFirst : first = call
    · by_cases isSecond : second = call
      · rw [isFirst, isSecond]
      · subst first
        exact absurd same.symm (alone second (still second isSecond two))
    · by_cases isSecond : second = call
      · subst second
        exact absurd same (alone first (still first isFirst one))
      · exact exclusive.distinct first second (still first isFirst one)
          (still second isSecond two) same

/-- Saving a user under an identifier that no open registration has found free. -/
theorem Exclusive.write (exclusive : Exclusive registrations before) {user : User}
    (taken : ∀ call, before.registrations call = .checked →
      (registrations call).request.userId ≠ user.userId) :
    Exclusive registrations
      { before with users := Dict.set before.users user.userId user } where
  free call checked := by
    rw [Dict.get?_set, if_neg (taken call checked).symm]
    exact exclusive.free call checked
  distinct := exclusive.distinct

theorem Exclusive.step (exclusive : Exclusive registrations before)
    (taken : AuthStep context registrations before label after)
    (alone : Alone registrations ⟨before, label, after⟩) : Exclusive registrations after := by
  obtain ⟨acted, acts, same⟩ := taken.acts
  have clocked : Exclusive registrations acted → Exclusive registrations after := by
    intro exclusive
    subst after
    exact ⟨exclusive.free, exclusive.distinct⟩
  refine clocked ?_
  generalize action : label.action = performed at acts
  cases acts with
  | found | rejected => exact exclusive.enter _ (by simp)
  | @free call absent => exact exclusive.claim absent (alone call action)
  | @saved call salt user checked opened =>
      have entered := exclusive.enter call (by simp : RegisterPhase.registered ≠ .checked)
      refine entered.write fun other waiting same => ?_
      simp only [AuthSystem.enter] at waiting
      by_cases self : other = call
      · subst other
        rw [Function.update_self] at waiting
        cases waiting
      · rw [Function.update_of_ne self] at waiting
        exact self (exclusive.distinct other call waiting checked
          (same.trans (account_ok opened).1))
  | @served user stored found same =>
      refine exclusive.write fun call checked taken => ?_
      rw [← taken, exclusive.free call checked] at found
      cases found
  | read => exact exclusive

/-- Accounts keep their identity. -/
theorem Exclusive.kept (exclusive : Exclusive registrations before)
    (taken : AuthStep context registrations before label after) {userId : String} {user : User}
    (found : before.users.get? userId = some user) :
    ∃ account, after.users.get? userId = some account ∧ identityOf account = identityOf user := by
  obtain ⟨acted, acts, same⟩ := taken.acts
  subst after
  generalize label.action = performed at acts
  cases acts with
  | found | free | rejected | read => exact ⟨user, found, rfl⟩
  | @saved call salt created checked opened =>
      refine ⟨user, ?_, rfl⟩
      rw [Dict.get?_set, if_neg, found]
      intro same
      rw [← same, (account_ok opened).1, exclusive.free call checked] at found
      cases found
  | @served changed stored present same =>
      by_cases keyed : changed.userId = userId
      · subst userId
        rw [present] at found
        cases found
        exact ⟨changed, by rw [Dict.get?_set, if_pos rfl], same.symm⟩
      · refine ⟨user, ?_, rfl⟩
        rw [Dict.get?_set, if_neg keyed, found]

private theorem exclusive_run {born : ℚ}
    (run : Run (AuthStep context registrations) (.start born) trace final)
    (alone : ∀ transition ∈ trace, Alone registrations transition) :
    Exclusive registrations final := by
  refine run.invariant alone ?_ fun before label after exclusive taken alone =>
    exclusive.step taken alone
  constructor
  · intro call impossible
    cases impossible
  · intro first second impossible
    cases impossible

/-- An account stays as it was through any further steps. -/
theorem kept_run {start : AuthSystem} (exclusive : Exclusive registrations start)
    (run : Run (AuthStep context registrations) start trace final)
    (alone : ∀ transition ∈ trace, Alone registrations transition) {userId : String} {user : User}
    (found : start.users.get? userId = some user) :
    ∃ account, final.users.get? userId = some account ∧ identityOf account = identityOf user := by
  induction run with
  | nil => exact ⟨user, found, rfl⟩
  | snoc earlier taken ih =>
      have passed := fun transition member => alone transition (List.mem_append_left _ member)
      obtain ⟨stored, present, same⟩ := ih passed
      have before := earlier.invariant passed exclusive fun _ _ _ exclusive taken alone =>
        exclusive.step taken alone
      obtain ⟨account, after, kept⟩ := before.kept taken present
      exact ⟨account, after, kept.trans same⟩

end Steps

section Requests

variable {jwt : Jwt} {context : PasswordContext} {registrations : Nat → Registration}

private theorem getRole_of_identity {first second : User}
    (same : identityOf first = identityOf second) :
    first.getRole = second.getRole := by
  have profile : first.profile = second.profile := congrArg (fun identity => identity.2.2.2.2) same
  rw [User.getRole, User.getRole, profile]

/-- A token of the service that is accepted is read as it was written, and before it expires. -/
theorem Jwt.ReadsOwn.accepted (own : jwt.ReadsOwn) {issued claims : Claims} {now : ℚ}
    (decoded : jwt.decode (jwt.encode issued) now = .ok claims) :
    claims = issued ∧ now < issued.exp := by
  rcases lt_or_ge now (issued.iat : ℚ) with early | begun
  · rw [own.immature issued now early] at decoded
    cases decoded
  · rcases lt_or_ge now (issued.exp : ℚ) with fresh | late
    · rw [own.valid issued now begun fresh] at decoded
      cases decoded
      exact ⟨rfl, fresh⟩
    · rw [own.expired issued now begun late] at decoded
      cases decoded

private theorem requirePermission_ok {permission : String} {credentials : Option String} {now : ℚ}
    {claims : Claims} (accepted : requirePermission jwt permission credentials now = .ok claims) :
    ∃ token, credentials = some token ∧ jwt.decode token now = .ok claims ∧
      (permission ∈ claims.permissions ∨ "ALL" ∈ claims.permissions) := by
  unfold requirePermission getCurrentUserClaims at accepted
  cases credentials with
  | none => cases accepted
  | some token =>
      simp only [decodeAccessToken] at accepted
      cases decoded : jwt.decode token now with
      | error reason =>
          rw [decoded] at accepted
          cases reason <;> cases accepted
      | ok read =>
          simp only [decoded] at accepted
          split at accepted
          · cases accepted
          · next granted =>
              cases accepted
              rw [not_and_or, not_not, not_not] at granted
              exact ⟨token, rfl, decoded, granted⟩

/-- How a route answers to a token of the service. -/
theorem requirePermission_own (own : jwt.ReadsOwn) (permission : String) {claims : Claims} {now : ℚ}
    (issued : claims.iat ≤ now) : requirePermission jwt permission (some (jwt.encode claims)) now =
      if claims.exp ≤ now then .error (unauthorized "Token has expired.")
      else if permission ∈ claims.permissions ∨ "ALL" ∈ claims.permissions then .ok claims
      else .error (forbidden ("Missing required permission: '" ++ permission ++ "'.")) := by
  simp only [requirePermission, getCurrentUserClaims, decodeAccessToken]
  by_cases late : (claims.exp : ℚ) ≤ now
  · simp only [own.expired claims now issued late, late, ↓reduceIte]
  · simp only [own.valid claims now issued (not_le.mp late), late, ↓reduceIte]
    by_cases granted : permission ∈ claims.permissions ∨ "ALL" ∈ claims.permissions
    · rw [if_pos granted, if_neg (by tauto)]
    · rw [if_neg granted, if_pos (by tauto)]

private theorem loginUser_ok {users : Dict String User} {userId password token : String}
    {permissions : List String} {now later : ℚ}
    (answered : loginUser jwt context users userId password permissions now later = .ok token) :
    ∃ user, users.get? userId = some user ∧
      verifyPassword context password user.passwordHash = true ∧
      token = jwt.encode (accessClaims user permissions now later) := by
  unfold loginUser at answered
  cases found : users.get? userId with
  | none =>
      rw [found] at answered
      cases answered
  | some user =>
      simp only [found] at answered
      split at answered
      · next verified =>
          cases answered
          exact ⟨user, rfl, verified, rfl⟩
      · cases answered

private theorem getCurrentProfile_own (own : jwt.ReadsOwn) {claims : Claims} {now : ℚ}
    {users : Dict String User} {user : User} (found : users.get? claims.sub = some user)
    (issued : claims.iat ≤ now) : getCurrentProfile jwt users (some (jwt.encode claims)) now =
      if claims.exp ≤ now then .error (unauthorized "Token has expired.")
      else .ok (.inr user) := by
  simp only [getCurrentProfile, getCurrentUserClaims, decodeAccessToken]
  by_cases late : (claims.exp : ℚ) ≤ now
  · simp only [own.expired claims now issued late, late, ↓reduceIte]
  · simp only [own.valid claims now issued (not_le.mp late), late, ↓reduceIte, found]

private theorem truncate_le {now : ℚ} (positive : 0 ≤ now) : truncate now ≤ now := by
  rw [truncate, if_pos positive]
  exact Int.floor_le now

private theorem mem_permissions_iff {role : UserRole} {permissions : List String}
    (listed : permissions.toFinset = role.getPermissions) (permission : String) :
    permission ∈ permissions ∨ "ALL" ∈ permissions ↔ role.hasPermission permission = true := by
  rw [UserRole.hasPermission, decide_eq_true_eq, ← listed, List.mem_toFinset, List.mem_toFinset]

/-- What a token that is handed out says, and of whom. -/
theorem tokenOf_eq_some {transition : Transition AuthSystem TimedAuthAction} {token : String}
    (taken : AuthStep context registrations transition.before transition.label transition.after)
    (handed : tokenOf jwt context transition = some token) :
    ∃ userId password permissions user,
      transition.label.action = .login userId password permissions ∧
      transition.before.users.get? userId = some user ∧
      verifyPassword context password user.passwordHash = true ∧
      permissions.toFinset = user.getRole.getPermissions ∧
      token = jwt.encode
        (accessClaims user permissions transition.label.now transition.label.later) := by
  unfold tokenOf at handed
  cases action : transition.label.action with
  | login userId password permissions =>
      rw [action] at handed
      cases answered : loginUser jwt context transition.before.users userId password permissions
          transition.label.now transition.label.later with
      | error error =>
          simp only [answered] at handed
          cases handed
      | ok given =>
          simp only [answered] at handed
          cases handed
          obtain ⟨user, found, verified, same⟩ := loginUser_ok answered
          refine ⟨userId, password, permissions, user, rfl, found, verified, ?_, same⟩
          obtain ⟨_, _, acted, ran, _⟩ := taken
          simp only [action, AuthSystem.exec, AuthSystem.lists, found] at ran
          split at ran
          · next listed => exact of_decide_eq_true listed
          · cases ran
  | checkUser | saveUser | access | profile | service =>
      rw [action] at handed
      cases handed

end Requests

/-- In every run of registrations, logins and requests, however they overlap: a request
that a route lets in comes within an hour of a login, with the password of a registration
of the same user under a role that has the permission. -/
theorem run_accessSound (jwt : Jwt) (own : jwt.ReadsOwn) (context : PasswordContext)
    (registrations : Nat → Registration) {born : ℚ} {final : AuthSystem}
    {leading trailing : AuthTrace} {transition : Transition AuthSystem TimedAuthAction}
    (run : Run (AuthStep context registrations) (.start born)
      (leading ++ transition :: trailing) final)
    (unforged : Unforged jwt context (leading ++ transition :: trailing)) {route : Route}
    {credentials : Option String} {claims : Claims}
    (asked : transition.label.action = .access route credentials)
    (accepted : requirePermission jwt route.permission credentials transition.label.now =
      .ok claims) :
    ∃ first login rest, leading = first ++ login :: rest ∧
      (∃ password permissions, login.label.action = .login claims.sub password permissions ∧
        tokenOf jwt context login = credentials ∧
        transition.label.now < truncate login.label.later + 3600 ∧
        ∃ saved ∈ first, ∃ call salt user, Saves context registrations saved call salt user ∧
          user.userId = claims.sub ∧
          verifyPassword context password
            (context.hash salt (registrations call).password) = true ∧
          claims.role = user.getRole.value ∧
          user.getRole.hasPermission route.permission = true) := by
  obtain ⟨token, rfl, decoded, granted⟩ := requirePermission_ok accepted
  obtain ⟨login, member, handed⟩ :=
    unforged leading transition trailing rfl token claims (by rw [asked]; rfl) decoded
  obtain ⟨first, rest, rfl⟩ := List.append_of_mem member
  refine ⟨first, login, rest, rfl, ?_⟩
  obtain ⟨middle, upTo, _⟩ := run.split
  have cut : first ++ login :: rest = (first ++ [login]) ++ rest := by simp
  rw [cut] at upTo
  obtain ⟨_, loggedIn, _⟩ := upTo.split
  obtain ⟨earlier, taken, _⟩ := loggedIn.last
  obtain ⟨userId, password, permissions, user, action, found, verified, listed, same⟩ :=
    tokenOf_eq_some taken handed
  rw [same] at decoded
  obtain ⟨rfl, fresh⟩ := own.accepted decoded
  obtain ⟨keyed, saved, before, call, salt, created, saves, identity⟩ :=
    registered_run earlier userId user found
  have role := getRole_of_identity identity
  have userIds : created.userId = user.userId := congrArg Prod.fst identity
  have hashes : created.passwordHash = user.passwordHash :=
    congrArg (fun identity => identity.2.2.2.1) identity
  refine ⟨password, permissions, ?_, handed, ?_, saved, before, call, salt, created, saves,
    userIds, ?_, ?_, ?_⟩
  · rw [action, accessClaims, keyed]
  · simpa [accessClaims, defaultExpiry] using fresh
  · rwa [← (account_ok saves.account).2, hashes]
  · rw [role]
    rfl
  · rw [role]
    exact (mem_permissions_iff listed _).mp granted

/-- In every run in which registrations of one identifier do not overlap: an account is
never overwritten once it is saved. Its password always gets a token, which for an hour
opens exactly the routes of the role it was registered under. -/
theorem run_registeredAccess (jwt : Jwt) (own : jwt.ReadsOwn) (context : PasswordContext)
    (recognises : context.Recognises) (registrations : Nat → Registration) {born : ℚ}
    {final : AuthSystem} {leading trailing : AuthTrace}
    {saved : Transition AuthSystem TimedAuthAction}
    (run : Run (AuthStep context registrations) (.start born)
      (leading ++ saved :: trailing) final)
    (alone : ∀ transition ∈ leading ++ saved :: trailing, Alone registrations transition)
    {call : Nat} {salt : String} {user : User}
    (saves : Saves context registrations saved call salt user) :
    ∃ account, final.users.get? user.userId = some account ∧ identityOf account = identityOf user ∧
      ∀ permissions now later, permissions.toFinset = user.getRole.getPermissions → 0 ≤ now →
        ∃ claims, loginUser jwt context final.users user.userId (registrations call).password
            permissions now later = .ok (jwt.encode claims) ∧
          claims.sub = user.userId ∧ claims.role = user.getRole.value ∧
          ∀ time, now ≤ time →
            (∀ route : Route, requirePermission jwt route.permission (some (jwt.encode claims)) time =
              if truncate later + 3600 ≤ time then .error (unauthorized "Token has expired.")
              else if user.getRole.hasPermission route.permission then .ok claims
              else .error
                (forbidden ("Missing required permission: '" ++ route.permission ++ "'."))) ∧
            getCurrentProfile jwt final.users (some (jwt.encode claims)) time =
              if truncate later + 3600 ≤ time then .error (unauthorized "Token has expired.")
              else .ok (.inr account) := by
  have cut : leading ++ saved :: trailing = (leading ++ [saved]) ++ trailing := by simp
  rw [cut] at run alone
  obtain ⟨middle, upTo, after⟩ := run.split
  obtain ⟨_, taken, reached⟩ := upTo.last
  have exclusive : Exclusive registrations middle :=
    exclusive_run upTo fun transition member => alone transition (List.mem_append_left _ member)
  have stored : middle.users.get? user.userId = some user := by
    obtain ⟨acted, acts, same⟩ := taken.acts
    rw [← reached, same]
    rw [saves.action] at acts
    cases acts with
    | rejected invalid =>
        rw [saves.account] at invalid
        cases invalid
    | saved checked opened =>
        rw [saves.account] at opened
        cases opened
        exact Dict.get?_set_self _ _ _
    | read reads => exact absurd rfl (reads call salt)
  obtain ⟨account, present, identity⟩ := kept_run exclusive after
    (fun transition member => alone transition (List.mem_append_right _ member)) stored
  refine ⟨account, present, identity, fun permissions now later listed positive => ?_⟩
  have userId : account.userId = user.userId := congrArg Prod.fst identity
  have role := getRole_of_identity identity
  have hash : account.passwordHash = context.hash salt (registrations call).password :=
    (congrArg (fun identity => identity.2.2.2.1) identity).trans (account_ok saves.account).2
  have verified : verifyPassword context (registrations call).password account.passwordHash =
      true := by
    obtain ⟨filled, known⟩ := recognises salt (registrations call).password
    rw [verifyPassword, hash, if_neg filled]
    exact known
  refine ⟨accessClaims account permissions now later, ?_, userId, by rw [← role]; rfl,
    fun time past => ⟨fun route => ?_, ?_⟩⟩
  · simp only [loginUser, present, verified, ↓reduceIte]
    rfl
  · have issued : ((accessClaims account permissions now later).iat : ℚ) ≤ time :=
      (truncate_le positive).trans past
    rw [requirePermission_own own route.permission issued]
    have granted := mem_permissions_iff listed route.permission
    simp only [accessClaims, granted, defaultExpiry, Int.cast_add, Int.cast_ofNat]
  · have issued : ((accessClaims account permissions now later).iat : ℚ) ≤ time :=
      (truncate_le positive).trans past
    have found : final.users.get? (accessClaims account permissions now later).sub =
        some account := by
      rw [← present, ← userId]
      rfl
    rw [getCurrentProfile_own own found issued]
    simp only [accessClaims, defaultExpiry, Int.cast_add, Int.cast_ofNat]

/-- A text as the numbers of its characters. -/
def letters (text : String) : List Nat := text.toList.map Char.toNat

def spell (codes : List Nat) : String := String.ofList (codes.map Char.ofNat)

@[simp] theorem spell_letters (text : String) : spell (letters text) = text := by
  simp [spell, letters, Function.comp_def]

abbrev Fields : Type := List Nat × List Nat × List Nat × List (List Nat) × Int × Int

def Claims.fields (claims : Claims) : Fields :=
  (letters claims.sub, letters claims.name, letters claims.role, claims.permissions.map letters,
    claims.iat, claims.exp)

def claimsOf : Fields → Claims
  | (sub, name, role, permissions, iat, exp) =>
      ⟨spell sub, spell name, spell role, permissions.map spell, iat, exp⟩

private theorem claimsOf_fields (claims : Claims) : claimsOf claims.fields = claims := by
  simp [claimsOf, Claims.fields, Function.comp_def]

/-- A library whose tokens are as long as the number of their claims. -/
def plainJwt : Jwt where
  encode claims := String.ofList (List.replicate (Encodable.encode claims.fields) 'a')
  decode token now :=
    match (Encodable.decode token.length : Option Fields) with
    | none => .error (.invalidToken "Not enough segments")
    | some fields =>
        if token ≠ String.ofList (List.replicate (Encodable.encode fields) 'a') then
          .error (.invalidToken "Signature verification failed")
        else if now < (claimsOf fields).iat then
          .error (.invalidToken "The token is not yet valid (iat)")
        else if (claimsOf fields).exp ≤ now then .error .expiredSignature
        else .ok (claimsOf fields)

private theorem plainJwt_decode (claims : Claims) (now : ℚ) :
    plainJwt.decode (plainJwt.encode claims) now =
      if now < claims.iat then .error (.invalidToken "The token is not yet valid (iat)")
      else if claims.exp ≤ now then .error .expiredSignature else .ok claims := by
  simp only [plainJwt, String.length_ofList, List.length_replicate, Encodable.encodek,
    claimsOf_fields, ne_eq, not_true_eq_false, ↓reduceIte]

private theorem plainJwt_readsOwn : plainJwt.ReadsOwn where
  valid claims now begun fresh := by
    rw [plainJwt_decode, if_neg (not_lt.mpr begun), if_neg (not_le.mpr fresh)]
  immature claims now early := by
    rw [plainJwt_decode, if_pos early]
  expired claims now begun late := by
    rw [plainJwt_decode, if_neg (not_lt.mpr begun), if_pos late]

/-- Hashes that end in their password. -/
def plainContext : PasswordContext where
  hash salt password := "$" ++ salt ++ "$" ++ password
  verify plain hashed := ("$" ++ plain).toList.isSuffixOf hashed.toList

private theorem plainContext_recognises : plainContext.Recognises := by
  intro salt password
  constructor
  · simp [plainContext]
  · simp [plainContext]

def oneStudent : Nat → Registration := fun _ =>
  ⟨{ userId := "U1", name := "N", email := "E", passwordHash := "" }, "secret"⟩

def student : User :=
  .new { oneStudent 0 |>.request.arguments with passwordHash := "$s$secret" } 4
    (.student 1 "Computer Science" none)

def studentClaims : Claims :=
  accessClaims student ["BOOK_SEARCH", "BOOK_RESERVE", "BOOK_READ_DIGITAL", "VIEW_PROFILE",
    "PAY_FINES"] 10 10

def registering : AuthSystem := { AuthSystem.start 0 with
  registrations := Function.update (fun _ => .idle) 0 .checked
  clock := 1 }

def enrolled : AuthSystem where
  users := Dict.set .empty "U1" student
  registrations := Function.update registering.registrations 0 .registered
  clock := 2

/-- The system at a later time. -/
def enrolledAt (now : ℚ) : AuthSystem := { enrolled with clock := now }

def enrolment : AuthTrace :=
  [⟨.start 0, ⟨1, 1, .checkUser 0⟩, registering⟩,
    ⟨registering, ⟨2, 2, .saveUser 0 "s"⟩, enrolled⟩]

def studentLogin : Transition AuthSystem TimedAuthAction :=
  ⟨enrolled, ⟨10, 10, .login "U1" "secret" studentClaims.permissions⟩, enrolledAt 10⟩

/-- The student searches for a book. -/
def studentVisit : Transition AuthSystem TimedAuthAction :=
  ⟨enrolledAt 10, ⟨100, 100, .access .searchBooks (some (plainJwt.encode studentClaims))⟩,
    enrolledAt 100⟩

private theorem enrolment_run : Run (AuthStep plainContext oneStudent)
    (.start 0) enrolment enrolled := by
  refine Run.cons ⟨by decide, by decide, _, rfl, rfl⟩ ?_
  exact Run.cons ⟨by decide, by decide, _, rfl, rfl⟩ .nil

private theorem visit_run : Run (AuthStep plainContext oneStudent) (.start 0)
    (enrolment ++ [studentLogin] ++ [studentVisit]) (enrolledAt 100) := by
  have permitted : enrolled.exec plainContext oneStudent
      (.login "U1" "secret" studentClaims.permissions) = some enrolled := by
    have listed : enrolled.lists "U1" studentClaims.permissions = true := by decide
    rw [AuthSystem.exec, if_pos listed]
  have loggedIn : AuthStep plainContext oneStudent enrolled studentLogin.label (enrolledAt 10) :=
    ⟨by decide, by decide, enrolled, permitted, rfl⟩
  have visited : AuthStep plainContext oneStudent (enrolledAt 10) studentVisit.label
      (enrolledAt 100) := by
    refine ⟨by decide, by decide, enrolledAt 10, ?_, ?_⟩
    · simp only [studentVisit, AuthSystem.exec]
    · simp only [studentVisit, enrolledAt]
  exact (enrolment_run.snoc loggedIn).snoc visited

private theorem studentLogin_token :
    tokenOf plainJwt plainContext studentLogin = some (plainJwt.encode studentClaims) := by
  have verified : verifyPassword plainContext "secret" student.passwordHash = true := by decide
  have found : enrolled.users.get? "U1" = some student := by decide
  simp only [tokenOf, studentLogin, loginUser, found, verified, ↓reduceIte]
  rfl

private theorem visit_unforged : Unforged plainJwt plainContext
    (enrolment ++ [studentLogin] ++ [studentVisit]) := by
  intro leading transition trailing whole token claims presented decoded
  rcases List.eq_nil_or_concat trailing with rfl | ⟨init, last, rfl⟩
  · obtain ⟨same, last⟩ := List.append_inj' whole rfl
    obtain rfl : studentVisit = transition := List.singleton_inj.mp last
    have token : plainJwt.encode studentClaims = token := Option.some.inj presented
    subst token
    refine ⟨studentLogin, ?_, studentLogin_token⟩
    rw [← same]
    simp
  · have member : transition ∈ enrolment ++ [studentLogin] := by
      rw [List.concat_eq_append, ← List.cons_append, ← List.append_assoc] at whole
      obtain ⟨same, _⟩ := List.append_inj' whole rfl
      rw [same]
      simp
    simp only [enrolment, List.cons_append, List.nil_append, List.mem_cons, List.not_mem_nil,
      or_false] at member
    rcases member with rfl | rfl | rfl <;> cases presented

private theorem visit_accepted : requirePermission plainJwt Route.searchBooks.permission
    (some (plainJwt.encode studentClaims)) 100 = .ok studentClaims := by
  rw [requirePermission_own plainJwt_readsOwn _ (by decide), if_neg (by decide),
    if_pos (.inl (by decide))]

/-- The search of the student goes back to the login. -/
theorem run_accessSound_studentVisit :
    ∃ login ∈ enrolment ++ [studentLogin],
      tokenOf plainJwt plainContext login = some (plainJwt.encode studentClaims) ∧
      (100 : ℚ) < truncate login.label.later + 3600 := by
  obtain ⟨first, login, rest, same, _, _, _, handed, fresh, _⟩ :=
    run_accessSound plainJwt plainJwt_readsOwn plainContext oneStudent visit_run visit_unforged
      (rfl : studentVisit.label.action = _) visit_accepted
  refine ⟨login, ?_, handed, fresh⟩
  rw [same]
  simp

/-- An hour after the login the student is no longer let in, and the circulation desk
never was open to her. -/
theorem run_registeredAccess_student :
    ∃ claims, loginUser plainJwt plainContext enrolled.users "U1" "secret"
        studentClaims.permissions 10 10 = .ok (plainJwt.encode claims) ∧
      requirePermission plainJwt "BOOK_SEARCH" (some (plainJwt.encode claims)) 3609 = .ok claims ∧
      requirePermission plainJwt "BOOK_SEARCH" (some (plainJwt.encode claims)) 3610 =
        .error (unauthorized "Token has expired.") ∧
      requirePermission plainJwt "BOOK_ISSUE" (some (plainJwt.encode claims)) 100 =
        .error (forbidden "Missing required permission: 'BOOK_ISSUE'.") := by
  have alone : ∀ transition ∈ enrolment, Alone oneStudent transition := by
    intro transition member call checks other checked
    simp only [enrolment, List.mem_cons, List.not_mem_nil, or_false] at member
    rcases member with rfl | rfl
    · cases checked
    · cases checks
  have saves : Saves plainContext oneStudent
      ⟨registering, ⟨2, 2, .saveUser 0 "s"⟩, enrolled⟩ 0 "s" student := ⟨rfl, rfl⟩
  have run : Run (AuthStep plainContext oneStudent) (.start 0)
      ([⟨.start 0, ⟨1, 1, .checkUser 0⟩, registering⟩] ++
        ⟨registering, ⟨2, 2, .saveUser 0 "s"⟩, enrolled⟩ :: []) enrolled := enrolment_run
  obtain ⟨_, _, _, access⟩ := run_registeredAccess plainJwt plainJwt_readsOwn plainContext
    plainContext_recognises oneStudent run alone saves
  obtain ⟨claims, token, _, _, answers⟩ := access studentClaims.permissions 10 10 (by decide)
    (by decide)
  refine ⟨claims, token, ?_, ?_, ?_⟩
  · refine ((answers 3609 (by decide)).1 .searchBooks).trans ?_
    rw [if_neg (by decide +kernel), if_pos (by decide)]
  · refine ((answers 3610 (by decide)).1 .searchBooks).trans ?_
    rw [if_pos (by decide +kernel)]
  · refine ((answers 100 (by decide)).1 .issuePhysicalCopy).trans ?_
    rw [if_neg (by decide +kernel), if_neg (by decide)]
    rfl

end LibraFlow.Api
