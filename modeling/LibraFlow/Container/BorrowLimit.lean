import LibraFlow.Container.ConcurrentIssue
import LibraFlow.Storage.Acquisition
import Mathlib.Data.Fintype.Basic

/-! The borrow limit under concurrent checkouts on the in-memory container. The
check of the limit and the loan it admits are separate steps on the shared user
object, and the lock of a checkout covers its copy only. The limit is kept in
every run in which a passing check finds room for the loans that other requests
have been admitted to. -/

set_option autoImplicit false

namespace LibraFlow.Storage.BookRepository

open LibraFlow.Core LibraFlow.Library

/-- The identifiers of the copies issued to a user. -/
def issuedTo (repository : BookRepository) (userId : String) : Finset String :=
  repository.copies.keysWhere fun ref =>
    (repository.objects.read? ref).any fun copy => copy.currentBorrowerId = some userId

theorem mem_issuedTo {repository : BookRepository} {userId copyId : String} :
    copyId ∈ repository.issuedTo userId ↔
      ∃ copy, repository.view copyId = some copy ∧ copy.currentBorrowerId = some userId := by
  simp only [issuedTo, Dict.mem_keysWhere, Option.any_eq_true, decide_eq_true_eq, view_eq_some_iff,
    getCopy_eq_some_iff]
  constructor
  · rintro ⟨ref, held, copy, read, borrower⟩
    exact ⟨copy, ⟨ref, held, read⟩, borrower⟩
  · rintro ⟨copy, ⟨ref, held, read⟩, borrower⟩
    exact ⟨ref, held, copy, read, borrower⟩

private theorem issuedTo_congr {before after : BookRepository} (same : after.view = before.view)
    (userId : String) : after.issuedTo userId = before.issuedTo userId := by
  ext copyId
  rw [mem_issuedTo, mem_issuedTo, same]

end LibraFlow.Storage.BookRepository

namespace LibraFlow.Container

open LibraFlow.Core LibraFlow.Library LibraFlow.Storage LibraFlow.Services

/-- The loans of a user are within the limit: those on the user's own list, and
the copies that name the user as their borrower. -/
def WithinLimit (user : User) (issued : Finset String) : Prop :=
  user.activeBorrowedCopyIds.card ≤ user.maxBorrowLimit ∧ issued.card ≤ user.maxBorrowLimit

/-- The list of a user is exactly the copies issued to the user, within the limit. -/
structure Balanced (userId : String) (user : User) (issued : Finset String) : Prop where
  named : user.userId = userId
  listed : user.activeBorrowedCopyIds = issued
  within : issued.card ≤ user.maxBorrowLimit

/-- Checkouts of different copies for one user. -/
structure ForOneUser {n : Nat} (checkouts : Fin n → Checkout) (userId : String) : Prop where
  user : ∀ thread, (checkouts thread).request.userId = userId
  copies : ∀ left right, (checkouts left).request.copyId = (checkouts right).request.copyId →
    left = right

/-- The copy of a checkout can still be taken. -/
def Checkout.takeable (checkout : Checkout) (state : State) : Bool :=
  (state.bookRepo.view checkout.request.copyId).any fun copy =>
    mayTake copy checkout.request.userId

def IssuePhase.isTaken : IssuePhase → Bool
  | .taken _ => true
  | _ => false

/-- A request that was admitted and will charge the user with its copy. -/
def IssuePhase.awaits (takeable : Bool) : IssuePhase → Bool
  | .admitted | .found _ | .cleared _ => takeable
  | .taken _ => true
  | _ => false

/-- The copy object a request holds while its loan is not on the user's list. -/
def IssuePhase.ref? : IssuePhase → Option Ref
  | .found ref | .cleared ref | .taken ref | .borrowed ref | .completing ref _ _ => some ref
  | _ => none

namespace Threads

variable {n : Nat}

def awaits (checkouts : Fin n → Checkout) (threads : Threads n) (thread : Fin n) : Bool :=
  (threads.phases thread).awaits ((checkouts thread).takeable threads.state)

/-- The requests that were admitted and have not charged the user yet. -/
def pending (checkouts : Fin n → Checkout) (threads : Threads n) : Finset (Fin n) :=
  Finset.univ.filter fun thread => threads.awaits checkouts thread = true

/-- Where a check of the limit passes for a copy that can be taken, the limit has
room for this loan beside those already admitted. -/
def LeavesRoom (checkouts : Fin n → Checkout)
    (transition : Transition (Threads n) (IssueAction n)) : Prop :=
  ∀ thread user, transition.label = .advance thread →
    transition.before.phases thread = .loaded →
    transition.before.state.users.get? (checkouts thread).request.userId = some user →
    user.canBorrow = true → (checkouts thread).takeable transition.before.state = true →
    user.activeBorrowedCopyIds.card + (transition.before.pending checkouts).card <
      user.maxBorrowLimit

end Threads

/-- What one step of a checkout does. -/
inductive Checkout.Steps (checkout : Checkout) (state : State) :
    IssuePhase → State → IssuePhase → Prop where
  | refused {phase : IssuePhase} (error : Error) (notTaken : phase.isTaken = false) :
      Steps checkout state phase state (.failed (some error))
  | loaded : Steps checkout state .locked state .loaded
  | admitted {user : User} (found : state.users.get? checkout.request.userId = some user)
      (eligible : user.canBorrow = true) : Steps checkout state .loaded state .admitted
  | found {ref : Ref} {copy : BookCopy}
      (found : state.bookRepo.getCopy checkout.request.copyId = some (ref, copy)) :
      Steps checkout state .admitted state (.found ref)
  | cleared {ref : Ref} {copy : BookCopy} (read : state.bookRepo.objects.read? ref = some copy)
      (allowed : mayTake copy checkout.request.userId = true) :
      Steps checkout state (.found ref) state (.cleared ref)
  | taken {ref : Ref} {copy issued : BookCopy}
      (read : state.bookRepo.objects.read? ref = some copy)
      (accepted : copy.checkOut checkout.request.userId = .ok issued) :
      Steps checkout state (.cleared ref) (state.mutateCopy ref issued) (.taken ref)
  | borrowed {ref : Ref} {copy : BookCopy} {user : User}
      (found : state.users.get? checkout.request.userId = some user) :
      Steps checkout state (.taken ref) (state.putUser
        (user.addBorrow checkout.request.copyId copy.bookIsbn checkout.now)) (.borrowed ref)
  | dated {ref : Ref} (dueDate : Datetime) :
      Steps checkout state (.borrowed ref) state (.completing ref dueDate .saveRecord)
  | completed {ref : Ref} {copy : BookCopy} (dueDate : Datetime) (todo : Completion)
      (read : state.bookRepo.objects.read? ref = some copy) :
      Steps checkout state (.completing ref dueDate todo)
        (checkout.complete ref copy dueDate state todo)
        (checkout.completed ref copy dueDate todo)

theorem Checkout.step_steps {checkout : Checkout} {state after : State}
    {phase next : IssuePhase} (taken : checkout.step state phase = some (after, next)) :
    checkout.Steps state phase after next := by
  cases phase with
  | idle | done | failed => cases taken
  | locked =>
      simp only [step] at taken
      split at taken
      · cases taken
        exact .refused _ rfl
      · cases taken
        exact .loaded
  | loaded =>
      simp only [step, Option.map_eq_some_iff] at taken
      obtain ⟨user, found, result⟩ := taken
      split at result
      · next eligible =>
          cases result
          exact .admitted found eligible
      · cases result
        exact .refused _ rfl
  | admitted =>
      simp only [step] at taken
      split at taken
      · cases taken
        exact .refused _ rfl
      · next found =>
          cases taken
          exact .found found
  | found ref =>
      simp only [step, Option.map_eq_some_iff] at taken
      obtain ⟨copy, read, result⟩ := taken
      split at result
      · next allowed =>
          cases result
          exact .cleared read allowed
      · cases result
        exact .refused _ rfl
  | cleared ref =>
      simp only [step, Option.map_eq_some_iff] at taken
      obtain ⟨copy, read, result⟩ := taken
      split at result
      · cases result
        exact .refused _ rfl
      · next accepted =>
          cases result
          exact .taken read accepted
  | taken ref =>
      simp only [step] at taken
      split at taken
      · next found =>
          cases taken
          exact .borrowed found
      · cases taken
  | borrowed ref =>
      simp only [step] at taken
      split at taken
      · cases taken
        exact .refused _ rfl
      · cases taken
        exact .dated _
  | completing ref dueDate todo =>
      simp only [step, Option.map_eq_some_iff] at taken
      obtain ⟨copy, read, result⟩ := taken
      cases result
      exact .completed dueDate todo read

/-- How far the loans of the user can still grow. Every copy issued to the user
is on the list or about to get there, and the limit has room for every request
that was admitted. -/
structure Threads.Roomy {n : Nat} (checkouts : Fin n → Checkout) (userId : String)
    (user : User) (threads : Threads n) : Prop where
  keyed : threads.state.bookRepo.Keyed
  stored : threads.state.users.get? userId = some user
  named : user.userId = userId
  refs : ∀ thread ref, (threads.phases thread).ref? = some ref →
    threads.state.bookRepo.copies.get? (checkouts thread).request.copyId = some ref
  cleared : ∀ thread ref, threads.phases thread = .cleared ref →
    (checkouts thread).takeable threads.state = true
  covered : ∀ copyId ∈ threads.state.bookRepo.issuedTo userId,
    copyId ∈ user.activeBorrowedCopyIds ∨ ∃ thread, (threads.phases thread).isTaken = true ∧
      (checkouts thread).request.copyId = copyId
  room : user.activeBorrowedCopyIds.card + (threads.pending checkouts).card ≤ user.maxBorrowLimit

section Steps

variable {n : Nat} {checkouts : Fin n → Checkout} {userId : String} {user : User}
  {before after : Threads n} {thread : Fin n} {phase : IssuePhase}

theorem IssuePhase.awaits_of_isTaken {phase : IssuePhase} (taken : phase.isTaken = true)
    (takeable : Bool) : phase.awaits takeable = true := by
  cases phase with
  | taken => rfl
  | idle | locked | loaded | admitted | found | cleared | borrowed | completing | done
  | failed => cases taken

theorem Threads.mem_pending {threads : Threads n} :
    thread ∈ threads.pending checkouts ↔ threads.awaits checkouts thread = true := by
  simp only [pending, Finset.mem_filter, Finset.mem_univ, true_and]

theorem Threads.awaits_other
    (phases : after.phases = Function.update before.phases thread phase)
    (takeable : ∀ other, other ≠ thread →
      (checkouts other).takeable after.state = (checkouts other).takeable before.state)
    (other : Fin n) (different : other ≠ thread) :
    after.awaits checkouts other = before.awaits checkouts other := by
  simp only [awaits, phases, Function.update_of_ne different, takeable other different]

theorem Threads.pending_subset
    (others : ∀ other, other ≠ thread → after.awaits checkouts other = before.awaits checkouts other) :
    after.pending checkouts ⊆ insert thread (before.pending checkouts) := by
  intro other waits
  by_cases same : other = thread
  · exact Finset.mem_insert.mpr (.inl same)
  · rw [mem_pending, others other same] at waits
    exact Finset.mem_insert_of_mem (mem_pending.mpr waits)

theorem Threads.pending_card_le
    (others : ∀ other, other ≠ thread → after.awaits checkouts other = before.awaits checkouts other)
    (own : after.awaits checkouts thread = true → before.awaits checkouts thread = true) :
    (after.pending checkouts).card ≤ (before.pending checkouts).card := by
  apply Finset.card_le_card
  intro other waits
  obtain same | earlier := Finset.mem_insert.mp (pending_subset others waits)
  · rw [mem_pending] at waits ⊢
    subst other
    exact own waits
  · exact earlier

/-- A request that has charged the user is no longer pending. -/
theorem Threads.pending_card_lt
    (others : ∀ other, other ≠ thread → after.awaits checkouts other = before.awaits checkouts other)
    (waited : before.awaits checkouts thread = true)
    (charged : after.awaits checkouts thread = false) :
    (after.pending checkouts).card < (before.pending checkouts).card := by
  apply Finset.card_lt_card
  rw [Finset.ssubset_iff_of_subset]
  · refine ⟨thread, mem_pending.mpr waited, ?_⟩
    rw [mem_pending, charged]
    exact Bool.false_ne_true
  · intro other waits
    obtain same | earlier := Finset.mem_insert.mp (pending_subset others waits)
    · rw [same, mem_pending, charged] at waits
      cases waits
    · exact earlier

/-- The completion steps leave the loans alone. -/
theorem Checkout.complete_loans {checkout : Checkout} {state : State} {user : User} {ref : Ref}
    {copy : BookCopy} (dueDate : Datetime) (todo : Completion)
    (keyed : state.bookRepo.Keyed) (read : state.bookRepo.objects.read? ref = some copy)
    (held : state.bookRepo.copies.get? checkout.request.copyId = some ref)
    (stored : state.users.get? checkout.request.userId = some user)
    (named : user.userId = checkout.request.userId) :
    let next := checkout.complete ref copy dueDate state todo
    next.users.get? checkout.request.userId = state.users.get? checkout.request.userId ∧
      BookRepository.SameCopies state.bookRepo next.bookRepo ∧ next.bookRepo.Keyed := by
  cases todo with
  | saveCopy =>
      obtain ⟨object, objectRead, identity⟩ := keyed.copyIds _ ref held
      rw [read, Option.some.injEq] at objectRead
      subst object
      exact ⟨rfl, BookRepository.sameCopies_saveCopy read (identity ▸ held), keyed.saveCopy read⟩
  | saveUser =>
      simp only [complete, saveUser_eq stored]
      refine ⟨?_, ⟨fun _ => rfl, rfl⟩, keyed⟩
      rw [stored]
      exact named ▸ Dict.get?_set_self _ _ _
  | saveRecord | saveEvent | recordCheckout | checkoutHook | invalidate | dispatch | logEvent =>
      exact ⟨rfl, ⟨fun _ => rfl, rfl⟩, keyed⟩

namespace Threads.Roomy

/-- The copies issued to the user are no more than the listed and the pending ones. -/
theorem withinLimit (roomy : before.Roomy checkouts userId user) :
    WithinLimit user (before.state.bookRepo.issuedTo userId) := by
  have room := roomy.room
  refine ⟨by omega, ?_⟩
  have included : before.state.bookRepo.issuedTo userId ⊆ user.activeBorrowedCopyIds ∪
      (before.pending checkouts).image fun thread => (checkouts thread).request.copyId := by
    intro copyId issued
    obtain listed | ⟨thread, taken, same⟩ := roomy.covered copyId issued
    · exact Finset.mem_union_left _ listed
    · apply Finset.mem_union_right
      rw [Finset.mem_image]
      exact ⟨thread, mem_pending.mpr (IssuePhase.awaits_of_isTaken taken _), same⟩
  calc (before.state.bookRepo.issuedTo userId).card
      ≤ _ := Finset.card_le_card included
    _ ≤ _ := Finset.card_union_le _ _
    _ ≤ user.activeBorrowedCopyIds.card + (before.pending checkouts).card :=
        Nat.add_le_add_left Finset.card_image_le _
    _ ≤ user.maxBorrowLimit := room

/-- A step of one request that leaves the loans alone, when the limit keeps its room. -/
theorem unchanged (roomy : before.Roomy checkouts userId user)
    (phases : after.phases = Function.update before.phases thread phase)
    (users : after.state.users.get? userId = before.state.users.get? userId)
    (copies : BookRepository.SameCopies before.state.bookRepo after.state.bookRepo)
    (keyed : after.state.bookRepo.Keyed)
    (notTaken : (before.phases thread).isTaken = false)
    (refs : ∀ ref, phase.ref? = some ref →
      before.state.bookRepo.copies.get? (checkouts thread).request.copyId = some ref)
    (cleared : ∀ ref, phase = .cleared ref →
      (checkouts thread).takeable before.state = true)
    (room : user.activeBorrowedCopyIds.card + (after.pending checkouts).card ≤
      user.maxBorrowLimit) :
    after.Roomy checkouts userId user := by
  have takeable : ∀ other, (checkouts other).takeable after.state =
      (checkouts other).takeable before.state := by
    intro other
    simp only [Checkout.takeable, copies.view]
  refine ⟨keyed, users.trans roomy.stored, roomy.named, ?_, ?_, ?_, room⟩
  · intro other ref holds
    rw [copies.copies]
    rw [phases] at holds
    by_cases same : other = thread
    · subst other
      rw [Function.update_self] at holds
      exact refs ref holds
    · rw [Function.update_of_ne same] at holds
      exact roomy.refs other ref holds
  · intro other ref stands
    rw [takeable]
    rw [phases] at stands
    by_cases same : other = thread
    · subst other
      rw [Function.update_self] at stands
      exact cleared ref stands
    · rw [Function.update_of_ne same] at stands
      exact roomy.cleared other ref stands
  · intro copyId issued
    rw [BookRepository.issuedTo_congr copies.view] at issued
    obtain listed | ⟨other, taken, same⟩ := roomy.covered copyId issued
    · exact .inl listed
    · refine .inr ⟨other, ?_, same⟩
      have different : other ≠ thread := by
        intro equal
        rw [equal, notTaken] at taken
        cases taken
      rw [phases, Function.update_of_ne different]
      exact taken

/-- A step of one request that leaves the loans alone and admits nobody. -/
theorem quiet (roomy : before.Roomy checkouts userId user)
    (phases : after.phases = Function.update before.phases thread phase)
    (users : after.state.users.get? userId = before.state.users.get? userId)
    (copies : BookRepository.SameCopies before.state.bookRepo after.state.bookRepo)
    (keyed : after.state.bookRepo.Keyed)
    (notTaken : (before.phases thread).isTaken = false)
    (refs : ∀ ref, phase.ref? = some ref →
      before.state.bookRepo.copies.get? (checkouts thread).request.copyId = some ref)
    (cleared : ∀ ref, phase = .cleared ref →
      (checkouts thread).takeable before.state = true)
    (own : phase.awaits ((checkouts thread).takeable before.state) = true →
      before.awaits checkouts thread = true) :
    after.Roomy checkouts userId user := by
  have takeable : ∀ other, (checkouts other).takeable after.state =
      (checkouts other).takeable before.state := by
    intro other
    simp only [Checkout.takeable, copies.view]
  have fewer : (after.pending checkouts).card ≤ (before.pending checkouts).card := by
    apply pending_card_le (awaits_other phases fun other _ => takeable other)
    simp only [awaits, phases, Function.update_self, takeable]
    exact own
  have room := roomy.room
  exact roomy.unchanged phases users copies keyed notTaken refs cleared (by omega)

/-- A step of one request that changes nothing but its phase. -/
theorem still (roomy : before.Roomy checkouts userId user)
    (phases : after.phases = Function.update before.phases thread phase)
    (state : after.state = before.state)
    (notTaken : (before.phases thread).isTaken = false)
    (refs : ∀ ref, phase.ref? = some ref →
      before.state.bookRepo.copies.get? (checkouts thread).request.copyId = some ref)
    (cleared : ∀ ref, phase = .cleared ref →
      (checkouts thread).takeable before.state = true)
    (own : phase.awaits ((checkouts thread).takeable before.state) = true →
      before.awaits checkouts thread = true) :
    after.Roomy checkouts userId user := by
  refine roomy.quiet phases ?_ ⟨?_, ?_⟩ ?_ notTaken refs cleared own
  · rw [state]
  · intro copyId
    rw [state]
  · rw [state]
  · rw [state]
    exact roomy.keyed

/-- A request checks its copy out. -/
theorem take (roomy : before.Roomy checkouts userId user)
    (forOne : ForOneUser checkouts userId) {ref : Ref} {copy issued : BookCopy}
    (stands : before.phases thread = .cleared ref)
    (read : before.state.bookRepo.objects.read? ref = some copy)
    (accepted : copy.checkOut (checkouts thread).request.userId = .ok issued)
    (phases : after.phases = Function.update before.phases thread (.taken ref))
    (state : after.state = before.state.mutateCopy ref issued) :
    after.Roomy checkouts userId user := by
  have held := roomy.refs thread ref (by rw [stands]; rfl)
  have view : after.state.bookRepo.view = Function.update before.state.bookRepo.view
      (checkouts thread).request.copyId (some issued) := by
    rw [state]
    exact BookRepository.view_mutate roomy.keyed.copyIds issued
      (BookRepository.getCopy_eq_some_iff.mpr ⟨held, read⟩)
  have takeable : ∀ other, other ≠ thread →
      (checkouts other).takeable after.state = (checkouts other).takeable before.state := by
    intro other different
    have otherCopy : (checkouts other).request.copyId ≠ (checkouts thread).request.copyId :=
      fun same => different (forOne.copies other thread same)
    simp only [Checkout.takeable, view, Function.update_of_ne otherCopy]
  refine ⟨?_, ?_, roomy.named, ?_, ?_, ?_, ?_⟩
  · rw [state]
    exact roomy.keyed.mutate read (BookCopy.sameCopy_checkOut accepted)
  · rw [state]
    exact roomy.stored
  · intro other otherRef holds
    rw [state]
    rw [phases] at holds
    by_cases same : other = thread
    · subst other
      rw [Function.update_self] at holds
      cases holds
      exact held
    · rw [Function.update_of_ne same] at holds
      exact roomy.refs other otherRef holds
  · intro other otherRef otherStands
    rw [phases] at otherStands
    by_cases same : other = thread
    · subst other
      rw [Function.update_self] at otherStands
      cases otherStands
    · rw [Function.update_of_ne same] at otherStands
      rw [takeable other same]
      exact roomy.cleared other otherRef otherStands
  · intro copyId member
    by_cases own : copyId = (checkouts thread).request.copyId
    · refine .inr ⟨thread, ?_, own.symm⟩
      rw [phases, Function.update_self]
      rfl
    · rw [BookRepository.mem_issuedTo, view, Function.update_of_ne own,
        ← BookRepository.mem_issuedTo] at member
      obtain listed | ⟨other, taken, same⟩ := roomy.covered copyId member
      · exact .inl listed
      · refine .inr ⟨other, ?_, same⟩
        have different : other ≠ thread := by
          intro equal
          rw [equal] at same
          exact own same.symm
        rw [phases, Function.update_of_ne different]
        exact taken
  · have fewer : (after.pending checkouts).card ≤ (before.pending checkouts).card := by
      apply pending_card_le (awaits_other phases takeable)
      intro _
      rw [awaits, stands]
      exact roomy.cleared thread ref stands
    have room := roomy.room
    omega

/-- A request charges the user with its copy. -/
theorem lend (roomy : before.Roomy checkouts userId user) {ref : Ref} {isbn : String}
    {now : Datetime} (stands : before.phases thread = .taken ref)
    (phases : after.phases = Function.update before.phases thread (.borrowed ref))
    (state : after.state = before.state.putUser
      (user.addBorrow (checkouts thread).request.copyId isbn now)) :
    after.Roomy checkouts userId
      (user.addBorrow (checkouts thread).request.copyId isbn now) := by
  have takeable : ∀ other, other ≠ thread →
      (checkouts other).takeable after.state = (checkouts other).takeable before.state := by
    intro other _
    rw [state]
    rfl
  refine ⟨by rw [state]; exact roomy.keyed, ?_, roomy.named, ?_, ?_, ?_, ?_⟩
  · rw [state, ← roomy.named]
    exact Dict.get?_set_self _ _ _
  · intro other otherRef holds
    rw [state]
    rw [phases] at holds
    by_cases same : other = thread
    · subst other
      rw [Function.update_self] at holds
      cases holds
      exact roomy.refs thread ref (by rw [stands]; rfl)
    · rw [Function.update_of_ne same] at holds
      exact roomy.refs other otherRef holds
  · intro other otherRef otherStands
    rw [phases] at otherStands
    by_cases same : other = thread
    · subst other
      rw [Function.update_self] at otherStands
      cases otherStands
    · rw [Function.update_of_ne same] at otherStands
      rw [takeable other same]
      exact roomy.cleared other otherRef otherStands
  · intro copyId member
    rw [state] at member
    obtain listed | ⟨other, taken, same⟩ := roomy.covered copyId member
    · exact .inl (Finset.mem_insert_of_mem listed)
    · by_cases equal : other = thread
      · subst other
        subst copyId
        exact .inl (Finset.mem_insert_self _ _)
      · refine .inr ⟨other, ?_, same⟩
        rw [phases, Function.update_of_ne equal]
        exact taken
  · have fewer : (after.pending checkouts).card < (before.pending checkouts).card := by
      apply pending_card_lt (awaits_other phases takeable)
      · rw [awaits, stands]
        rfl
      · rw [awaits, phases, Function.update_self]
        rfl
    have longer := Finset.card_insert_le (checkouts thread).request.copyId
      user.activeBorrowedCopyIds
    have room := roomy.room
    simp only [User.addBorrow]
    omega

/-- A request passes the check of the limit. -/
theorem letIn (roomy : before.Roomy checkouts userId user)
    (stands : before.phases thread = .loaded)
    (phases : after.phases = Function.update before.phases thread .admitted)
    (state : after.state = before.state)
    (leaves : (checkouts thread).takeable before.state = true →
      user.activeBorrowedCopyIds.card + (before.pending checkouts).card < user.maxBorrowLimit) :
    after.Roomy checkouts userId user := by
  have others : ∀ other, other ≠ thread →
      after.awaits checkouts other = before.awaits checkouts other :=
    awaits_other phases fun other _ => by rw [state]
  refine roomy.unchanged phases (by rw [state]) ⟨fun _ => by rw [state], by rw [state]⟩
    (by rw [state]; exact roomy.keyed) (by rw [stands]; rfl) (fun ref holds => by cases holds)
    (fun ref cleared => by cases cleared) ?_
  cases takeable : (checkouts thread).takeable before.state with
  | false =>
      have fewer : (after.pending checkouts).card ≤ (before.pending checkouts).card := by
        apply pending_card_le others
        intro waits
        rw [awaits, phases, Function.update_self, state, takeable] at waits
        cases waits
      have room := roomy.room
      omega
  | true =>
      have grown := (Finset.card_le_card (pending_subset others)).trans
        (Finset.card_insert_le thread (before.pending checkouts))
      have room := leaves takeable
      omega

/-- A request takes one of its own steps. -/
theorem proceed (roomy : before.Roomy checkouts userId user)
    (forOne : ForOneUser checkouts userId)
    (steps : (checkouts thread).Steps before.state (before.phases thread) after.state phase)
    (phases : after.phases = Function.update before.phases thread phase)
    (leaves : before.phases thread = .loaded → user.canBorrow = true →
      (checkouts thread).takeable before.state = true →
      user.activeBorrowedCopyIds.card + (before.pending checkouts).card < user.maxBorrowLimit) :
    ∃ user, after.Roomy checkouts userId user := by
  have borrower := forOne.user thread
  generalize stands : before.phases thread = current at steps
  generalize next : after.state = state at steps
  cases steps with
  | refused error notTaken =>
      refine ⟨user, roomy.still phases next (by rw [stands]; exact notTaken)
        (fun ref holds => by cases holds) (fun ref cleared => by cases cleared)
        (fun waits => by cases waits)⟩
  | loaded =>
      refine ⟨user, roomy.still phases next (by rw [stands]; rfl)
        (fun ref holds => by cases holds) (fun ref cleared => by cases cleared)
        (fun waits => by cases waits)⟩
  | admitted found eligible =>
      rw [borrower, roomy.stored, Option.some.injEq] at found
      subst found
      exact ⟨user, roomy.letIn stands phases next (leaves stands eligible)⟩
  | found located =>
      obtain ⟨held, _⟩ := BookRepository.getCopy_eq_some_iff.mp located
      refine ⟨user, roomy.still phases next (by rw [stands]; rfl)
        (fun ref holds => by cases holds; exact held) (fun ref cleared => by cases cleared)
        (fun waits => by rw [awaits, stands]; exact waits)⟩
  | @cleared ref copy read allowed =>
      have held := roomy.refs thread ref (by rw [stands]; rfl)
      have takeable : (checkouts thread).takeable before.state = true := by
        have seen := BookRepository.view_eq_some_iff.mpr
          ⟨ref, BookRepository.getCopy_eq_some_iff.mpr ⟨held, read⟩⟩
        simp only [Checkout.takeable, seen, Option.any_some, allowed]
      refine ⟨user, roomy.still phases next (by rw [stands]; rfl)
        (fun other holds => by cases holds; exact held) (fun _ _ => takeable)
        (fun waits => by rw [awaits, stands]; exact waits)⟩
  | taken read accepted => exact ⟨user, roomy.take forOne stands read accepted phases next⟩
  | borrowed found =>
      rw [borrower, roomy.stored, Option.some.injEq] at found
      subst found
      exact ⟨_, roomy.lend stands phases next⟩
  | @dated ref dueDate =>
      have held := roomy.refs thread ref (by rw [stands]; rfl)
      refine ⟨user, roomy.still phases next (by rw [stands]; rfl)
        (fun other holds => by cases holds; exact held) (fun ref cleared => by cases cleared)
        (fun waits => by cases waits)⟩
  | @completed ref copy dueDate todo read =>
      have held := roomy.refs thread ref (by rw [stands]; rfl)
      obtain ⟨users, copies, keyed⟩ := Checkout.complete_loans dueDate todo roomy.keyed read held
        (borrower ▸ roomy.stored) (roomy.named.trans borrower.symm)
      rw [borrower] at users
      refine ⟨user, roomy.quiet phases (next ▸ users) (next ▸ copies) (next ▸ keyed)
        (by rw [stands]; rfl) ?_ ?_ ?_⟩
      · intro other holds
        cases todo <;> cases holds <;> exact held
      · intro other cleared
        cases todo <;> cases cleared
      · intro waits
        cases todo <;> cases waits

/-- Any step keeps the limit roomy, when the checks of the limit leave room. -/
theorem step {action : IssueAction n} (roomy : before.Roomy checkouts userId user)
    (forOne : ForOneUser checkouts userId) (taken : Step checkouts before action after)
    (leaves : LeavesRoom checkouts ⟨before, action, after⟩) :
    ∃ user, after.Roomy checkouts userId user := by
  cases action with
  | advance thread =>
      simp only [Step, exec] at taken
      split at taken
      · next idle =>
          obtain ⟨locks, _, entered⟩ := Option.map_eq_some_iff.mp taken
          subst after
          exact ⟨user, roomy.still rfl rfl (by rw [idle]; rfl) (fun ref holds => by cases holds)
            (fun ref cleared => by cases cleared) (fun waits => by cases waits)⟩
      · obtain ⟨next, stepped, entered⟩ := Option.map_eq_some_iff.mp taken
        subst after
        refine roomy.proceed forOne (Checkout.step_steps stepped) rfl ?_
        intro stands eligible takeable
        exact leaves thread user rfl stands (by rw [forOne.user thread]; exact roomy.stored)
          eligible takeable
  | timeOut thread =>
      simp only [Step, exec, Threads.timeOut] at taken
      split at taken
      · next idle _ =>
          cases taken
          exact ⟨user, roomy.still rfl rfl (by rw [idle]; rfl) (fun ref holds => by cases holds)
            (fun ref cleared => by cases cleared) (fun waits => by cases waits)⟩
      · cases taken

/-- A user whose list is balanced leaves room, before anything has started. -/
theorem start {state : State} (keyed : state.bookRepo.Keyed)
    (stored : state.users.get? userId = some user)
    (balanced : Balanced userId user (state.bookRepo.issuedTo userId)) :
    (Threads.start state).Roomy checkouts userId user := by
  refine ⟨keyed, stored, balanced.named, ?_, ?_, ?_, ?_⟩
  · intro thread ref holds
    cases holds
  · intro thread ref cleared
    cases cleared
  · intro copyId issued
    exact .inl (balanced.listed ▸ issued)
  · have nobody : (Threads.start state).pending checkouts = ∅ := by
      apply Finset.filter_false_of_mem
      intro thread _ waits
      cases waits
    rw [nobody, balanced.listed, Finset.card_empty, Nat.add_zero]
    exact balanced.within

end Threads.Roomy

end Steps

/-- In every run of checkouts of different copies for one user, in which every
passing check of the limit leaves room, the loans of the user stay within it. -/
theorem run_withinLimit {n : Nat} {checkouts : Fin n → Checkout} {userId : String} {user : User}
    {state : State} {trace : List (Transition (Threads n) (IssueAction n))} {final : Threads n}
    (forOne : ForOneUser checkouts userId) (keyed : state.bookRepo.Keyed)
    (stored : state.users.get? userId = some user)
    (balanced : Balanced userId user (state.bookRepo.issuedTo userId))
    (run : Run (Threads.Step checkouts) (.start state) trace final)
    (leaves : ∀ transition ∈ trace, Threads.LeavesRoom checkouts transition) :
    ∃ borrower, final.state.users.get? userId = some borrower ∧
      WithinLimit borrower (final.state.bookRepo.issuedTo userId) := by
  let Bounded := fun threads : Threads n =>
    ∃ borrower, threads.Roomy checkouts userId borrower
  have bounded : Bounded final := by
    refine run.invariant leaves ⟨user, .start keyed stored balanced⟩ ?_
    rintro before action after ⟨borrower, roomy⟩ taken permitted
    exact roomy.step forOne taken permitted
  obtain ⟨borrower, roomy⟩ := bounded
  exact ⟨borrower, roomy.stored, roomy.withinLimit⟩

end LibraFlow.Container
