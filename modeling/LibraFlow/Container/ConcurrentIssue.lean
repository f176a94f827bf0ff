import LibraFlow.Library.Run
import LibraFlow.Library.Table
import LibraFlow.Services.Circulation
import LibraFlow.Storage.InMemoryProperties

/-! Checkouts that run side by side on the in-memory container. Every request
holds the lock of its copy; the user object is shared, and the steps of the
requests interleave in any order. The steps of one request, taken without
interruption, are the checkout of the service. -/

set_option autoImplicit false

namespace LibraFlow.Container

open LibraFlow.Core LibraFlow.Library LibraFlow.Storage LibraFlow.Services

/-- A checkout and the time it reads. -/
structure Checkout where
  request : IssueRequest
  now : Datetime

/-- What is left to do once the due date is known. -/
inductive Completion where
  | saveRecord
  | saveCopy
  | saveUser
  | saveEvent
  | recordCheckout
  | checkoutHook
  | invalidate
  | dispatch
  | logEvent
  deriving DecidableEq

def Completion.next? : Completion → Option Completion
  | saveRecord => some saveCopy
  | saveCopy => some saveUser
  | saveUser => some saveEvent
  | saveEvent => some recordCheckout
  | recordCheckout => some checkoutHook
  | checkoutHook => some invalidate
  | invalidate => some dispatch
  | dispatch => some logEvent
  | logEvent => none

/-- Where a checkout stands. From `found` on it holds a reference to the copy
object. A request that waits too long for its lock fails without an error of
the service. -/
inductive IssuePhase where
  | idle
  | locked
  | loaded
  | admitted
  | found (ref : Ref)
  | cleared (ref : Ref)
  | taken (ref : Ref)
  | borrowed (ref : Ref)
  | completing (ref : Ref) (dueDate : Datetime) (todo : Completion)
  | done (record : CirculationRecord)
  | failed (error : Option Error)

/-- The phases in which a request is inside its locked section. -/
def IssuePhase.inSection : IssuePhase → Bool
  | .idle | .done _ | .failed _ => false
  | .completing _ _ .dispatch | .completing _ _ .logEvent => false
  | _ => true

namespace Checkout

def record (checkout : Checkout) (copy : BookCopy) (dueDate : Datetime) : CirculationRecord where
  transactionId := checkout.request.transactionId
  copyId := checkout.request.copyId
  isbn := copy.bookIsbn
  userId := checkout.request.userId
  borrowedAt := checkout.now
  dueDate := dueDate

/-- Store the live user object under its identifier. -/
def saveUser (checkout : Checkout) (state : State) : State :=
  match state.users.get? checkout.request.userId with
  | some user => state.putUser user
  | none => state

def complete (checkout : Checkout) (ref : Ref) (copy : BookCopy) (dueDate : Datetime)
    (state : State) : Completion → State
  | .saveRecord => { state with records := state.records ++ [checkout.record copy dueDate] }
  | .saveCopy => state.saveCopy ref
  | .saveUser => checkout.saveUser state
  | .saveEvent => state.saveEvent checkout.request.eventId
      (.issued checkout.request.copyId copy.bookIsbn checkout.request.userId dueDate
        checkout.request.transactionId) checkout.now
  | .recordCheckout => { state with
      forecaster := state.forecaster.recordCheckout copy.bookIsbn checkout.now.date
        copy.branchId }
  | .checkoutHook => { state with
      tracking := state.tracking.recordCheckoutHook checkout.request.copyId copy.branchId
        checkout.now }
  | .invalidate => state.invalidateBook copy.bookIsbn
  | .dispatch => state.dispatch
      (.bookIssued checkout.request.userId checkout.request.copyId copy.bookIsbn dueDate)
  | .logEvent => state.logEvent checkout.now checkout.request.actorId checkout.request.copyId
      (.issueBook checkout.request.userId copy.bookIsbn)

/-- The phase after a completion step. -/
def completed (checkout : Checkout) (ref : Ref) (copy : BookCopy) (dueDate : Datetime)
    (todo : Completion) : IssuePhase :=
  match todo.next? with
  | some next => .completing ref dueDate next
  | none => .done (checkout.record copy dueDate)

/-- One step of a checkout that holds its lock, or is past its locked section.
Copies and users are read where they are shared, at the time of the step. -/
def step (checkout : Checkout) (state : State) : IssuePhase → Option (State × IssuePhase)
  | .idle | .done _ | .failed _ => none
  | .locked =>
      match state.users.get? checkout.request.userId with
      | none => some (state, .failed (some (.userNotFound checkout.request.userId)))
      | some _ => some (state, .loaded)
  | .loaded =>
      (state.users.get? checkout.request.userId).map fun user =>
        if user.canBorrow then (state, .admitted)
        else (state, .failed (some (.userNotEligible checkout.request.userId
          "borrow limit reached or unpaid fines")))
  | .admitted =>
      match state.bookRepo.getCopy checkout.request.copyId with
      | none => some (state, .failed (some (.copyNotFound checkout.request.copyId)))
      | some (ref, _) => some (state, .found ref)
  | .found ref =>
      (state.bookRepo.objects.read? ref).map fun copy =>
        if mayTake copy checkout.request.userId then (state, .cleared ref)
        else (state, .failed (some (.copyUnavailable checkout.request.copyId copy.status.value)))
  | .cleared ref =>
      (state.bookRepo.objects.read? ref).map fun copy =>
        match copy.checkOut checkout.request.userId with
        | .error detail => (state, .failed (some (.invalidStateTransition detail)))
        | .ok issued => (state.mutateCopy ref issued, .taken ref)
  | .taken ref =>
      match state.bookRepo.objects.read? ref, state.users.get? checkout.request.userId with
      | some copy, some user => some (state.putUser
          (user.addBorrow checkout.request.copyId copy.bookIsbn checkout.now), .borrowed ref)
      | _, _ => none
  | .borrowed ref =>
      match checkout.now.addDays? checkout.request.loanDays with
      | none => some (state, .failed (some .overflowError))
      | some dueDate => some (state, .completing ref dueDate .saveRecord)
  | .completing ref dueDate todo =>
      (state.bookRepo.objects.read? ref).map fun copy =>
        (checkout.complete ref copy dueDate state todo,
          checkout.completed ref copy dueDate todo)

/-- Take the steps of one checkout without interruption. -/
def drive (checkout : Checkout) : Nat → State × IssuePhase → State × IssuePhase
  | 0, current => current
  | fuel + 1, current =>
      match checkout.step current.1 current.2 with
      | none => current
      | some next => checkout.drive fuel next

private theorem drive_succ {checkout : Checkout} {fuel : Nat} {current : State × IssuePhase}
    (next : State × IssuePhase) (taken : checkout.step current.1 current.2 = some next) :
    checkout.drive (fuel + 1) current = checkout.drive fuel next := by
  simp only [drive, taken]

private theorem objects_complete (checkout : Checkout) (ref : Ref) (copy : BookCopy)
    (dueDate : Datetime) (state : State) (todo : Completion) :
    (checkout.complete ref copy dueDate state todo).bookRepo.objects =
      state.bookRepo.objects := by
  cases todo with
  | saveCopy => exact BookRepository.objects_saveCopy _ _
  | saveUser =>
      simp only [complete, saveUser]
      split <;> rfl
  | saveRecord | saveEvent | recordCheckout | checkoutHook | invalidate | dispatch | logEvent =>
      rfl

theorem saveUser_eq {checkout : Checkout} {state : State} {user : User}
    (found : state.users.get? checkout.request.userId = some user) :
    checkout.saveUser state = state.putUser user := by
  simp only [saveUser, found]

/-- The completion steps, one after the other. -/
theorem drive_completing {checkout : Checkout} {ref : Ref} {copy : BookCopy} (dueDate : Datetime)
    {state : State} (read : state.bookRepo.objects.read? ref = some copy) :
    checkout.drive 9 (state, .completing ref dueDate .saveRecord) =
      ([Completion.saveRecord, .saveCopy, .saveUser, .saveEvent, .recordCheckout, .checkoutHook,
        .invalidate, .dispatch, .logEvent].foldl (checkout.complete ref copy dueDate) state,
        .done (checkout.record copy dueDate)) := by
  simp only [drive, step, objects_complete, read, Option.map_some, completed, Completion.next?,
    List.foldl_cons, List.foldl_nil]

/-- The checkout of the service, as its steps compute it. -/
theorem drive_eq_issuePhysicalBook (checkout : Checkout) (state : State)
    (keyed : ∀ user, state.users.get? checkout.request.userId = some user →
      user.userId = checkout.request.userId) :
    checkout.drive 16 (state, .locked) =
      match issuePhysicalBook checkout.request checkout.now state with
      | (.ok record, after) => (after, .done record)
      | (.error error, after) => (after, .failed (some error)) := by
  unfold issuePhysicalBook
  cases foundUser : state.users.get? checkout.request.userId with
  | none => simp [drive, step, foundUser]
  | some user =>
      cases eligible : user.canBorrow with
      | false => simp [drive, step, foundUser, eligible]
      | true =>
          cases foundCopy : state.bookRepo.getCopy checkout.request.copyId with
          | none => simp [drive, step, foundUser, eligible, foundCopy]
          | some entry =>
              obtain ⟨ref, copy⟩ := entry
              obtain ⟨_, read⟩ := BookRepository.getCopy_eq_some_iff.mp foundCopy
              cases allowed : mayTake copy checkout.request.userId with
              | false => simp [drive, step, foundUser, eligible, foundCopy, read, allowed]
              | true =>
                  cases accepted : copy.checkOut checkout.request.userId with
                  | error detail =>
                      simp [drive, step, foundUser, eligible, foundCopy, read, allowed, accepted]
                  | ok issued =>
                      simp only [Proc.read_bind_apply, foundUser, foundCopy, eligible, allowed,
                        accepted, Proc.expect_some_bind_apply, Proc.check_true_bind_apply,
                        Proc.lift_ok_bind_apply, Proc.update_bind_apply]
                      have reread : (state.mutateCopy ref issued).bookRepo.objects.read? ref =
                          some issued := Heap.read?_write_self issued read
                      have unchanged : (state.mutateCopy ref issued).users = state.users := rfl
                      let borrower := user.addBorrow checkout.request.copyId issued.bookIsbn
                        checkout.now
                      let lent := (state.mutateCopy ref issued).putUser borrower
                      have stored : lent.users.get? checkout.request.userId = some borrower := by
                        rw [← keyed user foundUser]
                        exact Dict.get?_set_self _ _ _
                      rw [drive_succ (state, .loaded) (by simp only [step, foundUser]),
                        drive_succ (state, .admitted) (by simp [step, foundUser, eligible]),
                        drive_succ (state, .found ref) (by simp only [step, foundCopy]),
                        drive_succ (state, .cleared ref) (by simp [step, read, allowed]),
                        drive_succ (state.mutateCopy ref issued, .taken ref)
                          (by simp [step, read, accepted]),
                        drive_succ (lent, .borrowed ref)
                          (by simp only [step, reread, unchanged, foundUser, lent, borrower])]
                      cases due : checkout.now.addDays? checkout.request.loanDays with
                      | none => simp [drive, step, due, lent, borrower]
                      | some dueDate =>
                          rw [drive_succ (lent, .completing ref dueDate .saveRecord)
                              (by simp only [step, due]),
                            drive_completing dueDate (show lent.bookRepo.objects.read? ref = _ from reread)]
                          let recorded := { lent with
                            records := lent.records ++ [checkout.record issued dueDate] }
                          have saved : checkout.saveUser (recorded.saveCopy ref) =
                              (recorded.saveCopy ref).putUser borrower := saveUser_eq stored
                          simp only [List.foldl_cons, List.foldl_nil, complete]
                          rw [saved]
                          rfl

end Checkout

/-- The container with the locks of the copies and the requests. -/
structure Threads (n : Nat) where
  state : State
  locks : Locks String
  phases : Fin n → IssuePhase

inductive IssueAction (n : Nat) where
  | advance (thread : Fin n)
  | timeOut (thread : Fin n)
  deriving DecidableEq

namespace Threads

variable {n : Nat}

/-- No request has started and no lock is held. -/
def start (state : State) : Threads n := ⟨state, .none, fun _ => .idle⟩

/-- Enter the locked section of a copy once its lock is free. -/
def lock (threads : Threads n) (thread : Fin n) (copyId : String) : Option (Threads n) :=
  (threads.locks.acquire? thread copyId).map fun locks =>
    { threads with locks, phases := Function.update threads.phases thread .locked }

/-- Take one step; the lock is given up when the step leaves the locked section. -/
def proceed (threads : Threads n) (checkout : Checkout) (thread : Fin n) : Option (Threads n) :=
  (checkout.step threads.state (threads.phases thread)).map fun next => {
    state := next.1
    locks := if next.2.inSection then threads.locks else threads.locks.release thread
    phases := Function.update threads.phases thread next.2 }

/-- A request gives up when the lock of its copy stays taken. -/
def timeOut (threads : Threads n) (checkout : Checkout) (thread : Fin n) : Option (Threads n) :=
  match threads.phases thread, threads.locks checkout.request.copyId with
  | .idle, some _ => some { threads with
      phases := Function.update threads.phases thread (.failed none) }
  | _, _ => none

def exec (checkouts : Fin n → Checkout) (threads : Threads n) :
    IssueAction n → Option (Threads n)
  | .advance thread =>
      match threads.phases thread with
      | .idle => threads.lock thread (checkouts thread).request.copyId
      | _ => threads.proceed (checkouts thread) thread
  | .timeOut thread => threads.timeOut (checkouts thread) thread

def Step (checkouts : Fin n → Checkout) (before : Threads n) (action : IssueAction n)
    (after : Threads n) : Prop :=
  before.exec checkouts action = some after

end Threads

end LibraFlow.Container
