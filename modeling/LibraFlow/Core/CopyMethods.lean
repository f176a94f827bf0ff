import LibraFlow.Core.BookProperties
import LibraFlow.Library.Proc
import LibraFlow.Library.Run

/-! The methods of a copy as the state classes write them, assignment by
assignment, and what any sequence of calls does to the holder fields. -/

set_option autoImplicit false

namespace LibraFlow.Core

open LibraFlow.Library

/-- A method call on a copy object; it may raise. -/
abbrev CopyCall := Proc BookCopy String Unit

/-- A method of a copy, with its argument. -/
inductive CopyMethod where
  | checkOut (borrowerId : String)
  | returnBook
  | reserve (reserverId : String)
  | startTransfer (destinationBranch : String)
  | completeTransfer
  | markLost
  | markRepair
  | restoreAvailable

namespace CopyMethod

def setState (status : BookStatus) : CopyCall := Proc.update fun copy => { copy with status }

def setBorrower (borrowerId : Option String) : CopyCall :=
  Proc.update fun copy => { copy with currentBorrowerId := borrowerId }

def setReserver (reserverId : Option String) : CopyCall :=
  Proc.update fun copy => { copy with currentReserverId := reserverId }

def setTarget (branchId : Option String) : CopyCall :=
  Proc.update fun copy => { copy with targetBranchId := branchId }

/-- What the base class raises for a transition the state does not define. -/
def refuse (action : String) : CopyCall := do
  let status ← Proc.read BookCopy.status
  Proc.raise ("Cannot " ++ action ++ " in state '" ++ status.value ++ "'.")

def stateCheckOut (borrowerId : String) : BookStatus → CopyCall
  | .available => do
      setBorrower (some borrowerId)
      setState .issued
  | .reserved => do
      let reserver ← Proc.read BookCopy.currentReserverId
      Proc.check (!(truthy reserver && decide (reserver ≠ some borrowerId)))
        ("Copy is reserved for user '" ++ reserver.getD "None" ++ "', not '" ++ borrowerId ++ "'.")
      setReserver none
      setBorrower (some borrowerId)
      setState .issued
  | _ => refuse "checkout book copy"

def stateReturn : BookStatus → CopyCall
  | .reserved => do
      setReserver none
      setState .available
  | .issued => do
      setBorrower none
      setState .available
  | _ => refuse "return book copy"

def stateReserve (reserverId : String) : BookStatus → CopyCall
  | .available => do
      setReserver (some reserverId)
      setState .reserved
  | _ => refuse "reserve book copy"

def stateStartTransfer (destinationBranch : String) : BookStatus → CopyCall
  | .available => do
      setTarget (some destinationBranch)
      setState .inTransit
  | _ => refuse "transfer book copy"

def stateCompleteTransfer : BookStatus → CopyCall
  | .inTransit => do
      let target ← Proc.read BookCopy.targetBranchId
      if truthy target then
        Proc.update fun copy => { copy with branchId := target.getD copy.branchId }
        setTarget none
        setState .available
      else
        setState .available
  | _ => refuse "complete transfer"

/-- Only a lost copy forgets its holders when it is restored. -/
def stateRestore : BookStatus → CopyCall
  | .lost => do
      setBorrower none
      setReserver none
      setState .available
  | _ => setState .available

/-- Call a method: the state object decides, and a checkout is counted after it. -/
def call : CopyMethod → CopyCall
  | checkOut borrowerId => do
      let status ← Proc.read BookCopy.status
      stateCheckOut borrowerId status
      Proc.update fun copy => { copy with borrowCount := copy.borrowCount + 1 }
  | returnBook => do stateReturn (← Proc.read BookCopy.status)
  | reserve reserverId => do stateReserve reserverId (← Proc.read BookCopy.status)
  | startTransfer destinationBranch => do
      stateStartTransfer destinationBranch (← Proc.read BookCopy.status)
  | completeTransfer => do stateCompleteTransfer (← Proc.read BookCopy.status)
  | markLost => setState .lost
  | markRepair => setState .underRepair
  | restoreAvailable => do stateRestore (← Proc.read BookCopy.status)

/-- The transition of the copy as a value: it succeeds or is refused. -/
def transition (copy : BookCopy) : CopyMethod → Except String BookCopy
  | checkOut borrowerId => copy.checkOut borrowerId
  | returnBook => copy.returnBook
  | reserve reserverId => copy.reserve reserverId
  | startTransfer destinationBranch => copy.startTransfer destinationBranch
  | completeTransfer => copy.completeTransfer
  | markLost => .ok copy.markLost
  | markRepair => .ok copy.markRepair
  | restoreAvailable => .ok copy.restoreAvailable

/-- What a call leaves behind when its transition is given. -/
def outcome (copy : BookCopy) : Except String BookCopy → Except String Unit × BookCopy
  | .ok changed => (.ok (), changed)
  | .error detail => (.error detail, copy)

private theorem stateCheckOut_apply (borrowerId : String) (copy : BookCopy) :
    stateCheckOut borrowerId copy.status copy = outcome copy (copy.stateCheckOut borrowerId) := by
  cases status : copy.status with
  | available =>
      simp [stateCheckOut, BookCopy.stateCheckOut, status, outcome, setBorrower, setState]
  | reserved =>
      by_cases taken : truthy copy.currentReserverId = true ∧
          copy.currentReserverId ≠ some borrowerId
      · simp [stateCheckOut, BookCopy.stateCheckOut, status, taken, outcome]
      · have free : (truthy copy.currentReserverId &&
            decide (copy.currentReserverId ≠ some borrowerId)) = false := by
          simpa using taken
        simp only [stateCheckOut, Proc.read_bind_apply, free, Bool.not_false,
          Proc.check_true_bind_apply, BookCopy.stateCheckOut, status, taken, ↓reduceIte]
        rfl
  | issued | inTransit | underRepair | lost =>
      simp [stateCheckOut, BookCopy.stateCheckOut, status, outcome, refuse, BookCopy.refuse]

/-- A call makes its transition, or raises before the first assignment. -/
theorem call_apply (method : CopyMethod) (copy : BookCopy) :
    method.call copy = outcome copy (transition copy method) := by
  cases method with
  | checkOut borrowerId =>
      simp only [call, Proc.read_bind_apply]
      rw [Proc.bind_apply, stateCheckOut_apply, transition, BookCopy.checkOut]
      cases copy.stateCheckOut borrowerId <;> rfl
  | returnBook =>
      cases status : copy.status <;> simp [call, stateReturn, transition, BookCopy.returnBook,
        status, outcome, refuse, BookCopy.refuse, setBorrower, setReserver, setState]
  | reserve reserverId =>
      cases status : copy.status <;> simp [call, stateReserve, transition, BookCopy.reserve, status,
        outcome, refuse, BookCopy.refuse, setReserver, setState]
  | startTransfer destinationBranch =>
      cases status : copy.status <;> simp [call, stateStartTransfer, transition,
        BookCopy.startTransfer, status, outcome, refuse, BookCopy.refuse, setTarget, setState]
  | completeTransfer =>
      cases status : copy.status with
      | inTransit =>
          cases named : truthy copy.targetBranchId <;> simp [call, stateCompleteTransfer, transition,
            BookCopy.completeTransfer, status, named, outcome, setTarget, setState]
      | available | reserved | issued | underRepair | lost =>
          simp [call, stateCompleteTransfer, transition, BookCopy.completeTransfer, status, outcome,
            refuse, BookCopy.refuse]
  | markLost => rfl
  | markRepair => rfl
  | restoreAvailable =>
      cases status : copy.status <;> simp [call, stateRestore, transition,
        BookCopy.restoreAvailable, status, outcome, setBorrower, setReserver, setState]

private theorem raises_unchanged {method : CopyMethod} {copy : BookCopy} {detail : String}
    (raised : (method.call copy).1 = .error detail) : (method.call copy).2 = copy := by
  rw [call_apply] at raised ⊢
  cases made : transition copy method with
  | error _ => rfl
  | ok changed =>
      rw [made] at raised
      cases raised

/-- The identifiers a caller passes are not empty. -/
def Named : CopyMethod → Prop
  | checkOut borrowerId => borrowerId ≠ ""
  | reserve reserverId => reserverId ≠ ""
  | startTransfer destinationBranch => destinationBranch ≠ ""
  | _ => True

end CopyMethod

namespace BookCopy

/-- Each status comes with its own holder field, and with no other. -/
structure HolderFields (copy : BookCopy) : Prop where
  available : copy.status = .available → copy.currentBorrowerId = none ∧
    copy.currentReserverId = none ∧ copy.targetBranchId = none
  issued : copy.status = .issued → truthy copy.currentBorrowerId = true ∧
    copy.currentReserverId = none ∧ copy.targetBranchId = none
  reserved : copy.status = .reserved → copy.currentBorrowerId = none ∧
    truthy copy.currentReserverId = true ∧ copy.targetBranchId = none
  inTransit : copy.status = .inTransit → copy.currentBorrowerId = none ∧
    copy.currentReserverId = none ∧ truthy copy.targetBranchId = true

private theorem holderFields_new (copyId bookIsbn branchId shelfLocation : String) (price : ℚ) :
    (new copyId bookIsbn branchId shelfLocation price).HolderFields := by
  constructor <;> simp [new]

/-- Nothing is left behind when the copy is put back on the shelf: a lost copy
has no transfer target, any other copy no holder field at all. -/
def Restorable (copy : BookCopy) : Prop :=
  copy.targetBranchId = none ∧
    (copy.status ≠ .lost → copy.currentBorrowerId = none ∧ copy.currentReserverId = none)

instance (copy : BookCopy) : Decidable copy.Restorable :=
  inferInstanceAs (Decidable (_ ∧ _))

private theorem restoreAvailable_holderFields_iff (copy : BookCopy) :
    copy.restoreAvailable.HolderFields ↔ copy.Restorable := by
  have shelved : copy.restoreAvailable.status = .available := by
    unfold restoreAvailable
    split <;> rfl
  constructor
  · intro fields
    obtain ⟨borrower, reserver, target⟩ := fields.available shelved
    unfold restoreAvailable at borrower reserver target
    cases status : copy.status <;> simp_all [Restorable]
  · rintro ⟨target, holders⟩
    constructor <;> intro status
    · unfold restoreAvailable
      by_cases lost : copy.status = .lost
      · simp [lost, target]
      · simp [target, holders lost]
    all_goals
      rw [shelved] at status
      cases status

end BookCopy

/-- A call on the copy object, whether it returns or raises. -/
def CopyStep (before : BookCopy) (method : CopyMethod) (after : BookCopy) : Prop :=
  (method.call before).2 = after

/-- A call that made its transition. -/
theorem CopyMethod.holderFields {method : CopyMethod} {copy changed : BookCopy}
    (fields : copy.HolderFields) (named : method.Named)
    (restorable : method = .restoreAvailable → copy.Restorable)
    (made : transition copy method = .ok changed) : changed.HolderFields := by
  cases method with
  | checkOut borrowerId =>
      obtain ⟨shelved, rfl⟩ := BookCopy.checkOut_ok made
      have borrower : truthy (some borrowerId) = true := truthy_some named
      rcases shelved with status | status
      · obtain ⟨_, reserver, target⟩ := fields.available status
        constructor <;> simp [borrower, status, reserver, target]
      · obtain ⟨_, _, target⟩ := fields.reserved status
        constructor <;> simp [borrower, status, target]
  | returnBook =>
      rcases BookCopy.returnBook_ok made with ⟨status, rfl⟩ | ⟨status, rfl⟩
      · obtain ⟨_, reserver, target⟩ := fields.issued status
        constructor <;> simp [reserver, target]
      · obtain ⟨borrower, _, target⟩ := fields.reserved status
        constructor <;> simp [borrower, target]
  | reserve reserverId =>
      obtain ⟨status, rfl⟩ := BookCopy.reserve_ok made
      obtain ⟨borrower, _, target⟩ := fields.available status
      have reserver : truthy (some reserverId) = true := truthy_some named
      constructor <;> simp [borrower, reserver, target]
  | startTransfer destinationBranch =>
      obtain ⟨status, rfl⟩ := BookCopy.startTransfer_ok made
      obtain ⟨borrower, reserver, _⟩ := fields.available status
      have target : truthy (some destinationBranch) = true := truthy_some named
      constructor <;> simp [borrower, reserver, target]
  | completeTransfer =>
      obtain ⟨status, rfl⟩ := BookCopy.completeTransfer_ok made
      obtain ⟨borrower, reserver, target⟩ := fields.inTransit status
      constructor <;> simp [borrower, reserver, target]
  | markLost =>
      cases made
      constructor <;> simp [BookCopy.markLost]
  | markRepair =>
      cases made
      constructor <;> simp [BookCopy.markRepair]
  | restoreAvailable =>
      cases made
      exact copy.restoreAvailable_holderFields_iff.mpr (restorable rfl)

theorem CopyStep.holderFields {before after : BookCopy} {method : CopyMethod}
    (step : CopyStep before method after) (fields : before.HolderFields) (named : method.Named)
    (restorable : method = .restoreAvailable → before.Restorable) : after.HolderFields := by
  unfold CopyStep at step
  rw [CopyMethod.call_apply] at step
  cases made : CopyMethod.transition before method with
  | error detail =>
      rw [made] at step
      exact step ▸ fields
  | ok changed =>
      rw [made] at step
      exact step ▸ CopyMethod.holderFields fields named restorable made

/-- Along any sequence of calls the holder fields follow the status, and calls
that raise change nothing, exactly when nothing is left behind at each restore. -/
theorem run_holderFields_iff {copyId bookIsbn branchId shelfLocation : String} {price : ℚ}
    {trace : List (Transition BookCopy CopyMethod)} {final : BookCopy}
    (run : Run CopyStep (.new copyId bookIsbn branchId shelfLocation price) trace final)
    (named : ∀ call ∈ trace, call.label.Named) :
    ((∀ call ∈ trace, call.before.HolderFields ∧ call.after.HolderFields) ∧
      ∀ call ∈ trace, ∀ detail, (call.label.call call.before).1 = .error detail →
        call.after = call.before) ↔
      ∀ call ∈ trace, call.label = .restoreAvailable → call.before.Restorable := by
  have taken := run.taken
  constructor
  · rintro ⟨fields, _⟩ call member restored
    have after := (fields call member).2
    rw [← taken call member, CopyMethod.call_apply, restored] at after
    exact call.before.restoreAvailable_holderFields_iff.mp after
  · intro restorable
    have permitted : ∀ call ∈ trace, call.label.Named ∧
        (call.label = .restoreAvailable → call.before.Restorable) := fun call member =>
      ⟨named call member, restorable call member⟩
    have before := run.transition_invariant permitted
      (BookCopy.holderFields_new copyId bookIsbn branchId shelfLocation price)
      fun _ _ _ fields step allowed => step.holderFields fields allowed.1 allowed.2
    constructor
    · intro call member
      obtain ⟨fields, step⟩ := before call member
      exact ⟨fields, step.holderFields fields (named call member) (restorable call member)⟩
    · intro call member detail raised
      rw [← taken call member]
      exact CopyMethod.raises_unchanged raised

def CopyMethod.apply (copy : BookCopy) (method : CopyMethod) : BookCopy := (method.call copy).2

/-- A copy is lent, reported lost and put back on the shelf. -/
theorem run_holderFields_lost_and_found :
    (Run.trail CopyMethod.apply (.new "C1" "B1" "DELHI" "A1" 500)
      [.checkOut "U1", .checkOut "U2", .markLost, .restoreAvailable]).all
        (fun call => call.after.status = .available → call.after.currentBorrowerId = none) = true ∧
    ∀ call ∈ Run.trail CopyMethod.apply (.new "C1" "B1" "DELHI" "A1" 500)
      [.checkOut "U1", .checkOut "U2", .markLost, .restoreAvailable],
      call.before.HolderFields ∧ call.after.HolderFields := by
  refine ⟨by decide +kernel, ?_⟩
  refine ((run_holderFields_iff (Run.of_exec (fun _ _ => rfl) _ _) ?_).mpr ?_).1
  · intro call member
    simp only [Run.trail, List.mem_cons, List.not_mem_nil, or_false] at member
    rcases member with rfl | rfl | rfl | rfl <;> simp [CopyMethod.Named]
  · intro call member restored
    simp only [Run.trail, List.mem_cons, List.not_mem_nil, or_false] at member
    rcases member with rfl | rfl | rfl | rfl
    · cases restored
    · cases restored
    · cases restored
    · decide +kernel

/-- A lent copy is sent to repair and restored: it is on the shelf and still has
its borrower. -/
theorem repaired_copy_keeps_borrower :
    ∃ trace final, Run CopyStep (.new "C1" "B1" "DELHI" "A1" 500) trace final ∧
      (∀ call ∈ trace, call.label.Named) ∧ ¬ final.HolderFields := by
  have run : Run CopyStep (.new "C1" "B1" "DELHI" "A1" 500)
      (Run.trail CopyMethod.apply _ [.checkOut "U1", .markRepair, .restoreAvailable]) _ :=
    Run.of_exec (fun _ _ => rfl) _ _
  refine ⟨_, _, run, ?_, ?_⟩
  · intro call member
    simp only [Run.trail, List.mem_cons, List.not_mem_nil, or_false] at member
    rcases member with rfl | rfl | rfl <;> simp [CopyMethod.Named]
  · intro fields
    have cleared := (fields.available (by decide +kernel)).1
    revert cleared
    decide +kernel

end LibraFlow.Core
