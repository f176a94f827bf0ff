import LibraFlow.Core.Book

/-! Laws of the copy lifecycle. Each transition is inverted once; the identity of
a copy never changes, and the holder fields follow the status. -/

set_option autoImplicit false

namespace LibraFlow.Core.BookCopy

theorem checkOut_ok {copy issued : BookCopy} {borrowerId : String}
    (accepted : copy.checkOut borrowerId = .ok issued) :
    (copy.status = .available ∨ copy.status = .reserved) ∧
      issued = { copy with
        status := .issued
        currentBorrowerId := some borrowerId
        currentReserverId := if copy.status = .reserved then none else copy.currentReserverId
        borrowCount := copy.borrowCount + 1 } := by
  unfold checkOut stateCheckOut at accepted
  cases status : copy.status with
  | available =>
      simp only [status, Except.ok.injEq] at accepted
      exact ⟨.inl rfl, by simp [← accepted]⟩
  | reserved =>
      simp only [status] at accepted
      split at accepted
      · next issuedOk =>
          split at issuedOk
          · cases issuedOk
          · cases issuedOk
            cases accepted
            exact ⟨.inr rfl, by simp⟩
      · cases accepted
  | issued | inTransit | underRepair | lost =>
      simp [status, refuse] at accepted

theorem returnBook_ok {copy returned : BookCopy} (accepted : copy.returnBook = .ok returned) :
    (copy.status = .issued ∧
        returned = { copy with status := .available, currentBorrowerId := none }) ∨
      (copy.status = .reserved ∧
        returned = { copy with status := .available, currentReserverId := none }) := by
  unfold returnBook at accepted
  cases status : copy.status with
  | issued =>
      simp only [status, Except.ok.injEq] at accepted
      exact .inl ⟨rfl, accepted.symm⟩
  | reserved =>
      simp only [status, Except.ok.injEq] at accepted
      exact .inr ⟨rfl, accepted.symm⟩
  | available | inTransit | underRepair | lost =>
      simp [status, refuse] at accepted

theorem reserve_ok {copy held : BookCopy} {reserverId : String}
    (accepted : copy.reserve reserverId = .ok held) :
    copy.status = .available ∧
      held = { copy with status := .reserved, currentReserverId := some reserverId } := by
  unfold reserve at accepted
  cases status : copy.status with
  | available =>
      simp only [status, Except.ok.injEq] at accepted
      exact ⟨rfl, accepted.symm⟩
  | reserved | issued | inTransit | underRepair | lost =>
      simp [status, refuse] at accepted

theorem startTransfer_ok {copy moved : BookCopy} {destination : String}
    (accepted : copy.startTransfer destination = .ok moved) :
    copy.status = .available ∧
      moved = { copy with status := .inTransit, targetBranchId := some destination } := by
  unfold startTransfer at accepted
  cases status : copy.status with
  | available =>
      simp only [status, Except.ok.injEq] at accepted
      exact ⟨rfl, accepted.symm⟩
  | reserved | issued | inTransit | underRepair | lost =>
      simp [status, refuse] at accepted

theorem completeTransfer_ok {copy arrived : BookCopy}
    (accepted : copy.completeTransfer = .ok arrived) :
    copy.status = .inTransit ∧
      arrived =
        if truthy copy.targetBranchId then
          { copy with
            status := .available
            branchId := copy.targetBranchId.getD copy.branchId
            targetBranchId := none }
        else { copy with status := .available } := by
  unfold completeTransfer at accepted
  cases status : copy.status with
  | inTransit =>
      simp only [status] at accepted
      split at accepted
      · next set =>
          cases accepted
          exact ⟨rfl, by simp [set]⟩
      · next unset =>
          cases accepted
          exact ⟨rfl, by simp [unset]⟩
  | available | reserved | issued | underRepair | lost =>
      simp [status, refuse] at accepted

/-- The holder fields agree with the status. -/
structure Coherent (copy : BookCopy) : Prop where
  borrower : copy.currentBorrowerId.isSome = true ↔ copy.status = .issued
  reserver : copy.currentReserverId.isSome = true ↔ copy.status = .reserved
  target : copy.targetBranchId.isSome = true ↔ copy.status = .inTransit
  destination : ∀ branchId, copy.targetBranchId = some branchId → branchId ≠ ""

theorem coherent_new (copyId bookIsbn branchId shelfLocation : String) (price : ℚ) :
    (new copyId bookIsbn branchId shelfLocation price).Coherent := by
  constructor <;> simp [new]

theorem Coherent.borrower_none {copy : BookCopy} (coherent : copy.Coherent)
    (status : copy.status ≠ .issued) : copy.currentBorrowerId = none := by
  simpa [Option.isSome_iff_ne_none] using mt coherent.borrower.mp status

theorem Coherent.reserver_none {copy : BookCopy} (coherent : copy.Coherent)
    (status : copy.status ≠ .reserved) : copy.currentReserverId = none := by
  simpa [Option.isSome_iff_ne_none] using mt coherent.reserver.mp status

theorem Coherent.target_none {copy : BookCopy} (coherent : copy.Coherent)
    (status : copy.status ≠ .inTransit) : copy.targetBranchId = none := by
  simpa [Option.isSome_iff_ne_none] using mt coherent.target.mp status

theorem Coherent.checkOut {copy issued : BookCopy} {borrowerId : String}
    (coherent : copy.Coherent) (accepted : copy.checkOut borrowerId = .ok issued) :
    issued.Coherent := by
  obtain ⟨shelved, rfl⟩ := checkOut_ok accepted
  have noTarget : copy.targetBranchId = none := by
    apply coherent.target_none
    rcases shelved with status | status <;> simp [status]
  have noReserver : (if copy.status = .reserved then none else copy.currentReserverId) = none := by
    split
    · rfl
    · next status => exact coherent.reserver_none status
  constructor <;> simp [noTarget, noReserver]

theorem Coherent.returnBook {copy returned : BookCopy} (coherent : copy.Coherent)
    (accepted : copy.returnBook = .ok returned) : returned.Coherent := by
  rcases returnBook_ok accepted with ⟨status, rfl⟩ | ⟨status, rfl⟩
  · constructor <;> simp [coherent.reserver_none, coherent.target_none, status]
  · constructor <;> simp [coherent.borrower_none, coherent.target_none, status]

theorem Coherent.reserve {copy held : BookCopy} {reserverId : String} (coherent : copy.Coherent)
    (accepted : copy.reserve reserverId = .ok held) : held.Coherent := by
  obtain ⟨status, rfl⟩ := reserve_ok accepted
  constructor <;> simp [coherent.borrower_none, coherent.target_none, status]

theorem Coherent.startTransfer {copy moved : BookCopy} {destination : String}
    (coherent : copy.Coherent) (nonempty : destination ≠ "")
    (accepted : copy.startTransfer destination = .ok moved) : moved.Coherent := by
  obtain ⟨status, rfl⟩ := startTransfer_ok accepted
  constructor <;> simp [coherent.borrower_none, coherent.reserver_none, status, nonempty]

theorem Coherent.completeTransfer {copy arrived : BookCopy} (coherent : copy.Coherent)
    (accepted : copy.completeTransfer = .ok arrived) : arrived.Coherent := by
  obtain ⟨status, rfl⟩ := completeTransfer_ok accepted
  obtain ⟨branchId, target⟩ := Option.isSome_iff_exists.mp (coherent.target.mpr status)
  have set : truthy copy.targetBranchId = true := by
    rw [target]
    exact truthy_some (coherent.destination branchId target)
  constructor <;> simp [set, coherent.borrower_none, coherent.reserver_none, status]

/-- A transition keeps the copy's identity and title. -/
structure SameCopy (before after : BookCopy) : Prop where
  copyId : after.copyId = before.copyId
  bookIsbn : after.bookIsbn = before.bookIsbn

theorem sameCopy_checkOut {copy issued : BookCopy} {borrowerId : String}
    (accepted : copy.checkOut borrowerId = .ok issued) : SameCopy copy issued := by
  obtain ⟨_, rfl⟩ := checkOut_ok accepted
  exact ⟨rfl, rfl⟩

theorem sameCopy_returnBook {copy returned : BookCopy}
    (accepted : copy.returnBook = .ok returned) : SameCopy copy returned := by
  rcases returnBook_ok accepted with ⟨_, rfl⟩ | ⟨_, rfl⟩ <;> exact ⟨rfl, rfl⟩

theorem sameCopy_reserve {copy held : BookCopy} {reserverId : String}
    (accepted : copy.reserve reserverId = .ok held) : SameCopy copy held := by
  obtain ⟨_, rfl⟩ := reserve_ok accepted
  exact ⟨rfl, rfl⟩

theorem sameCopy_startTransfer {copy moved : BookCopy} {destination : String}
    (accepted : copy.startTransfer destination = .ok moved) : SameCopy copy moved := by
  obtain ⟨_, rfl⟩ := startTransfer_ok accepted
  exact ⟨rfl, rfl⟩

theorem sameCopy_completeTransfer {copy arrived : BookCopy}
    (accepted : copy.completeTransfer = .ok arrived) : SameCopy copy arrived := by
  obtain ⟨_, rfl⟩ := completeTransfer_ok accepted
  split <;> exact ⟨rfl, rfl⟩

/-- One operation of the state machine leads from one row of a copy to the next;
a return may be followed by a reservation. -/
inductive Lifecycle (before : BookCopy) : BookCopy → Prop where
  | checkOut {after : BookCopy} (borrowerId : String)
      (accepted : before.checkOut borrowerId = .ok after) : Lifecycle before after
  | returnBook {after : BookCopy} (accepted : before.returnBook = .ok after) :
      Lifecycle before after
  | returnAndReserve {returned after : BookCopy} (reserverId : String)
      (accepted : before.returnBook = .ok returned)
      (held : returned.reserve reserverId = .ok after) : Lifecycle before after
  | startTransfer {after : BookCopy} (destination : String)
      (accepted : before.startTransfer destination = .ok after) : Lifecycle before after
  | completeTransfer {after : BookCopy} (accepted : before.completeTransfer = .ok after) :
      Lifecycle before after

theorem SameCopy.trans {first second third : BookCopy} (left : SameCopy first second)
    (right : SameCopy second third) : SameCopy first third :=
  ⟨right.copyId.trans left.copyId, right.bookIsbn.trans left.bookIsbn⟩

theorem Lifecycle.sameCopy {before after : BookCopy} (legal : Lifecycle before after) :
    SameCopy before after := by
  cases legal with
  | checkOut _ accepted => exact sameCopy_checkOut accepted
  | returnBook accepted => exact sameCopy_returnBook accepted
  | returnAndReserve _ accepted held =>
      exact (sameCopy_returnBook accepted).trans (sameCopy_reserve held)
  | startTransfer _ accepted => exact sameCopy_startTransfer accepted
  | completeTransfer accepted => exact sameCopy_completeTransfer accepted

theorem Lifecycle.copyId {before after : BookCopy} (legal : Lifecycle before after) :
    after.copyId = before.copyId :=
  legal.sameCopy.copyId

end LibraFlow.Core.BookCopy
