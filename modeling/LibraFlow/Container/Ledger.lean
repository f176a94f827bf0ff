import LibraFlow.Core.BookProperties
import LibraFlow.Core.UserProperties

/-! The loan ledger: what the container is for, with copies and users seen by
identifier only. A loan appears in three places, the copy, the borrower's active
set and the borrower's history, and every ledger event keeps the three in step. -/

set_option autoImplicit false

namespace LibraFlow.Container

open LibraFlow.Core

structure Ledger where
  copies : String → Option BookCopy
  users : String → Option User

namespace Ledger

def putCopy (ledger : Ledger) (copyId : String) (copy : BookCopy) : Ledger :=
  { ledger with copies := Function.update ledger.copies copyId (some copy) }

def putUser (ledger : Ledger) (userId : String) (user : User) : Ledger :=
  { ledger with users := Function.update ledger.users userId (some user) }

/-- The copy is on loan to the user. -/
def OnLoan (ledger : Ledger) (copyId userId : String) : Prop :=
  ∃ copy, ledger.copies copyId = some copy ∧ copy.status = .issued ∧
    copy.currentBorrowerId = some userId

/-- The three records of a loan agree, and nobody exceeds their limit. -/
structure Consistent (ledger : Ledger) : Prop where
  copyIds : ∀ copyId copy, ledger.copies copyId = some copy → copy.copyId = copyId
  userIds : ∀ userId user, ledger.users userId = some user → user.userId = userId
  coherent : ∀ copyId copy, ledger.copies copyId = some copy → copy.Coherent
  borrowers : ∀ copyId userId, ledger.OnLoan copyId userId → ∃ user, ledger.users userId = some user
  records : ∀ userId user, ledger.users userId = some user →
    user.Shows fun copyId => ledger.OnLoan copyId userId

/-- What can happen to a ledger. -/
inductive Event : Ledger → Ledger → Prop where
  | acquire {ledger : Ledger} {copy : BookCopy} (fresh : ledger.copies copy.copyId = none)
      (coherent : copy.Coherent) (shelved : copy.status = .available) :
      Event ledger (ledger.putCopy copy.copyId copy)
  | enrol {ledger : Ledger} {user : User} (fresh : ledger.users user.userId = none)
      (active : user.activeBorrowedCopyIds = ∅) (history : user.borrowHistory = []) :
      Event ledger (ledger.putUser user.userId user)
  | lend {ledger : Ledger} {copyId userId isbn : String} {now : Datetime} {user : User}
      {copy issued : BookCopy} (known : ledger.users userId = some user)
      (eligible : user.canBorrow = true) (held : ledger.copies copyId = some copy)
      (accepted : copy.checkOut userId = .ok issued) :
      Event ledger ((ledger.putCopy copyId issued).putUser userId
        (user.addBorrow copyId isbn now))
  | giveBack {ledger : Ledger} {copyId userId : String} {isLate isDamaged : Bool} {now : Datetime}
      {user : User} {copy returned : BookCopy} (known : ledger.users userId = some user)
      (held : ledger.copies copyId = some copy) (status : copy.status = .issued)
      (borrower : copy.currentBorrowerId = some userId)
      (accepted : copy.returnBook = .ok returned) :
      Event ledger ((ledger.putCopy copyId returned).putUser userId
        (user.recordReturn copyId isLate isDamaged now))
  | hold {ledger : Ledger} {copyId userId : String} {copy held : BookCopy}
      (present : ledger.copies copyId = some copy) (accepted : copy.reserve userId = .ok held) :
      Event ledger (ledger.putCopy copyId held)
  | depart {ledger : Ledger} {copyId branchId : String} {copy moved : BookCopy}
      (present : ledger.copies copyId = some copy) (named : branchId ≠ "")
      (accepted : copy.startTransfer branchId = .ok moved) :
      Event ledger (ledger.putCopy copyId moved)
  | arrive {ledger : Ledger} {copyId : String} {copy arrived : BookCopy}
      (present : ledger.copies copyId = some copy)
      (accepted : copy.completeTransfer = .ok arrived) :
      Event ledger (ledger.putCopy copyId arrived)
  | fine {ledger : Ledger} {userId : String} {user : User} (balance : ℚ)
      (known : ledger.users userId = some user) :
      Event ledger (ledger.putUser userId { user with unpaidFinesBalance := balance })

section Lookup

variable {ledger : Ledger} {copyId other userId : String} {copy found : BookCopy}
  {user foundUser : User}

private theorem copies_putCopy : (ledger.putCopy copyId copy).copies other =
    if other = copyId then some copy else ledger.copies other := by
  simp [putCopy, Function.update_apply]

private theorem users_putUser : (ledger.putUser userId user).users other =
    if other = userId then some user else ledger.users other := by
  simp [putUser, Function.update_apply]

private theorem onLoan_putCopy {borrowerId : String} :
    (ledger.putCopy copyId copy).OnLoan other borrowerId ↔
      if other = copyId then copy.status = .issued ∧ copy.currentBorrowerId = some borrowerId
      else ledger.OnLoan other borrowerId := by
  unfold OnLoan
  rw [copies_putCopy]
  split
  · constructor
    · rintro ⟨_, ⟨rfl⟩, facts⟩
      exact facts
    · exact fun facts => ⟨copy, rfl, facts⟩
  · rfl

@[simp] theorem onLoan_putUser {borrowerId : String} :
    (ledger.putUser userId user).OnLoan copyId borrowerId ↔ ledger.OnLoan copyId borrowerId :=
  Iff.rfl

theorem onLoan_iff (held : ledger.copies copyId = some copy) :
    ledger.OnLoan copyId userId ↔
      copy.status = .issued ∧ copy.currentBorrowerId = some userId := by
  unfold OnLoan
  constructor
  · rintro ⟨same, present, facts⟩
    rw [held, Option.some.injEq] at present
    exact present ▸ facts
  · exact fun facts => ⟨copy, held, facts⟩

end Lookup

private theorem not_onLoan {ledger : Ledger} {copyId : String} {copy : BookCopy}
    (held : ledger.copies copyId = some copy) (status : copy.status ≠ .issued) (userId : String) :
    ¬ ledger.OnLoan copyId userId := by
  rw [onLoan_iff held]
  exact fun facts => status facts.1

theorem consistent_empty : Consistent ⟨fun _ => none, fun _ => none⟩ := by
  constructor <;> simp [OnLoan]

namespace Consistent

variable {ledger : Ledger}

/-- Change a copy that is lent to one user at most, before and after, together
with that user's records. -/
theorem putLoan (consistent : ledger.Consistent) {copyId userId : String} {copy : BookCopy}
    {user : User} (identity : copy.copyId = copyId) (coherent : copy.Coherent)
    (userIdentity : user.userId = userId)
    (before : ∀ other, ledger.OnLoan copyId other → other = userId)
    (after : ∀ other, copy.currentBorrowerId = some other → other = userId)
    (shows : user.Shows fun other => (ledger.putCopy copyId copy).OnLoan other userId) :
    ((ledger.putCopy copyId copy).putUser userId user).Consistent := by
  refine ⟨?_, ?_, ?_, ?_, ?_⟩
  · intro other found present
    change (ledger.putCopy copyId copy).copies other = some found at present
    rw [copies_putCopy] at present
    split at present
    · next equal =>
        cases present
        rw [identity, equal]
    · exact consistent.copyIds other found present
  · intro other found known
    rw [users_putUser] at known
    split at known
    · next equal =>
        cases known
        rw [userIdentity, equal]
    · exact consistent.userIds other found known
  · intro other found present
    change (ledger.putCopy copyId copy).copies other = some found at present
    rw [copies_putCopy] at present
    split at present
    · cases present
      exact coherent
    · exact consistent.coherent other found present
  · intro otherCopy other onLoan
    rw [onLoan_putUser, onLoan_putCopy] at onLoan
    rw [users_putUser]
    split
    · exact ⟨user, rfl⟩
    · next different =>
        split at onLoan
        · exact absurd (after other onLoan.2) different
        · exact consistent.borrowers otherCopy other onLoan
  · intro other found known
    rw [users_putUser] at known
    split at known
    · next equal =>
        cases known
        subst other
        exact shows
    · next different =>
        apply (consistent.records other found known).congr
        intro otherCopy
        rw [onLoan_putUser, onLoan_putCopy]
        split
        · next equal =>
            subst otherCopy
            constructor
            · exact fun onLoan => absurd (after other onLoan.2) different
            · exact fun onLoan => absurd (before other onLoan) different
        · rfl

/-- A copy that is not on loan may become another one that is not. -/
theorem putCopy (consistent : ledger.Consistent) {copyId : String} {after : BookCopy}
    (identity : after.copyId = copyId) (coherent : after.Coherent)
    (free : ∀ userId, ¬ ledger.OnLoan copyId userId) (status : after.status ≠ .issued) :
    (ledger.putCopy copyId after).Consistent := by
  have same : ∀ other userId,
      (ledger.putCopy copyId after).OnLoan other userId ↔ ledger.OnLoan other userId := by
    intro other userId
    rw [onLoan_putCopy]
    split
    · next equal =>
        subst other
        simp [status, free userId]
    · rfl
  refine ⟨?_, consistent.userIds, ?_, ?_, ?_⟩
  · intro other copy present
    rw [copies_putCopy] at present
    split at present
    · next equal =>
        cases present
        rw [identity, equal]
    · exact consistent.copyIds other copy present
  · intro other copy present
    rw [copies_putCopy] at present
    split at present
    · cases present
      exact coherent
    · exact consistent.coherent other copy present
  · intro other userId onLoan
    exact consistent.borrowers other userId ((same other userId).mp onLoan)
  · intro userId user known
    exact (consistent.records userId user known).congr fun other => same other userId

theorem putUser (consistent : ledger.Consistent) {userId : String} {after : User}
    (identity : after.userId = userId)
    (shows : after.Shows fun copyId => ledger.OnLoan copyId userId) :
    (ledger.putUser userId after).Consistent := by
  refine ⟨consistent.copyIds, ?_, consistent.coherent, ?_, ?_⟩
  · intro other user known
    rw [users_putUser] at known
    split at known
    · next equal =>
        cases known
        rw [identity, equal]
    · exact consistent.userIds other user known
  · intro copyId other onLoan
    rw [users_putUser]
    split
    · exact ⟨after, rfl⟩
    · exact consistent.borrowers copyId other onLoan
  · intro other user known
    rw [users_putUser] at known
    split at known
    · next equal =>
        cases known
        subst other
        exact shows
    · exact consistent.records other user known

theorem lend (consistent : ledger.Consistent) {copyId userId isbn : String} {now : Datetime}
    {user : User} {copy issued : BookCopy} (known : ledger.users userId = some user)
    (eligible : user.canBorrow = true) (held : ledger.copies copyId = some copy)
    (accepted : copy.checkOut userId = .ok issued) :
    ((ledger.putCopy copyId issued).putUser userId (user.addBorrow copyId isbn now)).Consistent := by
  have coherent := (consistent.coherent copyId copy held).checkOut accepted
  have identity := (BookCopy.sameCopy_checkOut accepted).copyId
  obtain ⟨shelved, rfl⟩ := BookCopy.checkOut_ok accepted
  have free := not_onLoan held (by rcases shelved with status | status <;> simp [status])
  apply consistent.putLoan
  · rw [identity, consistent.copyIds copyId copy held]
  · exact coherent
  · exact consistent.userIds userId user known
  · exact fun other onLoan => absurd onLoan (free other)
  · exact fun other borrower => (Option.some.inj borrower).symm
  · apply ((consistent.records userId user known).addBorrow (free userId) eligible).congr
    intro other
    rw [onLoan_putCopy]
    by_cases same : other = copyId <;> simp [same]

theorem giveBack (consistent : ledger.Consistent) {copyId userId : String}
    {isLate isDamaged : Bool} {now : Datetime} {user : User} {copy returned : BookCopy}
    (known : ledger.users userId = some user) (held : ledger.copies copyId = some copy)
    (status : copy.status = .issued) (borrower : copy.currentBorrowerId = some userId)
    (accepted : copy.returnBook = .ok returned) :
    ((ledger.putCopy copyId returned).putUser userId
      (user.recordReturn copyId isLate isDamaged now)).Consistent := by
  have coherent := (consistent.coherent copyId copy held).returnBook accepted
  have identity := (BookCopy.sameCopy_returnBook accepted).copyId
  have lent : ledger.OnLoan copyId userId := (onLoan_iff held).mpr ⟨status, borrower⟩
  have shelved : returned.status = .available := by
    rcases BookCopy.returnBook_ok accepted with ⟨_, rfl⟩ | ⟨_, rfl⟩ <;> rfl
  apply consistent.putLoan
  · rw [identity, consistent.copyIds copyId copy held]
  · exact coherent
  · exact consistent.userIds userId user known
  · intro other onLoan
    have same := ((onLoan_iff held).mp onLoan).2
    rw [borrower] at same
    exact (Option.some.inj same).symm
  · intro other present
    have nobody := coherent.borrower_none (by simp [shelved])
    rw [present] at nobody
    cases nobody
  · apply ((consistent.records userId user known).recordReturn lent).congr
    intro other
    rw [onLoan_putCopy]
    by_cases same : other = copyId <;> simp [same, shelved]

end Consistent

/-- Every event keeps the records in agreement. -/
theorem Event.consistent {before after : Ledger} (event : Event before after)
    (valid : before.Consistent) : after.Consistent := by
  cases event with
  | acquire fresh coherent shelved =>
      apply valid.putCopy rfl coherent
      · rintro userId ⟨copy, present, _⟩
        rw [fresh] at present
        cases present
      · simp [shelved]
  | @enrol user fresh active history =>
      apply valid.putUser rfl
      apply (User.shows_none active history).congr
      intro copyId
      refine iff_false_intro ?_
      intro onLoan
      obtain ⟨earlier, known⟩ := valid.borrowers copyId user.userId onLoan
      rw [fresh] at known
      cases known
  | lend known eligible held accepted => exact valid.lend known eligible held accepted
  | giveBack known held status borrower accepted =>
      exact valid.giveBack known held status borrower accepted
  | @hold copyId userId copy held present accepted =>
      have coherent := (valid.coherent copyId copy present).reserve accepted
      obtain ⟨status, rfl⟩ := BookCopy.reserve_ok accepted
      exact valid.putCopy (valid.copyIds copyId copy present) coherent
        (not_onLoan present (by simp [status])) (by simp)
  | @depart copyId branchId copy moved present named accepted =>
      have coherent := (valid.coherent copyId copy present).startTransfer named accepted
      obtain ⟨status, rfl⟩ := BookCopy.startTransfer_ok accepted
      exact valid.putCopy (valid.copyIds copyId copy present) coherent
        (not_onLoan present (by simp [status])) (by simp)
  | @arrive copyId copy arrived present accepted =>
      have coherent := (valid.coherent copyId copy present).completeTransfer accepted
      have identity := (BookCopy.sameCopy_completeTransfer accepted).copyId
      obtain ⟨status, shape⟩ := BookCopy.completeTransfer_ok accepted
      refine valid.putCopy (identity.trans (valid.copyIds copyId copy present)) coherent
        (not_onLoan present (by simp [status])) ?_
      rw [shape]
      split <;> simp
  | @fine userId user balance known =>
      exact valid.putUser (valid.userIds userId user known)
        ((valid.records userId user known).withBalance balance)

/-- The events of a whole history keep the records in agreement. -/
theorem events_consistent {before after : Ledger}
    (events : Relation.ReflTransGen Event before after) (valid : before.Consistent) :
    after.Consistent := by
  induction events with
  | refl => exact valid
  | tail _ event ih => exact event.consistent ih

end Ledger

end LibraFlow.Container
