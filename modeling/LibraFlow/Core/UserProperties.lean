import LibraFlow.Core.User

/-! Open loans in a user's history: a checkout opens one, a return closes the
latest, and loans of other copies are not affected. -/

set_option autoImplicit false

namespace LibraFlow.Core.User

/-- Number of loans of a copy that have not been returned. -/
def openLoans (copyId : String) (history : List HistoryEntry) : Nat :=
  history.countP (HistoryEntry.isOpenFor copyId)

@[simp] theorem isOpenFor_openLoan (copyId other isbn : String) (now : Datetime) :
    (openLoan copyId isbn now).isOpenFor other = decide (copyId = other) := by
  simp [HistoryEntry.isOpenFor, openLoan]

private theorem openLoans_addBorrow (user : User) (copyId other isbn : String) (now : Datetime) :
    openLoans other (user.addBorrow copyId isbn now).borrowHistory =
      openLoans other user.borrowHistory + if copyId = other then 1 else 0 := by
  simp [openLoans, addBorrow]

private theorem countP_closeFirst (copyId other : String) (isLate isDamaged : Bool)
    (now : Datetime) (history : List HistoryEntry) :
    (closeFirst copyId isLate isDamaged now history).countP (HistoryEntry.isOpenFor other) =
      if copyId = other then history.countP (HistoryEntry.isOpenFor other) - 1
      else history.countP (HistoryEntry.isOpenFor other) := by
  induction history with
  | nil => simp [closeFirst]
  | cons entry rest ih =>
      by_cases closing : entry.isOpenFor copyId = true
      · have closed : HistoryEntry.isOpenFor other { entry with
            returnedAt := some now, isLate := isLate, isDamaged := isDamaged } = false := by
          simp [HistoryEntry.isOpenFor]
        by_cases same : copyId = other
        · subst other
          simp [closeFirst, closing, closed]
        · have elsewhere : entry.isOpenFor other = false := by
            simp only [HistoryEntry.isOpenFor, decide_eq_true_eq, decide_eq_false_iff_not,
              not_and] at closing ⊢
            exact fun equal => absurd (closing.1.symm.trans equal) same
          simp [closeFirst, closing, closed, elsewhere, same]
      · by_cases same : copyId = other
        · subst other
          simp [closeFirst, closing, ih]
        · simp [closeFirst, closing, ih, same, List.countP_cons]

private theorem openLoans_closeLatest (copyId other : String) (isLate isDamaged : Bool)
    (now : Datetime) (history : List HistoryEntry) :
    openLoans other (closeLatest copyId isLate isDamaged now history) =
      if copyId = other then openLoans other history - 1 else openLoans other history := by
  simp [openLoans, closeLatest, countP_closeFirst]

/-- A return closes the latest open loan of the copy, if there is one, and leaves every
other entry alone. -/
inductive ClosesLatest (copyId : String) (isLate isDamaged : Bool) (now : Datetime)
    (before after : List HistoryEntry) : Prop where
  | closed {earlier later : List HistoryEntry} {entry : HistoryEntry}
      (split : before = earlier ++ entry :: later) (isOpen : entry.isOpenFor copyId = true)
      (latest : ∀ other ∈ later, other.isOpenFor copyId = false)
      (changed : after = earlier ++ { entry with
        returnedAt := some now, isLate := isLate, isDamaged := isDamaged } :: later)
  | unrecorded (closed : ∀ entry ∈ before, entry.isOpenFor copyId = false)
      (unchanged : after = before)

private theorem closeFirst_cases (copyId : String) (isLate isDamaged : Bool) (now : Datetime)
    (history : List HistoryEntry) :
    ((∀ entry ∈ history, entry.isOpenFor copyId = false) ∧
      closeFirst copyId isLate isDamaged now history = history) ∨
    ∃ earlier entry later, history = earlier ++ entry :: later ∧
      entry.isOpenFor copyId = true ∧ (∀ other ∈ earlier, other.isOpenFor copyId = false) ∧
      closeFirst copyId isLate isDamaged now history = earlier ++ { entry with
        returnedAt := some now, isLate := isLate, isDamaged := isDamaged } :: later := by
  induction history with
  | nil => exact .inl ⟨by simp, rfl⟩
  | cons entry rest ih =>
      cases closing : entry.isOpenFor copyId with
      | true => exact .inr ⟨[], entry, rest, rfl, closing, by simp, by simp [closeFirst, closing]⟩
      | false =>
          have skips : closeFirst copyId isLate isDamaged now (entry :: rest) =
              entry :: closeFirst copyId isLate isDamaged now rest := by
            simp [closeFirst, closing]
          rcases ih with ⟨closed, same⟩ | ⟨before, found, after, split, isOpen, closed, result⟩
          · exact .inl ⟨by simpa [closing] using closed, by rw [skips, same]⟩
          · refine .inr ⟨entry :: before, found, after, by rw [split]; rfl, isOpen, ?_, ?_⟩
            · simpa [closing] using closed
            · rw [skips, result]
              rfl

theorem closesLatest_closeLatest (copyId : String) (isLate isDamaged : Bool) (now : Datetime)
    (history : List HistoryEntry) :
    ClosesLatest copyId isLate isDamaged now history
      (closeLatest copyId isLate isDamaged now history) := by
  rcases closeFirst_cases copyId isLate isDamaged now history.reverse with
    ⟨closed, same⟩ | ⟨earlier, entry, later, split, isOpen, closed, result⟩
  · refine .unrecorded (fun entry member => closed entry (List.mem_reverse.mpr member)) ?_
    rw [closeLatest, same, List.reverse_reverse]
  · have forward : history = later.reverse ++ entry :: earlier.reverse := by
      rw [← List.reverse_reverse history, split]
      simp
    refine .closed forward isOpen (fun other member => closed other (List.mem_reverse.mp member)) ?_
    rw [closeLatest, result]
    simp

theorem limit_of_canBorrow {user : User} (eligible : user.canBorrow = true) :
    user.activeBorrowedCopyIds.card < user.maxBorrowLimit := by
  unfold canBorrow at eligible
  split at eligible
  · cases eligible
  · split at eligible
    · cases eligible
    · split at eligible
      · cases eligible
      · next room => exact Nat.lt_of_not_le room

/-- The user's active set and history show exactly the given loans, within the limit. -/
structure Shows (user : User) (loans : String → Prop) : Prop where
  active : ∀ copyId, copyId ∈ user.activeBorrowedCopyIds ↔ loans copyId
  openLoan : ∀ copyId, loans copyId → openLoans copyId user.borrowHistory = 1
  noLoan : ∀ copyId, ¬ loans copyId → openLoans copyId user.borrowHistory = 0
  limit : user.activeBorrowedCopyIds.card ≤ user.maxBorrowLimit

theorem shows_none {user : User} (active : user.activeBorrowedCopyIds = ∅)
    (history : user.borrowHistory = []) : user.Shows fun _ => False := by
  constructor <;> simp [active, history, openLoans]

namespace Shows

variable {user : User} {loans : String → Prop}

theorem congr (shows : user.Shows loans) {others : String → Prop}
    (same : ∀ copyId, others copyId ↔ loans copyId) : user.Shows others := by
  rw [show others = loans from funext fun copyId => propext (same copyId)]
  exact shows

theorem addBorrow (shows : user.Shows loans) {copyId isbn : String} {now : Datetime}
    (free : ¬ loans copyId) (eligible : user.canBorrow = true) :
    (user.addBorrow copyId isbn now).Shows fun other => other = copyId ∨ loans other := by
  have none := shows.noLoan copyId free
  refine ⟨?_, ?_, ?_, ?_⟩
  · intro other
    simp only [User.addBorrow, Finset.mem_insert, shows.active]
  · intro other taken
    rw [openLoans_addBorrow]
    rcases taken with rfl | earlier
    · simp [none]
    · have different : copyId ≠ other := by
        rintro rfl
        exact free earlier
      simp [different, shows.openLoan other earlier]
  · intro other untaken
    obtain ⟨different, unlent⟩ := not_or.mp untaken
    rw [openLoans_addBorrow, shows.noLoan other unlent]
    simp [Ne.symm different]
  · calc (insert copyId user.activeBorrowedCopyIds).card
        ≤ user.activeBorrowedCopyIds.card + 1 := Finset.card_insert_le _ _
      _ ≤ user.maxBorrowLimit := limit_of_canBorrow eligible

theorem recordReturn (shows : user.Shows loans) {copyId : String} {isLate isDamaged : Bool}
    {now : Datetime} (lent : loans copyId) :
    (user.recordReturn copyId isLate isDamaged now).Shows
      fun other => other ≠ copyId ∧ loans other := by
  refine ⟨?_, ?_, ?_, ?_⟩
  · intro other
    simp only [User.recordReturn, Finset.mem_erase, shows.active]
  · intro other kept
    rw [User.recordReturn, openLoans_closeLatest, if_neg (Ne.symm kept.1)]
    exact shows.openLoan other kept.2
  · intro other closed
    rw [User.recordReturn, openLoans_closeLatest]
    split
    · next same =>
        subst other
        rw [shows.openLoan copyId lent]
    · next different =>
        exact shows.noLoan other fun earlier => closed ⟨Ne.symm different, earlier⟩
  · exact (Finset.card_erase_le).trans shows.limit

theorem withBalance (shows : user.Shows loans) (balance : ℚ) :
    User.Shows { user with unpaidFinesBalance := balance } loans :=
  ⟨shows.active, shows.openLoan, shows.noLoan, shows.limit⟩

end Shows

end LibraFlow.Core.User
