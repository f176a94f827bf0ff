import LibraFlow.Core.UserProperties
import LibraFlow.Postgres.Tables

/-! A user row in a session of the object mapper. The history column holds a list
of entry objects; the domain object gets a list of its own with the same entry
objects. The identity map is weak: a row object without changes goes when the call
that has loaded it returns, so saving a user loads the row again, with entry objects
of its own. At a flush the column is written only if its list differs from the one
it was loaded with, as both stand then. -/

set_option autoImplicit false

namespace LibraFlow.Postgres

open LibraFlow.Core LibraFlow.Library

/-- A user object. The history is a list of entry objects; the other fields are
held by value. -/
structure LiveUser where
  fields : User
  history : List Ref

/-- A row object: its columns, the list its history column was loaded with, and the
list that the column has now. -/
structure RowObject where
  fields : User
  loaded : List Ref
  history : List Ref

/-- The entry objects of a session that works on one user, and the row object of the
user while it has changes. -/
structure UserSession where
  objects : Heap HistoryEntry
  changed : Option RowObject

/-- The entries behind a list of references, as they stand. -/
def entries (objects : Heap HistoryEntry) (refs : List Ref) : List HistoryEntry :=
  refs.filterMap objects.read?

/-- The row that a flush writes. -/
def RowObject.written (object : RowObject) (objects : Heap HistoryEntry) (stored : Option User) :
    User :=
  { object.fields with
    borrowHistory :=
      if entries objects object.history = entries objects object.loaded then
        stored.elim [] User.borrowHistory
      else entries objects object.history }

/-- The open loan of a copy that a scan from the end finds. -/
def latestOpen? (objects : Heap HistoryEntry) (copyId : String) (history : List Ref) :
    Option Ref :=
  history.reverse.find? fun ref => (objects.read? ref).any (HistoryEntry.isOpenFor copyId)

/-- Change an entry object in place. -/
def closeAt (objects : Heap HistoryEntry) (isLate isDamaged : Bool) (now : Datetime) (ref : Ref) :
    Heap HistoryEntry :=
  match objects.read? ref with
  | some entry => objects.write ref
      { entry with returnedAt := some now, isLate := isLate, isDamaged := isDamaged }
  | none => objects

namespace UserSession

def empty : UserSession := ⟨.empty, none⟩

/-- The row object, as the identity map has it or from the row. -/
def get (row : User) (session : UserSession) : UserSession × RowObject :=
  match session.changed with
  | some object => (session, object)
  | none =>
      let loaded := session.objects.nextRefs row.borrowHistory.length
      ({ session with objects := session.objects.allocAll row.borrowHistory },
        ⟨row, loaded, loaded⟩)

/-- Load a user. The row object is not kept. -/
def getUser (row : Option User) (session : UserSession) : UserSession × Option LiveUser :=
  match row with
  | none => (session, none)
  | some row =>
      let (session, object) := session.get row
      (session, some ⟨modelToUser object.fields, object.history⟩)

/-- Assign the columns of the row object, which has changes from now on; a user
without a row gets one. -/
def merge (row : Option User) (user : LiveUser) (session : UserSession) : UserSession :=
  match row with
  | none => { session with changed := some ⟨user.fields, [], user.history⟩ }
  | some row =>
      let (session, object) := session.get row
      { session with
        changed := some { object with fields := user.fields, history := user.history } }

/-- Write the row object, if it has changes. -/
def flush (session : UserSession) (users : Table User.userId) : Table User.userId :=
  match session.changed with
  | none => users
  | some object =>
      users.merge (object.written session.objects (users.get? object.fields.userId))

def addBorrow (user : LiveUser) (copyId isbn : String) (now : Datetime) (session : UserSession) :
    UserSession × LiveUser :=
  ({ session with objects := session.objects.alloc (User.openLoan copyId isbn now) },
    { fields := { user.fields with
        activeBorrowedCopyIds := insert copyId user.fields.activeBorrowedCopyIds }
      history := user.history ++ [session.objects.next] })

def recordReturn (user : LiveUser) (copyId : String) (isLate isDamaged : Bool) (now : Datetime)
    (session : UserSession) : UserSession × LiveUser :=
  (match latestOpen? session.objects copyId user.history with
    | some ref => { session with objects := closeAt session.objects isLate isDamaged now ref }
    | none => session,
    { user with fields := { user.fields with
        activeBorrowedCopyIds := user.fields.activeBorrowedCopyIds.erase copyId } })

end UserSession

section Entries

variable {objects : Heap HistoryEntry} {refs : List Ref} {ref : Ref}

private theorem entries_reverse : entries objects refs.reverse = (entries objects refs).reverse :=
  List.filterMap_reverse

private theorem entries_alloc (entry : HistoryEntry) (older : ∀ ref ∈ refs, ref < objects.next) :
    entries (objects.alloc entry) refs = entries objects refs := by
  apply List.filterMap_congr
  intro ref member
  rw [Heap.read?_alloc, if_neg (Nat.ne_of_lt (older ref member))]

private theorem entries_allocAll (fresh : List HistoryEntry)
    (older : ∀ ref ∈ refs, ref < objects.next) :
    entries (objects.allocAll fresh) refs = entries objects refs := by
  apply List.filterMap_congr
  intro ref member
  rw [Heap.read?_allocAll_of_lt fresh (older ref member)]

/-- The objects of a list that has just been loaded hold what was loaded. -/
theorem entries_nextRefs (objects : Heap HistoryEntry) (fresh : List HistoryEntry) :
    entries (objects.allocAll fresh) (objects.nextRefs fresh.length) = fresh := by
  induction fresh generalizing objects with
  | nil => rfl
  | cons entry rest ih =>
      have first : (objects.allocAll (entry :: rest)).read? objects.next = some entry := by
        rw [Heap.allocAll_cons, Heap.read?_allocAll_of_lt rest (by simp), Heap.read?_alloc_next]
      rw [List.length_cons, Heap.nextRefs_succ objects entry, entries,
        List.filterMap_cons_some first, ← entries, Heap.allocAll_cons, ih]

variable {copyId : String} {isLate isDamaged : Bool} {now : Datetime}

private theorem read?_closeAt_of_ne {other : Ref} (different : ref ≠ other) :
    (closeAt objects isLate isDamaged now ref).read? other = objects.read? other := by
  unfold closeAt
  split
  · rw [Heap.read?_write, if_neg different]
  · rfl

private theorem next_closeAt :
    (closeAt objects isLate isDamaged now ref).next = objects.next := by
  unfold closeAt
  split
  · rw [Heap.next_write]
  · rfl

/-- Closing the first open entry in place closes it in the list of entries. -/
theorem entries_close (once : refs.Nodup)
    (readable : ∀ ref ∈ refs, ∃ entry, objects.read? ref = some entry) :
    entries (match refs.find? fun ref =>
        (objects.read? ref).any (HistoryEntry.isOpenFor copyId) with
      | some ref => closeAt objects isLate isDamaged now ref
      | none => objects) refs =
    User.closeFirst copyId isLate isDamaged now (entries objects refs) := by
  induction refs with
  | nil => rfl
  | cons first rest ih =>
      obtain ⟨entry, read⟩ := readable first List.mem_cons_self
      have apart := (List.nodup_cons.mp once).1
      have here : entries objects (first :: rest) = entry :: entries objects rest := by
        simp [entries, read]
      rw [here, User.closeFirst]
      by_cases found : entry.isOpenFor copyId = true
      · have later : entries (closeAt objects isLate isDamaged now first) rest =
            entries objects rest := by
          apply List.filterMap_congr
          intro ref member
          exact read?_closeAt_of_ne fun same => apart (same ▸ member)
        have closed : (closeAt objects isLate isDamaged now first).read? first = some
            { entry with returnedAt := some now, isLate := isLate, isDamaged := isDamaged } := by
          rw [closeAt, read]
          exact Heap.read?_write_self _ read
        rw [List.find?_cons_of_pos (by simp [read, found]), if_pos found, ← later]
        simp [entries, closed]
      · have later := ih (List.nodup_cons.mp once).2 fun ref member =>
          readable ref (List.mem_cons_of_mem _ member)
        rw [List.find?_cons_of_neg (by simp [read, found]), if_neg found, ← later]
        cases chosen : rest.find? (fun ref =>
            (objects.read? ref).any (HistoryEntry.isOpenFor copyId)) with
        | none => simp [entries, read]
        | some ref =>
            have other : ref ≠ first := fun same => apart (same ▸ List.mem_of_find?_eq_some chosen)
            simp [entries, read?_closeAt_of_ne other, read]

/-- A column that is not written holds the entries already. -/
theorem RowObject.written_eq {object : RowObject} {stored : Option User}
    (loaded : entries objects object.loaded = stored.elim [] User.borrowHistory) :
    object.written objects stored =
      { object.fields with borrowHistory := entries objects object.history } := by
  rw [written]
  split
  · next same => rw [same, loaded]
  · rfl

end Entries

/-- A user object stands for this user: its entries are objects of the session, each
of them once. -/
structure StandsFor (objects : Heap HistoryEntry) (live : LiveUser) (user : User) : Prop where
  once : live.history.Nodup
  older : ∀ ref ∈ live.history, ref < objects.next
  value : { live.fields with borrowHistory := entries objects live.history } = user

namespace UserSession

variable {session : UserSession} {live : LiveUser} {user row : User}

private theorem get_unchanged (unchanged : session.changed = none) :
    session.get row = ({ session with objects := session.objects.allocAll row.borrowHistory },
      ⟨row, session.objects.nextRefs row.borrowHistory.length,
        session.objects.nextRefs row.borrowHistory.length⟩) := by
  rw [get, unchanged]

theorem getUser_standsFor (unchanged : session.changed = none) :
    ∃ live, session.getUser (some row) =
        ({ session with objects := session.objects.allocAll row.borrowHistory }, some live) ∧
      StandsFor (session.objects.allocAll row.borrowHistory) live (modelToUser row) := by
  rw [getUser, get_unchanged unchanged]
  refine ⟨_, rfl, List.nodup_range', ?_, ?_⟩
  · intro ref member
    rw [Heap.next_allocAll]
    exact (Heap.mem_nextRefs.mp member).2
  · simp only [entries_nextRefs]
    rfl

theorem changed_merge (session : UserSession) (row : Option User) (user : LiveUser) :
    (session.merge row user).changed.isSome = true := by
  cases row <;> rfl

theorem changed_recordReturn (user : LiveUser) (copyId : String) (isLate isDamaged : Bool)
    (now : Datetime) :
    (session.recordReturn user copyId isLate isDamaged now).1.changed = session.changed := by
  unfold recordReturn
  split <;> rfl

end UserSession

namespace StandsFor

variable {session : UserSession} {live : LiveUser} {user : User}

theorem addBorrow (stands : StandsFor session.objects live user) (copyId isbn : String)
    (now : Datetime) :
    StandsFor (session.addBorrow live copyId isbn now).1.objects
      (session.addBorrow live copyId isbn now).2 (user.addBorrow copyId isbn now) := by
  have fresh : session.objects.next ∉ live.history := fun member =>
    absurd (stands.older _ member) (Nat.lt_irrefl _)
  have longer : entries (session.objects.alloc (User.openLoan copyId isbn now))
      (live.history ++ [session.objects.next]) =
      entries session.objects live.history ++ [User.openLoan copyId isbn now] := by
    rw [entries, List.filterMap_append]
    exact congrArg₂ (· ++ ·) (entries_alloc _ stands.older) (by simp)
  constructor
  · exact List.nodup_append.mpr ⟨stands.once, List.nodup_singleton _, by
      intro ref member other last
      rw [List.mem_singleton.mp last]
      exact fun same => fresh (same ▸ member)⟩
  · intro ref member
    rw [UserSession.addBorrow, Heap.next_alloc]
    rcases List.mem_append.mp member with earlier | last
    · exact Nat.lt_succ_of_lt (stands.older ref earlier)
    · rw [List.mem_singleton.mp last]
      exact Nat.lt_succ_self _
  · simp only [UserSession.addBorrow, longer]
    rw [← stands.value]
    rfl

theorem canBorrow (stands : StandsFor session.objects live user) :
    live.fields.canBorrow = user.canBorrow := by
  rw [← stands.value]
  rfl

private theorem readable (stands : StandsFor session.objects live user) {ref : Ref}
    (member : ref ∈ live.history) : ∃ entry, session.objects.read? ref = some entry :=
  ⟨_, List.getElem?_eq_getElem (stands.older ref member)⟩

theorem recordReturn (stands : StandsFor session.objects live user) (copyId : String)
    (isLate isDamaged : Bool) (now : Datetime) :
    StandsFor (session.recordReturn live copyId isLate isDamaged now).1.objects
      (session.recordReturn live copyId isLate isDamaged now).2
      (user.recordReturn copyId isLate isDamaged now) := by
  have closed := @entries_close session.objects live.history.reverse copyId isLate isDamaged now
    (List.nodup_reverse.mpr stands.once)
    fun ref member => stands.readable (List.mem_reverse.mp member)
  have history : entries (session.recordReturn live copyId isLate isDamaged now).1.objects
      live.history = User.closeLatest copyId isLate isDamaged now
        (entries session.objects live.history) := by
    rw [User.closeLatest, ← entries_reverse, ← closed, entries_reverse, List.reverse_reverse,
      UserSession.recordReturn, latestOpen?]
    split <;> rfl
  refine ⟨stands.once, ?_, ?_⟩
  · intro ref member
    have kept : (session.recordReturn live copyId isLate isDamaged now).1.objects.next =
        session.objects.next := by
      unfold UserSession.recordReturn
      split
      · exact next_closeAt
      · rfl
    rw [kept]
    exact stands.older ref member
  · rw [← stands.value]
    simp only [User.recordReturn, ← history]
    rfl

/-- A user who is saved and flushed is in the table as he stands. -/
theorem flush_merge (stands : StandsFor session.objects live user)
    (unchanged : session.changed = none) (users : Table User.userId) :
    (session.merge (users.get? live.fields.userId) live).flush users = users.merge user := by
  have value := stands.value
  cases stored : users.get? live.fields.userId with
  | none =>
      have written := @RowObject.written_eq session.objects ⟨live.fields, [], live.history⟩ none rfl
      simp only [UserSession.merge, UserSession.flush, stored, written, value]
  | some row =>
      let objects := session.objects.allocAll row.borrowHistory
      let object : RowObject := ⟨live.fields, session.objects.nextRefs row.borrowHistory.length,
        live.history⟩
      have written := @RowObject.written_eq objects object (some row) (entries_nextRefs _ _)
      rw [show entries objects object.history = entries session.objects live.history from
        entries_allocAll row.borrowHistory stands.older] at written
      simp only [UserSession.merge, UserSession.get_unchanged unchanged, UserSession.flush, stored]
      exact congrArg users.merge (written.trans value)

end StandsFor

end LibraFlow.Postgres
