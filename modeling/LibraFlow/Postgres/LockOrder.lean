import LibraFlow.Library.Completion
import LibraFlow.Postgres.Phases

/-! Who holds a lock, and which locks a request takes. A locked section takes the copy
before the borrower and waits for nothing once it has the borrower; a title is saved copy
by copy, in whatever order the database gave them, and takes the locks of its own copies
only. -/

set_option autoImplicit false

namespace LibraFlow.Postgres

open LibraFlow.Core LibraFlow.Library LibraFlow.Storage LibraFlow.Patterns LibraFlow.Container
  LibraFlow.Services

/-- The title that the table has for a copy. -/
def Tables.titleOf? (tables : Tables) (copyId : String) : Option String :=
  (tables.copies.get? copyId).map BookCopy.bookIsbn

/-- The table has the copy of this row, under the same title. -/
def Tables.Files (tables : Tables) (row : BookCopy) : Prop :=
  tables.titleOf? row.copyId = some row.bookIsbn

def Write.isUser : Write → Bool
  | .user .. => true
  | .record _ | .copy _ | .event _ => false

/-- A request in this phase may hold the lock of the copy. -/
def Phase.HoldsCopy (key : String) : Phase → Prop
  | .locked row | .writing row .. => row.copyId = key
  | .merging _ written _ => ∃ row ∈ written, row.copyId = key
  | _ => False

/-- A request in this phase may hold the lock of a user. -/
def Phase.HoldsUser (request : Request) : Phase → Prop
  | .writing _ written _ _ => (∃ issue, request = .issue issue) ∨
      ∃ write ∈ written, write.isUser = true
  | _ => False

/-- Every lock is accounted for by the phase of the request that holds it. -/
structure LocksHeld (tickets : Nat → Ticket) (system : System) : Prop where
  copies : ∀ id key, system.copyLocks key = some id → (system.phases id).HoldsCopy key
  users : ∀ id key, system.userLocks key = some id →
    (system.phases id).HoldsUser (tickets id).request

/-- The rows that a request is to store are filed under their titles, those of one title
when it saves a title, and the copy it is to add is new. -/
def Phase.Filed (request : Request) (tables : Tables) : Phase → Prop
  | .idle => ∀ copyId, request.stocks? = some copyId → tables.titleOf? copyId = none
  | .stocking copy loaded => tables.titleOf? copy.copyId = none ∧
      ∀ row ∈ loaded, row.bookIsbn = copy.bookIsbn ∧ tables.Files row
  | .merging copy written todo =>
      ∀ row ∈ written ++ todo, row.bookIsbn = copy.bookIsbn ∧ tables.Files row
  | .departing copy _ _ | .arriving copy => tables.Files copy
  | .storingCopy _ row _ => tables.Files row
  | _ => True

section Acquire

variable {κ : Type} {locks after : Locks κ} {owner : Nat} {id key : κ}

private theorem not_held_of_release (locks : Locks κ) (owner : Nat) (key : κ) :
    (locks.release owner) key ≠ some owner := by
  unfold Locks.release
  split
  · simp
  · next other => exact other

variable [DecidableEq κ]

/-- What an owner has after taking a lock. -/
theorem acquired_or_held (acquired : locks.acquire? owner id = some after)
    (held : after key = some owner) : key = id ∨ locks key = some owner := by
  by_cases same : key = id
  · exact .inl same
  · rw [Locks.acquire?_of_ne acquired same] at held
    exact .inr held

/-- A lock is refused because somebody else has it. -/
theorem holder_of_refused (refused : locks.acquire? owner id = .none) :
    ∃ holder, holder ≠ owner ∧ locks id = some holder := by
  unfold Locks.acquire? at refused
  split at refused
  · cases refused
  · next holder held =>
      split at refused
      · cases refused
      · next different => exact ⟨holder, different, held⟩

theorem acquire?_held (held : locks id = some owner) : locks.acquire? owner id = some locks := by
  rw [Locks.acquire?, held]
  exact if_pos rfl

end Acquire

section Accounts

variable {ticket : Ticket} {before after : System} {id other : Nat} {key : String}

/-- A step gives no lock to another request. -/
theorem Moves.copyLock_before (moves : Moves ticket before id after) (different : other ≠ id)
    (held : after.copyLocks key = some other) : before.copyLocks key = some other := by
  cases moves with
  | lockedCopy _ _ acquired _ => exact (Locks.acquire?_other acquired different).mp held
  | updatedCopy _ acquired => exact (Locks.acquire?_other acquired different).mp held
  | mergedCopy _ acquired => exact (Locks.acquire?_other acquired different).mp held
  | committed | aborted | committedTitle => exact (Locks.release_other different).mp held
  | checkedOut | beganReturn | inserted | updatedUser | returned | offered | invalidated
  | storedUser | storedCopy | storedNew | cleared | readDetails | storedDetails | proceeded =>
      exact held

theorem Moves.userLock_before (moves : Moves ticket before id after) (different : other ≠ id)
    (held : after.userLocks key = some other) : before.userLocks key = some other := by
  cases moves with
  | checkedOut _ _ acquired _ _ => exact (Locks.acquire?_other acquired different).mp held
  | updatedUser _ acquired => exact (Locks.acquire?_other acquired different).mp held
  | committed | aborted | committedTitle => exact (Locks.release_other different).mp held
  | lockedCopy | beganReturn | inserted | updatedCopy | mergedCopy | returned | offered
  | invalidated | storedUser | storedCopy | storedNew | cleared | readDetails | storedDetails
  | proceeded => exact held

theorem Phase.Outside.not_holdsCopy {phase : Phase} (outside : phase.Outside) :
    ¬ phase.HoldsCopy key := by
  cases phase with
  | locked | writing | merging | done => exact outside.elim
  | idle | projected | paying | processing | storingUser | planning | departing | arriving
  | storingCopy | stocking | stocked | missed | computed | failed => exact False.elim

theorem Phase.Outside.not_holdsUser {phase : Phase} {request : Request}
    (outside : phase.Outside) : ¬ phase.HoldsUser request := by
  cases phase with
  | locked | writing | merging | done => exact outside.elim
  | idle | projected | paying | processing | storingUser | planning | departing | arriving
  | storingCopy | stocking | stocked | missed | computed | failed => exact False.elim

/-- The request that moves can account for the copies it has locked afterwards. -/
theorem Moves.holdsCopy (moves : Moves ticket before id after)
    (stands : Stands ticket before id (before.phases id))
    (holders : ∀ key, before.copyLocks key = some id → (before.phases id).HoldsCopy key)
    (held : after.copyLocks key = some id) : (after.phases id).HoldsCopy key := by
  have entered : ∀ phase, Function.update before.phases id phase id = phase :=
    fun phase => Function.update_self id phase before.phases
  cases moves with
  | lockedCopy phase _ acquired found =>
      simp only [System.enter, entered]
      obtain rfl | earlier := acquired_or_held acquired held
      · exact Table.key_of_get? found
      · have impossible := holders key earlier
        rw [phase] at impossible
        exact impossible.elim
  | updatedCopy phase acquired =>
      simp only [System.enter, entered]
      rw [phase] at stands holders
      obtain rfl | earlier := acquired_or_held acquired held
      · exact (stands.planned.copyId (List.mem_append_right _ List.mem_cons_self)).symm
      · exact holders key earlier
  | mergedCopy phase acquired =>
      simp only [System.enter, entered]
      rw [phase] at holders
      obtain rfl | earlier := acquired_or_held acquired held
      · exact ⟨_, by simp, rfl⟩
      · obtain ⟨row, member, named⟩ := holders key earlier
        exact ⟨row, List.mem_append_left _ member, named⟩
  | committed | aborted | committedTitle => exact absurd held (not_held_of_release _ _ _)
  | checkedOut phase | beganReturn phase | inserted phase | updatedUser phase | returned phase
  | offered phase | invalidated phase =>
      simp only [System.enter, System.invalidate, entered]
      have earlier := holders key held
      rw [phase] at earlier
      exact earlier
  | storedUser phase | storedCopy phase | storedNew phase | cleared phase | readDetails phase
  | storedDetails phase =>
      have earlier := holders key held
      rw [phase] at earlier
      exact earlier.elim
  | proceeded outside => exact absurd (holders key held) outside.not_holdsCopy

/-- The request that moves can account for the users it has locked afterwards. -/
theorem Moves.holdsUser (moves : Moves ticket before id after)
    (holders : ∀ key, before.userLocks key = some id →
      (before.phases id).HoldsUser ticket.request)
    (held : after.userLocks key = some id) : (after.phases id).HoldsUser ticket.request := by
  have entered : ∀ phase, Function.update before.phases id phase id = phase :=
    fun phase => Function.update_self id phase before.phases
  cases moves with
  | checkedOut _ asked =>
      simp only [System.enter, entered]
      exact .inl ⟨_, asked⟩
  | updatedUser =>
      simp only [System.enter, entered]
      exact .inr ⟨_, List.mem_append_right _ List.mem_cons_self, rfl⟩
  | committed | aborted | committedTitle => exact absurd held (not_held_of_release _ _ _)
  | inserted phase | updatedCopy phase =>
      simp only [System.enter, entered]
      have earlier := holders key held
      rw [phase] at earlier
      refine earlier.imp_right fun planned => ?_
      obtain ⟨write, member, user⟩ := planned
      exact ⟨write, List.mem_append_left _ member, user⟩
  | returned phase | offered phase | invalidated phase =>
      simp only [System.enter, System.invalidate, entered]
      have earlier := holders key held
      rw [phase] at earlier
      exact earlier
  | lockedCopy phase | beganReturn phase | storedUser phase | storedCopy phase | storedNew phase
  | mergedCopy phase | cleared phase | readDetails phase | storedDetails phase =>
      have earlier := holders key held
      rw [phase] at earlier
      exact earlier.elim
  | proceeded outside => exact absurd (holders key held) outside.not_holdsUser

theorem locksHeld_start (tickets : Nat → Ticket) (tables : Tables) (processes : Nat → Process) :
    LocksHeld tickets (.start tables processes) where
  copies _ _ held := by cases held
  users _ _ held := by cases held

theorem Step.locksHeld {tickets : Nat → Ticket} {before after : System} {action : Action}
    (taken : Step tickets before action after) (disciplined : Disciplined tickets before)
    (holders : LocksHeld tickets before) : LocksHeld tickets after := by
  obtain ⟨id, _, _, moves⟩ | ⟨isbn, _, rfl⟩ := taken.follows
  · constructor
    · intro other key held
      by_cases same : other = id
      · subst other
        exact moves.holdsCopy (disciplined id) (holders.copies id) held
      · rw [moves.phases_other same]
        exact holders.copies other key (moves.copyLock_before same held)
    · intro other key held
      by_cases same : other = id
      · subst other
        exact moves.holdsUser (holders.users id) held
      · rw [moves.phases_other same]
        exact holders.users other key (moves.userLock_before same held)
  · exact ⟨holders.copies, holders.users⟩

end Accounts

section Titles

variable {tables : Tables} {copies : Table BookCopy.copyId} {row copy : BookCopy} {key : String}

private theorem files_of_get? (found : tables.copies.get? row.copyId = some row) :
    tables.Files row := by
  rw [Tables.Files, Tables.titleOf?, found]
  rfl

private theorem titleOf?_merge (tables : Tables) (row : BookCopy) (key : String) :
    ({ tables with copies := tables.copies.merge row }.titleOf? key) =
      if row.copyId = key then some row.bookIsbn else tables.titleOf? key := by
  unfold Tables.titleOf?
  split
  · next same =>
      rw [← same, Table.get?_merge_self]
      rfl
  · next different => rw [Table.get?_merge_of_ne _ different]

/-- A row that is filed changes no title when it is stored. -/
theorem Tables.Files.merge (filed : tables.Files row) :
    ({ tables with copies := tables.copies.merge row }).titleOf? = tables.titleOf? := by
  funext key
  rw [titleOf?_merge]
  split
  · next same => rw [← same, ← filed]
  · rfl

private theorem titleOf?_commit {writes : List Write}
    (filed : ∀ row, Write.copy row ∈ writes → tables.Files row) :
    (tables.commit writes).titleOf? = tables.titleOf? := by
  induction writes generalizing tables with
  | nil => rfl
  | cons first rest ih =>
      have same : (tables.apply first).titleOf? = tables.titleOf? := by
        cases first with
        | record | user | event => rfl
        | copy row => exact (filed row List.mem_cons_self).merge
      have later : ((tables.apply first).commit rest).titleOf? = (tables.apply first).titleOf? := by
        refine ih fun row member => ?_
        rw [Tables.Files, same]
        exact filed row (List.mem_cons_of_mem _ member)
      exact later.trans same

private theorem filed_of_loaded (member : row ∈ tables.copies.rows.values.filter fun row =>
    decide (row.bookIsbn = key)) : row.bookIsbn = key ∧ tables.Files row := by
  obtain ⟨listed, same⟩ := List.mem_filter.mp member
  obtain ⟨copyId, found⟩ := (Dict.mem_values_iff _ _).mp listed
  refine ⟨of_decide_eq_true same, files_of_get? ?_⟩
  have named : row.copyId = copyId := Table.key_of_get? found
  rw [named]
  exact found

/-- A title is saved with the copies that were loaded and the new one. -/
theorem mem_store {loaded : List BookCopy} (member : row ∈ (Dict.store copy.copyId copy
    (loaded.map fun row => (row.copyId, row))).map Prod.snd) : row = copy ∨ row ∈ loaded := by
  induction loaded with
  | nil => exact .inl (List.mem_singleton.mp member)
  | cons first rest ih =>
      simp only [List.map_cons, Dict.store] at member
      split at member
      · simp only [List.map_cons, List.mem_cons] at member
        refine member.imp_right fun later => List.mem_cons_of_mem _ ?_
        simpa using later
      · simp only [List.map_cons, List.mem_cons] at member
        rcases member with same | later
        · exact .inr (List.mem_cons.mpr (.inl same))
        · exact (ih later).imp_right (List.mem_cons_of_mem _)

variable {ticket : Ticket} {before after : System} {id : Nat} {request : Request}
  {phase following : Phase}

theorem Phase.Filed.of_titles (filed : phase.Filed request tables) {later : Tables}
    (titles : later.titleOf? = tables.titleOf?) : phase.Filed request later := by
  have kept : ∀ {row : BookCopy}, tables.Files row → later.Files row := by
    intro row held
    rw [Tables.Files, titles]
    exact held
  cases phase with
  | idle => exact fun copyId asked => titles ▸ filed copyId asked
  | stocking copy loaded =>
      exact ⟨titles ▸ filed.1, fun row member => (filed.2 row member).imp_right kept⟩
  | merging => exact fun row member => (filed row member).imp_right kept
  | departing | arriving | storingCopy => exact kept filed
  | locked | writing | projected | paying | processing | storingUser | planning | stocked | missed
  | computed | done | failed => trivial

/-- Filing a copy disturbs no request that is not about to add it. -/
theorem Phase.Filed.extend (filed : phase.Filed request tables) {later : Tables}
    (titles : ∀ key, later.titleOf? key =
      if copy.copyId = key then some copy.bookIsbn else tables.titleOf? key)
    (fresh : tables.titleOf? copy.copyId = none) (other : request.stocks? ≠ some copy.copyId)
    (named : ∀ copy loaded, phase = .stocking copy loaded →
      request.stocks? = some copy.copyId) : phase.Filed request later := by
  have kept : ∀ {row : BookCopy}, tables.Files row → later.Files row := by
    intro row held
    have different : copy.copyId ≠ row.copyId := by
      intro same
      rw [Tables.Files, ← same, fresh] at held
      cases held
    rw [Tables.Files, titles, if_neg different]
    exact held
  have absent : ∀ {stocked : String}, request.stocks? = some stocked → tables.titleOf? stocked = none →
      later.titleOf? stocked = none := by
    intro stocked asked missing
    have different : copy.copyId ≠ stocked := fun same => other (same ▸ asked)
    rw [titles, if_neg different]
    exact missing
  cases phase with
  | idle => exact fun stocked asked => absent asked (filed stocked asked)
  | stocking added loaded =>
      exact ⟨absent (named added loaded rfl) filed.1, fun row member =>
        (filed.2 row member).imp_right kept⟩
  | merging => exact fun row member => (filed row member).imp_right kept
  | departing | arriving | storingCopy => exact kept filed
  | locked | writing | projected | paying | processing | storingUser | planning | stocked | missed
  | computed | done | failed => trivial

/-- A step keeps what a request is to store filed, if it does not store the new copy. -/
theorem Follows.filed (follows : Follows request tables.copies phase following)
    (filed : phase.Filed request tables)
    (named : ∀ copy loaded, following = .stocking copy loaded →
      request.stocks? = some copy.copyId)
    (unstored : ∀ copy loaded, phase = .stocking copy loaded →
      ∀ stocked written todo, following ≠ .merging stocked written todo) :
    following.Filed request tables := by
  cases follows with
  | failed | done | locked | began | wrote | resumed | projected | charging | paying | processing
  | paid | rebalancing | skipped | storedCopy | stocked | missed | computed => trivial
  | transferring _ found | departing found | completing _ found => exact files_of_get? found
  | departed same | arrived same =>
      rw [Phase.Filed, Tables.Files, same.copyId, same.bookIsbn]
      exact filed
  | stocking => exact ⟨filed _ (named _ _ rfl), fun row member => filed_of_loaded member⟩
  | storedNew => exact absurd rfl (unstored _ _ rfl _ _ _)
  | merged =>
      simp only [Phase.Filed, List.append_assoc, List.singleton_append]
      exact filed

/-- A copy that a request has stored and filed is saved with its title. -/
theorem filed_stored {loaded : List BookCopy} (filed : (Phase.stocking copy loaded).Filed request
      tables) {later : Tables} (titles : ∀ key, later.titleOf? key =
      if copy.copyId = key then some copy.bookIsbn else tables.titleOf? key) :
    (Phase.merging copy [] ((Dict.store copy.copyId copy
      (loaded.map fun row => (row.copyId, row))).map Prod.snd)).Filed request later := by
  intro row member
  rcases mem_store member with rfl | old
  · exact ⟨rfl, (titles row.copyId).trans (if_pos rfl)⟩
  · obtain ⟨same, held⟩ := filed.2 row old
    refine ⟨same, (titles row.copyId).trans ?_⟩
    split
    · next equal =>
        rw [Tables.Files, ← equal, filed.1] at held
        cases held
    · exact held

/-- Only storing a new copy files it; otherwise titles stay. -/
theorem Moves.titles (moves : Moves ticket before id after)
    (stands : Stands ticket before id (before.phases id))
    (filed : (before.phases id).Filed ticket.request before.tables) :
    after.tables.titleOf? = before.tables.titleOf? ∧
      (∀ copy loaded, before.phases id = .stocking copy loaded →
        ∀ stocked written todo, after.phases id ≠ .merging stocked written todo) ∨
    ∃ copy loaded, before.phases id = .stocking copy loaded ∧
      after.phases id = .merging copy []
        ((Dict.store copy.copyId copy (loaded.map fun row => (row.copyId, row))).map Prod.snd) ∧
      ∀ key, after.tables.titleOf? key =
        if copy.copyId = key then some copy.bookIsbn else before.tables.titleOf? key := by
  have entered : ∀ phase, Function.update before.phases id phase id = phase :=
    fun phase => Function.update_self id phase before.phases
  cases moves with
  | storedNew phase => exact .inr ⟨_, _, phase, entered _, titleOf?_merge _ _⟩
  | storedCopy phase =>
      rw [phase] at filed
      exact .inl ⟨filed.merge, by simp [phase]⟩
  | committed phase =>
      rw [phase] at stands
      refine .inl ⟨titleOf?_commit fun updated member => ?_, by simp [phase]⟩
      have same := stands.planned.sameCopy (List.mem_append_left _ member)
      rw [Tables.Files, same.copyId, same.bookIsbn]
      exact files_of_get? stands.owns.current
  | committedTitle phase =>
      rw [phase] at filed
      refine .inl ⟨titleOf?_commit fun updated member => ?_, by simp [phase]⟩
      obtain ⟨row, present, equal⟩ := List.mem_map.mp member
      cases equal
      exact (filed updated (List.mem_append_left _ present)).2
  | aborted => exact .inl ⟨rfl, by simp [System.close]⟩
  | proceeded outside prepared =>
      refine .inl ⟨rfl, fun copy loaded _ stocked written todo merging => ?_⟩
      simp only [System.enter, entered] at merging
      subst merging
      exact prepared (stands.prepared outside)
  | lockedCopy phase | checkedOut phase | beganReturn phase | inserted phase | updatedCopy phase
  | updatedUser phase | returned phase | offered phase | invalidated phase | storedUser phase
  | mergedCopy phase | cleared phase | readDetails phase | storedDetails phase =>
      exact .inl ⟨rfl, by simp [phase]⟩

end Titles

end LibraFlow.Postgres
