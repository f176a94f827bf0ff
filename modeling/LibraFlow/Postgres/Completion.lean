import LibraFlow.Postgres.LockOrder

/-! Requests over the PostgreSQL backend come to an end. Whatever requests have begun,
they cannot block each other for good as long as copies are added to a title by one
request at a time: somebody can always go on, and nobody can go on for ever. -/

set_option autoImplicit false

namespace LibraFlow.Postgres

open LibraFlow.Core LibraFlow.Library LibraFlow.Storage LibraFlow.Patterns LibraFlow.Container
  LibraFlow.Services

/-- A step of the system; the copies of a title are loaded in any order. -/
inductive AnyOrder (tickets : Nat → Ticket) (before : System) (action : Action) :
    System → Prop where
  | asStored {after : System} (taken : Step tickets before action after) :
      AnyOrder tickets before action after
  | otherwise {id : Nat} {copy : BookCopy} {loaded rows : List BookCopy} {after : System}
      (named : action = .advance id) (idle : before.phases id = .idle)
      (taken : Step tickets before action after) (loading : after.phases id = .stocking copy loaded)
      (same : rows.Perm loaded) :
      AnyOrder tickets before action (after.enter id (.stocking copy rows))

/-- The copies that requests add are new, each to the table and to the other requests. -/
structure FreshStock (tickets : Nat → Ticket) (tables : Tables) : Prop where
  absent : ∀ id copyId, (tickets id).request.stocks? = some copyId →
    tables.copies.get? copyId = none
  distinct : ∀ first second copyId, (tickets first).request.stocks? = some copyId →
    (tickets second).request.stocks? = some copyId → first = second

/-- What holds of the requests in every reachable state. -/
structure Orderly (tickets : Nat → Ticket) (system : System) : Prop where
  disciplined : Disciplined tickets system
  locks : LocksHeld tickets system
  suits : ∀ id, (system.phases id).Suits (tickets id).request
  filed : ∀ id, (system.phases id).Filed (tickets id).request system.tables

private theorem orderly_start {tickets : Nat → Ticket} {tables : Tables}
    (fresh : FreshStock tickets tables) (processes : Nat → Process) :
    Orderly tickets (.start tables processes) where
  disciplined := disciplined_start tickets tables processes
  locks := locksHeld_start tickets tables processes
  suits _ := trivial
  filed id copyId asked := congrArg (Option.map BookCopy.bookIsbn) (fresh.absent id copyId asked)

section Steps

variable {tickets : Nat → Ticket} {before after system : System} {action : Action} {id : Nat}
  {copy : BookCopy} {loaded rows : List BookCopy}

private theorem stocks_of_stocking (disciplined : Disciplined tickets system) (id : Nat)
    {copy : BookCopy} {loaded : List BookCopy} (phase : system.phases id = .stocking copy loaded) :
    (tickets id).request.stocks? = some copy.copyId := by
  have stands := disciplined id
  rw [phase] at stands
  exact stands

theorem Step.filed (taken : Step tickets before action after)
    (distinct : ∀ first second copyId, (tickets first).request.stocks? = some copyId →
      (tickets second).request.stocks? = some copyId → first = second)
    (orderly : Orderly tickets before) (other : Nat) :
    (after.phases other).Filed (tickets other).request after.tables := by
  have disciplined := taken.disciplined orderly.disciplined
  obtain ⟨id, _, follows, moves⟩ | ⟨isbn, _, rfl⟩ := taken.follows
  · rcases moves.titles (orderly.disciplined id) (orderly.filed id) with
      ⟨kept, unstored⟩ | ⟨copy, loaded, phase, entered, titles⟩
    · have filed : (after.phases other).Filed (tickets other).request before.tables := by
        by_cases same : other = id
        · subst other
          exact follows.filed (orderly.filed id)
            (fun copy loaded => stocks_of_stocking disciplined id) unstored
        · rw [moves.phases_other same]
          exact orderly.filed other
      exact filed.of_titles kept
    · have named := stocks_of_stocking orderly.disciplined id phase
      have filed := orderly.filed id
      rw [phase] at filed
      by_cases same : other = id
      · subst other
        rw [entered]
        exact filed_stored filed titles
      · rw [moves.phases_other same]
        exact (orderly.filed other).extend titles filed.1
          (fun asked => same (distinct other id _ asked named))
          fun copy loaded => stocks_of_stocking orderly.disciplined other
  · exact orderly.filed other

theorem Step.orderly (taken : Step tickets before action after)
    (distinct : ∀ first second copyId, (tickets first).request.stocks? = some copyId →
      (tickets second).request.stocks? = some copyId → first = second)
    (orderly : Orderly tickets before) : Orderly tickets after where
  disciplined := taken.disciplined orderly.disciplined
  locks := taken.locksHeld orderly.disciplined orderly.locks
  suits other := by
    obtain ⟨id, _, follows, moves⟩ | ⟨isbn, _, rfl⟩ := taken.follows
    · by_cases same : other = id
      · subst other
        exact follows.suits (orderly.suits id)
      · rw [moves.phases_other same]
        exact orderly.suits other
    · exact orderly.suits other
  filed := taken.filed distinct orderly

/-- In which order the copies are loaded makes no difference to what holds. -/
theorem Orderly.reordered (orderly : Orderly tickets system)
    (phase : system.phases id = .stocking copy loaded) (same : rows.Perm loaded) :
    Orderly tickets (system.enter id (.stocking copy rows)) := by
  have there : (system.enter id (.stocking copy rows)).phases id = .stocking copy rows :=
    Function.update_self id _ _
  have others : ∀ other, other ≠ id →
      (system.enter id (.stocking copy rows)).phases other = system.phases other :=
    fun other different => Function.update_of_ne different _ _
  have frame : Frame system (system.enter id (.stocking copy rows)) id :=
    ⟨others, fun _ _ _ held => ⟨held, rfl⟩, fun _ _ _ held => ⟨held, rfl⟩⟩
  constructor
  · intro other
    by_cases moved : other = id
    · subst other
      rw [there]
      exact stocks_of_stocking orderly.disciplined id phase
    · rw [others other moved]
      exact (orderly.disciplined other).frame frame moved
  · constructor
    · intro other key held
      have holds := orderly.locks.copies other key held
      by_cases moved : other = id
      · subst other
        rw [phase] at holds
        exact holds.elim
      · rw [others other moved]
        exact holds
    · intro other key held
      have holds := orderly.locks.users other key held
      by_cases moved : other = id
      · subst other
        rw [phase] at holds
        exact holds.elim
      · rw [others other moved]
        exact holds
  · intro other
    by_cases moved : other = id
    · subst other
      rw [there]
      trivial
    · rw [others other moved]
      exact orderly.suits other
  · intro other
    by_cases moved : other = id
    · subst other
      have filed := orderly.filed id
      rw [phase] at filed
      rw [there]
      exact ⟨filed.1, fun row member => filed.2 row (same.mem_iff.mp member)⟩
    · rw [others other moved]
      exact orderly.filed other

theorem AnyOrder.orderly (taken : AnyOrder tickets before action after)
    (distinct : ∀ first second copyId, (tickets first).request.stocks? = some copyId →
      (tickets second).request.stocks? = some copyId → first = second)
    (orderly : Orderly tickets before) : Orderly tickets after := by
  cases taken with
  | asStored taken => exact taken.orderly distinct orderly
  | otherwise _ _ taken loading same => exact (taken.orderly distinct orderly).reordered loading same

/-- A request that does not move stays in its phase. -/
theorem AnyOrder.phases_other (taken : AnyOrder tickets before action after)
    (other : action.id? ≠ some id) : after.phases id = before.phases id := by
  have kept : ∀ {middle : System}, Step tickets before action middle →
      middle.phases id = before.phases id := by
    intro middle taken
    rcases taken.follows with ⟨moving, named, _, moves⟩ | ⟨isbn, _, rfl⟩
    · exact moves.phases_other fun same => other (same ▸ named)
    · rfl
  cases taken with
  | asStored taken => exact kept taken
  | @otherwise moving _ _ _ middle named _ taken _ _ =>
      have different : id ≠ moving := fun same => other (by rw [named, same]; rfl)
      exact (Function.update_of_ne different _ _).trans (kept taken)

end Steps

/-- The copy whose lock a request needs next. -/
def Phase.awaitsCopy? : Phase → Option String
  | .storingCopy _ row _ => some row.copyId
  | .stocking copy _ => some copy.copyId
  | .merging _ _ (first :: _) => some first.copyId
  | _ => none

/-- Those who save a title wait for those who hold all their copies. -/
def Phase.level : Phase → Nat
  | .merging _ _ (_ :: _) => 1
  | .merging _ _ [] | .locked _ | .writing .. => 2
  | _ => 0

/-- The title a request is adding a copy to. -/
def Phase.stocksTitle? : Phase → Option String
  | .stocking copy _ | .merging copy _ _ => some copy.bookIsbn
  | _ => none

/-- Copies are added to a title by one request at a time. -/
def OneByOne (system : System) : Prop :=
  ∀ first second isbn, (system.phases first).stocksTitle? = some isbn →
    (system.phases second).stocksTitle? = some isbn → first = second

theorem Phase.HoldsCopy.inProgress {phase : Phase} {key : String} (holds : phase.HoldsCopy key) :
    phase.inProgress = true := by
  cases phase with
  | locked | writing | merging => rfl
  | idle | projected | paying | processing | storingUser | planning | departing | arriving
  | storingCopy | stocking | stocked | missed | computed | done | failed => exact holds.elim

theorem Phase.HoldsUser.inProgress {phase : Phase} {request : Request}
    (holds : phase.HoldsUser request) : phase.inProgress = true := by
  cases phase with
  | writing => rfl
  | idle | locked | projected | paying | processing | storingUser | planning | departing
  | arriving | storingCopy | stocking | merging | stocked | missed | computed | done | failed =>
      exact holds.elim

section Waiting

variable {ticket : Ticket} {system : System} {id : Nat}

theorem Phase.level_le (phase : Phase) : phase.level ≤ 2 := by
  cases phase with
  | merging copy written todo => cases todo <;> simp [Phase.level]
  | locked | writing => exact Nat.le_refl _
  | idle | projected | paying | processing | storingUser | planning | departing | arriving
  | storingCopy | stocking | stocked | missed | computed | done | failed => exact Nat.zero_le _

/-- Who holds the lock of a copy is on a higher level than those who wait for it. -/
theorem Phase.level_lt {tables : Tables} {waiting holding : Phase} {request other : Request}
    {key : String} (awaits : waiting.awaitsCopy? = some key)
    (ours : waiting.Filed request tables) (holds : holding.HoldsCopy key)
    (theirs : holding.Filed other tables)
    (apart : ∀ isbn, waiting.stocksTitle? = some isbn → holding.stocksTitle? ≠ some isbn) :
    waiting.level < holding.level := by
  have positive : 0 < holding.level := by
    cases holding with
    | locked | writing => exact Nat.zero_lt_succ _
    | merging copy written todo => cases todo <;> exact Nat.zero_lt_succ _
    | idle | projected | paying | processing | storingUser | planning | departing | arriving
    | storingCopy | stocking | stocked | missed | computed | done | failed => exact holds.elim
  cases waiting with
  | storingCopy | stocking => exact positive
  | merging copy written todo =>
      cases todo with
      | nil => cases awaits
      | cons first rest =>
          cases awaits
          cases holding with
          | locked | writing => exact Nat.lt_succ_self _
          | merging held locked left =>
              cases left with
              | nil => exact Nat.lt_succ_self _
              | cons next later =>
                  -- the copy would belong to two titles
                  obtain ⟨row, member, named⟩ := holds
                  obtain ⟨title, filed⟩ := ours first (by simp)
                  obtain ⟨other, known⟩ := theirs row (List.mem_append_left _ member)
                  rw [Tables.Files, named, filed, Option.some.injEq] at known
                  refine absurd ?_ (apart copy.bookIsbn rfl)
                  rw [Phase.stocksTitle?, ← other, ← known, title]
          | idle | projected | paying | processing | storingUser | planning | departing | arriving
          | storingCopy | stocking | stocked | missed | computed | done | failed =>
              exact holds.elim
  | idle | locked | writing | projected | paying | processing | storingUser | planning | departing
  | arriving | stocked | missed | computed | done | failed => cases awaits

/-- A return writes one user at most. -/
theorem Planned.users_le_one {row : BookCopy} {writes : List Write} {next : Next}
    {request : ReturnRequest} (planned : Planned ticket row writes next)
    (asked : ticket.request = .giveBack request) : writes.countP Write.isUser ≤ 1 := by
  have closing : ∀ request : ReturnRequest, ∀ found,
      (closingWrites request ticket.now found).countP Write.isUser ≤ 1 := by
    intro request found
    cases found with
    | none => exact Nat.zero_le _
    | some model => exact Nat.le_refl _
  cases planned with
  | issuing again =>
      rw [asked] at again
      cases again
  | closing => exact closing _ _
  | returned =>
      rw [List.countP_append]
      exact closing _ _
  | finished _ _ _ _ held _ =>
      rw [List.countP_append, List.countP_append]
      cases held <;> exact closing _ _

/-- A transaction can go on, or it is to write a user that somebody else has locked. -/
theorem advance_or_waits_writing {row : BookCopy} {written todo : List Write} {next : Next}
    (phase : system.phases id = .writing row written todo next)
    (inside : InTransaction ticket system id row written todo next) :
    (∃ after, system.advance id ticket = some after) ∨
      ∃ model updated rest holder, todo = .user model updated :: rest ∧ holder ≠ id ∧
        system.userLocks updated.userId = some holder := by
  cases todo with
  | nil =>
      refine .inl ?_
      have resumed : system.advance id ticket = system.resume id ticket row written next := by
        rw [System.advance, phase]
      rw [resumed]
      cases next with
      | returnBook borrowerId =>
          rw [System.resume]
          split <;> exact ⟨_, rfl⟩
      | offer borrowerId returned =>
          have planned := inside.planned
          rw [List.append_nil] at planned
          cases planned with
          | issuing _ _ _ ending => simp at ending
          | finished _ _ _ _ _ ending => simp at ending
          | returned asked =>
              rw [System.resume, asked]
              exact ⟨_, rfl⟩
      | invalidate | commit => exact ⟨_, rfl⟩
  | cons first rest =>
      have writes : system.advance id ticket = system.write id row written rest next first := by
        rw [System.advance, phase]
      rw [writes]
      cases first with
      | record | event => exact .inl ⟨_, rfl⟩
      | copy updated =>
          have own : system.copyLocks updated.copyId = some id := by
            rw [inside.planned.copyId (List.mem_append_right _ List.mem_cons_self)]
            exact inside.owns.held
          rw [System.write, acquire?_held own]
          exact .inl ⟨_, rfl⟩
      | user model updated =>
          rw [System.write]
          cases free : system.userLocks.acquire? id updated.userId with
          | some userLocks => exact .inl ⟨_, rfl⟩
          | none =>
              obtain ⟨holder, other, held⟩ := holder_of_refused free
              exact .inr ⟨model, updated, rest, holder, rfl, other, held⟩

/-- A transaction that has locked a user waits for nobody. -/
theorem advance_of_holdsUser (stands : Stands ticket system id (system.phases id))
    (holds : (system.phases id).HoldsUser ticket.request) :
    ∃ after, system.advance id ticket = some after := by
  cases phase : system.phases id with
  | writing row written todo next =>
      rw [phase] at stands holds
      refine (advance_or_waits_writing phase stands).resolve_right ?_
      rintro ⟨model, updated, rest, holder, rfl, other, held⟩
      have member : Write.user model updated ∈ written ++ Write.user model updated :: rest :=
        List.mem_append_right _ List.mem_cons_self
      have issuing : ∀ issue, ticket.request ≠ .issue issue := by
        intro issue asked
        have own := (stands.borrower issue asked model updated member).1
        rw [held] at own
        exact other (Option.some.inj own)
      rcases holds with ⟨issue, asked⟩ | ⟨write, earlier, user⟩
      · exact issuing issue asked
      · -- the second user of a transaction, and a return writes only one
        cases asked : ticket.request with
        | issue issue => exact issuing issue asked
        | giveBack request =>
            have few := stands.planned.users_le_one asked
            have one : 0 < written.countP Write.isUser :=
              List.countP_pos_iff.mpr ⟨write, earlier, user⟩
            rw [List.countP_append, List.countP_cons_of_pos rfl] at few
            omega
        | charge | pay | transfer | rebalance | complete | reserve | addCopy | details =>
            have locked := stands.owns.asked
            rw [asked] at locked
            cases locked
  | idle | locked | projected | paying | processing | storingUser | planning | departing | arriving
  | storingCopy | stocking | merging | stocked | missed | computed | done | failed =>
      rw [phase] at holds
      exact holds.elim

/-- A request in progress can go on, or the lock it needs next has another holder. -/
theorem advance_or_waits {tickets : Nat → Ticket} (orderly : Orderly tickets system)
    (begun : (system.phases id).inProgress = true) :
    (∃ after, system.advance id (tickets id) = some after) ∨
      (∃ key holder, (system.phases id).awaitsCopy? = some key ∧ holder ≠ id ∧
        system.copyLocks key = some holder) ∨
      ∃ userId holder, system.userLocks userId = some holder := by
  have stands := orderly.disciplined id
  have suits := orderly.suits id
  have elsewhere : ∀ {key holder}, system.copyLocks key = some holder →
      ¬ (system.phases id).HoldsCopy key → holder ≠ id := by
    intro key holder held unheld same
    exact unheld (orderly.locks.copies id key (same ▸ held))
  cases phase : system.phases id with
  | idle | done | failed =>
      rw [phase] at begun
      cases begun
  | locked row =>
      rw [phase] at stands
      have locked := stands.asked
      cases asked : (tickets id).request with
      | issue request =>
          rw [System.advance, phase, asked]
          simp only [System.checkOut]
          cases free : system.userLocks.acquire? id request.userId with
          | some userLocks =>
              refine .inl ?_
              simp only
              split
              · exact ⟨_, rfl⟩
              · split <;> exact ⟨_, rfl⟩
          | none =>
              obtain ⟨holder, _, held⟩ := holder_of_refused free
              exact .inr (.inr ⟨_, holder, held⟩)
      | giveBack request =>
          rw [System.advance, phase, asked]
          exact .inl ⟨_, rfl⟩
      | charge | pay | transfer | rebalance | complete | reserve | addCopy | details =>
          rw [asked] at locked
          cases locked
  | writing row written todo next =>
      rw [phase] at stands
      rcases advance_or_waits_writing phase stands with
        free | ⟨_, updated, _, holder, _, _, held⟩
      · exact .inl free
      · exact .inr (.inr ⟨updated.userId, holder, held⟩)
  | projected waiting fine =>
      rw [phase] at suits
      obtain ⟨userId, isbn, overdueDays, asked⟩ := suits
      rw [System.advance, phase, asked]
      exact .inl ⟨_, rfl⟩
  | paying model | processing model =>
      rw [phase] at suits
      obtain ⟨userId, amount, paymentMethod, metadata, transactionId, asked⟩ := suits
      rw [System.advance, phase, asked]
      exact .inl ⟨_, rfl⟩
  | storingUser model row receipt =>
      rw [System.advance, phase]
      simp only [System.storeUser]
      cases held : system.userLocks row.userId with
      | none => exact .inl ⟨_, rfl⟩
      | some holder => exact .inr (.inr ⟨_, holder, held⟩)
  | planning rest =>
      rw [System.advance, phase]
      exact .inl ⟨_, rfl⟩
  | departing copy item rest =>
      rw [phase] at suits
      rcases suits with ⟨plan, asked⟩ | ⟨_, copyId, destBranchId, requestedBy, transferId, asked⟩
      · rw [System.advance, phase, asked]
        exact .inl ⟨_, rfl⟩
      · rw [System.advance, phase, asked]
        exact .inl ⟨_, rfl⟩
  | arriving copy =>
      rw [phase] at suits
      obtain ⟨transferId, asked⟩ := suits
      rw [System.advance, phase, asked]
      exact .inl ⟨_, rfl⟩
  | storingCopy copy row rest =>
      rw [System.advance, phase]
      simp only [System.storeCopy]
      cases held : system.copyLocks row.copyId with
      | none => exact .inl ⟨_, rfl⟩
      | some holder =>
          have other : holder ≠ id := elsewhere held (by simp [phase, Phase.HoldsCopy])
          exact .inr (.inl ⟨_, holder, rfl, other, held⟩)
  | stocking copy loaded =>
      rw [System.advance, phase]
      simp only [System.storeNew]
      cases held : system.copyLocks copy.copyId with
      | none => exact .inl ⟨_, rfl⟩
      | some holder =>
          have other : holder ≠ id := elsewhere held (by simp [phase, Phase.HoldsCopy])
          exact .inr (.inl ⟨_, holder, rfl, other, held⟩)
  | merging copy written todo =>
      rw [System.advance.eq_def, phase]
      cases todo with
      | nil => exact .inl ⟨_, rfl⟩
      | cons first rest =>
          simp only [System.mergeCopy]
          cases free : system.copyLocks.acquire? id first.copyId with
          | some copyLocks => exact .inl ⟨_, rfl⟩
          | none =>
              obtain ⟨holder, other, held⟩ := holder_of_refused free
              exact .inr (.inl ⟨_, holder, rfl, other, held⟩)
  | stocked copy =>
      rw [System.advance, phase]
      exact .inl ⟨_, rfl⟩
  | missed | computed =>
      rw [phase] at suits
      obtain ⟨isbn, asked⟩ := suits
      rw [System.advance, phase, asked]
      exact .inl ⟨_, rfl⟩

/-- Adding to a title begins with the first step of a request. -/
theorem Follows.stocksTitle {request : Request} {copies : Table BookCopy.copyId}
    {phase following : Phase} {isbn : String} (follows : Follows request copies phase following)
    (begun : phase.inProgress = true) (stocks : following.stocksTitle? = some isbn) :
    phase.stocksTitle? = some isbn := by
  cases follows with
  | storedNew | merged => exact stocks
  | stocking => cases begun
  | failed | done | locked | began | wrote | resumed | projected | charging | paying | processing
  | paid | transferring | rebalancing | skipped | departing | departed | completing | arrived
  | storedCopy | stocked | missed | computed => cases stocks

/-- Among the requests in progress there is one that can go on. -/
theorem exists_advance {tickets : Nat → Ticket} (orderly : Orderly tickets system)
    (apart : OneByOne system) (begun : (system.phases id).inProgress = true) :
    ∃ other after, (system.phases other).inProgress = true ∧
      Step tickets system (.advance other) after := by
  have waits : ∀ id, (system.phases id).inProgress = true →
      ¬ (∃ after, system.advance id (tickets id) = some after) →
      ∃ holder, (system.phases holder).inProgress = true ∧
        ((∃ after, system.advance holder (tickets holder) = some after) ∨
          (system.phases id).level < (system.phases holder).level) := by
    intro id begun stuck
    rcases advance_or_waits orderly begun with
      free | ⟨key, holder, awaits, other, held⟩ | ⟨_, holder, held⟩
    · exact absurd free stuck
    · have holds := orderly.locks.copies holder key held
      refine ⟨holder, holds.inProgress, .inr (Phase.level_lt awaits (orderly.filed id) holds
        (orderly.filed holder) fun isbn ours theirs => ?_)⟩
      exact other (apart holder id isbn theirs ours)
    · have holds := orderly.locks.users holder _ held
      exact ⟨holder, holds.inProgress, .inl
        (advance_of_holdsUser (orderly.disciplined holder) holds)⟩
  obtain ⟨other, active, after, ran⟩ :=
    exists_ready_of_waiting (fun id _ => Phase.level_le (system.phases id)) waits begun
  exact ⟨other, after, active, ran⟩

end Waiting

/-- A step of a request that has begun and has not ended. -/
def GoesOn (tickets : Nat → Ticket) (before : System) (action : Action) (after : System) : Prop :=
  AnyOrder tickets before action after ∧
    ∃ id, action.id? = some id ∧ (before.phases id).inProgress = true

section Completion

variable {tickets : Nat → Ticket} {before after : System} {action : Action}

/-- What a request that has begun takes up next does not depend on the order of rows. -/
theorem GoesOn.step (taken : GoesOn tickets before action after) :
    Step tickets before action after := by
  obtain ⟨step, id, named, begun⟩ := taken
  cases step with
  | asStored step => exact step
  | otherwise moving idle =>
      rw [moving] at named
      cases named
      rw [idle] at begun
      cases begun

/-- The request that goes on, and what it does. -/
theorem GoesOn.follows (taken : GoesOn tickets before action after) :
    ∃ id, (before.phases id).inProgress = true ∧ FollowsTo (tickets id) before id after ∧
      ∀ other, other ≠ id → after.phases other = before.phases other := by
  obtain ⟨id, named, begun⟩ := taken.2
  rcases taken.step.follows with ⟨moving, same, follows, moves⟩ | ⟨isbn, expired, _⟩
  · rw [named] at same
    cases same
    exact ⟨id, begun, follows, fun _ different => moves.phases_other different⟩
  · rw [expired] at named
    cases named

/-- No request starts to add a copy. -/
theorem GoesOn.oneByOne (taken : GoesOn tickets before action after) (apart : OneByOne before) :
    OneByOne after := by
  obtain ⟨id, begun, follows, others⟩ := taken.follows
  have earlier : ∀ other isbn, (after.phases other).stocksTitle? = some isbn →
      (before.phases other).stocksTitle? = some isbn := by
    intro other isbn stocks
    by_cases moved : other = id
    · subst other
      exact follows.stocksTitle begun stocks
    · rw [← others other moved]
      exact stocks
  intro first second isbn left right
  exact apart first second isbn (earlier first isbn left) (earlier second isbn right)

/-- With no request in progress, no row is locked. -/
theorem Orderly.unlocked (orderly : Orderly tickets before)
    (ended : ∀ id, (before.phases id).inProgress = false) (key : String) :
    before.copyLocks key = none ∧ before.userLocks key = none := by
  constructor
  · cases held : before.copyLocks key with
    | none => rfl
    | some id =>
        have active := (orderly.locks.copies id key held).inProgress
        rw [ended id] at active
        cases active
  · cases held : before.userLocks key with
    | none => rfl
    | some id =>
        have active := (orderly.locks.users id key held).inProgress
        rw [ended id] at active
        cases active

/-- A request that no step of a run belongs to has not begun. -/
theorem AnyOrder.idle_of_unnamed {tables : Tables} {processes : Nat → Process}
    {trace : List (Transition System Action)} {final : System} {id : Nat}
    (run : Run (AnyOrder tickets) (.start tables processes) trace final)
    (unnamed : ∀ transition ∈ trace, transition.label.id? ≠ some id) :
    final.phases id = .idle := by
  induction run with
  | nil => rfl
  | @snoc trace before after action _ taken ih =>
      rw [taken.phases_other (unnamed ⟨before, action, after⟩ (by simp))]
      exact ih fun transition member => unnamed transition (List.mem_append_left _ member)

/-- From every reachable state in which copies are added to a title by one request at a
time, the requests that have begun take a bounded number of further steps, in whatever
order. Until the last of them has ended one of them can go on, and then every lock is
free. -/
theorem run_completes (tickets : Nat → Ticket) (tables : Tables) (processes : Nat → Process)
    (fresh : FreshStock tickets tables) {trace : List (Transition System Action)}
    {system : System} (run : Run (AnyOrder tickets) (.start tables processes) trace system)
    (apart : OneByOne system) :
    ∃ bound, ∀ later final, Run (GoesOn tickets) system later final →
      later.length ≤ bound ∧
      ((∃ id, (final.phases id).inProgress = true) →
        ∃ id after, (final.phases id).inProgress = true ∧
          Step tickets final (.advance id) after) ∧
      ((∀ id, (final.phases id).inProgress = false) →
        ∀ key, final.copyLocks key = none ∧ final.userLocks key = none) := by
  have orderly : Orderly tickets system :=
    run.always (orderly_start fresh processes) fun _ _ _ invariant taken =>
      taken.orderly fresh.distinct invariant
  let begun : Finset Nat := (trace.filterMap fun transition => transition.label.id?).toFinset
  have others : ∀ id ∉ begun, (system.phases id).inProgress = false := by
    intro id unnamed
    rw [AnyOrder.idle_of_unnamed run]
    · rfl
    · intro transition member named
      exact unnamed (List.mem_toFinset.mpr (List.mem_filterMap.mpr ⟨transition, member, named⟩))
  have unbegun : ∀ before action after, (∀ id ∉ begun, (before.phases id).inProgress = false) →
      GoesOn tickets before action after →
      ∀ id ∉ begun, (after.phases id).inProgress = false := by
    intro before action after quiet taken id unnamed
    obtain ⟨mover, active, _, same⟩ := taken.follows
    by_cases moving : id = mover
    · subst mover
      rw [quiet id unnamed] at active
      cases active
    · rw [same id moving]
      exact quiet id unnamed
  have lowers : ∀ before action after, (∀ id ∉ begun, (before.phases id).inProgress = false) →
      GoesOn tickets before action after →
      ∃ id ∈ begun, (after.phases id).stepsLeft < (before.phases id).stepsLeft ∧
        ∀ other, other ≠ id → (after.phases other).stepsLeft = (before.phases other).stepsLeft := by
    intro before action after quiet taken
    obtain ⟨id, active, follows, same⟩ := taken.follows
    refine ⟨id, ?_, follows.stepsLeft_lt active, fun other different =>
      congrArg Phase.stepsLeft (same other different)⟩
    by_contra unnamed
    rw [quiet id unnamed] at active
    cases active
  refine ⟨∑ id ∈ begun, (system.phases id).stepsLeft, fun later final onward => ?_⟩
  have bounded := onward.length_add_left_le others unbegun lowers
  have reached : Orderly tickets final :=
    onward.always orderly fun _ _ _ invariant taken => taken.1.orderly fresh.distinct invariant
  have separate : OneByOne final :=
    onward.always apart fun _ _ _ invariant taken => taken.oneByOne invariant
  exact ⟨by omega, fun ⟨_, active⟩ => exists_advance reached separate active, reached.unlocked⟩

end Completion

/-- A checkout of a copy of a title, while another copy is added to the title. -/
def checkoutWhileStocking : Nat → Ticket
  | 0 => ⟨0, .min, .issue
      { copyId := "C1", userId := "U1", transactionId := "TX", eventId := "E1" }⟩
  | 1 => ⟨1, .min, .addCopy "B1" "C3" "DELHI" "A1-02" 500⟩
  | _ => ⟨0, .min, .details "B1"⟩

private theorem freshStock_checkoutWhileStocking :
    FreshStock checkoutWhileStocking smallLibrary where
  absent id copyId asked := by
    match id with
    | 0 => cases asked
    | 1 =>
        cases asked
        decide +kernel
    | id + 2 => cases asked
  distinct first second copyId := by
    intro left right
    match first, second with
    | 0, _ => cases left
    | first + 2, _ => cases left
    | 1, 0 => cases right
    | 1, 1 => rfl
    | 1, second + 2 => cases right

/-- Steps with the copies of a title loaded in reverse order. -/
def System.execReversed (tickets : Nat → Ticket) (before : System) (action : Action) :
    Option System :=
  (before.exec tickets action).map fun after =>
    match action with
    | .advance id =>
        match before.phases id, after.phases id with
        | .idle, .stocking copy loaded => after.enter id (.stocking copy loaded.reverse)
        | _, _ => after
    | .fail _ | .expire _ => after

private theorem anyOrder_of_execReversed {tickets : Nat → Ticket} {before after : System}
    {action : Action} (ran : before.execReversed tickets action = some after) :
    AnyOrder tickets before action after := by
  obtain ⟨middle, taken, same⟩ := Option.map_eq_some_iff.mp ran
  cases action with
  | advance id =>
      dsimp only at same
      split at same
      · next idle loading =>
          rw [← same]
          exact .otherwise rfl idle taken loading (List.reverse_perm _)
      · exact same ▸ .asStored taken
  | fail id => exact same ▸ .asStored taken
  | expire isbn => exact same ▸ .asStored taken

theorem run_completes_checkoutWhileStocking :
    ∃ trace system, Run (AnyOrder checkoutWhileStocking) smallSystem trace system ∧
      (system.phases 0).inProgress = true ∧ (system.phases 1).inProgress = true ∧
      ∃ bound, ∀ later final, Run (GoesOn checkoutWhileStocking) system later final →
        later.length ≤ bound ∧
        ((∃ id, (final.phases id).inProgress = true) →
          ∃ id after, (final.phases id).inProgress = true ∧
            Step checkoutWhileStocking final (.advance id) after) ∧
        ((∀ id, (final.phases id).inProgress = false) →
          ∀ key, final.copyLocks key = none ∧ final.userLocks key = none) := by
  -- the title has its second copy and waits for its first, which the checkout has locked
  have replayed : (Run.replay (System.execReversed checkoutWhileStocking) (fun _ _ => true)
      smallSystem [.advance 0, .advance 0, .advance 1, .advance 1, .advance 1]).map
        (fun system => ((system.phases 0).inProgress, (system.phases 1).inProgress,
          (system.phases 0).stocksTitle?)) = some (true, true, none) := by
    decide +kernel
  obtain ⟨system, ran, active⟩ := Option.map_eq_some_iff.mp replayed
  obtain ⟨trace, replayedRun, labels, _⟩ := Run.of_replay ran
  obtain ⟨zero, others⟩ := Prod.mk.inj active
  obtain ⟨one, apart⟩ := Prod.mk.inj others
  have run := replayedRun.mono fun _ _ _ => anyOrder_of_execReversed
  have single : ∀ id isbn, (system.phases id).stocksTitle? = some isbn → id = 1 := by
    intro id isbn stocks
    match id with
    | 0 =>
        rw [apart] at stocks
        cases stocks
    | 1 => rfl
    | id + 2 =>
        have idle : system.phases (id + 2) = .idle := by
          refine AnyOrder.idle_of_unnamed run fun transition member named => ?_
          have listed : transition.label ∈ trace.map Transition.label := List.mem_map_of_mem member
          rw [labels] at listed
          have few : ∀ action ∈ [Action.advance 0, .advance 0, .advance 1, .advance 1, .advance 1],
              action = .advance 0 ∨ action = .advance 1 := by decide
          rcases few _ listed with same | same <;> simp [same, Action.id?] at named
        rw [idle] at stocks
        cases stocks
  refine ⟨trace, system, run, zero, one,
    run_completes checkoutWhileStocking smallLibrary _ freshStock_checkoutWhileStocking run ?_⟩
  intro first second isbn left right
  rw [single first isbn left, single second isbn right]

end LibraFlow.Postgres
