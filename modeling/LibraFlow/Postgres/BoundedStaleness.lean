import LibraFlow.Library.Run
import LibraFlow.Postgres.Tables
import LibraFlow.Services.Catalog
import LibraFlow.Storage.RedisCache

/-! Title details read through a Redis that may fail. Any number of calls of
`get_book_details` run beside commits and invalidations; commands get lost, keys are
evicted, and each process has a breaker of its own. A call that finds nothing reads the
row of the title and then the rows of its copies. An answer may be outdated, but never by
more than the time to live and the duration of a call. -/

set_option autoImplicit false

namespace LibraFlow.Postgres

open LibraFlow.Core LibraFlow.Library LibraFlow.Storage LibraFlow.Services

/-- Where a call stands. What was loaded is kept with the time at which the title was
read. -/
inductive ReadPhase where
  | idle
  | missed
  | titled (model : Book) (since : ℚ)
  | loaded (details : Book.Details) (since : ℚ)
  | done (details : Option Book.Details)
  | raised

structure ReadRequest where
  process : Nat
  isbn : String

structure CachedCatalog where
  database : Tables
  keyspace : Keyspace
  caches : Nat → RedisCache
  readers : Nat → ReadPhase
  clock : ℚ

inductive CatalogAction where
  | lookUp (reader : Nat) (later : ℚ) (fate : CommandFate)
  | loadTitle (reader : Nat)
  | loadCopies (reader : Nat)
  | store (reader : Nat) (later : ℚ) (fate : CommandFate)
  | commit (database : Tables)
  | invalidate (isbn : String) (fate : CommandFate)
  | invalidatePrefix (start : String) (scanFate deleteFate : CommandFate)
  | evict (key : String)

structure TimedCatalogAction where
  now : ℚ
  action : CatalogAction

def bookKey (isbn : String) : String := "book:" ++ isbn

/-- The details of a title, from its row and the rows of its copies. -/
def rowDetails (model : Book) (copies : List BookCopy) : Book.Details :=
  let (objects, book) := modelToBook model copies
  book.toDict objects

namespace CachedCatalog

variable (codec : Codec Book.Details) (requests : Nat → ReadRequest) (now : ℚ)

def move (catalog : CachedCatalog) (reader : Nat) (phase : ReadPhase) : CachedCatalog :=
  { catalog with readers := Function.update catalog.readers reader phase, clock := now }

def inProcess (catalog : CachedCatalog) (process : Nat) (cache : RedisCache) : CachedCatalog :=
  { catalog with caches := Function.update catalog.caches process cache }

/-- The lookup of `get_or_compute`. -/
def lookUp (catalog : CachedCatalog) (reader : Nat) (exchange : Exchange) : CachedCatalog :=
  let request := requests reader
  let looked := (catalog.caches request.process).get codec catalog.keyspace
    (bookKey request.isbn) exchange
  (catalog.inProcess request.process looked.2).move now reader
    (match looked.1 with
      | .ok (some details) => .done (some details)
      | .ok none => .missed
      | .error _ => .raised)

/-- The loader of `get_or_compute` reads the row of the title first. -/
def loadTitle (catalog : CachedCatalog) (reader : Nat) : CachedCatalog :=
  catalog.move now reader
    (match catalog.database.books.get? (requests reader).isbn with
      | some model => .titled model now
      | none => .done none)

/-- The copies are read as they are committed by then. -/
def loadCopies (catalog : CachedCatalog) (reader : Nat) (model : Book) (since : ℚ) :
    CachedCatalog :=
  catalog.move now reader
    (.loaded (rowDetails model (catalog.database.copiesOf (requests reader).isbn)) since)

/-- Keeping what was loaded, and the answer. -/
def store (catalog : CachedCatalog) (reader : Nat) (details : Book.Details) (exchange : Exchange) :
    CachedCatalog :=
  let request := requests reader
  let kept := (catalog.caches request.process).set codec catalog.keyspace (bookKey request.isbn)
    (some details) (some detailsTtl) exchange
  { (catalog.inProcess request.process kept.2.1).move now reader
      (match kept.1 with
        | .ok () => .done (some details)
        | .error _ => .raised) with
    keyspace := kept.2.2 }

def exec (catalog : CachedCatalog) : CatalogAction → Option CachedCatalog
  | .lookUp reader later fate =>
      match catalog.readers reader with
      | .idle => some (catalog.lookUp codec requests now reader ⟨now, later, fate⟩)
      | _ => none
  | .loadTitle reader =>
      match catalog.readers reader with
      | .missed => some (catalog.loadTitle requests now reader)
      | _ => none
  | .loadCopies reader =>
      match catalog.readers reader with
      | .titled model since => some (catalog.loadCopies requests now reader model since)
      | _ => none
  | .store reader later fate =>
      match catalog.readers reader with
      | .loaded details _ =>
          some (catalog.store codec requests now reader details ⟨now, later, fate⟩)
      | _ => none
  | .commit database => some { catalog with database := database, clock := now }
  | .invalidate isbn fate => some { catalog with
      keyspace := (RedisCache.invalidate catalog.keyspace (bookKey isbn) now fate).2
      clock := now }
  | .invalidatePrefix start scanFate deleteFate => some { catalog with
      keyspace := (RedisCache.invalidatePrefix catalog.keyspace start now scanFate deleteFate).2
      clock := now }
  | .evict key => some { catalog with
      keyspace := Dict.erase catalog.keyspace key
      clock := now }

end CachedCatalog

/-- A step of one call, of a writer or of Redis; the clock does not run backwards. -/
def CatalogStep (codec : Codec Book.Details) (requests : Nat → ReadRequest)
    (before : CachedCatalog) (label : TimedCatalogAction) (after : CachedCatalog) : Prop :=
  before.clock ≤ label.now ∧ before.exec codec requests label.now label.action = some after

section Alone

variable {codec : Codec Book.Details} {requests : Nat → ReadRequest} {catalog : CachedCatalog}
  {reader : Nat} {lookup store : Exchange}

/-- The phase in which a call ends. -/
def ReadPhase.ended : Except (CallError RedisError) (Option Book.Details) → ReadPhase
  | .ok answer => .done answer
  | .error _ => .raised

/-- The steps of one call, with its exchanges with Redis; it may end after any of them. -/
def callSteps (reader : Nat) (lookup store : Exchange) : List TimedCatalogAction :=
  [⟨lookup.now, .lookUp reader lookup.later lookup.fate⟩, ⟨lookup.now, .loadTitle reader⟩,
    ⟨lookup.now, .loadCopies reader⟩, ⟨store.now, .store reader store.later store.fate⟩]

private theorem details_of_row {tables : Tables} {isbn : String} :
    tables.details isbn =
      (tables.books.get? isbn).map fun model => rowDetails model (tables.copiesOf isbn) := by
  simp only [Tables.details, Tables.getBook, Option.map_map]
  rfl

private theorem stored_fields {details : Book.Details} {cache : RedisCache} {keyspace : Keyspace}
    (saved : (catalog.caches (requests reader).process).set codec catalog.keyspace
      (bookKey (requests reader).isbn) (some details) (some detailsTtl) store =
        (.ok (), cache, keyspace)) :
    let final := catalog.store codec requests store.now reader details store
    final.readers reader = .done (some details) ∧
      final.caches (requests reader).process = cache ∧ final.keyspace = keyspace := by
  simp only [CachedCatalog.store, saved, CachedCatalog.move, CachedCatalog.inProcess,
    Function.update_self, and_self]

/-- A call whose steps nothing comes between is `get_or_compute` over the tables. -/
theorem getOrCompute_alone (idle : catalog.readers reader = .idle)
    (begun : catalog.clock ≤ lookup.now) (ordered : lookup.now ≤ store.now) :
    let request := requests reader
    let called := (catalog.caches request.process).getOrCompute codec catalog.keyspace
      (bookKey request.isbn) (catalog.database.details request.isbn) detailsTtl lookup store
    ∃ trace final, Run (CatalogStep codec requests) catalog trace final ∧
      trace.map Transition.label <+: callSteps reader lookup store ∧
      final.readers reader = .ended called.1 ∧ final.caches request.process = called.2.1 ∧
      final.keyspace = called.2.2 ∧ final.database = catalog.database := by
  intro request called
  let looked := catalog.lookUp codec requests lookup.now reader lookup
  have first : CatalogStep codec requests catalog
      ⟨lookup.now, .lookUp reader lookup.later lookup.fate⟩ looked := by
    refine ⟨begun, ?_⟩
    simp only [CachedCatalog.exec, idle]
    rfl
  have phase : looked.readers reader = _ := Function.update_self reader _ _
  have cache : looked.caches request.process = _ := Function.update_self request.process _ _
  rcases answer : (catalog.caches request.process).get codec catalog.keyspace
    (bookKey request.isbn) lookup with ⟨outcome, after⟩
  rw [answer] at phase cache
  cases outcome with
  | error error =>
      have result : called = (.error error, after, catalog.keyspace) := by
        simp only [called, RedisCache.getOrCompute, answer]
      rw [result]
      exact ⟨_, looked, .snoc .nil first, ⟨_, rfl⟩, phase, cache, rfl, rfl⟩
  | ok found =>
      cases found with
      | some details =>
          have result : called = (.ok (some details), after, catalog.keyspace) := by
            simp only [called, RedisCache.getOrCompute, answer]
          rw [result]
          exact ⟨_, looked, .snoc .nil first, ⟨_, rfl⟩, phase, cache, rfl, rfl⟩
      | none =>
          let titled := looked.loadTitle requests lookup.now reader
          have second : CatalogStep codec requests looked ⟨lookup.now, .loadTitle reader⟩ titled := by
            refine ⟨le_refl _, ?_⟩
            simp only [CachedCatalog.exec, phase]
            rfl
          have entered : titled.readers reader = _ := Function.update_self reader _ _
          have kept : titled.caches request.process = after := cache
          have rows : looked.database = catalog.database := rfl
          rw [rows] at entered
          cases stored : catalog.database.books.get? request.isbn with
          | none =>
              have result : called = (.ok none, after, catalog.keyspace) := by
                simp only [called, RedisCache.getOrCompute, answer, details_of_row, stored,
                  Option.map_none]
              rw [stored] at entered
              rw [result]
              exact ⟨_, titled, .snoc (.snoc .nil first) second, ⟨_, rfl⟩, entered, kept, rfl, rfl⟩
          | some model =>
              let details := rowDetails model (catalog.database.copiesOf request.isbn)
              let loaded := titled.loadCopies requests lookup.now reader model lookup.now
              let final := loaded.store codec requests store.now reader details store
              rw [stored] at entered
              have third : CatalogStep codec requests titled ⟨lookup.now, .loadCopies reader⟩
                  loaded := by
                refine ⟨le_refl _, ?_⟩
                simp only [CachedCatalog.exec, entered]
                rfl
              have held : loaded.readers reader = .loaded details lookup.now :=
                Function.update_self reader _ _
              have fourth : CatalogStep codec requests loaded
                  ⟨store.now, .store reader store.later store.fate⟩ final := by
                refine ⟨ordered, ?_⟩
                simp only [CachedCatalog.exec, held]
                rfl
              rcases saved : after.set codec catalog.keyspace (bookKey request.isbn) (some details)
                (some detailsTtl) store with ⟨outcome, cache, keyspace⟩
              have accepted := @RedisCache.set_answer _ codec after catalog.keyspace
                (bookKey request.isbn) (some details) (some detailsTtl) store
              rw [saved] at accepted
              cases accepted
              have result : called = (.ok (some details), cache, keyspace) := by
                simp only [called, RedisCache.getOrCompute, answer, details_of_row, stored,
                  Option.map_some]
                rw [show rowDetails model _ = details from rfl, saved]
              obtain ⟨ends, stays, keeps⟩ := @stored_fields codec requests loaded reader store details
                cache keyspace (by rw [← saved, ← kept]; rfl)
              rw [result]
              exact ⟨_, final, .snoc (.snoc (.snoc (.snoc .nil first) second) third) fourth,
                ⟨[], rfl⟩, ends, stays, keeps, rfl⟩

end Alone

abbrev CatalogTrace : Type := List (Transition CachedCatalog TimedCatalogAction)

/-- A call keeps what it loaded within the given time of starting to load it. -/
def Prompt (duration : ℚ) (transition : Transition CachedCatalog TimedCatalogAction) : Prop :=
  ∀ reader later fate details since, transition.label.action = .store reader later fate →
    transition.before.readers reader = .loaded details since →
    transition.label.now ≤ since + duration

/-- The states a run goes through. -/
def Visited (start : CachedCatalog) (trace : CatalogTrace) (seen : CachedCatalog) : Prop :=
  seen = start ∨ ∃ transition ∈ trace, transition.after = seen

/-- The database had this row for a title, or none, at some time of a run. -/
def TitleShown (start : CachedCatalog) (trace : CatalogTrace) (isbn : String) (row : Option Book)
    (time : ℚ) : Prop :=
  ∃ seen, Visited start trace seen ∧ seen.clock = time ∧ seen.database.books.get? isbn = row

def CopiesShown (start : CachedCatalog) (trace : CatalogTrace) (isbn : String)
    (copies : List BookCopy) (time : ℚ) : Prop :=
  ∃ seen, Visited start trace seen ∧ seen.clock = time ∧ seen.database.copiesOf isbn = copies

/-- The database had no such title at one time, or the details are those of the row it had
at one time with the copies it had at another. -/
def Shown (start : CachedCatalog) (trace : CatalogTrace) (isbn : String) :
    Option Book.Details → ℚ → ℚ → Prop
  | none, time, _ => TitleShown start trace isbn none time
  | some details, time, later => ∃ model copies, TitleShown start trace isbn (some model) time ∧
      CopiesShown start trace isbn copies later ∧ details = rowDetails model copies

/-- The tables a run starts with, and those that are committed in it. -/
def Committed (start : CachedCatalog) (trace : CatalogTrace) (tables : Tables) : Prop :=
  tables = start.database ∨ ∃ transition ∈ trace, transition.label.action = .commit tables

/-- What the cache has of a title, and what calls are about to put there, was right at
times that are not too long ago. -/
structure Recent (codec : Codec Book.Details) (requests : Nat → ReadRequest) (duration : ℚ)
    (start : CachedCatalog) (trace : CatalogTrace) (catalog : CachedCatalog) : Prop where
  entries : ∀ isbn entry, Dict.get? catalog.keyspace (bookKey isbn) = some entry →
    ∃ details time later deadline, Shown start trace isbn (some details) time later ∧
      entry = ⟨codec.serialize (some details), some deadline⟩ ∧ codec.Faithful details ∧
      time ≤ later ∧ later ≤ catalog.clock ∧ deadline ≤ time + duration + detailsTtl
  titles : ∀ reader model since, catalog.readers reader = .titled model since →
    TitleShown start trace (requests reader).isbn (some model) since ∧ since ≤ catalog.clock ∧
      ∃ tables, Committed start trace tables ∧
        tables.books.get? (requests reader).isbn = some model
  readers : ∀ reader details since, catalog.readers reader = .loaded details since →
    ∃ later, Shown start trace (requests reader).isbn (some details) since later ∧
      codec.Faithful details ∧ since ≤ later ∧ later ≤ catalog.clock

private theorem bookKey_injective {first second : String} (same : bookKey first = bookKey second) :
    first = second :=
  (String.append_right_inj "book:").mp same

private theorem truncate_detailsTtl : truncate detailsTtl = 600 := by decide +kernel

section Steps

variable {codec : Codec Book.Details} {requests : Nat → ReadRequest} {duration : ℚ}
  {start before after : CachedCatalog} {trace : CatalogTrace} {label : TimedCatalogAction}

theorem Visited.later {seen : CachedCatalog} (visited : Visited start trace seen)
    (transition : Transition CachedCatalog TimedCatalogAction) :
    Visited start (trace ++ [transition]) seen :=
  visited.imp_right fun ⟨passed, member, same⟩ => ⟨passed, List.mem_append_left _ member, same⟩

private theorem visited_last : Visited start (trace ++ [⟨before, label, after⟩]) after :=
  .inr ⟨⟨before, label, after⟩, by simp, rfl⟩

theorem TitleShown.later {isbn : String} {row : Option Book} {time : ℚ}
    (shown : TitleShown start trace isbn row time)
    (transition : Transition CachedCatalog TimedCatalogAction) :
    TitleShown start (trace ++ [transition]) isbn row time := by
  obtain ⟨seen, visited, facts⟩ := shown
  exact ⟨seen, visited.later transition, facts⟩

theorem CopiesShown.later {isbn : String} {copies : List BookCopy} {time : ℚ}
    (shown : CopiesShown start trace isbn copies time)
    (transition : Transition CachedCatalog TimedCatalogAction) :
    CopiesShown start (trace ++ [transition]) isbn copies time := by
  obtain ⟨seen, visited, facts⟩ := shown
  exact ⟨seen, visited.later transition, facts⟩

theorem Shown.later {isbn : String} {details : Option Book.Details} {time later : ℚ}
    (shown : Shown start trace isbn details time later)
    (transition : Transition CachedCatalog TimedCatalogAction) :
    Shown start (trace ++ [transition]) isbn details time later := by
  cases details with
  | none => exact TitleShown.later shown transition
  | some details =>
      obtain ⟨model, copies, title, listed, same⟩ := shown
      exact ⟨model, copies, title.later transition, listed.later transition, same⟩

theorem Committed.later {tables : Tables} (committed : Committed start trace tables)
    (transition : Transition CachedCatalog TimedCatalogAction) :
    Committed start (trace ++ [transition]) tables :=
  committed.imp_right fun ⟨passed, member, same⟩ => ⟨passed, List.mem_append_left _ member, same⟩

/-- An entry that stays is as recent as before. -/
theorem Recent.entry (recent : Recent codec requests duration start trace before)
    (clock : before.clock ≤ after.clock) {isbn : String} {entry : RedisEntry}
    (present : Dict.get? before.keyspace (bookKey isbn) = some entry) :
    ∃ details time later deadline,
      Shown start (trace ++ [⟨before, label, after⟩]) isbn (some details) time later ∧
      entry = ⟨codec.serialize (some details), some deadline⟩ ∧ codec.Faithful details ∧
      time ≤ later ∧ later ≤ after.clock ∧ deadline ≤ time + duration + detailsTtl := by
  obtain ⟨details, time, later, deadline, shown, same, faithful, ordered, past, bound⟩ :=
    recent.entries isbn entry present
  exact ⟨details, time, later, deadline, shown.later _, same, faithful, ordered,
    past.trans clock, bound⟩

theorem Recent.title (recent : Recent codec requests duration start trace before)
    (clock : before.clock ≤ after.clock) {reader : Nat} {model : Book} {since : ℚ}
    (titled : before.readers reader = .titled model since) :
    TitleShown start (trace ++ [⟨before, label, after⟩]) (requests reader).isbn (some model)
        since ∧ since ≤ after.clock ∧
      ∃ tables, Committed start (trace ++ [⟨before, label, after⟩]) tables ∧
        tables.books.get? (requests reader).isbn = some model := by
  obtain ⟨shown, past, tables, committed, stored⟩ := recent.titles reader model since titled
  exact ⟨shown.later _, past.trans clock, tables, committed.later _, stored⟩

theorem Recent.reader (recent : Recent codec requests duration start trace before)
    (clock : before.clock ≤ after.clock) {reader : Nat} {details : Book.Details} {since : ℚ}
    (loaded : before.readers reader = .loaded details since) :
    ∃ later, Shown start (trace ++ [⟨before, label, after⟩]) (requests reader).isbn
        (some details) since later ∧
      codec.Faithful details ∧ since ≤ later ∧ later ≤ after.clock := by
  obtain ⟨later, shown, faithful, ordered, past⟩ := recent.readers reader details since loaded
  exact ⟨later, shown.later _, faithful, ordered, past.trans clock⟩

/-- A step that neither loads nor keeps details. -/
theorem Recent.quiet (recent : Recent codec requests duration start trace before)
    (clock : before.clock ≤ after.clock)
    (entries : ∀ key entry, Dict.get? after.keyspace key = some entry →
      Dict.get? before.keyspace key = some entry)
    (readers : ∀ reader, after.readers reader = before.readers reader ∨
      after.readers reader = .missed ∨ ∃ answer, after.readers reader = .done answer) :
    Recent codec requests duration start (trace ++ [⟨before, label, after⟩]) after where
  entries _ _ present := recent.entry clock (entries _ _ present)
  titles reader model since titled := by
    rcases readers reader with same | missed | ⟨answer, ended⟩
    · exact recent.title clock (same ▸ titled)
    · simp [missed] at titled
    · simp [ended] at titled
  readers reader details since loaded := by
    rcases readers reader with same | missed | ⟨answer, ended⟩
    · exact recent.reader clock (same ▸ loaded)
    · simp [missed] at loaded
    · simp [ended] at loaded

/-- A call that looked up and found nothing, or has ended, holds nothing that was loaded. -/
theorem quiet_of_update {readers : Nat → ReadPhase} {mover : Nat} {phase : ReadPhase}
    (quiet : phase = .missed ∨ ∃ answer, phase = .done answer) (reader : Nat) :
    Function.update readers mover phase reader = readers reader ∨
      Function.update readers mover phase reader = .missed ∨
        ∃ answer, Function.update readers mover phase reader = .done answer := by
  by_cases same : reader = mover
  · subst reader
    rw [Function.update_self]
    exact .inr quiet
  · exact .inl (Function.update_of_ne same _ _)

private theorem titled_of_update {readers : Nat → ReadPhase} {mover reader : Nat}
    {phase : ReadPhase}
    {model : Book} {since : ℚ} (other : ∀ model since, phase ≠ .titled model since)
    (titled : Function.update readers mover phase reader = .titled model since) :
    readers reader = .titled model since := by
  by_cases same : reader = mover
  · subst reader
    rw [Function.update_self] at titled
    exact absurd titled (other model since)
  · rwa [Function.update_of_ne same] at titled

private theorem loaded_of_update {readers : Nat → ReadPhase} {mover reader : Nat}
    {phase : ReadPhase}
    {details : Book.Details} {since : ℚ} (other : ∀ details since, phase ≠ .loaded details since)
    (loaded : Function.update readers mover phase reader = .loaded details since) :
    readers reader = .loaded details since := by
  by_cases same : reader = mover
  · subst reader
    rw [Function.update_self] at loaded
    exact absurd loaded (other details since)
  · rwa [Function.update_of_ne same] at loaded

/-- The phase after a lookup. -/
theorem lookUp_phase (codec : Codec Book.Details) (requests : Nat → ReadRequest) (now : ℚ)
    (before : CachedCatalog) (reader : Nat) (exchange : Exchange) :
    (before.lookUp codec requests now reader exchange).readers reader = .missed ∨
      ∃ details payload, (before.lookUp codec requests now reader exchange).readers reader =
        .done (some details) ∧
        before.keyspace.find? (bookKey (requests reader).isbn) exchange.now = some payload ∧
        codec.deserialize payload = some details := by
  simp only [CachedCatalog.lookUp, CachedCatalog.move, Function.update_self,
    RedisCache.get_answer]
  split
  · next details served =>
      rw [Except.ok.injEq] at served
      split at served
      · obtain ⟨payload, found, decoded⟩ := Option.bind_eq_some_iff.mp served
        exact .inr ⟨details, payload, rfl, found, decoded⟩
      · cases served
  · exact .inl rfl
  · next impossible => cases impossible

private theorem store_phase (codec : Codec Book.Details) (requests : Nat → ReadRequest) (now : ℚ)
    (before : CachedCatalog) (reader : Nat) (details : Book.Details) (exchange : Exchange) :
    (before.store codec requests now reader details exchange).readers reader =
      .done (some details) := by
  simp only [CachedCatalog.store, CachedCatalog.move, Function.update_self,
    RedisCache.set_answer]

/-- What a call has loaded goes to Redis with the time to live. -/
theorem store_entries {now : ℚ} {reader : Nat} {details : Book.Details} {exchange : Exchange}
    {isbn : String} {entry : RedisEntry}
    (present : Dict.get? (before.store codec requests now reader details exchange).keyspace
      (bookKey isbn) = some entry) :
    Dict.get? before.keyspace (bookKey isbn) = some entry ∨ isbn = (requests reader).isbn ∧
      entry = ⟨codec.serialize (some details), some (exchange.now + detailsTtl)⟩ := by
  rcases RedisCache.set_subset present with old | ⟨same, written⟩
  · exact .inl old
  · refine .inr ⟨bookKey_injective same, written.trans ?_⟩
    simp only [Option.map_some, truncate_detailsTtl]
    rfl

/-- The tables of a reached state were committed, or are those of the start. -/
theorem committed_database {final : CachedCatalog}
    (run : Run (CatalogStep codec requests) start trace final) :
    Committed start trace final.database := by
  induction run with
  | nil => exact .inl rfl
  | @snoc trace before after label _ taken ih =>
      obtain ⟨_, ran⟩ := taken
      cases action : label.action with
      | commit database =>
          rw [action] at ran
          cases ran
          exact .inr ⟨_, List.mem_append_right _ List.mem_cons_self, action⟩
      | lookUp | loadTitle | loadCopies | store =>
          rw [action] at ran
          simp only [CachedCatalog.exec] at ran
          split at ran <;> cases ran
          exact ih.later _
      | invalidate | invalidatePrefix | evict =>
          rw [action] at ran
          cases ran
          exact ih.later _

theorem CatalogStep.unraised (taken : CatalogStep codec requests before label after)
    (unraised : ∀ reader, before.readers reader ≠ .raised) (reader : Nat) :
    after.readers reader ≠ .raised := by
  have moved : ∀ {other : Nat} {phase : ReadPhase}, phase ≠ .raised →
      Function.update before.readers other phase reader ≠ .raised := by
    intro other phase quiet
    by_cases same : reader = other
    · subst other
      rwa [Function.update_self]
    · rw [Function.update_of_ne same]
      exact unraised reader
  obtain ⟨_, ran⟩ := taken
  rcases label with ⟨now, action⟩
  cases action with
  | lookUp other later fate =>
      simp only [CachedCatalog.exec] at ran
      split at ran <;> cases ran
      refine moved ?_
      rw [RedisCache.get_answer]
      split
      · simp
      · simp
      · next impossible => cases impossible
  | loadTitle other =>
      simp only [CachedCatalog.exec] at ran
      split at ran <;> cases ran
      refine moved ?_
      split <;> simp
  | loadCopies other =>
      simp only [CachedCatalog.exec] at ran
      split at ran <;> cases ran
      exact moved (by simp)
  | store other later fate =>
      simp only [CachedCatalog.exec] at ran
      split at ran <;> cases ran
      refine moved ?_
      rw [RedisCache.set_answer]
      simp
  | commit | invalidate | invalidatePrefix | evict =>
      cases ran
      exact unraised reader

private theorem Recent.loadTitle (recent : Recent codec requests duration start trace before)
    {now : ℚ} (past : before.clock ≤ now) (current : Committed start trace before.database)
    {reader : Nat} (ran : before.loadTitle requests now reader = after) :
    Recent codec requests duration start (trace ++ [⟨before, label, after⟩]) after := by
  subst ran
  constructor
  · intro isbn entry present
    exact recent.entry past present
  · intro other model since titled
    by_cases same : other = reader
    · subst other
      simp only [CachedCatalog.loadTitle, CachedCatalog.move, Function.update_self] at titled
      split at titled
      · next found =>
          cases titled
          exact ⟨⟨_, visited_last, rfl, found⟩, le_refl _, _, current.later _, found⟩
      · cases titled
    · simp only [CachedCatalog.loadTitle, CachedCatalog.move,
        Function.update_of_ne same] at titled
      exact recent.title past titled
  · intro other details since loaded
    refine recent.reader past (loaded_of_update (fun _ _ impossible => ?_) loaded)
    split at impossible <;> cases impossible

private theorem Recent.loadCopies (recent : Recent codec requests duration start trace before)
    {now since : ℚ} (past : before.clock ≤ now) {reader : Nat} {model : Book}
    (faithful : ∀ tables, Committed start trace tables →
      tables.books.get? (requests reader).isbn = some model →
      codec.Faithful (rowDetails model (before.database.copiesOf (requests reader).isbn)))
    (held : before.readers reader = .titled model since)
    (ran : before.loadCopies requests now reader model since = after) :
    Recent codec requests duration start (trace ++ [⟨before, label, after⟩]) after := by
  subst ran
  obtain ⟨shown, passed, tables, committed, stored⟩ := recent.titles reader model since held
  constructor
  · intro isbn entry present
    exact recent.entry past present
  · intro other row time titled
    exact recent.title past (titled_of_update (by simp) titled)
  · intro other details time loaded
    by_cases same : other = reader
    · subst other
      simp only [CachedCatalog.loadCopies, CachedCatalog.move, Function.update_self] at loaded
      cases loaded
      exact ⟨now, ⟨model, _, shown.later _, ⟨_, visited_last, rfl, rfl⟩, rfl⟩,
        faithful tables committed stored, passed.trans past, le_refl _⟩
    · simp only [CachedCatalog.loadCopies, CachedCatalog.move,
        Function.update_of_ne same] at loaded
      exact recent.reader past loaded

private theorem Recent.store (recent : Recent codec requests duration start trace before)
    {now since : ℚ} (past : before.clock ≤ now) (soon : now ≤ since + duration) {reader : Nat}
    {details : Book.Details} {later : ℚ} {fate : CommandFate}
    (held : before.readers reader = .loaded details since)
    (ran : before.store codec requests now reader details ⟨now, later, fate⟩ = after) :
    Recent codec requests duration start (trace ++ [⟨before, label, after⟩]) after := by
  subst ran
  constructor
  · intro isbn entry present
    rcases store_entries present with old | ⟨rfl, rfl⟩
    · exact recent.entry past old
    · obtain ⟨copiesTime, shown, faithful, ordered, passed⟩ :=
        recent.readers reader details since held
      refine ⟨details, since, copiesTime, now + detailsTtl, shown.later _, rfl, faithful,
        ordered, passed.trans past, ?_⟩
      linarith
  · intro other model time titled
    exact recent.title past (titled_of_update (by simp [RedisCache.set_answer]) titled)
  · intro other kept time loaded
    exact recent.reader past (loaded_of_update (by simp [RedisCache.set_answer]) loaded)

theorem Recent.step (recent : Recent codec requests duration start trace before)
    (taken : CatalogStep codec requests before label after)
    (prompt : Prompt duration ⟨before, label, after⟩)
    (current : Committed start trace before.database)
    (faithful : ∀ tables isbn model, Committed start trace tables →
      tables.books.get? isbn = some model →
      codec.Faithful (rowDetails model (before.database.copiesOf isbn))) :
    Recent codec requests duration start (trace ++ [⟨before, label, after⟩]) after := by
  obtain ⟨past, ran⟩ := taken
  rcases label with ⟨now, action⟩
  cases action with
  | lookUp reader later fate =>
      simp only [CachedCatalog.exec] at ran
      split at ran <;> cases ran
      refine recent.quiet past (fun _ _ present => present) fun other => ?_
      refine quiet_of_update ?_ other
      rw [RedisCache.get_answer]
      split
      · exact .inr ⟨_, rfl⟩
      · exact .inl rfl
      · next impossible => cases impossible
  | loadTitle reader =>
      simp only [CachedCatalog.exec] at ran
      split at ran <;> cases ran
      exact recent.loadTitle past current rfl
  | loadCopies reader =>
      simp only [CachedCatalog.exec] at ran
      split at ran
      · next model since held =>
          cases ran
          exact recent.loadCopies past (fun tables => faithful tables _ model) held rfl
      · cases ran
  | store reader later fate =>
      simp only [CachedCatalog.exec] at ran
      split at ran
      · next details since held =>
          cases ran
          exact recent.store past (prompt reader later fate details since rfl held) held rfl
      · cases ran
  | commit database =>
      cases ran
      exact recent.quiet past (fun _ _ present => present) fun _ => .inl rfl
  | invalidate isbn fate =>
      cases ran
      exact recent.quiet past (fun _ _ present => Keyspace.delete_subset present)
        fun _ => .inl rfl
  | invalidatePrefix scanned scanFate deleteFate =>
      cases ran
      exact recent.quiet past (fun _ _ present => RedisCache.invalidatePrefix_subset present)
        fun _ => .inl rfl
  | evict key =>
      cases ran
      refine recent.quiet past (fun other entry present => ?_) fun _ => .inl rfl
      simp only [Dict.get?_erase] at present
      split at present
      · cases present
      · exact present

/-- What Redis still has of a title was right a short time ago. -/
private theorem Recent.found (recent : Recent codec requests duration start trace before)
    {now : ℚ} (past : before.clock ≤ now) {isbn payload : String} {details : Book.Details}
    (found : before.keyspace.find? (bookKey isbn) now = some payload)
    (decoded : codec.deserialize payload = some details) :
    ∃ time later, Shown start (trace ++ [⟨before, label, after⟩]) isbn (some details) time later ∧
      time ≤ later ∧ later ≤ now ∧ now ≤ time + duration + detailsTtl := by
  obtain ⟨entry, present, live, rfl⟩ := Keyspace.find?_eq_some found
  obtain ⟨stored, time, later, deadline, shown, rfl, faithful, ordered, passed, bound⟩ :=
    recent.entries isbn entry present
  cases faithful.symm.trans decoded
  have early : now < deadline := of_decide_eq_true live
  exact ⟨time, later, shown.later _, ordered, passed.trans past, (early.trans_le bound).le⟩

/-- A call that ends answers with details that were right a short time ago. -/
theorem Recent.answer (recent : Recent codec requests duration start trace before)
    (brief : 0 ≤ duration) (taken : CatalogStep codec requests before label after)
    (prompt : Prompt duration ⟨before, label, after⟩) {reader : Nat}
    {answer : Option Book.Details} (ended : after.readers reader = .done answer)
    (unended : before.readers reader ≠ .done answer) :
    ∃ time later, Shown start (trace ++ [⟨before, label, after⟩]) (requests reader).isbn answer
        time later ∧ time ≤ later ∧ later ≤ label.now ∧
      label.now ≤ time + duration + detailsTtl := by
  have positive : (0 : ℚ) ≤ detailsTtl := by decide +kernel
  have mover : ∀ {other : Nat} {phase : ReadPhase},
      Function.update before.readers other phase reader = .done answer →
      reader = other ∧ phase = .done answer := by
    intro other phase changed
    by_cases same : reader = other
    · subst other
      rw [Function.update_self] at changed
      exact ⟨rfl, changed⟩
    · rw [Function.update_of_ne same] at changed
      exact absurd changed unended
  obtain ⟨past, ran⟩ := taken
  rcases label with ⟨now, action⟩
  cases action with
  | lookUp other later fate =>
      simp only [CachedCatalog.exec] at ran
      split at ran <;> cases ran
      obtain ⟨rfl, _⟩ := mover ended
      rcases lookUp_phase codec requests now before reader ⟨now, later, fate⟩ with
        missed | ⟨details, payload, hit, found, decoded⟩
      · rw [missed] at ended
        cases ended
      · rw [hit] at ended
        cases ended
        exact recent.found past found decoded
  | loadTitle other =>
      simp only [CachedCatalog.exec] at ran
      split at ran <;> cases ran
      obtain ⟨rfl, ended⟩ := mover ended
      split at ended
      · cases ended
      · next absent =>
          cases ended
          refine ⟨now, now, ⟨_, visited_last, rfl, absent⟩, le_refl now, le_refl now, ?_⟩
          linarith
  | loadCopies other =>
      simp only [CachedCatalog.exec] at ran
      split at ran <;> cases ran
      obtain ⟨_, impossible⟩ := mover ended
      cases impossible
  | store other later fate =>
      simp only [CachedCatalog.exec] at ran
      split at ran
      · next details since held =>
          cases ran
          obtain ⟨rfl, _⟩ := mover ended
          have soon : now ≤ since + duration := prompt reader later fate details since rfl held
          rw [store_phase] at ended
          cases ended
          obtain ⟨copiesTime, shown, _, ordered, passed⟩ := recent.readers reader details since held
          refine ⟨since, copiesTime, shown.later _, ordered, passed.trans past, ?_⟩
          linarith
      · cases ran
  | commit database =>
      cases ran
      exact absurd ended unended
  | invalidate isbn fate =>
      cases ran
      exact absurd ended unended
  | invalidatePrefix scanned scanFate deleteFate =>
      cases ran
      exact absurd ended unended
  | evict key =>
      cases ran
      exact absurd ended unended

end Steps

/-- In every run of reads, commits and invalidations over a Redis that may fail at any
command, no read raises, and every answer is made of a title as it was at some time of the
run and its copies as they were then or later, no longer ago than the time to live and the
duration of a call. -/
theorem run_boundedStaleness (codec : Codec Book.Details) (requests : Nat → ReadRequest)
    {duration : ℚ} (brief : 0 ≤ duration) {start final : CachedCatalog} {trace : CatalogTrace}
    (uncached : start.keyspace = .empty) (idle : ∀ reader, start.readers reader = .idle)
    (run : Run (CatalogStep codec requests) start trace final)
    (prompt : ∀ transition ∈ trace, Prompt duration transition)
    (faithful : ∀ first second, Committed start trace first → Committed start trace second →
      ∀ isbn model, first.books.get? isbn = some model →
        codec.Faithful (rowDetails model (second.copiesOf isbn))) :
    (∀ reader, final.readers reader ≠ .raised) ∧
    ∀ leading transition, trace = leading ++ [transition] →
      ∀ reader answer, transition.after.readers reader = .done answer →
        transition.before.readers reader ≠ .done answer →
        ∃ time later, Shown start trace (requests reader).isbn answer time later ∧
          time ≤ later ∧ later ≤ transition.label.now ∧
          transition.label.now ≤ time + duration + detailsTtl := by
  have initially : Recent codec requests duration start [] start := by
    refine ⟨fun _ _ present => ?_, fun reader _ _ titled => ?_, fun reader _ _ loaded => ?_⟩
    · rw [uncached] at present
      cases present
    · rw [idle reader] at titled
      cases titled
    · rw [idle reader] at loaded
      cases loaded
  have recent : ∀ {trace final}, Run (CatalogStep codec requests) start trace final →
      (∀ transition ∈ trace, Prompt duration transition) →
      (∀ first second, Committed start trace first → Committed start trace second →
        ∀ isbn model, first.books.get? isbn = some model →
          codec.Faithful (rowDetails model (second.copiesOf isbn))) →
      Recent codec requests duration start trace final := by
    intro trace final run prompt faithful
    induction run with
    | nil => exact initially
    | snoc earlier taken ih =>
        have before := ih (fun transition member =>
          prompt transition (List.mem_append_left _ member)) fun first second left right =>
            faithful first second (left.later _) (right.later _)
        have current := committed_database earlier
        exact before.step taken (prompt _ (by simp)) current fun tables isbn model committed =>
          faithful tables _ (committed.later _) (current.later _) isbn model
  refine ⟨?_, ?_⟩
  · refine run.always ?_ fun _ _ _ unraised taken => taken.unraised unraised
    intro reader
    simp [idle reader]
  · rintro leading transition rfl reader answer ended unended
    obtain ⟨earlier, taken, _⟩ := run.last
    have before := recent earlier (fun passed member =>
      prompt passed (List.mem_append_left _ member)) fun first second left right =>
        faithful first second (left.later _) (right.later _)
    exact before.answer brief taken (prompt _ (by simp)) ended unended

/-- A library with one title that has no copies yet. -/
def oneTitle (title : String) : Tables where
  books := .merge .empty {
    isbn := "B1", title := title, authors := [], category := "CS",
    publicationYear := 2020, publisher := "P", description := "", rating := 4,
    difficultyLevel := "Beginner", keywords := [], borrowHistoryCount := 0,
    edition := .physical 500 400 .empty }
  branches := .empty
  copies := .empty
  users := .empty
  records := []
  events := []

/-- The details of that title as they stand in Redis. -/
def oneTitleText (title : String) : String :=
  "\x7b\"isbn\": \"B1\", \"title\": \"" ++ title ++ "\", \"authors\": [], " ++
  "\"category\": \"CS\", \"publication_year\": 2020, \"publisher\": \"P\", " ++
  "\"description\": \"\", \"rating\": 4.0, \"difficulty_level\": \"Beginner\", " ++
  "\"keywords\": [], \"format\": \"PHYSICAL\", \"is_available\": false, " ++
  "\"total_copies\": 0, \"available_copies\": 0, \"weight_grams\": 500, " ++
  "\"page_count\": 400, \"copies\": []\x7d"

def oneTitleCodec : Codec Book.Details where
  serialize
    | none => "null"
    | some details => oneTitleText details.title
  deserialize payload :=
    ["Algorithms", "Algorithms II"].findSome? fun title =>
      if oneTitleText title = payload then (oneTitle title).details "B1" else none

def oneTitleCatalog : CachedCatalog where
  database := oneTitle "Algorithms"
  keyspace := .empty
  caches _ := .new 0
  readers _ := .idle
  clock := 0

/-- A title is renamed while a call reads it, and the deletion comes before the call keeps
what it has read; then the title is read again. -/
def renamedUnnoticed : List TimedCatalogAction :=
  [⟨0, .lookUp 0 0 .answered⟩, ⟨1, .loadTitle 0⟩, ⟨2, .commit (oneTitle "Algorithms II")⟩,
    ⟨3, .invalidate "B1" .answered⟩, ⟨4, .loadCopies 0⟩, ⟨5, .store 0 5 .answered⟩,
    ⟨10, .lookUp 1 10 .answered⟩]

def catalogExec (before : CachedCatalog) (label : TimedCatalogAction) : Option CachedCatalog :=
  before.exec oneTitleCodec (fun reader => ⟨reader, "B1"⟩) label.now label.action

/-- The clock does not run backwards, and what was loaded is kept within five seconds. -/
def promptStep (before : CachedCatalog) (label : TimedCatalogAction) : Bool :=
  before.clock ≤ label.now &&
    match label.action with
    | .store reader _ _ =>
        match before.readers reader with
        | .loaded _ since => label.now ≤ since + 5
        | _ => true
    | _ => true

private theorem promptStep_sound {transition : Transition CachedCatalog TimedCatalogAction}
    (checked : promptStep transition.before transition.label = true) : Prompt 5 transition := by
  intro reader later fate details since stored held
  simp only [promptStep, stored, held, Bool.and_eq_true, decide_eq_true_eq] at checked
  exact checked.2

private theorem oneTitle_details (title isbn : String) (details : Book.Details)
    (found : (oneTitle title).details isbn = some details) :
    isbn = "B1" ∧ details.title = title := by
  by_cases same : isbn = "B1"
  · subst isbn
    cases found
    exact ⟨rfl, rfl⟩
  · have absent : (oneTitle title).books.get? isbn = none :=
      (Table.get?_merge_of_ne _ (Ne.symm same)).trans rfl
    simp [Tables.details, Tables.getBook, absent] at found

private theorem oneTitleCodec_faithful {title : String}
    (known : title ∈ ["Algorithms", "Algorithms II"]) {isbn : String} {details : Book.Details}
    (found : (oneTitle title).details isbn = some details) : oneTitleCodec.Faithful details := by
  obtain ⟨rfl, named⟩ := oneTitle_details title isbn details found
  have written : oneTitleCodec.serialize (some details) = oneTitleText title := by
    rw [← named]
    rfl
  rw [Codec.Faithful, written, ← found]
  rcases List.mem_pair.mp known with rfl | rfl <;> decide +kernel

def ReadPhase.title : ReadPhase → Option String
  | .done (some details) => some details.title
  | _ => none

private theorem rowDetails_faithful {first second isbn : String}
    (known : first ∈ ["Algorithms", "Algorithms II"]) {model : Book}
    (stored : (oneTitle first).books.get? isbn = some model) :
    oneTitleCodec.Faithful (rowDetails model ((oneTitle second).copiesOf isbn)) := by
  refine @oneTitleCodec_faithful first known isbn _ ?_
  rw [Tables.details, Tables.getBook, stored]
  rfl

theorem ReadPhase.title_eq_some {phase : ReadPhase} {title : String}
    (shown : phase.title = some title) :
    ∃ details, phase = .done (some details) ∧ details.title = title := by
  cases phase with
  | done answer =>
      cases answer with
      | none => cases shown
      | some details => exact ⟨details, rfl, Option.some.inj shown⟩
  | idle | missed | titled | loaded | raised => cases shown

/-- The second read, seconds later, still gets the old title. -/
theorem run_boundedStaleness_renamedUnnoticed :
    ∃ trace final details time later, Run (CatalogStep oneTitleCodec fun reader => ⟨reader, "B1"⟩)
        oneTitleCatalog trace final ∧
      final.readers 1 = .done (some details) ∧ final.database.details "B1" ≠ some details ∧
      Shown oneTitleCatalog trace "B1" (some details) time later ∧
      time ≤ later ∧ later ≤ 10 ∧ 10 ≤ time + 5 + detailsTtl := by
  have replayed : (Run.replay catalogExec promptStep oneTitleCatalog renamedUnnoticed).map
      (fun final => ((final.readers 1).title,
        (final.database.details "B1").map Book.Details.title)) =
      some (some "Algorithms", some "Algorithms II") := by decide +kernel
  obtain ⟨final, ran, shown⟩ := Option.map_eq_some_iff.mp replayed
  obtain ⟨served, renamed⟩ := Prod.mk.inj shown
  obtain ⟨details, ended, named⟩ := ReadPhase.title_eq_some served
  obtain ⟨trace, path, labels, checked⟩ := Run.of_replay ran
  have run : Run (CatalogStep oneTitleCodec fun reader => ⟨reader, "B1"⟩) oneTitleCatalog trace
      final := by
    refine path.conform (fun before label => before.clock ≤ label.now) fun transition member => ?_
    have passed := checked transition member
    simp only [promptStep, Bool.and_eq_true, decide_eq_true_eq] at passed
    exact passed.1
  have committed : ∀ tables, Committed oneTitleCatalog trace tables →
      ∃ title ∈ ["Algorithms", "Algorithms II"], tables = oneTitle title := by
    intro tables committed
    rcases committed with same | ⟨transition, member, commits⟩
    · exact ⟨"Algorithms", by simp, same⟩
    · have listed : transition.label ∈ renamedUnnoticed := labels ▸ List.mem_map_of_mem member
      simp only [renamedUnnoticed, List.mem_cons, List.not_mem_nil, or_false] at listed
      rcases listed with same | same | same | same | same | same | same <;>
        rw [same] at commits <;> cases commits
      exact ⟨"Algorithms II", by simp, rfl⟩
  have recent := run_boundedStaleness oneTitleCodec (fun reader => ⟨reader, "B1"⟩)
    (by decide : (0 : ℚ) ≤ 5) rfl (fun _ => rfl) run
    (fun transition member => promptStep_sound (checked transition member)) (by
      intro first second left right isbn model stored
      obtain ⟨title, known, rfl⟩ := committed first left
      obtain ⟨other, _, rfl⟩ := committed second right
      exact rowDetails_faithful known stored)
  rcases List.eq_nil_or_concat trace with rfl | ⟨leading, transition, rfl⟩
  · cases labels
  · rw [List.concat_eq_append] at labels run recent
    obtain ⟨_, last, rfl⟩ := run.last
    have label : transition.label = ⟨10, .lookUp 1 10 .answered⟩ := by
      have last := congrArg List.getLast? labels
      simpa [renamedUnnoticed] using last
    have waiting : transition.before.readers 1 ≠ .done (some details) := by
      intro answered
      obtain ⟨_, looked⟩ := last
      rw [label] at looked
      simp [CachedCatalog.exec, answered] at looked
    obtain ⟨time, later, was, ordered, passed, soon⟩ :=
      recent.2 leading transition rfl 1 _ ended waiting
    rw [label] at passed soon
    refine ⟨_, _, details, time, later, run, ended, fun same => ?_, was, ordered, passed, soon⟩
    rw [same] at renamed
    exact absurd (named.symm.trans (Option.some.inj renamed)) (by decide)

end LibraFlow.Postgres
