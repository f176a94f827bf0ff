import LibraFlow.Api.IdempotencyProperties

/-! The endpoints with idempotency keys. `/circulation/issue`, `/circulation/return`
and `/billing/pay` share one store, each with a scoping user of its own; here one
process answers requests one after another. -/

set_option autoImplicit false

namespace LibraFlow.Api

open LibraFlow.Core LibraFlow.Library

variable {μ ρ : Type}

/-- How a call is answered: from the store, with a conflict, or by its operation. -/
inductive Reply (ρ : Type) where
  | replayed (responseBody : ρ)
  | conflict (detail : String)
  | returned (result : ρ)
  | raised
  deriving DecidableEq

/-- When a call looks its key up, claims it and finishes its operation. -/
structure CallTimes where
  asked : ℚ
  claimed : ℚ
  finished : ℚ

def conflictDetail (idempotencyKey : String) : String :=
  "Concurrent operation with Idempotency-Key '" ++ idempotencyKey ++ "' is currently in progress."

/-- The part of a call after its lookup: claim the key, run the operation and settle.
The operation is given by its result, or none if it raises. -/
def claimAndRun (key : String) (store : IdempotencyStore ρ) (operation : Option ρ)
    (statusCode : Int) (userId : Option String) (times : CallTimes) :
    Reply ρ × IdempotencyStore ρ :=
  match store.setInProgress key leaseSeconds userId times.claimed with
  | (false, store) => (.conflict (conflictDetail key), store)
  | (true, store) =>
      match operation with
      | some result =>
          (.returned result, store.setCompleted key statusCode result userId times.finished)
      | none => (.raised, store.clear key userId)

/-- A whole call. -/
def handleIdempotentOperation (idempotencyKey : Option String) (store : IdempotencyStore ρ)
    (operation : Option ρ) (statusCode : Int) (userId : Option String) (times : CallTimes) :
    Reply ρ × IdempotencyStore ρ :=
  if truthy idempotencyKey then
    let key := idempotencyKey.getD ""
    match store.get key userId times.asked with
    | (some (.completed _ responseBody), store) => (.replayed responseBody, store)
    | (some .inProgress, store) => (.conflict (conflictDetail key), store)
    | (none, store) => claimAndRun key store operation statusCode userId times
  else
    match operation with
    | some result => (.returned result, store)
    | none => (.raised, store)

structure IssueBookRequest where
  copyId : String
  userId : String
  loanDays : Int := 14
  deriving DecidableEq

structure ReturnBookRequest where
  copyId : String
  isLate : Bool := false
  isDamaged : Bool := false
  deriving DecidableEq

structure PayFineRequest (μ : Type) where
  userId : String
  amount : ℚ
  paymentMethod : String := "UPI"
  paymentMetadata : μ
  deriving DecidableEq

/-- A request body, together with the endpoint it is sent to. -/
inductive RequestBody (μ : Type) where
  | issuePhysicalCopy (req : IssueBookRequest)
  | returnPhysicalCopy (req : ReturnBookRequest)
  | payFine (req : PayFineRequest μ)
  deriving DecidableEq

/-- A request with its `Idempotency-Key` header and the subject of its token. -/
structure ApiRequest (μ : Type) where
  idempotencyKey : Option String
  sub : Option String
  body : RequestBody μ
  deriving DecidableEq

/-- Python's `first or second` for strings that may be missing. -/
def firstTruthy (first second : Option String) : Option String :=
  if truthy first then first else second

namespace ApiRequest

/-- The user whose keys a request uses. -/
def scopingUser (request : ApiRequest μ) : Option String :=
  match request.body with
  | .issuePhysicalCopy req => firstTruthy (some req.userId) request.sub
  | .returnPhysicalCopy req => firstTruthy request.sub (some req.copyId)
  | .payFine req => firstTruthy (some req.userId) request.sub

def entryKey (request : ApiRequest μ) : String :=
  IdempotencyStore.makeKey (request.idempotencyKey.getD "") request.scopingUser

/-- The requests agree in endpoint, body, key and scoping user; an empty user is none. -/
structure Same (first second : ApiRequest μ) : Prop where
  key : first.idempotencyKey = second.idempotencyKey
  scope : firstTruthy first.scopingUser none = firstTruthy second.scopingUser none
  body : first.body = second.body

theorem Same.symm {first second : ApiRequest μ} (same : Same first second) : Same second first :=
  ⟨same.key.symm, same.scope.symm, same.body.symm⟩

theorem Same.trans {first second third : ApiRequest μ} (left : Same first second)
    (right : Same second third) : Same first third :=
  ⟨left.key.trans right.key, left.scope.trans right.scope, left.body.trans right.body⟩

end ApiRequest

/-- The store of a process when it starts: responses are kept for a day. -/
def defaultIdempotencyStore : IdempotencyStore ρ := ⟨86400, .empty⟩

/-- A request as it was handled: what its operation would give, and when. -/
structure Exchange (μ ρ : Type) where
  request : ApiRequest μ
  outcome : Option ρ
  times : CallTimes

namespace Exchange

/-- Answer a request; responses are stored with the request that they answer. -/
def respond (store : IdempotencyStore (ApiRequest μ × ρ)) (exchange : Exchange μ ρ) :
    Reply (ApiRequest μ × ρ) × IdempotencyStore (ApiRequest μ × ρ) :=
  handleIdempotentOperation exchange.request.idempotencyKey store
    (exchange.outcome.map fun response => (exchange.request, response)) 200
    exchange.request.scopingUser exchange.times

/-- The store after a history of requests. -/
def storeAfter (history : List (Exchange μ ρ)) : IdempotencyStore (ApiRequest μ × ρ) :=
  history.foldl (fun store exchange => (respond store exchange).2) defaultIdempotencyStore

private theorem storeAfter_snoc (history : List (Exchange μ ρ)) (exchange : Exchange μ ρ) :
    storeAfter (history ++ [exchange]) = (respond (storeAfter history) exchange).2 := by
  simp [storeAfter, List.foldl_append]

/-- Each request is over before the next one comes. -/
def Chronological (history : List (Exchange μ ρ)) : Prop :=
  (history.flatMap fun exchange =>
    [exchange.times.asked, exchange.times.claimed, exchange.times.finished]).Pairwise (· ≤ ·)

end Exchange

section Handling

variable {idempotencyKey userId : Option String} {store : IdempotencyStore ρ}
  {operation : Option ρ} {statusCode : Int} {times : CallTimes}

private theorem setInProgress_eq (store : IdempotencyStore ρ) (key : String) (timeoutSeconds : ℚ)
    (userId : Option String) (now : ℚ) :
    store.setInProgress key timeoutSeconds userId now = (false, store) ∨
    store.setInProgress key timeoutSeconds userId now =
      (true, store.claim (IdempotencyStore.makeKey key userId) timeoutSeconds now) := by
  unfold IdempotencyStore.setInProgress
  split
  · split
    · exact .inl rfl
    · exact .inr rfl
  · exact .inr rfl

private theorem get_memoryStore {key other : String} {now : ℚ} {entry : IdempotencyEntry ρ}
    (stored : (store.get key userId now).2.memoryStore.get? other = some entry) :
    store.memoryStore.get? other = some entry := by
  unfold IdempotencyStore.get at stored
  split at stored
  · split at stored
    · simp only [Dict.get?_erase] at stored
      split at stored
      · cases stored
      · exact stored
    · exact stored
  · exact stored

private theorem claimAndRun_not_replayed {key : String} {responseBody : ρ} :
    (claimAndRun key store operation statusCode userId times).1 ≠ .replayed responseBody := by
  unfold claimAndRun
  split
  · simp
  · split <;> simp

/-- Claiming and settling leaves at most the response of the operation behind. -/
theorem entry_of_claimAndRun {key other : String} {entry : IdempotencyEntry ρ}
    (stored : (claimAndRun key store operation statusCode userId times).2.memoryStore.get? other =
      some entry) :
    store.memoryStore.get? other = some entry ∨
    other = IdempotencyStore.makeKey key userId ∧ ∃ result expiresAt, operation = some result ∧
      entry = ⟨.completed statusCode result, expiresAt⟩ := by
  unfold claimAndRun at stored
  rcases setInProgress_eq store key leaseSeconds userId times.claimed with refused | claimed
  · simp only [refused] at stored
    exact .inl stored
  · simp only [claimed] at stored
    by_cases same : IdempotencyStore.makeKey key userId = other
    · subst same
      cases operation with
      | none => simp [IdempotencyStore.clear, Dict.get?_erase] at stored
      | some result =>
          simp only [IdempotencyStore.setCompleted, Dict.get?_set_self, Option.some.injEq] at stored
          exact .inr ⟨rfl, result, _, rfl, stored.symm⟩
    · cases operation with
      | none =>
          simp only [IdempotencyStore.clear, IdempotencyStore.claim, Dict.get?_erase, if_neg same,
            Dict.get?_set] at stored
          exact .inl stored
      | some result =>
          simp only [IdempotencyStore.setCompleted, IdempotencyStore.claim, Dict.get?_set,
            if_neg same] at stored
          exact .inl stored

/-- A replayed response is a completed entry of the store. -/
theorem stored_of_replayed {responseBody : ρ}
    (replayed : (handleIdempotentOperation idempotencyKey store operation statusCode userId
      times).1 = .replayed responseBody) :
    truthy idempotencyKey = true ∧ ∃ statusCode expiresAt, store.memoryStore.get?
      (IdempotencyStore.makeKey (idempotencyKey.getD "") userId) =
        some ⟨.completed statusCode responseBody, expiresAt⟩ := by
  unfold handleIdempotentOperation at replayed
  split at replayed
  · next keyed =>
      refine ⟨keyed, ?_⟩
      simp only [IdempotencyStore.get] at replayed
      cases found : store.memoryStore.get? (IdempotencyStore.makeKey (idempotencyKey.getD "")
          userId) with
      | none =>
          simp only [found] at replayed
          exact absurd replayed claimAndRun_not_replayed
      | some entry =>
          simp only [found] at replayed
          by_cases expired : entry.expiresAt < times.asked
          · simp only [expired, ↓reduceIte] at replayed
            exact absurd replayed claimAndRun_not_replayed
          · obtain ⟨data, expiresAt⟩ := entry
            cases data with
            | inProgress =>
                simp only [expired, ↓reduceIte] at replayed
                cases replayed
            | completed code body =>
                simp only [expired, ↓reduceIte] at replayed
                cases replayed
                exact ⟨code, expiresAt, rfl⟩
  · split at replayed <;> cases replayed

/-- Every entry after a call was there before, or is the response of this call. -/
theorem entry_of_handled {other : String} {entry : IdempotencyEntry ρ}
    (stored : (handleIdempotentOperation idempotencyKey store operation statusCode userId
      times).2.memoryStore.get? other = some entry) :
    store.memoryStore.get? other = some entry ∨
    truthy idempotencyKey = true ∧
      other = IdempotencyStore.makeKey (idempotencyKey.getD "") userId ∧
      ∃ result expiresAt, operation = some result ∧
        entry = ⟨.completed statusCode result, expiresAt⟩ := by
  unfold handleIdempotentOperation at stored
  split at stored
  · next keyed =>
      have looked : ∀ entry, (store.get (idempotencyKey.getD "") userId
          times.asked).2.memoryStore.get? other = some entry →
          store.memoryStore.get? other = some entry := fun _ => get_memoryStore
      simp only at stored
      split at stored
      · next found =>
          rw [found] at looked
          exact .inl (looked entry stored)
      · next found =>
          rw [found] at looked
          exact .inl (looked entry stored)
      · next found =>
          rw [found] at looked
          rcases entry_of_claimAndRun stored with old | new
          · exact .inl (looked entry old)
          · exact .inr ⟨keyed, new⟩
  · split at stored <;> exact .inl stored

end Handling

/-- Every entry is the response to an earlier request that uses this entry. -/
def Attributed (history : List (Exchange μ ρ)) (store : IdempotencyStore (ApiRequest μ × ρ)) :
    Prop :=
  ∀ key entry, store.memoryStore.get? key = some entry →
    ∃ earlier ∈ history, truthy earlier.request.idempotencyKey = true ∧
      earlier.request.entryKey = key ∧ ∃ response expiresAt, earlier.outcome = some response ∧
        entry = ⟨.completed 200 (earlier.request, response), expiresAt⟩

private theorem attributed_storeAfter (history : List (Exchange μ ρ)) :
    Attributed history (Exchange.storeAfter history) := by
  induction history using List.reverseRecOn with
  | nil =>
      intro key entry stored
      cases stored
  | append_singleton history exchange ih =>
      intro key entry stored
      rw [Exchange.storeAfter_snoc] at stored
      rcases entry_of_handled stored with old | ⟨keyed, same, result, expiresAt, operation, new⟩
      · obtain ⟨earlier, member, facts⟩ := ih key entry old
        exact ⟨earlier, List.mem_append_left _ member, facts⟩
      · obtain ⟨response, outcome, rfl⟩ := Option.map_eq_some_iff.mp operation
        exact ⟨exchange, by simp, keyed, same.symm, response, expiresAt, outcome, new⟩

/-- A request answered from the store gets the response to an earlier request that is
the same as it. -/
def RepliesBelong (history : List (Exchange μ ρ)) : Prop :=
  ∀ leading exchange trailing, history = leading ++ exchange :: trailing →
    ∀ producer response, (exchange.respond (Exchange.storeAfter leading)).1 =
      .replayed (producer, response) →
      ∃ earlier ∈ leading, earlier.request = producer ∧ earlier.outcome = some response ∧
        producer.Same exchange.request

/-- Requests that use the same entry are the same. -/
def Unambiguous (requests : List (ApiRequest μ)) : Prop :=
  ∀ leading later trailing, requests = leading ++ later :: trailing → ∀ earlier ∈ leading,
    truthy earlier.idempotencyKey = true → truthy later.idempotencyKey = true →
    earlier.entryKey = later.entryKey → earlier.Same later

private theorem repliesBelong_of_unambiguous {history : List (Exchange μ ρ)}
    (unambiguous : Unambiguous (history.map Exchange.request)) : RepliesBelong history := by
  intro leading exchange trailing cut producer response replayed
  obtain ⟨keyed, statusCode, expiresAt, stored⟩ := stored_of_replayed replayed
  obtain ⟨earlier, member, earlierKeyed, sameEntry, given, expiry, outcome, entry⟩ :=
    attributed_storeAfter leading _ _ stored
  simp only [IdempotencyEntry.mk.injEq, IdempotencyData.completed.injEq, Prod.mk.injEq] at entry
  obtain ⟨⟨_, rfl, rfl⟩, _⟩ := entry
  refine ⟨earlier, member, rfl, outcome, ?_⟩
  refine unambiguous (leading.map Exchange.request) exchange.request
    (trailing.map Exchange.request) (by simp [cut]) earlier.request ?_ earlierKeyed keyed sameEntry
  exact List.mem_map_of_mem member

/-- The request uses the entry. -/
def ApiRequest.uses (key : String) (request : ApiRequest μ) : Bool :=
  truthy request.idempotencyKey && decide (request.entryKey = key)

section Instant

variable [Inhabited ρ]

/-- A request whose operation succeeds at once. -/
def instantly (request : ApiRequest μ) : Exchange μ ρ := ⟨request, some default, ⟨0, 0, 0⟩⟩

variable {store : IdempotencyStore (ApiRequest μ × ρ)} {request : ApiRequest μ}

private theorem respond_keyless (keyless : truthy request.idempotencyKey = false) :
    ((instantly request).respond store).2 = store := by
  simp [Exchange.respond, handleIdempotentOperation, instantly, keyless]

private theorem respond_stored (keyed : truthy request.idempotencyKey = true) {statusCode : Int}
    {responseBody : ApiRequest μ × ρ} (stored : store.memoryStore.get? request.entryKey =
      some ⟨.completed statusCode responseBody, 86400⟩) :
    (instantly request).respond store = (.replayed responseBody, store) := by
  have live : ¬ (86400 : ℚ) < 0 := by norm_num
  simp only [ApiRequest.entryKey] at stored
  simp [Exchange.respond, handleIdempotentOperation, instantly, keyed, IdempotencyStore.get,
    stored, live]

private theorem respond_absent (keyed : truthy request.idempotencyKey = true)
    (absent : store.memoryStore.get? request.entryKey = none) :
    ((instantly request).respond store).2 = { store with
      memoryStore := store.memoryStore.set request.entryKey
        ⟨.completed 200 (request, default), store.ttlSeconds⟩ } := by
  simp only [ApiRequest.entryKey] at absent
  simp [Exchange.respond, handleIdempotentOperation, claimAndRun, instantly, keyed,
    IdempotencyStore.get, IdempotencyStore.setInProgress, IdempotencyStore.claim,
    IdempotencyStore.setCompleted, absent, ApiRequest.entryKey, Dict.set_set]

/-- When all operations succeed at once, the first request that uses an entry fills it. -/
theorem storeAfter_instantly (requests : List (ApiRequest μ)) :
    let store : IdempotencyStore (ApiRequest μ × ρ) :=
      Exchange.storeAfter (requests.map instantly)
    store.ttlSeconds = 86400 ∧ ∀ key, store.memoryStore.get? key =
      (requests.find? (ApiRequest.uses key)).map fun producer =>
        ⟨.completed 200 (producer, default), 86400⟩ := by
  induction requests using List.reverseRecOn with
  | nil => exact ⟨rfl, fun _ => rfl⟩
  | append_singleton requests request ih =>
      simp only [List.map_append, List.map_cons, List.map_nil, Exchange.storeAfter_snoc,
        List.find?_append]
      obtain ⟨ttl, entries⟩ := ih
      cases keyed : truthy request.idempotencyKey with
      | false =>
          rw [respond_keyless keyed]
          refine ⟨ttl, ?_⟩
          intro key
          simp [entries, ApiRequest.uses, keyed]
      | true =>
          cases first : requests.find? (ApiRequest.uses request.entryKey) with
          | some producer =>
              have stored := entries request.entryKey
              rw [first, Option.map_some] at stored
              rw [respond_stored keyed stored]
              refine ⟨ttl, ?_⟩
              intro key
              by_cases same : request.entryKey = key
              · subst same
                rw [first, Option.some_or]
                exact stored
              · simp [entries, ApiRequest.uses, same]
          | none =>
              have absent := entries request.entryKey
              rw [first, Option.map_none] at absent
              rw [respond_absent keyed absent]
              refine ⟨ttl, ?_⟩
              intro key
              simp only [Dict.get?_set, ttl]
              by_cases same : request.entryKey = key
              · subst same
                simp [first, ApiRequest.uses, keyed]
              · simp [entries, ApiRequest.uses, same]

private theorem chronological_instantly (requests : List (ApiRequest μ)) :
    Exchange.Chronological (requests.map (instantly : ApiRequest μ → Exchange μ ρ)) := by
  apply List.pairwise_of_forall_mem_list
  intro first firstMember second secondMember
  simp only [instantly, List.flatMap_map, List.mem_flatMap, List.mem_cons, List.not_mem_nil,
    or_false, or_self] at firstMember secondMember
  obtain ⟨_, _, rfl⟩ := firstMember
  obtain ⟨_, _, rfl⟩ := secondMember
  exact le_refl 0

private theorem unambiguous_of_repliesBelong {requests : List (ApiRequest μ)}
    (belong : RepliesBelong (requests.map (instantly : ApiRequest μ → Exchange μ ρ))) :
    Unambiguous requests := by
  -- Whoever comes after the first request that uses an entry is answered from it.
  have follows : ∀ leading request trailing, requests = leading ++ request :: trailing →
      truthy request.idempotencyKey = true → ∀ producer,
      leading.find? (ApiRequest.uses request.entryKey) = some producer →
      producer.Same request := by
    intro leading request trailing cut keyed producer first
    have stored : (Exchange.storeAfter (leading.map (instantly : _ → Exchange μ ρ))).memoryStore.get?
        request.entryKey = _ := (storeAfter_instantly leading).2 request.entryKey
    rw [first, Option.map_some] at stored
    have replied := belong (leading.map instantly) (instantly request) (trailing.map instantly)
      (by simp [cut]) producer default (by rw [respond_stored keyed stored])
    obtain ⟨_, _, _, _, same⟩ := replied
    exact same
  intro leading later trailing cut earlier member earlierKeyed laterKeyed sameEntry
  obtain ⟨before, between, split⟩ := List.append_of_mem member
  have uses : ApiRequest.uses later.entryKey earlier = true := by
    simp [ApiRequest.uses, earlierKeyed, sameEntry]
  cases first : before.find? (ApiRequest.uses later.entryKey) with
  | some producer =>
      have afterProducer : producer.Same later :=
        follows leading later trailing cut laterKeyed producer (by simp [split, first])
      have alsoEarlier : producer.Same earlier :=
        follows before earlier (between ++ later :: trailing) (by simp [cut, split]) earlierKeyed
          producer (by rw [sameEntry, first])
      exact alsoEarlier.symm.trans afterProducer
  | none =>
      exact follows leading later trailing cut laterKeyed earlier (by simp [split, first, uses])

end Instant

/-- Replayed responses belong to the requests they answer, whatever the operations
give and whenever they run, iff requests that use the same entry are the same. -/
theorem repliesBelong_iff [Inhabited ρ] (requests : List (ApiRequest μ)) :
    (∀ history : List (Exchange μ ρ), history.map Exchange.request = requests →
      Exchange.Chronological history → RepliesBelong history) ↔ Unambiguous requests := by
  constructor
  · intro belong
    have prompt : RepliesBelong (requests.map (instantly : ApiRequest μ → Exchange μ ρ)) := by
      apply belong
      · simp [instantly, Function.comp_def]
      · exact chronological_instantly requests
    exact unambiguous_of_repliesBelong prompt
  · intro unambiguous history same _
    subst same
    exact repliesBelong_of_unambiguous unambiguous

/-- The payment of one member is answered with the checkout of another, because
user and key join to the same name. -/
theorem checkout_replayed_as_payment :
    ∃ history : List (Exchange Unit Nat), Exchange.Chronological history ∧
      ¬ RepliesBelong history := by
  let checkout : ApiRequest Unit :=
    ⟨some "B:K1", some "L1", .issuePhysicalCopy { copyId := "C1", userId := "A" }⟩
  let payment : ApiRequest Unit :=
    ⟨some "K1", some "A:B", .payFine { userId := "A:B", amount := 50, paymentMetadata := () }⟩
  refine ⟨[instantly checkout, instantly payment], chronological_instantly [checkout, payment], ?_⟩
  intro belong
  have replayed : ((instantly payment).respond (Exchange.storeAfter [instantly checkout])).1 =
      .replayed (checkout, (default : Nat)) := by
    decide +kernel
  obtain ⟨_, _, _, _, same⟩ := belong [instantly checkout] (instantly payment) [] rfl checkout _
    replayed
  cases same.body

end LibraFlow.Api
