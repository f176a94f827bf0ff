import LibraFlow.Postgres.Locking

/-! The phases a request goes through. Every step of a request in progress leads to a
phase with fewer steps left, whatever the other requests did in between. -/

set_option autoImplicit false

namespace LibraFlow.Postgres

open LibraFlow.Core LibraFlow.Library LibraFlow.Storage LibraFlow.Patterns LibraFlow.Container
  LibraFlow.Services

/-- A request that has begun and has not ended. -/
def Phase.inProgress : Phase → Bool
  | .idle | .done _ | .failed _ => false
  | _ => true

def Next.stepsLeft : Next → Nat
  | .commit _ => 1
  | .invalidate .. => 2
  | .offer .. => 5
  | .returnBook _ => 7

/-- A bound on the steps of a request from a phase on. -/
def Phase.stepsLeft : Phase → Nat
  | .idle | .done _ | .failed _ => 0
  | .locked _ => 9
  | .writing _ _ todo next => todo.length + next.stepsLeft
  | .projected .. => 2
  | .paying _ => 3
  | .processing _ => 2
  | .storingUser .. => 1
  | .planning rest => 3 * rest.length + 1
  | .departing _ _ rest => 3 * rest.length + 3
  | .storingCopy _ _ rest => 3 * rest.length + 2
  | .arriving _ => 3
  | .stocking _ loaded => loaded.length + 4
  | .merging _ _ todo => todo.length + 2
  | .stocked _ => 1
  | .missed => 2
  | .computed _ => 1

/-- The phases a request of a given kind can be in. -/
def Phase.Suits (request : Request) : Phase → Prop
  | .projected .. => ∃ userId isbn overdueDays, request = .charge userId isbn overdueDays
  | .paying _ | .processing _ => ∃ userId amount paymentMethod metadata transactionId,
      request = .pay userId amount paymentMethod metadata transactionId
  | .planning rest | .storingCopy _ _ rest => rest = [] ∨ ∃ plan, request = .rebalance plan
  | .departing _ _ rest => (∃ plan, request = .rebalance plan) ∨
      rest = [] ∧ ∃ copyId destBranchId requestedBy transferId,
        request = .transfer copyId destBranchId requestedBy transferId
  | .arriving _ => ∃ transferId, request = .complete transferId
  | .missed | .computed _ => ∃ isbn, request = .details isbn
  | _ => True

/-- The phase that a step of a request leads to, from the copies it finds. -/
inductive Follows (request : Request) (copies : Table BookCopy.copyId) : Phase → Phase → Prop where
  | failed {phase : Phase} {error : Option Error}
      (unfinished : phase = .idle ∨ phase.inProgress = true) :
      Follows request copies phase (.failed error)
  | done {phase : Phase} {receipt : Receipt}
      (unfinished : phase = .idle ∨ phase.inProgress = true) :
      Follows request copies phase (.done receipt)
  | locked {row : BookCopy} : Follows request copies .idle (.locked row)
  | began {row : BookCopy} {todo : List Write} {next : Next}
      (short : todo.length + next.stepsLeft ≤ 8) :
      Follows request copies (.locked row) (.writing row [] todo next)
  | wrote {row : BookCopy} {written todo : List Write} {next : Next} {first : Write} :
      Follows request copies (.writing row written (first :: todo) next)
        (.writing row (written ++ [first]) todo next)
  | resumed {row : BookCopy} {written todo : List Write} {next following : Next}
      (shorter : todo.length + following.stepsLeft < next.stepsLeft) :
      Follows request copies (.writing row written [] next) (.writing row written todo following)
  | projected {userId isbn : String} {overdueDays : Int} {waiting : Nat} {fine : ℚ}
      (asked : request = .charge userId isbn overdueDays) :
      Follows request copies .idle (.projected waiting fine)
  | charging {waiting : Nat} {fine : ℚ} {model row : User} {receipt : Receipt} :
      Follows request copies (.projected waiting fine) (.storingUser model row receipt)
  | paying {userId paymentMethod transactionId : String} {amount : ℚ} {metadata : PaymentMetadata}
      {model : User} (asked : request = .pay userId amount paymentMethod metadata transactionId) :
      Follows request copies .idle (.paying model)
  | processing {model : User} : Follows request copies (.paying model) (.processing model)
  | paid {model row loaded : User} {receipt : Receipt} :
      Follows request copies (.processing loaded) (.storingUser model row receipt)
  | transferring {copyId destBranchId requestedBy transferId : String} {copy : BookCopy}
      {item : PlanItem}
      (asked : request = .transfer copyId destBranchId requestedBy transferId)
      (found : copies.get? copy.copyId = some copy) :
      Follows request copies .idle (.departing copy item [])
  | rebalancing {plan : List PlanItem} (asked : request = .rebalance plan) :
      Follows request copies .idle (.planning plan)
  | skipped {item : PlanItem} {rest : List PlanItem} :
      Follows request copies (.planning (item :: rest)) (.planning rest)
  | departing {item : PlanItem} {rest : List PlanItem} {copy : BookCopy}
      (found : copies.get? copy.copyId = some copy) :
      Follows request copies (.planning (item :: rest)) (.departing copy item rest)
  | departed {copy row : BookCopy} {item : PlanItem} {rest : List PlanItem}
      (same : BookCopy.SameCopy copy row) :
      Follows request copies (.departing copy item rest) (.storingCopy copy row rest)
  | completing {transferId : String} {copy : BookCopy} (asked : request = .complete transferId)
      (found : copies.get? copy.copyId = some copy) :
      Follows request copies .idle (.arriving copy)
  | arrived {copy row : BookCopy} (same : BookCopy.SameCopy copy row) :
      Follows request copies (.arriving copy) (.storingCopy copy row [])
  | storedCopy {copy row : BookCopy} {rest : List PlanItem} :
      Follows request copies (.storingCopy copy row rest) (.planning rest)
  | stocking {copy : BookCopy} :
      Follows request copies .idle
        (.stocking copy (copies.rows.values.filter fun row => row.bookIsbn = copy.bookIsbn))
  | storedNew {copy : BookCopy} {loaded : List BookCopy} :
      Follows request copies (.stocking copy loaded) (.merging copy []
        ((Dict.store copy.copyId copy (loaded.map fun row => (row.copyId, row))).map Prod.snd))
  | merged {copy first : BookCopy} {written todo : List BookCopy} :
      Follows request copies (.merging copy written (first :: todo))
        (.merging copy (written ++ [first]) todo)
  | stocked {copy : BookCopy} {written : List BookCopy} :
      Follows request copies (.merging copy written []) (.stocked copy)
  | missed {isbn : String} (asked : request = .details isbn) :
      Follows request copies .idle .missed
  | computed {details : Book.Details} : Follows request copies .missed (.computed details)

private theorem length_store_le {κ ν : Type} [DecidableEq κ] (key : κ) (value : ν)
    (entries : List (κ × ν)) : (Dict.store key value entries).length ≤ entries.length + 1 := by
  induction entries with
  | nil => exact Nat.le_refl 1
  | cons entry rest ih =>
      rw [Dict.store]
      split
      · exact Nat.le_succ _
      · exact Nat.succ_le_succ ih

section Follows

variable {request : Request} {copies : Table BookCopy.copyId} {phase following : Phase}

/-- A step of a request in progress leaves it fewer steps. -/
theorem Follows.stepsLeft_lt (follows : Follows request copies phase following)
    (begun : phase.inProgress = true) : following.stepsLeft < phase.stepsLeft := by
  have some_left : ∀ {phase : Phase}, phase.inProgress = true → 0 < phase.stepsLeft := by
    intro phase begun
    cases phase with
    | idle | done | failed => cases begun
    | writing row written todo next => cases next <;> exact Nat.add_pos_right _ (Nat.succ_pos _)
    | locked | projected | paying | processing | storingUser | planning | departing | arriving
    | storingCopy | stocking | merging | stocked | missed | computed => exact Nat.succ_pos _
  cases follows with
  | failed => exact some_left begun
  | done => exact some_left begun
  | locked | projected | paying | transferring | rebalancing | completing | stocking | missed =>
      cases begun
  | began short => exact Nat.lt_succ_of_le short
  | wrote =>
      simp only [Phase.stepsLeft, List.length_cons]
      omega
  | resumed shorter => simpa [Phase.stepsLeft] using shorter
  | storedNew =>
      rename_i copy loaded
      have bound := length_store_le copy.copyId copy (loaded.map fun row => (row.copyId, row))
      simp only [Phase.stepsLeft, List.length_map] at bound ⊢
      omega
  | charging | processing | paid | computed | arrived | departed | storedCopy | stocked =>
      simp [Phase.stepsLeft]
  | skipped | departing | merged =>
      simp only [Phase.stepsLeft, List.length_cons]
      omega

theorem Follows.suits (follows : Follows request copies phase following)
    (suits : phase.Suits request) : following.Suits request := by
  cases follows with
  | failed | done | locked | began | wrote | resumed | charging | paid | stocking | storedNew
  | merged | stocked => trivial
  | projected asked => exact ⟨_, _, _, asked⟩
  | paying asked => exact ⟨_, _, _, _, _, asked⟩
  | processing => exact suits
  | transferring asked => exact .inr ⟨rfl, _, _, _, _, asked⟩
  | rebalancing asked => exact .inr ⟨_, asked⟩
  | skipped => exact .inr (suits.resolve_left (List.cons_ne_nil _ _))
  | departing => exact .inl (suits.resolve_left (List.cons_ne_nil _ _))
  | departed => exact suits.elim .inr fun alone => .inl alone.1
  | completing asked => exact ⟨_, asked⟩
  | arrived => exact .inl rfl
  | storedCopy => exact suits
  | missed asked => exact ⟨_, asked⟩
  | computed => exact suits

end Follows

section Inversion

variable {ticket : Ticket} {before after : System} {id : Nat}

/-- The phase of the request that moves. -/
def FollowsTo (ticket : Ticket) (before : System) (id : Nat) (after : System) : Prop :=
  Follows ticket.request before.tables.copies (before.phases id) (after.phases id)

private theorem followsTo_of_update {phase : Phase}
    (entered : after.phases = Function.update before.phases
      id phase) (follows : Follows ticket.request before.tables.copies (before.phases id) phase) :
    FollowsTo ticket before id after := by
  rw [FollowsTo, entered, Function.update_self]
  exact follows

private theorem failed_follows {error : Option Error}
    (unfinished : before.phases id = .idle ∨ (before.phases id).inProgress = true)
    (entered : after.phases = Function.update before.phases id (.failed error)) :
    FollowsTo ticket before id after :=
  followsTo_of_update entered (.failed unfinished)

private theorem done_follows {receipt : Receipt}
    (unfinished : before.phases id = .idle ∨ (before.phases id).inProgress = true)
    (entered : after.phases = Function.update before.phases id (.done receipt)) :
    FollowsTo ticket before id after :=
  followsTo_of_update entered (.done unfinished)

private theorem lockCopy_follows {copyId : String} (phase : before.phases id = .idle)
    (ran : before.lockCopy id copyId = some after) : FollowsTo ticket before id after := by
  unfold System.lockCopy at ran
  split at ran
  · cases ran
  · split at ran
    · cases ran
      exact failed_follows (.inl phase) rfl
    · cases ran
      exact followsTo_of_update rfl (phase ▸ .locked)

private theorem checkOut_follows {request : IssueRequest} {row : BookCopy}
    (phase : before.phases id = .locked row)
    (ran : before.checkOut id request ticket.now row = some after) :
    FollowsTo ticket before id after := by
  have unfinished : before.phases id = .idle ∨ (before.phases id).inProgress = true := by
    simp [phase, Phase.inProgress]
  unfold System.checkOut at ran
  split at ran
  · cases ran
  · split at ran
    · cases ran
      exact failed_follows unfinished rfl
    · split at ran
      · cases ran
        exact failed_follows unfinished rfl
      · next checked =>
          cases ran
          obtain ⟨_, _, _, _, _, rfl⟩ := issueWrites_ok checked
          exact followsTo_of_update rfl (phase ▸ .began (by simp [Next.stepsLeft]))

private theorem beginReturn_follows {request : ReturnRequest} {row : BookCopy}
    (phase : before.phases id = .locked row) :
    FollowsTo ticket before id (before.beginReturn id request ticket.now row) := by
  unfold System.beginReturn
  split
  · refine followsTo_of_update rfl (phase ▸ .began ?_)
    cases before.tables.users.get? (row.currentBorrowerId.getD "") with
    | none => simp [closingWrites, Next.stepsLeft]
    | some model => simp [closingWrites, Next.stepsLeft]
  · exact failed_follows (by simp [phase, Phase.inProgress]) rfl

private theorem write_follows {row : BookCopy} {written todo : List Write} {next : Next}
    {first : Write} (phase : before.phases id = .writing row written (first :: todo) next)
    (ran : before.write id row written todo next first = some after) :
    FollowsTo ticket before id after := by
  have follows : Follows ticket.request before.tables.copies (before.phases id)
      (.writing row (written ++ [first]) todo next) := phase ▸ .wrote
  cases first with
  | copy updated =>
      simp only [System.write, Option.map_eq_some_iff] at ran
      obtain ⟨_, _, rfl⟩ := ran
      exact followsTo_of_update rfl follows
  | user model updated =>
      simp only [System.write, Option.map_eq_some_iff] at ran
      obtain ⟨_, _, rfl⟩ := ran
      exact followsTo_of_update rfl follows
  | record | event =>
      cases ran
      exact followsTo_of_update rfl follows

private theorem offer_follows {request : ReturnRequest} {row returned : BookCopy}
    {written : List Write} {borrowerId : String}
    (phase : before.phases id = .writing row written [] (.offer borrowerId returned)) :
    FollowsTo ticket before id
      (before.offer id ticket request row written borrowerId returned) := by
  have unfinished : before.phases id = .idle ∨ (before.phases id).inProgress = true := by
    simp [phase, Phase.inProgress]
  unfold System.offer
  rcases (before.processes ticket.process).reservationMgr.handleCopyReturned returned.bookIsbn
    request.copyId ticket.now with ⟨result, manager⟩
  cases result with
  | error error => exact failed_follows unfinished rfl
  | ok assigned =>
      cases assigned with
      | none => exact followsTo_of_update rfl (phase ▸ .resumed (by simp [Next.stepsLeft]))
      | some entry =>
          cases accepted : returned.reserve entry.userId with
          | error detail =>
              simp only [accepted]
              exact failed_follows unfinished rfl
          | ok held =>
              simp only [accepted]
              exact followsTo_of_update rfl (phase ▸ .resumed (by simp [Next.stepsLeft]))

private theorem resume_follows {row : BookCopy} {written : List Write} {next : Next}
    (phase : before.phases id = .writing row written [] next)
    (ran : before.resume id ticket row written next = some after) :
    FollowsTo ticket before id after := by
  have unfinished : before.phases id = .idle ∨ (before.phases id).inProgress = true := by
    simp [phase, Phase.inProgress]
  cases next with
  | returnBook borrowerId =>
      rw [System.resume] at ran
      split at ran
      · cases ran
        exact failed_follows unfinished rfl
      · cases ran
        exact followsTo_of_update rfl (phase ▸ .resumed (by simp [Next.stepsLeft]))
  | offer borrowerId returned =>
      rw [System.resume] at ran
      split at ran
      · cases ran
        exact offer_follows phase
      · cases ran
  | invalidate isbn receipt =>
      cases ran
      exact followsTo_of_update rfl (phase ▸ .resumed (by simp [Next.stepsLeft]))
  | commit receipt =>
      cases ran
      exact done_follows unfinished rfl

/-- Loading a user fails or goes on with the row. -/
theorem loadUser_follows {userId : String} {next : User → Phase}
    (unfinished : before.phases id = .idle ∨ (before.phases id).inProgress = true)
    (follows : ∀ model, Follows ticket.request before.tables.copies (before.phases id)
      (next model)) : FollowsTo ticket before id (before.loadUser id userId next) := by
  unfold System.loadUser
  split
  · exact failed_follows unfinished rfl
  · next model _ => exact followsTo_of_update rfl (follows model)

private theorem chooseStrategy_follows {paymentMethod : String} {model : User}
    (phase : before.phases id = .paying model) :
    FollowsTo ticket before id (before.chooseStrategy id ticket paymentMethod model) := by
  unfold System.chooseStrategy
  split
  · exact failed_follows (by simp [phase, Phase.inProgress]) rfl
  · exact followsTo_of_update rfl (phase ▸ .processing)

private theorem processPayment_follows {userId transactionId : String} {amount : ℚ}
    {metadata : PaymentMetadata} {model : User} (phase : before.phases id = .processing model) :
    FollowsTo ticket before id
      (before.processPayment id ticket userId amount metadata transactionId model) := by
  have unfinished : before.phases id = .idle ∨ (before.phases id).inProgress = true := by
    simp [phase, Phase.inProgress]
  unfold System.processPayment
  split
  · exact failed_follows unfinished rfl
  · split
    · exact followsTo_of_update rfl (phase ▸ .paid)
    · exact done_follows unfinished rfl

private theorem beginTransfer_follows {copyId destBranchId requestedBy transferId : String}
    (phase : before.phases id = .idle)
    (asked : ticket.request = .transfer copyId destBranchId requestedBy transferId) :
    FollowsTo ticket before id
      (before.beginTransfer id ticket copyId destBranchId transferId) := by
  unfold System.beginTransfer
  split
  · exact failed_follows (.inl phase) rfl
  · split
    · exact failed_follows (.inl phase) rfl
    · next copy found =>
        have named : copy.copyId = copyId := Table.key_of_get? found
        exact followsTo_of_update rfl (phase ▸ .transferring asked (named.symm ▸ found))

private theorem nextItem_follows {rest : List PlanItem}
    (phase : before.phases id = .planning rest) :
    FollowsTo ticket before id (before.nextItem id rest) := by
  cases rest with
  | nil => exact done_follows (by simp [phase, Phase.inProgress]) rfl
  | cons item rest =>
      rw [System.nextItem]
      split
      · exact followsTo_of_update rfl (phase ▸ .skipped)
      · next copy found =>
          have named : copy.copyId = item.copyId := Table.key_of_get? found
          split
          · exact followsTo_of_update rfl (phase ▸ .skipped)
          · exact followsTo_of_update rfl (phase ▸ .departing (named.symm ▸ found))

private theorem depart_follows {requestedBy : String} {copy : BookCopy} {item : PlanItem}
    {rest : List PlanItem} (phase : before.phases id = .departing copy item rest) :
    FollowsTo ticket before id (before.depart id ticket requestedBy copy item rest) := by
  unfold System.depart
  split
  · exact failed_follows (by simp [phase, Phase.inProgress]) rfl
  · next moved _ _ accepted =>
      exact followsTo_of_update rfl
        (phase ▸ .departed (requestTransfer_lifecycle accepted).1.sameCopy)

private theorem beginArrival_follows {transferId : String} (phase : before.phases id = .idle)
    (asked : ticket.request = .complete transferId) :
    FollowsTo ticket before id (before.beginArrival id ticket transferId) := by
  unfold System.beginArrival
  split
  · exact done_follows (.inl phase) rfl
  · next transfer _ =>
      split
      · exact done_follows (.inl phase) rfl
      · next copy found =>
          have named : copy.copyId = transfer.copyId := Table.key_of_get? found
          exact followsTo_of_update rfl (phase ▸ .completing asked (named.symm ▸ found))

private theorem arrive_follows {transferId : String} {copy : BookCopy}
    (phase : before.phases id = .arriving copy) :
    FollowsTo ticket before id (before.arrive id ticket transferId copy) := by
  unfold System.arrive
  split
  · exact failed_follows (by simp [phase, Phase.inProgress]) rfl
  · next accepted =>
      exact followsTo_of_update rfl
        (phase ▸ .arrived (completeTransfer_lifecycle accepted).1.sameCopy)

private theorem beginStocking_follows {copy : BookCopy} (phase : before.phases id = .idle) :
    FollowsTo ticket before id (before.beginStocking id copy.bookIsbn copy) := by
  unfold System.beginStocking
  split
  · exact failed_follows (.inl phase) rfl
  · exact followsTo_of_update rfl (phase ▸ .stocking)

private theorem begin_follows (phase : before.phases id = .idle)
    (ran : before.begin id ticket = some after) : FollowsTo ticket before id after := by
  unfold System.begin at ran
  cases asked : ticket.request with
  | issue request | giveBack request =>
      simp only [asked] at ran
      exact lockCopy_follows phase ran
  | charge userId isbn overdueDays =>
      simp only [asked, Option.some.injEq] at ran
      subst after
      exact followsTo_of_update rfl (phase ▸ .projected asked)
  | pay userId amount paymentMethod metadata transactionId =>
      simp only [asked, Option.some.injEq] at ran
      subst after
      exact loadUser_follows (.inl phase) fun model => phase ▸ .paying asked
  | transfer copyId destBranchId requestedBy transferId =>
      simp only [asked, Option.some.injEq] at ran
      subst after
      exact beginTransfer_follows phase asked
  | rebalance plan =>
      simp only [asked, Option.some.injEq] at ran
      subst after
      exact followsTo_of_update rfl (phase ▸ .rebalancing asked)
  | complete transferId =>
      simp only [asked, Option.some.injEq] at ran
      subst after
      exact beginArrival_follows phase asked
  | reserve isbn userId reservationId =>
      simp only [asked, Option.some.injEq] at ran
      subst after
      exact done_follows (.inl phase) rfl
  | addCopy isbn copyId branchId shelfLocation price =>
      simp only [asked, Option.some.injEq] at ran
      subst after
      exact @beginStocking_follows ticket before id (.new copyId isbn branchId shelfLocation price)
        phase
  | details isbn =>
      simp only [asked, Option.some.injEq] at ran
      subst after
      unfold System.lookUp
      split
      · exact done_follows (.inl phase) rfl
      · exact followsTo_of_update rfl (phase ▸ .missed asked)

private theorem advance_follows (ran : before.advance id ticket = some after) :
    FollowsTo ticket before id after := by
  unfold System.advance at ran
  split at ran
  · next phase => exact begin_follows phase ran
  · next phase _ => exact checkOut_follows phase ran
  · next phase _ =>
      cases ran
      exact beginReturn_follows phase
  · next phase => exact write_follows phase ran
  · next phase => exact resume_follows phase ran
  · next phase _ =>
      cases ran
      exact loadUser_follows (by simp [phase, Phase.inProgress]) fun model => phase ▸ .charging
  · next phase _ =>
      cases ran
      exact chooseStrategy_follows phase
  · next phase _ =>
      cases ran
      exact processPayment_follows phase
  · next phase =>
      unfold System.storeUser at ran
      split at ran
      · cases ran
      · cases ran
        exact done_follows (by simp [phase, Phase.inProgress]) rfl
  · next phase =>
      cases ran
      exact nextItem_follows phase
  · next phase _ =>
      cases ran
      exact depart_follows phase
  · next phase _ =>
      cases ran
      exact depart_follows phase
  · next phase _ =>
      cases ran
      exact arrive_follows phase
  · next phase =>
      unfold System.storeCopy at ran
      split at ran
      · cases ran
      · cases ran
        exact followsTo_of_update rfl (phase ▸ .storedCopy)
  · next phase =>
      unfold System.storeNew at ran
      split at ran
      · cases ran
      · cases ran
        exact followsTo_of_update rfl (phase ▸ .storedNew)
  · next phase =>
      simp only [System.mergeCopy, Option.map_eq_some_iff] at ran
      obtain ⟨_, _, rfl⟩ := ran
      exact followsTo_of_update rfl (phase ▸ .merged)
  · next phase =>
      cases ran
      exact followsTo_of_update rfl (phase ▸ .stocked)
  · next phase =>
      cases ran
      exact done_follows (by simp [phase, Phase.inProgress]) rfl
  · next phase _ =>
      cases ran
      unfold System.readDetails
      split
      · exact followsTo_of_update rfl (phase ▸ .computed)
      · exact done_follows (by simp [phase, Phase.inProgress]) rfl
  · next phase _ =>
      cases ran
      exact done_follows (by simp [phase, Phase.inProgress]) rfl
  · cases ran

private theorem fail_follows (ran : before.fail id = some after) :
    FollowsTo ticket before id after := by
  unfold System.fail at ran
  split at ran
  · cases ran
  · cases ran
  · cases ran
  · next unstarted unfinished unfailed =>
      cases ran
      refine failed_follows (.inr ?_) rfl
      cases phase : before.phases id with
      | idle => exact absurd phase unstarted
      | done receipt => exact absurd phase (unfinished receipt)
      | failed error => exact absurd phase (unfailed error)
      | locked | writing | projected | paying | processing | storingUser | planning | departing
      | arriving | storingCopy | stocking | merging | stocked | missed | computed => rfl

end Inversion

/-- A step moves one request on, or drops cached details. -/
theorem Step.follows {tickets : Nat → Ticket} {before after : System} {action : Action}
    (taken : Step tickets before action after) :
    (∃ id, action.id? = some id ∧ FollowsTo (tickets id) before id after ∧
        Moves (tickets id) before id after) ∨
      ∃ isbn, action = .expire isbn ∧ after = before.invalidate isbn := by
  cases action with
  | advance id => exact .inl ⟨id, rfl, advance_follows taken, advance_moves taken⟩
  | fail id => exact .inl ⟨id, rfl, fail_follows taken, fail_moves taken⟩
  | expire isbn =>
      cases taken
      exact .inr ⟨isbn, rfl, rfl⟩

end LibraFlow.Postgres
