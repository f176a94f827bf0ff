import LibraFlow.Core.BookProperties
import LibraFlow.Postgres.System

/-! What one step of a request can do, said once. Most steps touch only the
request and its process; the others take locks, write in a transaction, commit
it, or store a row in a session of their own. -/

set_option autoImplicit false

namespace LibraFlow.Postgres

open LibraFlow.Core LibraFlow.Library LibraFlow.Storage LibraFlow.Patterns LibraFlow.Container
  LibraFlow.Services

/-- The copy whose row a locked section locks. -/
def Request.lockedCopy? : Request → Option String
  | .issue request => some request.copyId
  | .giveBack request => some request.copyId
  | _ => none

/-- Requests that put copies on the way between branches, or receive them. -/
def Request.movesCopies : Request → Bool
  | .transfer .. | .rebalance _ | .complete _ => true
  | _ => false

/-- The copy a request adds to a title. -/
def Request.stocks? : Request → Option String
  | .addCopy _ copyId _ _ _ => some copyId
  | _ => none

/-- The user whose row a successful request has changed. -/
def Request.touched : Request → Receipt → Option String
  | .issue request, .issued _ => some request.userId
  | .giveBack _, .returned receipt => some receipt.previousBorrower
  | .charge userId _ _, .charged _ _ => some userId
  | .pay userId .., .paid receipt => if receipt.appliedToFine.isSome then some userId else none
  | _, _ => none

/-- How billing computes the row it stores from the row it read. -/
inductive Bills (model : User) : Request → User → Receipt → Prop where
  | charge {userId isbn : String} {overdueDays : Int} {waiting : Nat} {fine : ℚ}
      (named : model.userId = userId) :
      Bills model (.charge userId isbn overdueDays) ((modelToUser model).addFine fine)
        (.charged waiting ⟨userId, fine, ((modelToUser model).addFine fine).unpaidFinesBalance⟩)
  | pay {userId paymentMethod transactionId : String} {amount : ℚ} {metadata : PaymentMetadata}
      {result : PaymentResult} (named : model.userId = userId) :
      Bills model (.pay userId amount paymentMethod metadata transactionId)
        ((modelToUser model).payFine amount)
        (.paid ⟨result, some ((modelToUser model).applied amount),
          some ((modelToUser model).payFine amount).unpaidFinesBalance⟩)

/-- A phase outside locked sections, as a request can enter it. -/
def Prepared (request : Request) : Phase → Prop
  | .locked _ | .writing .. | .merging .. => False
  | .storingUser model row receipt => Bills model request row receipt
  | .storingCopy copy row _ => copy.Lifecycle row ∧ copy.status ≠ .issued ∧
      request.movesCopies = true
  | .stocking copy _ => request.stocks? = some copy.copyId
  | .paying model | .processing model => ∀ userId amount paymentMethod metadata transactionId,
      request = .pay userId amount paymentMethod metadata transactionId → model.userId = userId
  | _ => True

/-- A request outside locked sections that has not ended. -/
def Phase.Outside : Phase → Prop
  | .locked _ | .writing .. | .merging .. | .done _ => False
  | _ => True

/-- A phase that neither ends a request nor holds details to be cached. -/
def Phase.Ongoing (phase : Phase) : Prop :=
  (∀ receipt, phase ≠ .done receipt) ∧ ∀ details, phase ≠ .computed details

/-- Writes that add a row and need no lock. -/
def Write.inserts : Write → Bool
  | .record _ | .event _ => true
  | .copy _ | .user _ _ => false

/-- How a returned copy is held for the reservation it was assigned to, if any:
the row that results, and the writes this takes. -/
inductive Held (returned : BookCopy) :
    Option ReservationEntry → BookCopy → List Write → Prop where
  | shelved : Held returned none returned []
  | reserved {held : BookCopy} (entry : ReservationEntry)
      (accepted : returned.reserve entry.userId = .ok held) :
      Held returned (some entry) held [.copy held]

inductive Moves (ticket : Ticket) (before : System) (id : Nat) : System → Prop where
  | lockedCopy {copyId : String} {row : BookCopy} {copyLocks : Locks String}
      (phase : before.phases id = .idle)
      (asked : ticket.request.lockedCopy? = some copyId)
      (acquired : before.copyLocks.acquire? id copyId = some copyLocks)
      (found : before.tables.copies.get? copyId = some row) :
      Moves ticket before id { before.enter id (.locked row) with copyLocks := copyLocks }
  | checkedOut {request : IssueRequest} {row : BookCopy} {model : User}
      {record : CirculationRecord} {writes : List Write} {userLocks : Locks String}
      (phase : before.phases id = .locked row) (asked : ticket.request = .issue request)
      (acquired : before.userLocks.acquire? id request.userId = some userLocks)
      (found : before.tables.users.get? request.userId = some model)
      (checked : issueWrites request ticket.now model row = .ok (record, writes)) :
      Moves ticket before id
        { before.enter id (.writing row [] writes (.invalidate record.isbn (.issued record))) with
          userLocks := userLocks }
  | beganReturn {request : ReturnRequest} {row : BookCopy} {borrowerId : String}
      (phase : before.phases id = .locked row) (asked : ticket.request = .giveBack request)
      (borrower : row.currentBorrowerId = some borrowerId) :
      Moves ticket before id (before.enter id (.writing row []
        (closingWrites request ticket.now (before.tables.users.get? borrowerId))
        (.returnBook borrowerId)))
  | inserted {row : BookCopy} {written todo : List Write} {next : Next} {first : Write}
      (phase : before.phases id = .writing row written (first :: todo) next)
      (inserts : first.inserts = true) :
      Moves ticket before id (before.enter id (.writing row (written ++ [first]) todo next))
  | updatedCopy {row updated : BookCopy} {written todo : List Write} {next : Next}
      {copyLocks : Locks String}
      (phase : before.phases id = .writing row written (.copy updated :: todo) next)
      (acquired : before.copyLocks.acquire? id updated.copyId = some copyLocks) :
      Moves ticket before id
        { before.enter id (.writing row (written ++ [.copy updated]) todo next) with
          copyLocks := copyLocks }
  | updatedUser {row : BookCopy} {model updated : User} {written todo : List Write} {next : Next}
      {userLocks : Locks String}
      (phase : before.phases id = .writing row written (.user model updated :: todo) next)
      (acquired : before.userLocks.acquire? id updated.userId = some userLocks) :
      Moves ticket before id
        { before.enter id (.writing row (written ++ [.user model updated]) todo next) with
          userLocks := userLocks }
  | returned {row returned : BookCopy} {written : List Write} {borrowerId : String}
      (phase : before.phases id = .writing row written [] (.returnBook borrowerId))
      (gaveBack : row.returnBook = .ok returned) :
      Moves ticket before id (before.enter id
        (.writing row written [.copy returned] (.offer borrowerId returned)))
  | offered {request : ReturnRequest} {row returned final : BookCopy} {written holds : List Write}
      {borrowerId : String} {assigned : Option ReservationEntry} {processes : Nat → Process}
      (phase : before.phases id = .writing row written [] (.offer borrowerId returned))
      (asked : ticket.request = .giveBack request) (held : Held returned assigned final holds) :
      Moves ticket before id ({ before with processes := processes }.enter id
        (.writing row written
          (holds ++ [Write.event (returnEvent request ticket.now borrowerId final assigned)])
          (.invalidate final.bookIsbn (returnReceipt request borrowerId final assigned))))
  | invalidated {row : BookCopy} {written : List Write} {isbn : String} {receipt : Receipt}
      (phase : before.phases id = .writing row written [] (.invalidate isbn receipt)) :
      Moves ticket before id
        ((before.invalidate isbn).enter id (.writing row written [] (.commit receipt)))
  | committed {row : BookCopy} {written : List Write} {receipt : Receipt}
      (phase : before.phases id = .writing row written [] (.commit receipt)) :
      Moves ticket before id
        { before.close id (.done receipt) with tables := before.tables.commit written }
  | aborted {error : Option Error} {processes : Nat → Process}
      (unfinished : ∀ receipt, before.phases id ≠ .done receipt) :
      Moves ticket before id ({ before with processes := processes }.close id (.failed error))
  | storedUser {model row : User} {receipt : Receipt}
      (phase : before.phases id = .storingUser model row receipt)
      (free : before.userLocks row.userId = none) :
      Moves ticket before id { before.enter id (.done receipt) with
        tables := { before.tables with users := before.tables.users.merge row } }
  | storedCopy {copy row : BookCopy} {rest : List PlanItem}
      (phase : before.phases id = .storingCopy copy row rest)
      (free : before.copyLocks row.copyId = none) :
      Moves ticket before id { before.enter id (.planning rest) with
        tables := { before.tables with copies := before.tables.copies.merge row } }
  | storedNew {copy : BookCopy} {loaded : List BookCopy}
      (phase : before.phases id = .stocking copy loaded)
      (free : before.copyLocks copy.copyId = none) :
      Moves ticket before id { before.enter id (.merging copy []
          ((Dict.store copy.copyId copy (loaded.map fun row => (row.copyId, row))).map
            Prod.snd)) with
        tables := { before.tables with copies := before.tables.copies.merge copy } }
  | mergedCopy {copy first : BookCopy} {written todo : List BookCopy} {copyLocks : Locks String}
      (phase : before.phases id = .merging copy written (first :: todo))
      (acquired : before.copyLocks.acquire? id first.copyId = some copyLocks) :
      Moves ticket before id { before.enter id (.merging copy (written ++ [first]) todo) with
        copyLocks := copyLocks }
  | committedTitle {copy : BookCopy} {written : List BookCopy}
      (phase : before.phases id = .merging copy written []) :
      Moves ticket before id (before.commitTitle id copy written)
  | cleared {copy : BookCopy} (phase : before.phases id = .stocked copy) :
      Moves ticket before id
        ((before.invalidate copy.bookIsbn).enter id (.done (.stocked copy)))
  | readDetails {isbn : String} {details : Book.Details} (phase : before.phases id = .missed)
      (asked : ticket.request = .details isbn) (found : before.tables.details isbn = some details) :
      Moves ticket before id (before.enter id (.computed details))
  | storedDetails {isbn : String} {details : Book.Details}
      (phase : before.phases id = .computed details) (asked : ticket.request = .details isbn) :
      Moves ticket before id (before.storeDetails id isbn details)
  | proceeded {phase : Phase} {processes : Nat → Process} (outside : (before.phases id).Outside)
      (prepared : Prepared ticket.request (before.phases id) → Prepared ticket.request phase)
      (quiet : ∀ receipt, phase = .done receipt → ticket.request.touched receipt = none)
      (uncomputed : ∀ details, phase ≠ .computed details) :
      Moves ticket before id ({ before with processes := processes }.enter id phase)

section Inversion

variable {ticket : Ticket} {before after : System} {id : Nat}

private theorem raise_moves (unfinished : ∀ receipt, before.phases id ≠ .done receipt)
    (error : Error) :
    Moves ticket before id (before.raise id error) :=
  .aborted unfinished

private theorem enter_moves {phase : Phase} (outside : (before.phases id).Outside)
    (prepared : Prepared ticket.request (before.phases id) → Prepared ticket.request phase)
    (ongoing : phase.Ongoing) : Moves ticket before id (before.enter id phase) :=
  .proceeded outside prepared (fun receipt done => absurd done (ongoing.1 receipt)) ongoing.2

private theorem end_moves {receipt : Receipt} (outside : (before.phases id).Outside)
    (quiet : ticket.request.touched receipt = none) :
    Moves ticket before id (before.enter id (.done receipt)) :=
  .proceeded outside (fun _ => trivial) (fun _ done => by cases done; exact quiet)
    fun _ computed => by cases computed

theorem Phase.Outside.unfinished {phase : Phase} (outside : phase.Outside) (receipt : Receipt) :
    phase ≠ .done receipt := by
  intro done
  rw [done] at outside
  exact outside

private theorem lockCopy_moves {copyId : String} (phase : before.phases id = .idle)
    (asked : ticket.request.lockedCopy? = some copyId)
    (ran : before.lockCopy id copyId = some after) : Moves ticket before id after := by
  unfold System.lockCopy at ran
  cases acquired : before.copyLocks.acquire? id copyId with
  | none => simp [acquired] at ran
  | some copyLocks =>
      cases found : before.tables.copies.get? copyId with
      | none =>
          simp only [acquired, found, Option.some.injEq] at ran
          subst after
          exact raise_moves (by simp [phase]) _
      | some row =>
          simp only [acquired, found, Option.some.injEq] at ran
          subst after
          exact .lockedCopy phase asked acquired found

private theorem checkOut_moves {request : IssueRequest} {row : BookCopy}
    (phase : before.phases id = .locked row) (asked : ticket.request = .issue request)
    (ran : before.checkOut id request ticket.now row = some after) :
    Moves ticket before id after := by
  unfold System.checkOut at ran
  cases acquired : before.userLocks.acquire? id request.userId with
  | none => simp [acquired] at ran
  | some userLocks =>
      cases found : before.tables.users.get? request.userId with
      | none =>
          simp only [acquired, found, Option.some.injEq] at ran
          subst after
          exact raise_moves (by simp [phase]) _
      | some model =>
          cases checked : issueWrites request ticket.now model row with
          | error error =>
              simp only [acquired, found, checked, Option.some.injEq] at ran
              subst after
              exact raise_moves (by simp [phase]) _
          | ok prepared =>
              rcases prepared with ⟨record, writes⟩
              simp only [acquired, found, checked, Option.some.injEq] at ran
              subst after
              exact .checkedOut phase asked acquired found checked

private theorem beginReturn_moves {request : ReturnRequest} {row : BookCopy}
    (phase : before.phases id = .locked row) (asked : ticket.request = .giveBack request) :
    Moves ticket before id (before.beginReturn id request ticket.now row) := by
  unfold System.beginReturn
  cases borrower : row.currentBorrowerId with
  | none =>
      simp only [truthy_none, Bool.false_eq_true, ↓reduceIte]
      exact raise_moves (by simp [phase]) _
  | some borrowerId =>
      split
      · exact .beganReturn phase asked borrower
      · exact raise_moves (by simp [phase]) _

private theorem write_moves {row : BookCopy} {written todo : List Write} {next : Next}
    {first : Write} (phase : before.phases id = .writing row written (first :: todo) next)
    (ran : before.write id row written todo next first = some after) :
    Moves ticket before id after := by
  cases first with
  | copy updated =>
      simp only [System.write, Option.map_eq_some_iff] at ran
      obtain ⟨copyLocks, acquired, rfl⟩ := ran
      exact .updatedCopy phase acquired
  | user model updated =>
      simp only [System.write, Option.map_eq_some_iff] at ran
      obtain ⟨userLocks, acquired, rfl⟩ := ran
      exact .updatedUser phase acquired
  | record record =>
      cases ran
      exact .inserted phase rfl
  | event event =>
      cases ran
      exact .inserted phase rfl

private theorem offer_moves {request : ReturnRequest} {row returned : BookCopy}
    {written : List Write} {borrowerId : String}
    (phase : before.phases id = .writing row written [] (.offer borrowerId returned))
    (asked : ticket.request = .giveBack request) :
    Moves ticket before id (before.offer id ticket request row written borrowerId returned) := by
  have unfinished : ∀ receipt, before.phases id ≠ .done receipt := by simp [phase]
  unfold System.offer
  rcases (before.processes ticket.process).reservationMgr.handleCopyReturned returned.bookIsbn
    request.copyId ticket.now with ⟨result, manager⟩
  cases result with
  | error error => exact .aborted unfinished
  | ok assigned =>
      cases assigned with
      | none => exact .offered phase asked .shelved
      | some entry =>
          cases accepted : returned.reserve entry.userId with
          | error detail =>
              simp only [accepted]
              exact .aborted unfinished
          | ok held =>
              simp only [accepted]
              exact .offered phase asked (.reserved entry accepted)

private theorem resume_moves {row : BookCopy} {written : List Write} {next : Next}
    (phase : before.phases id = .writing row written [] next)
    (ran : before.resume id ticket row written next = some after) :
    Moves ticket before id after := by
  cases next with
  | returnBook borrowerId =>
      unfold System.resume at ran
      cases gaveBack : row.returnBook with
      | error detail =>
          simp only [gaveBack, Option.some.injEq] at ran
          subst after
          exact raise_moves (by simp [phase]) _
      | ok returned =>
          simp only [gaveBack, Option.some.injEq] at ran
          subst after
          exact .returned phase gaveBack
  | offer borrowerId returned =>
      unfold System.resume at ran
      cases asked : ticket.request with
      | giveBack request =>
          simp only [asked, Option.some.injEq] at ran
          subst after
          exact offer_moves phase asked
      | issue | charge | pay | transfer | rebalance | complete | reserve | addCopy | details =>
          simp [asked] at ran
  | invalidate isbn receipt =>
      cases ran
      exact .invalidated phase
  | commit receipt =>
      cases ran
      exact .committed phase

private theorem loadUser_moves {userId : String} {next : User → Phase}
    (outside : (before.phases id).Outside)
    (prepared : ∀ model, model.userId = userId → Prepared ticket.request (next model))
    (ongoing : ∀ model, (next model).Ongoing) :
    Moves ticket before id (before.loadUser id userId next) := by
  unfold System.loadUser
  cases found : before.tables.users.get? userId with
  | none => exact raise_moves outside.unfinished _
  | some model => exact enter_moves outside (fun _ => prepared model (Table.key_of_get? found)) (ongoing model)

private theorem chooseStrategy_moves {paymentMethod : String} {model : User}
    (phase : before.phases id = .paying model) :
    Moves ticket before id (before.chooseStrategy id ticket paymentMethod model) := by
  unfold System.chooseStrategy
  cases PaymentMethod.ofName? paymentMethod with
  | none => exact raise_moves (by simp [phase]) _
  | some method =>
      refine .proceeded (by rw [phase]; trivial) ?_ (by simp) (by simp)
      rw [phase]
      exact fun prepared => prepared

private theorem processPayment_moves {userId paymentMethod transactionId : String} {amount : ℚ}
    {metadata : PaymentMetadata} {model : User} (phase : before.phases id = .processing model)
    (asked : ticket.request = .pay userId amount paymentMethod metadata transactionId) :
    Moves ticket before id
      (before.processPayment id ticket userId amount metadata transactionId model) := by
  have outside : (before.phases id).Outside := by simp [phase, Phase.Outside]
  unfold System.processPayment
  split
  · exact raise_moves outside.unfinished _
  · split
    · refine .proceeded outside ?_ (by simp) (by simp)
      intro prepared
      rw [phase] at prepared
      rw [asked]
      exact .pay (prepared _ _ _ _ _ asked)
    · exact .proceeded outside (fun _ => trivial) (by simp [asked, Request.touched]) (by simp)

private theorem beginTransfer_moves {copyId destBranchId transferId : String}
    (outside : (before.phases id).Outside) :
    Moves ticket before id (before.beginTransfer id ticket copyId destBranchId transferId) := by
  unfold System.beginTransfer
  split
  · exact raise_moves outside.unfinished _
  · split
    · exact .aborted outside.unfinished
    · exact .proceeded outside (fun _ => trivial) (by simp) (by simp)

private theorem nextItem_moves {rest : List PlanItem} (phase : before.phases id = .planning rest) :
    Moves ticket before id (before.nextItem id rest) := by
  have outside : (before.phases id).Outside := by simp [phase, Phase.Outside]
  cases rest with
  | nil => exact end_moves outside (by simp [Request.touched])
  | cons item rest =>
      simp only [System.nextItem]
      split
      · exact enter_moves outside (fun _ => trivial) (by simp [Phase.Ongoing])
      · split
        · exact enter_moves outside (fun _ => trivial) (by simp [Phase.Ongoing])
        · exact enter_moves outside (fun _ => trivial) (by simp [Phase.Ongoing])

theorem requestTransfer_lifecycle {manager after : Distributed.MultiBranchManager}
    {copy moved : BookCopy} {destBranchId requestedBy transferId : String} {now : Datetime}
    {request : Distributed.TransferRequest}
    (accepted : manager.requestTransfer copy destBranchId requestedBy transferId now =
      .ok (moved, request, after)) : copy.Lifecycle moved ∧ copy.status ≠ .issued := by
  unfold Distributed.MultiBranchManager.requestTransfer at accepted
  split at accepted
  · cases accepted
  · split at accepted
    · cases accepted
    · split at accepted
      · cases accepted
      · next started =>
          cases accepted
          exact ⟨.startTransfer destBranchId started,
            by simp [(BookCopy.startTransfer_ok started).1]⟩

theorem completeTransfer_lifecycle {manager after : Distributed.MultiBranchManager}
    {copy arrived : BookCopy} {transferId : String} {now : Datetime}
    {request : Distributed.TransferRequest}
    (accepted : manager.completeTransfer transferId copy now = .ok (arrived, request, after)) :
    copy.Lifecycle arrived ∧ copy.status ≠ .issued := by
  unfold Distributed.MultiBranchManager.completeTransfer at accepted
  split at accepted
  · cases accepted
  · split at accepted
    · cases accepted
    · split at accepted
      · cases accepted
      · next completed =>
          cases accepted
          exact ⟨.completeTransfer completed,
            by simp [(BookCopy.completeTransfer_ok completed).1]⟩

private theorem depart_moves {requestedBy : String} {copy : BookCopy} {item : PlanItem}
    {rest : List PlanItem} (outside : (before.phases id).Outside)
    (mover : ticket.request.movesCopies = true) :
    Moves ticket before id (before.depart id ticket requestedBy copy item rest) := by
  unfold System.depart
  split
  · exact raise_moves outside.unfinished _
  · next accepted =>
      obtain ⟨legal, out⟩ := requestTransfer_lifecycle accepted
      exact .proceeded outside (fun _ => ⟨legal, out, mover⟩) (by simp) (by simp)

private theorem beginArrival_moves {transferId : String} (outside : (before.phases id).Outside) :
    Moves ticket before id (before.beginArrival id ticket transferId) := by
  unfold System.beginArrival
  split
  · exact end_moves outside (by simp [Request.touched])
  · split
    · exact end_moves outside (by simp [Request.touched])
    · exact enter_moves outside (fun _ => trivial) (by simp [Phase.Ongoing])

private theorem arrive_moves {transferId : String} {copy : BookCopy}
    (outside : (before.phases id).Outside) (mover : ticket.request.movesCopies = true) :
    Moves ticket before id (before.arrive id ticket transferId copy) := by
  unfold System.arrive
  split
  · exact raise_moves outside.unfinished _
  · next accepted =>
      obtain ⟨legal, out⟩ := completeTransfer_lifecycle accepted
      exact .proceeded outside (fun _ => ⟨legal, out, mover⟩) (by simp) (by simp)

private theorem storeUser_moves {model row : User} {receipt : Receipt}
    (phase : before.phases id = .storingUser model row receipt)
    (ran : before.storeUser id row receipt = some after) : Moves ticket before id after := by
  unfold System.storeUser at ran
  split at ran
  · cases ran
  · next free =>
      cases ran
      exact .storedUser phase free

private theorem storeCopy_moves {copy row : BookCopy} {rest : List PlanItem}
    (phase : before.phases id = .storingCopy copy row rest)
    (ran : before.storeCopy id row rest = some after) : Moves ticket before id after := by
  unfold System.storeCopy at ran
  split at ran
  · cases ran
  · next free =>
      cases ran
      exact .storedCopy phase free

private theorem beginStocking_moves {isbn : String} {copy : BookCopy}
    (outside : (before.phases id).Outside) (stocks : ticket.request.stocks? = some copy.copyId) :
    Moves ticket before id (before.beginStocking id isbn copy) := by
  unfold System.beginStocking
  split
  · exact raise_moves outside.unfinished _
  · exact enter_moves outside (fun _ => stocks) (by simp [Phase.Ongoing])

private theorem storeNew_moves {copy : BookCopy} {loaded : List BookCopy}
    (phase : before.phases id = .stocking copy loaded)
    (ran : before.storeNew id copy loaded = some after) : Moves ticket before id after := by
  unfold System.storeNew at ran
  split at ran
  · cases ran
  · next free =>
      cases ran
      exact .storedNew phase free

private theorem mergeCopy_moves {copy first : BookCopy} {written todo : List BookCopy}
    (phase : before.phases id = .merging copy written (first :: todo))
    (ran : before.mergeCopy id copy written todo first = some after) :
    Moves ticket before id after := by
  simp only [System.mergeCopy, Option.map_eq_some_iff] at ran
  obtain ⟨copyLocks, acquired, rfl⟩ := ran
  exact .mergedCopy phase acquired

private theorem lookUp_moves {isbn : String} (outside : (before.phases id).Outside) :
    Moves ticket before id (before.lookUp id isbn) := by
  unfold System.lookUp
  split
  · exact end_moves outside (by simp [Request.touched])
  · exact enter_moves outside (fun _ => trivial) (by simp [Phase.Ongoing])

private theorem readDetails_moves {isbn : String} (phase : before.phases id = .missed)
    (asked : ticket.request = .details isbn) :
    Moves ticket before id (before.readDetails id isbn) := by
  unfold System.readDetails
  split
  · next found => exact .readDetails phase asked found
  · exact end_moves (by simp [phase, Phase.Outside]) (by simp [Request.touched])

private theorem begin_moves (phase : before.phases id = .idle)
    (ran : before.begin id ticket = some after) : Moves ticket before id after := by
  have outside : (before.phases id).Outside := by simp [phase, Phase.Outside]
  unfold System.begin at ran
  cases asked : ticket.request with
  | issue request =>
      simp only [asked] at ran
      exact lockCopy_moves phase (by rw [asked]; rfl) ran
  | giveBack request =>
      simp only [asked] at ran
      exact lockCopy_moves phase (by rw [asked]; rfl) ran
  | charge userId isbn overdueDays =>
      simp only [asked, Option.some.injEq] at ran
      subst after
      exact enter_moves outside (fun _ => trivial) (by simp [Phase.Ongoing])
  | pay userId amount paymentMethod metadata transactionId =>
      simp only [asked, Option.some.injEq] at ran
      subst after
      apply loadUser_moves outside _ (by simp [Phase.Ongoing])
      intro model named userId' _ _ _ _ same
      rw [asked] at same
      cases same
      exact named
  | transfer copyId destBranchId requestedBy transferId =>
      simp only [asked, Option.some.injEq] at ran
      subst after
      exact beginTransfer_moves outside
  | rebalance plan =>
      simp only [asked, Option.some.injEq] at ran
      subst after
      exact enter_moves outside (fun _ => trivial) (by simp [Phase.Ongoing])
  | complete transferId =>
      simp only [asked, Option.some.injEq] at ran
      subst after
      exact beginArrival_moves outside
  | reserve isbn userId reservationId =>
      simp only [asked, Option.some.injEq] at ran
      subst after
      exact .proceeded outside (fun _ => trivial) (by simp [asked, Request.touched]) (by simp)
  | addCopy isbn copyId branchId shelfLocation price =>
      simp only [asked, Option.some.injEq] at ran
      subst after
      exact beginStocking_moves outside (by rw [asked]; rfl)
  | details isbn =>
      simp only [asked, Option.some.injEq] at ran
      subst after
      exact lookUp_moves outside

theorem advance_moves (ran : before.advance id ticket = some after) :
    Moves ticket before id after := by
  unfold System.advance at ran
  split at ran
  · next phase => exact begin_moves phase ran
  · next phase asked => exact checkOut_moves phase asked ran
  · next phase asked =>
      cases ran
      exact beginReturn_moves phase asked
  · next phase => exact write_moves phase ran
  · next phase => exact resume_moves phase ran
  · next waiting fine userId isbn overdueDays phase asked =>
      cases ran
      apply loadUser_moves (by simp [phase, Phase.Outside]) _
        (by simp [Phase.Ongoing, System.storeCharge])
      intro model named
      rw [asked]
      exact .charge named
  · next phase _ =>
      cases ran
      exact chooseStrategy_moves phase
  · next phase asked =>
      cases ran
      exact processPayment_moves phase asked
  · next phase => exact storeUser_moves phase ran
  · next phase =>
      cases ran
      exact nextItem_moves phase
  · next phase asked =>
      cases ran
      exact depart_moves (by simp [phase, Phase.Outside]) (by rw [asked]; rfl)
  · next phase asked =>
      cases ran
      exact depart_moves (by simp [phase, Phase.Outside]) (by rw [asked]; rfl)
  · next phase asked =>
      cases ran
      exact arrive_moves (by simp [phase, Phase.Outside]) (by rw [asked]; rfl)
  · next phase => exact storeCopy_moves phase ran
  · next phase => exact storeNew_moves phase ran
  · next phase => exact mergeCopy_moves phase ran
  · next phase =>
      cases ran
      exact .committedTitle phase
  · next phase =>
      cases ran
      exact .cleared phase
  · next phase asked =>
      cases ran
      exact readDetails_moves phase asked
  · next phase asked =>
      cases ran
      exact .storedDetails phase asked
  · cases ran

theorem fail_moves (ran : before.fail id = some after) : Moves ticket before id after := by
  unfold System.fail at ran
  split at ran
  · cases ran
  · cases ran
  · cases ran
  · next unfinished _ =>
      cases ran
      exact .aborted unfinished

/-- A database failure leaves the tables and ends its request. -/
theorem fail_tables (ran : before.fail id = some after) : after.tables = before.tables := by
  unfold System.fail at ran
  split at ran
  · cases ran
  · cases ran
  · cases ran
  · cases ran
    rfl

theorem fail_phase (ran : before.fail id = some after) : after.phases id = .failed none := by
  unfold System.fail at ran
  split at ran
  · cases ran
  · cases ran
  · cases ran
  · cases ran
    exact Function.update_self id _ before.phases

end Inversion

/-- A step is a step of one request, or the expiry of cached details. A database
failure ends its request. -/
theorem Step.moves {tickets : Nat → Ticket} {before after : System} {action : Action}
    (taken : Step tickets before action after) :
    (∃ id, Moves (tickets id) before id after ∧
        (action = .advance id ∨ after.phases id = .failed none)) ∨
      ∃ isbn, after = before.invalidate isbn := by
  cases action with
  | advance id => exact .inl ⟨id, advance_moves taken, .inl rfl⟩
  | fail id => exact .inl ⟨id, fail_moves taken, .inr (fail_phase taken)⟩
  | expire isbn =>
      cases taken
      exact .inr ⟨isbn, rfl⟩

def Phase.isDone : Phase → Bool
  | .done _ => true
  | _ => false

theorem Phase.isDone_iff {phase : Phase} :
    phase.isDone = true ↔ ∃ receipt, phase = .done receipt := by
  cases phase <;> simp [Phase.isDone]

/-- The request an action belongs to. -/
def Action.id? : Action → Option Nat
  | .advance id | .fail id => some id
  | .expire _ => none

theorem Moves.phases_other {ticket : Ticket} {before after : System} {id other : Nat}
    (moves : Moves ticket before id after) (different : other ≠ id) :
    after.phases other = before.phases other := by
  cases moves <;> exact Function.update_of_ne different _ _

/-- A request that no step of a run belongs to has not begun. -/
theorem idle_of_unnamed {tickets : Nat → Ticket} {tables : Tables} {processes : Nat → Process}
    {trace : List (Transition System Action)} {final : System} {id : Nat}
    (run : Run (Step tickets) (.start tables processes) trace final)
    (unnamed : ∀ transition ∈ trace, transition.label.id? ≠ some id) :
    final.phases id = .idle := by
  induction run with
  | nil => rfl
  | @snoc trace before after action _ taken ih =>
      have earlier := ih fun transition member =>
        unnamed transition (List.mem_append_left _ member)
      have other := unnamed ⟨before, action, after⟩ (by simp)
      rw [← earlier]
      cases action with
      | advance named =>
          have moves : Moves (tickets named) before named after := advance_moves taken
          exact moves.phases_other fun same => other (same ▸ rfl)
      | fail named =>
          have moves : Moves (tickets named) before named after := fail_moves taken
          exact moves.phases_other fun same => other (same ▸ rfl)
      | expire isbn =>
          cases taken
          rfl

/-- A run of two requests that have both ended leaves no request open. -/
theorem all_over {tickets : Nat → Ticket} {tables : Tables} {processes : Nat → Process}
    {trace : List (Transition System Action)} {final : System} {labels : List Action}
    (run : Run (Step tickets) (.start tables processes) trace final)
    (same : trace.map Transition.label = labels)
    (only : ∀ action ∈ labels, action = .advance 0 ∨ action = .advance 1)
    (zero : (final.phases 0).isDone = true) (one : (final.phases 1).isDone = true) (id : Nat) :
    final.phases id = .idle ∨ ∃ receipt, final.phases id = .done receipt := by
  match id with
  | 0 => exact .inr (Phase.isDone_iff.mp zero)
  | 1 => exact .inr (Phase.isDone_iff.mp one)
  | id + 2 =>
      refine .inl (idle_of_unnamed run ?_)
      intro transition member named
      have label : transition.label ∈ trace.map Transition.label := List.mem_map_of_mem member
      rw [same] at label
      obtain equal | equal := only transition.label label <;> simp [equal, Action.id?] at named

end LibraFlow.Postgres
