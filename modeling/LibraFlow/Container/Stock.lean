import LibraFlow.Container.Outcomes
import LibraFlow.Storage.Representation

/-! The stock of the in-memory container over whole runs. Circulation only edits
copies in place; titles and copies are entered by the catalogue, and removed by
deleting a title. -/

set_option autoImplicit false

namespace LibraFlow.Container

open LibraFlow.Core LibraFlow.Library LibraFlow.Storage LibraFlow.Storage.BookRepository
  LibraFlow.Patterns LibraFlow.Services Relation

section Edits

variable {repository : BookRepository} {copyId : String} {ref : Ref} {copy changed : BookCopy}

private theorem getCopy_mutate (found : repository.getCopy copyId = some (ref, copy)) :
    (repository.mutate ref changed).getCopy copyId = some (ref, changed) := by
  obtain ⟨held, read⟩ := getCopy_eq_some_iff.mp found
  exact getCopy_eq_some_iff.mpr ⟨held, Heap.read?_write_self changed read⟩

private theorem getCopy_saveCopy (found : repository.getCopy copyId = some (ref, copy)) :
    (repository.saveCopy ref).getCopy copyId = some (ref, copy) := by
  obtain ⟨held, read⟩ := getCopy_eq_some_iff.mp found
  unfold BookRepository.saveCopy
  rw [read, getCopy_eq_some_iff]
  refine ⟨?_, read⟩
  rw [Dict.get?_set]
  split
  · rfl
  · exact held

private theorem edits_mutate_saveCopy (found : repository.getCopy copyId = some (ref, copy))
    (same : BookCopy.SameCopy copy changed) :
    ReflTransGen CopyEdit repository ((repository.mutate ref changed).saveCopy ref) :=
  .tail (.single (.change found same)) (.store (getCopy_mutate found))

end Edits

section Outcomes

variable {before after : State}

theorem Untouched.edits (untouched : Untouched before after) :
    ReflTransGen CopyEdit before.bookRepo after.bookRepo := by
  rw [untouched.bookRepo]

theorem IssueOutcome.edits {request : IssueRequest} {now : Datetime}
    (outcome : IssueOutcome request now before after) :
    ReflTransGen CopyEdit before.bookRepo after.bookRepo := by
  cases outcome with
  | refused untouched => exact untouched.edits
  | overflowed taken overflow bookRepo users cache =>
      rw [bookRepo]
      exact .single (.change taken.held (BookCopy.sameCopy_checkOut taken.accepted))
  | issued taken bookRepo users cache =>
      rw [bookRepo]
      exact edits_mutate_saveCopy taken.held (BookCopy.sameCopy_checkOut taken.accepted)

theorem ReturnOutcome.edits {request : ReturnRequest} {now : Datetime}
    (outcome : ReturnOutcome request now before after) :
    ReflTransGen CopyEdit before.bookRepo after.bookRepo := by
  cases outcome with
  | refused untouched => exact untouched.edits
  | notOnLoan presented status bookRepo users cache => rw [bookRepo]
  | overflowed presented accepted overflow waiting bookRepo users cache =>
      rw [bookRepo]
      exact edits_mutate_saveCopy presented.held (BookCopy.sameCopy_returnBook accepted)
  | returned presented accepted bookRepo users cache =>
      rw [bookRepo]
      exact edits_mutate_saveCopy presented.held (BookCopy.sameCopy_returnBook accepted)
  | held presented accepted reserved bookRepo users cache =>
      rw [bookRepo]
      have shelved := edits_mutate_saveCopy presented.held (BookCopy.sameCopy_returnBook accepted)
      exact shelved.trans (edits_mutate_saveCopy
        (getCopy_saveCopy (getCopy_mutate presented.held)) (BookCopy.sameCopy_reserve reserved))

theorem TransferOutcome.edits {branches : Dict String Distributed.LibraryBranch}
    {copyId destBranchId : String}
    (outcome : TransferOutcome branches copyId destBranchId before after) :
    ReflTransGen CopyEdit before.bookRepo after.bookRepo := by
  cases outcome with
  | refused untouched => exact untouched.edits
  | departed moved known elsewhere accepted =>
      rw [moved.bookRepo]
      exact edits_mutate_saveCopy moved.held (BookCopy.sameCopy_startTransfer accepted)

theorem ArrivalOutcome.edits {transferId : String}
    (outcome : ArrivalOutcome transferId before after) :
    ReflTransGen CopyEdit before.bookRepo after.bookRepo := by
  cases outcome with
  | refused untouched => exact untouched.edits
  | arrived listed moving moved accepted =>
      rw [moved.bookRepo]
      exact edits_mutate_saveCopy moved.held (BookCopy.sameCopy_completeTransfer accepted)

theorem FineOutcome.bookRepo {userId : String} (outcome : FineOutcome userId before after) :
    after.bookRepo = before.bookRepo := by
  cases outcome with
  | refused untouched => exact untouched.bookRepo
  | changed known users bookRepo cache => exact bookRepo

theorem RegistrationOutcome.bookRepo (outcome : RegistrationOutcome before after) :
    after.bookRepo = before.bookRepo := by
  cases outcome with
  | refused untouched => exact untouched.bookRepo
  | registered fresh active history users bookRepo cache => exact bookRepo

/-- A plan edits the stock item by item, also when an item raises. -/
theorem executeRebalancingPlan_edits (now : Datetime) (plan : List PlanItem) (before : State) :
    ReflTransGen CopyEdit before.bookRepo
      (executeRebalancingPlan now plan before).2.bookRepo := by
  induction plan generalizing before with
  | nil => exact (Untouched.refl before).edits
  | cons item rest ih =>
      have first := (executeItem_outcome item now before).edits
      rw [executeRebalancingPlan, Proc.bind_apply]
      rcases ran : executeItem item now before with ⟨_ | executed, middle⟩
      · rw [ran] at first
        exact first
      · rw [ran] at first
        have whole := first.trans (ih middle)
        simp only [Proc.bind_apply]
        rcases finished : executeRebalancingPlan now rest middle with ⟨_ | others, after⟩ <;>
        · rw [finished] at whole
          exact whole

end Outcomes

/-- What a call can do to the stock. -/
inductive Restocks (before : BookRepository) : Operation → BookRepository → Prop where
  | circulates {operation : Operation} {after : BookRepository}
      (edits : ReflTransGen CopyEdit before after) : Restocks before operation after
  | lists {formatType actorId : String} {arguments : BookArguments} {book : Book}
      (accepted : createBook formatType arguments = .ok book) :
      Restocks before (.registerBook formatType actorId arguments) (before.saveBook book)
  | acquires {isbn copyId branchId shelfLocation actorId : String} {price : ℚ} {book : Book}
      (found : physicalOnly (before.getBook isbn) = some book) :
      Restocks before (.addPhysicalCopy isbn copyId branchId shelfLocation price actorId)
        (((before.attach isbn book (.new copyId isbn branchId shelfLocation price)).saveCopy
          before.objects.next).resaveBook isbn)

private theorem registerBook_restocks (formatType actorId : String) (arguments : BookArguments)
    (now : Datetime) (state : State) :
    Restocks state.bookRepo (.registerBook formatType actorId arguments)
      (registerBook formatType actorId arguments now state).2.bookRepo := by
  unfold registerBook
  cases accepted : createBook formatType arguments with
  | error error => exact .circulates .refl
  | ok book => exact .lists accepted

private theorem addPhysicalCopy_restocks (isbn copyId branchId shelfLocation : String) (price : ℚ)
    (actorId : String) (now : Datetime) (state : State) :
    Restocks state.bookRepo (.addPhysicalCopy isbn copyId branchId shelfLocation price actorId)
      (addPhysicalCopy isbn copyId branchId shelfLocation price actorId now state).2.bookRepo := by
  unfold addPhysicalCopy
  simp only [Proc.read_bind_apply]
  cases found : physicalOnly (state.bookRepo.getBook isbn) with
  | none => exact .circulates .refl
  | some book => exact .acquires found

theorem exec_restocks (operation : Operation) (now : Datetime) (state : State) :
    Restocks state.bookRepo operation (operation.exec now state).bookRepo := by
  cases operation with
  | registerBook formatType actorId arguments =>
      exact registerBook_restocks formatType actorId arguments now state
  | addPhysicalCopy isbn copyId branchId shelfLocation price actorId =>
      exact addPhysicalCopy_restocks isbn copyId branchId shelfLocation price actorId now state
  | registerUser request =>
      refine .circulates ?_
      rw [Operation.exec, (registration_outcome request state).bookRepo]
  | issuePhysicalBook request => exact .circulates (issue_outcome request now state).edits
  | returnPhysicalBook request => exact .circulates (return_outcome request now state).edits
  | reserveBook isbn userId reservationId => exact .circulates .refl
  | requestSmartAllocation isbn userId requestId =>
      exact .circulates (requestSmartAllocation_untouched isbn userId requestId now state).edits
  | processSmartAllocationDrop isbn transactionId eventId =>
      rcases allocationDrop_outcome isbn transactionId eventId now state with
        untouched | ⟨request, _, outcome⟩
      · exact .circulates untouched.edits
      · exact .circulates outcome.edits
  | transferCopy copyId destBranchId requestedBy transferId =>
      exact .circulates
        (transfer_outcome copyId destBranchId requestedBy transferId now state).edits
  | executeRebalancingPlan plan => exact .circulates (executeRebalancingPlan_edits now plan state)
  | completeTransfer transferId => exact .circulates (arrival_outcome transferId now state).edits
  | chargeFine userId isbn overdueDays actorId =>
      refine .circulates ?_
      rw [Operation.exec, (charge_outcome userId isbn overdueDays actorId now state).bookRepo]
  | payFine userId amount paymentMethod metadata transactionId =>
      refine .circulates ?_
      rw [Operation.exec,
        (pay_outcome userId amount paymentMethod metadata transactionId now state).bookRepo]
  | getBookDetails isbn => exact .circulates .refl

/-- A call on the container, or the deletion of a title from the repository. -/
inductive StockOperation where
  | call (timed : TimedOperation)
  | deleteBook (isbn : String)

def StockOperation.exec (state : State) : StockOperation → State
  | .call timed => timed.operation.exec timed.now state
  | .deleteBook isbn => { state with bookRepo := state.bookRepo.deleteBook isbn }

def StockStep (before : State) (operation : StockOperation) (after : State) : Prop :=
  StockOperation.exec before operation = after

/-- A title is registered only while the store has no copy under its ISBN, and a
copy is added only under an identifier that no other title has in use. -/
def unclaimedStock (state : State) : StockOperation → Bool
  | .call ⟨.registerBook formatType _ arguments, _⟩ =>
      match createBook formatType arguments with
      | .ok book => state.bookRepo.countCopiesForIsbn book.isbn = 0
      | .error _ => true
  | .call ⟨.addPhysicalCopy isbn copyId _ _ _ _, _⟩ =>
      (physicalOnly (state.bookRepo.getBook isbn)).isNone ||
        (state.bookRepo.getCopy copyId).all fun found => found.2.bookIsbn = isbn
  | _ => true

/-- The two maps of the store agree on every physical title. -/
structure StockAgrees (repository : BookRepository) : Prop where
  keys : ∀ isbn book listed, repository.getBook isbn = some book → book.copies? = some listed →
    ∀ copyId ref, listed.get? copyId = some ref ↔
      ∃ copy, repository.getCopy copyId = some (ref, copy) ∧ copy.bookIsbn = isbn
  total : ∀ isbn book listed, repository.getBook isbn = some book → book.copies? = some listed →
    listed.size = repository.countCopiesForIsbn isbn
  listed : ∀ copyId ref copy, repository.getCopy copyId = some (ref, copy) →
    repository.Lists copy.bookIsbn copyId ref
  deleted : ∀ isbn copyId ref copy,
    (repository.deleteBook isbn).getCopy copyId = some (ref, copy) → copy.bookIsbn ≠ isbn

private theorem stockAgrees_of_represented {repository : BookRepository}
    (valid : repository.Represented) : StockAgrees repository where
  keys _ _ _ found edition := valid.lists_iff found edition
  total _ _ _ found edition := valid.size_eq found edition
  listed := valid.listed
  deleted _ _ _ _ found := (valid.getCopy_deleteBook.mp found).2

private theorem bookIsbn_ne_of_count {repository : BookRepository} {isbn : String}
    (none : repository.countCopiesForIsbn isbn = 0) (copyId : String) (ref : Ref) (copy : BookCopy)
    (found : repository.getCopy copyId = some (ref, copy)) : copy.bookIsbn ≠ isbn := by
  obtain ⟨held, read⟩ := getCopy_eq_some_iff.mp found
  have member : copy ∈ repository.copies.values.filterMap repository.objects.read? :=
    List.mem_filterMap.mpr ⟨ref, (Dict.mem_values_iff _ _).mpr ⟨copyId, held⟩, read⟩
  simpa using List.countP_eq_zero.mp none copy member

/-- Every call that claims nothing twice keeps the representation. -/
theorem Restocks.represented {state : State} {operation : Operation} {now : Datetime}
    {after : BookRepository} (restocks : Restocks state.bookRepo operation after)
    (unclaimed : unclaimedStock state (.call ⟨operation, now⟩) = true)
    (valid : state.bookRepo.Represented) : after.Represented := by
  cases restocks with
  | circulates edits => exact valid.copyEdits edits
  | lists accepted =>
      simp only [unclaimedStock, accepted, decide_eq_true_eq] at unclaimed
      exact valid.saveBook (createBook_ok accepted) (bookIsbn_ne_of_count unclaimed)
  | @acquires isbn copyId branchId shelfLocation actorId price book found =>
      simp only [unclaimedStock, found, Option.isNone_some, Bool.false_or] at unclaimed
      obtain ⟨stored, physical⟩ := Option.filter_eq_some_iff.mp found
      obtain ⟨listed, edition⟩ := Option.isSome_iff_exists.mp physical
      refine (valid.attach stored edition rfl ?_).resaveBook isbn
      intro oldRef old oldFound
      rw [show state.bookRepo.getCopy copyId = some (oldRef, old) from oldFound] at unclaimed
      simpa using unclaimed

def StockRepresented (state : State) : Prop := state.bookRepo.Represented

theorem stockStep_represented {before after : State} {operation : StockOperation}
    (step : StockStep before operation after) (unclaimed : unclaimedStock before operation = true)
    (valid : StockRepresented before) : StockRepresented after := by
  cases step
  cases operation with
  | call timed =>
      exact (exec_restocks timed.operation timed.now before).represented unclaimed valid
  | deleteBook isbn => exact valid.deleteBook isbn

theorem run_stockAgrees (branchRepo registered : Dict String Distributed.LibraryBranch)
    {trace : List (Transition State StockOperation)} {final : State}
    (run : Run StockStep (State.empty branchRepo registered) trace final)
    (unclaimed : ∀ transition ∈ trace,
      unclaimedStock transition.before transition.label = true) :
    StockAgrees final.bookRepo := by
  have valid : StockRepresented final := run.invariant unclaimed represented_empty
    fun _ _ _ earlier taken allowed => stockStep_represented taken allowed earlier
  exact stockAgrees_of_represented valid

/-- A copy is added under an identifier its title has already, another one is
lent, and a second title is deleted with its copy. -/
def stockedTitles : List StockOperation :=
  ([.registerBook "physical" "ADMIN" { isbn := some "B1", title := some "Lean" },
    .registerBook "physical" "ADMIN" { isbn := some "B2", title := some "Types" },
    .addPhysicalCopy "B1" "C1" "BRANCH-DELHI" "A1" 100 "ADMIN",
    .addPhysicalCopy "B1" "C1" "BRANCH-PUNE" "A2" 100 "ADMIN",
    .addPhysicalCopy "B1" "C2" "BRANCH-DELHI" "A1" 100 "ADMIN",
    .addPhysicalCopy "B2" "C3" "BRANCH-DELHI" "A1" 100 "ADMIN",
    .registerUser { userId := "U1", name := "Asha", email := "asha@example", passwordHash := "h" },
    .issuePhysicalBook { copyId := "C2", userId := "U1", transactionId := "T1", eventId := "E1" }] :
      List Operation).map (fun operation => .call ⟨operation, .min⟩) ++ [.deleteBook "B2"]

theorem run_stockAgrees_stockedTitles :
    StockAgrees (stockedTitles.foldl StockOperation.exec (State.empty .empty .empty)).bookRepo ∧
      (stockedTitles.foldl StockOperation.exec (State.empty .empty .empty)).bookRepo.copies.keys =
        ["C1", "C2"] := by
  have unclaimed : ∀ transition ∈
      Run.trail StockOperation.exec (State.empty .empty .empty) stockedTitles,
      unclaimedStock transition.before transition.label = true := by decide +kernel
  exact ⟨run_stockAgrees .empty .empty (Run.of_exec (fun _ _ => rfl) _ stockedTitles) unclaimed,
    by decide +kernel⟩

/-- Registering a title again leaves its copies in the store without a title
that lists them. -/
theorem registered_again_lists_nothing :
    ∃ trace final, Run StockStep (State.empty .empty .empty) trace final ∧
      ¬ StockAgrees final.bookRepo := by
  let calls : List StockOperation :=
    ([.registerBook "physical" "ADMIN" { isbn := some "B1", title := some "Lean" },
      .addPhysicalCopy "B1" "C1" "BRANCH-DELHI" "A1" 100 "ADMIN",
      .registerBook "physical" "ADMIN" { isbn := some "B1", title := some "Lean" }] :
        List Operation).map fun operation => .call ⟨operation, .min⟩
  have listed : ((calls.foldl StockOperation.exec (State.empty .empty .empty)).bookRepo.getBook
      "B1").bind Book.copies? = some .empty := by decide +kernel
  have counted : (calls.foldl StockOperation.exec
      (State.empty .empty .empty)).bookRepo.countCopiesForIsbn "B1" = 1 := by decide +kernel
  refine ⟨_, _, Run.of_exec (fun _ _ => rfl) _ calls, ?_⟩
  intro agrees
  obtain ⟨book, found, edition⟩ := Option.bind_eq_some_iff.mp listed
  have total := agrees.total "B1" book .empty found edition
  rw [counted] at total
  cases total

end LibraFlow.Container
