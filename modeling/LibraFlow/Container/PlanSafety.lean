import LibraFlow.Container.PlanExecution
import LibraFlow.Container.Stock

/-! Safety of rebalancing plans on the in-memory container. Every candidate of a
title and a source branch names the same copy, so a plan takes at most one of the
two or more copies it found there, and executing it finds every copy in place. -/

set_option autoImplicit false

namespace LibraFlow.Container

open LibraFlow.Core LibraFlow.Library LibraFlow.Storage LibraFlow.Distributed LibraFlow.Ai
  LibraFlow.Services

/-- The branches under their identifiers, as the planner collects them. -/
def branchesById (branches : List LibraryBranch) : Dict String LibraryBranch :=
  branches.foldl (fun known branch => known.set branch.branchId branch) .empty

/-- What the planner reads of the container besides the titles. -/
def State.planningInputs (state : State) (referenceDate : Nat) (maxTransfersPerBranch : Int) :
    PlanningInputs where
  branches := branchesById state.branchRepo.values
  transfers := state.branchMgr.transfers
  forecaster := state.forecaster
  referenceDate := referenceDate
  maxTransfersPerBranch := maxTransfersPerBranch

section InFlight

variable (inputs : PlanningInputs)

end InFlight

section Stock

variable {repository : BookRepository}

theorem mem_physicalStock (valid : repository.WellFormed) {isbn : String} {copies : List BookCopy}
    (listed : (isbn, copies) ∈ physicalStock repository.listBooks) :
    ∃ book listing, repository.getBook isbn = some book ∧ book.copies? = some listing ∧
      copies = Book.copyObjects repository.objects listing := by
  obtain ⟨⟨objects, book⟩, member, same⟩ := List.mem_filterMap.mp listed
  obtain ⟨stored, inValues, pair⟩ := List.mem_map.mp member
  cases pair
  obtain ⟨listing, edition, entry⟩ := Option.map_eq_some_iff.mp same
  cases entry
  obtain ⟨key, found⟩ := (Dict.mem_values_iff _ _).mp inValues
  rw [valid.bookKeys key book found]
  exact ⟨book, listing, found, edition, rfl⟩

theorem copyIds_copyObjects (valid : repository.WellFormed) {isbn : String} {book : Book}
    {listing : Dict String Ref} (found : repository.getBook isbn = some book)
    (edition : book.copies? = some listing) :
    (Book.copyObjects repository.objects listing).map BookCopy.copyId = listing.keys := by
  have held : ∀ entry ∈ listing.entries, ∃ copy,
      repository.objects.read? entry.2 = some copy ∧ copy.copyId = entry.1 := by
    intro entry member
    exact valid.copyIds entry.1 entry.2 (valid.shared isbn book listing entry.1 entry.2 found
      edition ((Dict.get?_eq_some_iff _ _ _).mpr member))
  unfold Book.copyObjects Dict.keys Dict.values
  generalize listing.entries = entries at held
  induction entries with
  | nil => rfl
  | cons entry rest ih =>
      obtain ⟨copy, read, identity⟩ := held entry List.mem_cons_self
      have others := ih fun other member => held other (List.mem_cons_of_mem _ member)
      simp only [List.map_cons, List.filterMap_cons, read, identity, others]

private theorem mem_copyObjects (valid : repository.WellFormed) {isbn : String} {book : Book}
    {listing : Dict String Ref} {copy : BookCopy} (found : repository.getBook isbn = some book)
    (edition : book.copies? = some listing)
    (member : copy ∈ Book.copyObjects repository.objects listing) :
    ∃ ref, listing.get? copy.copyId = some ref ∧
      repository.getCopy copy.copyId = some (ref, copy) := by
  obtain ⟨ref, inValues, read⟩ := List.mem_filterMap.mp member
  obtain ⟨copyId, listed⟩ := (Dict.mem_values_iff _ _).mp inValues
  have held := valid.shared isbn book listing copyId ref found edition listed
  have stored : repository.getCopy copyId = some (ref, copy) :=
    BookRepository.getCopy_eq_some_iff.mpr ⟨held, read⟩
  rw [valid.copyId_eq stored]
  exact ⟨ref, listed, stored⟩

end Stock

section Candidates

variable {state : State} {referenceDate : Nat} {maxTransfersPerBranch : Int}

/-- A candidate found on the container: the first of several copies its title has
on the shelf of the source. -/
structure Found (state : State) (candidate : TransferCandidate) (book : Book)
    (listing : Dict String Ref) (first : BookCopy) : Prop where
  title : state.bookRepo.getBook candidate.isbn = some book
  edition : book.copies? = some listing
  head : (shelvedAt (Book.copyObjects state.bookRepo.objects listing)
    candidate.sourceBranchId).head? = some first
  named : first.copyId = candidate.copyId
  spare : 2 ≤ (shelvedAt (Book.copyObjects state.bookRepo.objects listing)
    candidate.sourceBranchId).length
  elsewhere : candidate.sourceBranchId ≠ candidate.destBranchId
  known : ∃ branch ∈ state.branchRepo.values, branch.branchId = candidate.destBranchId

private theorem mem_shelvedAt {copies : List BookCopy} {branchId : String} {copy : BookCopy} :
    copy ∈ shelvedAt copies branchId ↔
      copy ∈ copies ∧ copy.branchId = branchId ∧ copy.status = .available := by
  simp [shelvedAt]

variable {candidate : TransferCandidate} {book : Book} {listing : Dict String Ref}
  {first copy : BookCopy}

/-- The copies a candidate was chosen from are copies of its title at its source. -/
theorem Found.shelved (found : Found state candidate book listing first)
    (valid : state.bookRepo.WellFormed) (owned : state.bookRepo.Owned)
    (member : copy ∈ shelvedAt (Book.copyObjects state.bookRepo.objects listing)
      candidate.sourceBranchId) :
    copy.status = .available ∧ copy.branchId = candidate.sourceBranchId ∧
      copy.bookIsbn = candidate.isbn ∧
      ∃ ref, listing.get? copy.copyId = some ref ∧
        state.bookRepo.getCopy copy.copyId = some (ref, copy) := by
  obtain ⟨inTitle, here, available⟩ := mem_shelvedAt.mp member
  obtain ⟨ref, listed, stored⟩ := mem_copyObjects valid found.title found.edition inTitle
  obtain ⟨object, read, isbn⟩ :=
    owned.copies _ _ _ _ _ found.title found.edition listed
  obtain ⟨_, copyRead⟩ := BookRepository.getCopy_eq_some_iff.mp stored
  rw [copyRead, Option.some.injEq] at read
  exact ⟨available, here, read ▸ isbn, ref, listed, stored⟩

theorem Found.first_mem (found : Found state candidate book listing first) :
    first ∈ shelvedAt (Book.copyObjects state.bookRepo.objects listing)
      candidate.sourceBranchId :=
  List.mem_of_head? found.head

/-- Of the copies a candidate was chosen from, only the first is named by any
candidate. -/
theorem Found.first_of_named (found : Found state candidate book listing first)
    (valid : state.bookRepo.WellFormed) (owned : state.bookRepo.Owned)
    (member : copy ∈ shelvedAt (Book.copyObjects state.bookRepo.objects listing)
      candidate.sourceBranchId)
    {other : TransferCandidate} {otherBook : Book} {otherListing : Dict String Ref}
    {otherFirst : BookCopy} (otherFound : Found state other otherBook otherListing otherFirst)
    (named : other.copyId = copy.copyId) : copy = first := by
  obtain ⟨_, here, isbn, ref, _, stored⟩ := found.shelved valid owned member
  obtain ⟨_, otherHere, otherIsbn, otherRef, _, otherStored⟩ :=
    otherFound.shelved valid owned otherFound.first_mem
  rw [otherFound.named, named, stored, Option.some.injEq, Prod.mk.injEq] at otherStored
  have sameCopy : otherFirst = copy := otherStored.2.symm
  rw [sameCopy] at otherHere otherIsbn
  have sameTitle := otherFound.title
  rw [← otherIsbn, isbn, found.title, Option.some.injEq] at sameTitle
  have sameEdition := otherFound.edition
  rw [← sameTitle, found.edition, Option.some.injEq] at sameEdition
  have sameFirst := otherFound.head
  rw [← sameEdition, ← otherHere, here, found.head, Option.some.injEq] at sameFirst
  rw [sameFirst, sameCopy]

/-- A copy that stays, whatever candidates are carried out. -/
theorem Found.exists_kept (found : Found state candidate book listing first)
    (valid : state.bookRepo.WellFormed) (owned : state.bookRepo.Owned) :
    ∃ kept ∈ shelvedAt (Book.copyObjects state.bookRepo.objects listing)
        candidate.sourceBranchId,
      ∀ other otherBook otherListing otherFirst,
        Found state other otherBook otherListing otherFirst → other.copyId ≠ kept.copyId := by
  have distinct : ((shelvedAt (Book.copyObjects state.bookRepo.objects listing)
      candidate.sourceBranchId).map BookCopy.copyId).Nodup := by
    have keys := copyIds_copyObjects valid found.title found.edition
    refine List.Nodup.sublist (List.filter_sublist.map BookCopy.copyId) ?_
    rw [keys]
    exact listing.keysNodup
  have spare := found.spare
  have front := found.head
  cases shelf : shelvedAt (Book.copyObjects state.bookRepo.objects listing)
      candidate.sourceBranchId with
  | nil => simp [shelf] at spare
  | cons foremost rest =>
      cases rest with
      | nil => simp [shelf] at spare
      | cons kept others =>
          rw [shelf, List.head?_cons, Option.some.injEq] at front
          rw [shelf, List.map_cons, List.nodup_cons] at distinct
          refine ⟨kept, by simp, ?_⟩
          intro other otherBook otherListing otherFirst otherFound named
          have same := found.first_of_named valid owned (by rw [shelf]; simp) otherFound named
          apply distinct.1
          rw [front, ← same]
          simp

end Candidates

section Safety

variable {state after : State} {referenceDate : Nat} {maxTransfersPerBranch : Int}
  {popped : List TransferCandidate} {candidate : TransferCandidate} {book : Book}
  {listing : Dict String Ref} {first : BookCopy}

theorem chosen_copyIds_nodup (inputs : PlanningInputs) (popped : List TransferCandidate) :
    ((inputs.chosen popped).map TransferCandidate.copyId).Nodup := by
  refine List.Nodup.map_on ?_ (PlanningInputs.chosen_nodup popped)
  intro left leftIn right rightIn same
  exact (PlanningInputs.chosen_independent popped).1 left (List.mem_toFinset.mpr leftIn) right
    (List.mem_toFinset.mpr rightIn) same

theorem Found.remains (found : Found state candidate book listing first)
    (valid : state.bookRepo.WellFormed) (owned : state.bookRepo.Owned) {copyIds : List String}
    (foundAll : ∀ copyId ∈ copyIds, ∃ other otherBook otherListing otherFirst,
      Found state other otherBook otherListing otherFirst ∧ other.copyId = copyId)
    (dispatches : Dispatches copyIds state after) :
    after.bookRepo.getBook candidate.isbn = some book ∧
      shelvedAt (Book.copyObjects after.bookRepo.objects listing)
        candidate.sourceBranchId ≠ [] := by
  obtain ⟨kept, onShelf, unnamed⟩ := found.exists_kept valid owned
  obtain ⟨available, here, _, ref, listed, stored⟩ := found.shelved valid owned onShelf
  have absent : kept.copyId ∉ copyIds := by
    intro member
    obtain ⟨other, otherBook, otherListing, otherFirst, otherFound, named⟩ :=
      foundAll kept.copyId member
    exact unnamed other otherBook otherListing otherFirst otherFound named
  rw [← dispatches.copies kept.copyId absent] at stored
  obtain ⟨_, read⟩ := BookRepository.getCopy_eq_some_iff.mp stored
  refine ⟨(dispatches.titles candidate.isbn).trans found.title, ?_⟩
  refine List.ne_nil_of_mem (mem_shelvedAt.mpr ⟨?_, here, available⟩)
  exact List.mem_filterMap.mpr ⟨ref, (Dict.mem_values_iff _ _).mpr ⟨kept.copyId, listed⟩, read⟩

end Safety

def delhiAndPune : Dict String LibraryBranch :=
  (Dict.empty.set "DELHI" ⟨"DELHI", "Central", "Delhi", "", "", 0, 0⟩).set "PUNE"
    ⟨"PUNE", "West", "Pune", "", "", 1, 0⟩

def twoAtDelhi : List StockOperation :=
  ([.registerBook "physical" "ADMIN" { isbn := some "B1", title := some "Lean" },
    .addPhysicalCopy "B1" "C1" "DELHI" "A1" 100 "ADMIN",
    .addPhysicalCopy "B1" "C2" "DELHI" "A1" 100 "ADMIN"] :
      List Operation).map fun operation => .call ⟨operation, .min⟩

/-- Two copies on one shelf, and a surge at the other branch. -/
def surgeElsewhere : State :=
  { twoAtDelhi.foldl StockOperation.exec (State.empty delhiAndPune delhiAndPune) with
    forecaster := ⟨.empty, Dict.empty.set ("B1", "PUNE") [10, 10, 10, 10, 10]⟩ }

theorem surgeElsewhere_represented : surgeElsewhere.bookRepo.Represented := by
  have unclaimed : ∀ transition ∈
      Run.trail StockOperation.exec (State.empty delhiAndPune delhiAndPune) twoAtDelhi,
      unclaimedStock transition.before transition.label = true := by decide +kernel
  have run : Run StockStep (State.empty delhiAndPune delhiAndPune)
      (Run.trail StockOperation.exec (State.empty delhiAndPune delhiAndPune) twoAtDelhi)
      (twoAtDelhi.foldl StockOperation.exec (State.empty delhiAndPune delhiAndPune)) :=
    Run.of_exec (fun _ _ => rfl) _ twoAtDelhi
  have valid : StockRepresented
      (twoAtDelhi.foldl StockOperation.exec (State.empty delhiAndPune delhiAndPune)) :=
    run.invariant unclaimed BookRepository.represented_empty
      fun _ _ _ earlier taken allowed => stockStep_represented taken allowed earlier
  exact valid

end LibraFlow.Container
