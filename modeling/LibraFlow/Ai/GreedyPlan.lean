import LibraFlow.Ai.RebalancingProperties
import LibraFlow.Library.Greedy

/-! The selection loop as a greedy choice among the candidates. Copies and
destination capacities together form a system in which a candidate displaces at
most two others, so the plan is worth at least half of any feasible one. -/

set_option autoImplicit false

namespace LibraFlow.Ai

open LibraFlow.Core LibraFlow.Library LibraFlow.Distributed

namespace TransferCandidate

def utility (candidate : TransferCandidate) : ℚ := -candidate.priority

/-- The plan item made from a candidate. -/
def planned (candidate : TransferCandidate) : PlannedTransfer where
  isbn := candidate.isbn
  copyId := candidate.copyId
  sourceBranchId := candidate.sourceBranchId
  destBranchId := candidate.destBranchId
  utilityScore := roundTo 2 candidate.utility
  transitCost := roundTo 2 candidate.transitCost

end TransferCandidate

/-- The members of a set of candidates that go to a branch. -/
def sentTo (chosen : Finset TransferCandidate) (branchId : String) : Finset TransferCandidate :=
  chosen.filter fun candidate => candidate.destBranchId = branchId

namespace PlanningInputs

variable (inputs : PlanningInputs)

/-- The transfers under way to a branch before anything is planned. -/
def inFlightTo (branchId : String) : Nat := (inputs.inFlightDest.get? branchId).getD 0

/-- A selection of the candidates that moves no copy twice and leaves every
destination a candidate goes to within its limit. -/
structure Feasible (candidates chosen : Finset TransferCandidate) : Prop where
  included : chosen ⊆ candidates
  copies : ∀ left ∈ chosen, ∀ right ∈ chosen, left.copyId = right.copyId → left = right
  capacity : ∀ candidate ∈ candidates, ((sentTo chosen candidate.destBranchId).card : Int) ≤
    inputs.maxTransfersPerBranch - inputs.inFlightTo candidate.destBranchId

def accepts (selection : Selection) (candidate : TransferCandidate) : Bool :=
  candidate.copyId ∉ selection.allocatedCopies ∧
    inputs.saturated selection.inFlightDest candidate.destBranchId = false

/-- The candidates the loop takes, in order. -/
def chosenFrom : Selection → List TransferCandidate → List TransferCandidate
  | _, [] => []
  | selection, candidate :: rest =>
      if inputs.accepts selection candidate then
        candidate :: chosenFrom (inputs.consider selection candidate) rest
      else chosenFrom selection rest

def chosen (ordered : List TransferCandidate) : List TransferCandidate :=
  inputs.chosenFrom ⟨[], [], inputs.inFlightDest⟩ ordered

variable {inputs}

private theorem consider_of_accepts {selection : Selection} {candidate : TransferCandidate}
    (accepted : inputs.accepts selection candidate = true) :
    inputs.consider selection candidate = {
      plan := selection.plan ++ [candidate.planned]
      allocatedCopies := candidate.copyId :: selection.allocatedCopies
      inFlightDest := addInFlight selection.inFlightDest candidate.destBranchId } := by
  simp only [accepts, decide_eq_true_eq] at accepted
  obtain ⟨fresh, room⟩ := accepted
  simp [consider, fresh, room, TransferCandidate.planned, TransferCandidate.utility]

private theorem consider_of_not_accepts {selection : Selection} {candidate : TransferCandidate}
    (refused : inputs.accepts selection candidate = false) :
    inputs.consider selection candidate = selection := by
  simp only [accepts, decide_eq_false_iff_not, not_and, Bool.not_eq_false] at refused
  unfold consider
  split
  · rfl
  · next fresh => rw [if_pos (refused fresh)]

private theorem foldl_consider_plan (ordered : List TransferCandidate) (selection : Selection) :
    (ordered.foldl inputs.consider selection).plan =
      selection.plan ++ (inputs.chosenFrom selection ordered).map TransferCandidate.planned := by
  induction ordered generalizing selection with
  | nil => simp [chosenFrom]
  | cons candidate rest ih =>
      rw [List.foldl_cons, ih, chosenFrom]
      cases accepted : inputs.accepts selection candidate with
      | true => simp [consider_of_accepts accepted]
      | false => simp [consider_of_not_accepts accepted]

theorem select_eq_map_chosen (ordered : List TransferCandidate) :
    inputs.select ordered = (inputs.chosen ordered).map TransferCandidate.planned := by
  rw [select, foldl_consider_plan]
  rfl

theorem chosenFrom_sublist (selection : Selection) (ordered : List TransferCandidate) :
    (inputs.chosenFrom selection ordered).Sublist ordered := by
  induction ordered generalizing selection with
  | nil => exact .slnil
  | cons candidate rest ih =>
      rw [chosenFrom]
      split
      · exact (ih _).cons_cons candidate
      · exact (ih selection).cons candidate

section System

/-- Sets of candidates that can be carried out together. -/
def transferSystem (inputs : PlanningInputs) : IndependenceSystem TransferCandidate where
  Independent chosen :=
    (∀ left ∈ chosen, ∀ right ∈ chosen, left.copyId = right.copyId → left = right) ∧
      ∀ candidate ∈ chosen, ((sentTo chosen candidate.destBranchId).card : Int) ≤
        inputs.maxTransfersPerBranch - inputs.inFlightTo candidate.destBranchId
  empty := by simp
  subset := by
    intro small large independent included
    refine ⟨fun left leftIn right rightIn =>
      independent.1 left (included leftIn) right (included rightIn), ?_⟩
    intro candidate member
    have fewer : (sentTo small candidate.destBranchId).card ≤
        (sentTo large candidate.destBranchId).card :=
      Finset.card_le_card (Finset.filter_subset_filter _ included)
    exact (Int.ofNat_le.mpr fewer).trans (independent.2 candidate (included member))

theorem mem_sentTo {chosen : Finset TransferCandidate} {branchId : String}
    {candidate : TransferCandidate} :
    candidate ∈ sentTo chosen branchId ↔ candidate ∈ chosen ∧ candidate.destBranchId = branchId :=
  Finset.mem_filter

private theorem card_sentTo_insert {chosen : Finset TransferCandidate}
    {candidate : TransferCandidate} (fresh : candidate ∉ chosen) (branchId : String) :
    (sentTo (insert candidate chosen) branchId).card =
      (sentTo chosen branchId).card + if candidate.destBranchId = branchId then 1 else 0 := by
  unfold sentTo
  rw [Finset.filter_insert]
  split
  · exact Finset.card_insert_of_notMem fun member => fresh (Finset.mem_filter.mp member).1
  · rfl

private theorem independent_insert_iff {chosen : Finset TransferCandidate}
    {candidate : TransferCandidate}
    (independent : inputs.transferSystem.Independent chosen) (fresh : candidate ∉ chosen) :
    inputs.transferSystem.Independent (insert candidate chosen) ↔
      (∀ other ∈ chosen, other.copyId ≠ candidate.copyId) ∧
        ((sentTo chosen candidate.destBranchId).card : Int) + 1 ≤
          inputs.maxTransfersPerBranch - inputs.inFlightTo candidate.destBranchId := by
  constructor
  · intro extended
    refine ⟨?_, ?_⟩
    · intro other member same
      have equal := extended.1 other (Finset.mem_insert_of_mem member) candidate
        (Finset.mem_insert_self _ _) same
      exact fresh (equal ▸ member)
    · have room := extended.2 candidate (Finset.mem_insert_self _ _)
      rw [card_sentTo_insert fresh, if_pos rfl] at room
      exact_mod_cast room
  · rintro ⟨distinct, room⟩
    refine ⟨?_, ?_⟩
    · intro left leftIn right rightIn same
      rcases Finset.mem_insert.mp leftIn with leftNew | leftOld <;>
        rcases Finset.mem_insert.mp rightIn with rightNew | rightOld
      · rw [leftNew, rightNew]
      · exact absurd (leftNew ▸ same.symm) (distinct right rightOld)
      · exact absurd (rightNew ▸ same) (distinct left leftOld)
      · exact independent.1 left leftOld right rightOld same
    · intro other member
      rw [card_sentTo_insert fresh]
      by_cases same : candidate.destBranchId = other.destBranchId
      · rw [if_pos same, ← same]
        exact_mod_cast room
      · rw [if_neg same, Nat.add_zero]
        rcases Finset.mem_insert.mp member with new | old
        · exact absurd (new ▸ rfl) same
        · exact independent.2 other old

/-- On a full destination something outside the part can make place. -/
theorem exists_sent_outside {part whole : Finset TransferCandidate} {branchId : String}
    (more : (sentTo part branchId).card < (sentTo whole branchId).card) :
    ∃ other ∈ whole \ part, other.destBranchId = branchId := by
  obtain ⟨other, sent, notSent⟩ := Finset.exists_mem_notMem_of_card_lt_card more
  obtain ⟨member, goes⟩ := mem_sentTo.mp sent
  refine ⟨other, Finset.mem_sdiff.mpr ⟨member, ?_⟩, goes⟩
  intro old
  exact notSent (mem_sentTo.mpr ⟨old, goes⟩)

/-- The members outside a part that a new candidate displaces: those that move its
copy, and one that fills its destination. -/
theorem transferSystem_extendible (inputs : PlanningInputs) : inputs.transferSystem.Extendible 2 := by
  intro part whole candidate included independent fresh fits
  have partFresh : candidate ∉ part := fun member => fresh (included member)
  obtain ⟨distinct, room⟩ := (independent_insert_iff
    (inputs.transferSystem.subset independent included) partFresh).mp fits
  let sameCopy := (whole \ part).filter fun other => other.copyId = candidate.copyId
  have oneCopy : sameCopy.card ≤ 1 := by
    refine Finset.card_le_one.mpr fun left leftIn right rightIn => ?_
    obtain ⟨leftOut, leftSame⟩ := Finset.mem_filter.mp leftIn
    obtain ⟨rightOut, rightSame⟩ := Finset.mem_filter.mp rightIn
    exact independent.1 left (Finset.mem_sdiff.mp leftOut).1 right (Finset.mem_sdiff.mp rightOut).1
      (leftSame.trans rightSame.symm)
  obtain ⟨displaced, outside, single, place⟩ : ∃ displaced ⊆ whole \ part, displaced.card ≤ 1 ∧
      ((sentTo (whole \ displaced) candidate.destBranchId).card : Int) + 1 ≤
        inputs.maxTransfersPerBranch - inputs.inFlightTo candidate.destBranchId := by
    by_cases full : ((sentTo whole candidate.destBranchId).card : Int) + 1 ≤
        inputs.maxTransfersPerBranch - inputs.inFlightTo candidate.destBranchId
    · exact ⟨∅, Finset.empty_subset _, by simp, by simpa using full⟩
    · have more : (sentTo part candidate.destBranchId).card <
          (sentTo whole candidate.destBranchId).card := by omega
      obtain ⟨other, otherOut, goes⟩ := exists_sent_outside more
      refine ⟨{other}, by simpa using otherOut, by simp, ?_⟩
      have member := (Finset.mem_sdiff.mp otherOut).1
      have sent : other ∈ sentTo whole candidate.destBranchId := mem_sentTo.mpr ⟨member, goes⟩
      have fewer : sentTo (whole \ {other}) candidate.destBranchId =
          (sentTo whole candidate.destBranchId).erase other := by
        ext another
        simp only [mem_sentTo, Finset.mem_sdiff, Finset.mem_singleton, Finset.mem_erase]
        tauto
      have bound := independent.2 other member
      have positive := Finset.card_pos.mpr ⟨other, sent⟩
      rw [fewer, Finset.card_erase_of_mem sent]
      rw [goes] at bound
      omega
  refine ⟨sameCopy ∪ displaced, Finset.union_subset (Finset.filter_subset _ _) outside, ?_, ?_⟩
  · exact (Finset.card_union_le _ _).trans (Nat.add_le_add oneCopy single)
  · have rest : inputs.transferSystem.Independent (whole \ (sameCopy ∪ displaced)) :=
      inputs.transferSystem.subset independent Finset.sdiff_subset
    refine (independent_insert_iff rest fun member => fresh (Finset.mem_sdiff.mp member).1).mpr ⟨?_, ?_⟩
    · intro other member same
      obtain ⟨old, kept⟩ := Finset.mem_sdiff.mp member
      by_cases early : other ∈ part
      · exact distinct other early same
      · refine kept (Finset.mem_union_left _ ?_)
        exact Finset.mem_filter.mpr ⟨Finset.mem_sdiff.mpr ⟨old, early⟩, same⟩
    · have fewer : (sentTo (whole \ (sameCopy ∪ displaced)) candidate.destBranchId).card ≤
          (sentTo (whole \ displaced) candidate.destBranchId).card :=
        Finset.card_le_card (Finset.filter_subset_filter _
          (Finset.sdiff_subset_sdiff (Finset.Subset.refl _) Finset.subset_union_right))
      omega

end System

section Selection

/-- The loop's bookkeeping for the candidates chosen so far. -/
structure Mirrors (inputs : PlanningInputs) (selection : Selection)
    (taken : Finset TransferCandidate) : Prop where
  allocated : ∀ copyId, copyId ∈ selection.allocatedCopies ↔
    ∃ candidate ∈ taken, candidate.copyId = copyId
  inFlight : ∀ branchId, (selection.inFlightDest.get? branchId).getD 0 =
    inputs.inFlightTo branchId + (sentTo taken branchId).card
  independent : inputs.transferSystem.Independent taken

private theorem mirrors_initial (inputs : PlanningInputs) :
    inputs.Mirrors ⟨[], [], inputs.inFlightDest⟩ ∅ where
  allocated := by simp
  inFlight := by simp [inFlightTo, sentTo]
  independent := inputs.transferSystem.empty

theorem getD_addInFlight (inFlight : Dict String Nat) (branchId other : String) :
    ((addInFlight inFlight branchId).get? other).getD 0 =
      (inFlight.get? other).getD 0 + if branchId = other then 1 else 0 := by
  rw [addInFlight, Dict.get?_set]
  split
  · next same => simp [same]
  · simp

variable {selection : Selection} {taken : Finset TransferCandidate} {candidate : TransferCandidate}

theorem Mirrors.accepts_iff (mirrors : inputs.Mirrors selection taken) :
    inputs.accepts selection candidate = true ↔
      candidate ∉ taken ∧ inputs.transferSystem.Independent (insert candidate taken) := by
  simp only [accepts, decide_eq_true_eq, saturated, decide_eq_false_iff_not, not_le,
    mirrors.allocated, mirrors.inFlight]
  constructor
  · rintro ⟨unused, room⟩
    have fresh : candidate ∉ taken := fun member => unused ⟨candidate, member, rfl⟩
    refine ⟨fresh, (independent_insert_iff mirrors.independent fresh).mpr ⟨?_, by omega⟩⟩
    intro other member same
    exact unused ⟨other, member, same⟩
  · rintro ⟨fresh, fits⟩
    obtain ⟨distinct, room⟩ := (independent_insert_iff mirrors.independent fresh).mp fits
    refine ⟨?_, by omega⟩
    rintro ⟨other, member, same⟩
    exact distinct other member same

theorem Mirrors.consider (mirrors : inputs.Mirrors selection taken)
    (accepted : inputs.accepts selection candidate = true) :
    inputs.Mirrors (inputs.consider selection candidate) (insert candidate taken) := by
  obtain ⟨fresh, fits⟩ := mirrors.accepts_iff.mp accepted
  rw [consider_of_accepts accepted]
  refine ⟨?_, ?_, fits⟩
  · intro copyId
    simp only [List.mem_cons, mirrors.allocated, Finset.exists_mem_insert]
    rw [eq_comm]
  · intro branchId
    rw [getD_addInFlight, mirrors.inFlight, card_sentTo_insert fresh, Nat.add_assoc]

/-- The loop makes the greedy choice, and takes nothing twice. -/
theorem Mirrors.chosenFrom (mirrors : inputs.Mirrors selection taken)
    (ordered : List TransferCandidate) :
    inputs.transferSystem.greedy ordered taken =
        taken ∪ (inputs.chosenFrom selection ordered).toFinset ∧
      (inputs.chosenFrom selection ordered).Nodup ∧
      ∀ candidate ∈ inputs.chosenFrom selection ordered, candidate ∉ taken := by
  induction ordered generalizing selection taken with
  | nil => simp [PlanningInputs.chosenFrom, IndependenceSystem.greedy]
  | cons candidate rest ih =>
      rw [IndependenceSystem.greedy, List.foldl_cons, ← IndependenceSystem.greedy,
        PlanningInputs.chosenFrom]
      cases accepted : inputs.accepts selection candidate with
      | true =>
          obtain ⟨fresh, fits⟩ := mirrors.accepts_iff.mp accepted
          obtain ⟨same, once, later⟩ := ih (mirrors.consider accepted)
          rw [if_pos rfl, IndependenceSystem.choose, if_pos fits, same]
          refine ⟨?_, ?_, ?_⟩
          · rw [List.toFinset_cons, Finset.union_insert, Finset.insert_union]
          · refine List.nodup_cons.mpr ⟨?_, once⟩
            intro again
            exact later candidate again (Finset.mem_insert_self _ _)
          · intro other member
            rcases List.mem_cons.mp member with first | following
            · rw [first]
              exact fresh
            · intro old
              exact later other following (Finset.mem_insert_of_mem old)
      | false =>
          have skipped : inputs.transferSystem.choose taken candidate = taken := by
            unfold IndependenceSystem.choose
            split
            · next fits =>
                have old : candidate ∈ taken := by
                  by_contra fresh
                  rw [mirrors.accepts_iff.mpr ⟨fresh, fits⟩] at accepted
                  cases accepted
                exact Finset.insert_eq_of_mem old
            · rfl
          rw [skipped]
          simpa using ih mirrors

private theorem toFinset_chosen (ordered : List TransferCandidate) :
    (inputs.chosen ordered).toFinset = inputs.transferSystem.greedy ordered ∅ := by
  have greedy := ((mirrors_initial inputs).chosenFrom ordered).1
  rw [greedy, Finset.empty_union]
  rfl

theorem chosen_nodup (ordered : List TransferCandidate) : (inputs.chosen ordered).Nodup :=
  ((mirrors_initial inputs).chosenFrom ordered).2.1

theorem chosen_independent (ordered : List TransferCandidate) :
    inputs.transferSystem.Independent (inputs.chosen ordered).toFinset := by
  rw [toFinset_chosen]
  exact IndependenceSystem.greedy_independent ordered inputs.transferSystem.empty

end Selection

section Optimality

variable {stock : List (String × List BookCopy)}

theorem utility_pos {candidate : TransferCandidate}
    (member : candidate ∈ inputs.candidates stock) : 0 < candidate.utility := by
  obtain ⟨isbn, copies, dest, source, _, _, _, worthwhile, found⟩ := mem_candidates_iff.mp member
  rw [TransferCandidate.utility, (candidate?_names found).priority, neg_neg]
  exact worthwhile.pays

/-- Among the candidates, the feasible sets are the independent ones: a
destination no member goes to had room when its candidate was found. -/
theorem feasible_iff {taken : Finset TransferCandidate} :
    inputs.Feasible (inputs.candidates stock).toFinset taken ↔
      taken ⊆ (inputs.candidates stock).toFinset ∧ inputs.transferSystem.Independent taken := by
  constructor
  · intro feasible
    exact ⟨feasible.included, feasible.copies, fun candidate member =>
      feasible.capacity candidate (feasible.included member)⟩
  · rintro ⟨included, copies, capacity⟩
    refine ⟨included, copies, ?_⟩
    intro candidate member
    rcases (sentTo taken candidate.destBranchId).eq_empty_or_nonempty with none | ⟨other, sent⟩
    · have room := candidate_room (List.mem_toFinset.mp member)
      simp only [saturated, decide_eq_false_iff_not, not_le] at room
      rw [none, Finset.card_empty]
      unfold inFlightTo
      omega
    · obtain ⟨listed, goes⟩ := mem_sentTo.mp sent
      rw [← goes]
      exact capacity other listed

/-- Whatever order the heap gives equally useful candidates, the plan is feasible,
nothing can be added to it, and it is worth at least half of any feasible set. -/
theorem chosen_half_of_optimum (inputs : PlanningInputs) (books : List (Heap BookCopy × Book))
    (popped : List TransferCandidate)
    (drains : Drains TransferCandidate.Before (inputs.candidates (physicalStock books)) popped) :
    let candidates := (inputs.candidates (physicalStock books)).toFinset
    let plan := (inputs.chosen popped).toFinset
    inputs.select popped = (inputs.chosen popped).map TransferCandidate.planned ∧
      (inputs.chosen popped).Nodup ∧
      (∀ candidate ∈ candidates, 0 < candidate.utility) ∧
      inputs.Feasible candidates plan ∧
      (∀ candidate ∈ candidates, candidate ∉ plan →
        ¬ inputs.Feasible candidates (insert candidate plan)) ∧
      ∀ other, inputs.Feasible candidates other →
        ∑ candidate ∈ other, candidate.utility ≤ 2 * ∑ candidate ∈ plan, candidate.utility := by
  intro candidates plan
  have listed : ∀ candidate, candidate ∈ popped ↔ candidate ∈ candidates := fun candidate =>
    drains.perm.mem_iff.trans List.mem_toFinset.symm
  have useful : ∀ candidate ∈ candidates, 0 < candidate.utility := fun candidate member =>
    utility_pos (List.mem_toFinset.mp member)
  have included : plan ⊆ candidates := fun candidate member =>
    (listed candidate).mp ((chosenFrom_sublist _ popped).subset (List.mem_toFinset.mp member))
  have greedy : plan = inputs.transferSystem.greedy popped ∅ := toFinset_chosen popped
  refine ⟨select_eq_map_chosen popped, chosen_nodup popped, useful,
    feasible_iff.mpr ⟨included, chosen_independent popped⟩, ?_, ?_⟩
  · intro candidate member left extended
    apply left
    have fits := (feasible_iff.mp extended).2
    rw [greedy] at fits ⊢
    exact IndependenceSystem.mem_greedy_of_fits ((listed candidate).mpr member) fits
  · intro other feasible
    obtain ⟨otherIncluded, independent⟩ := feasible_iff.mp feasible
    have sorted : popped.Pairwise fun first later => later.utility ≤ first.utility :=
      drains.sorted.imp fun before => neg_le_neg before
    have bound := IndependenceSystem.weight_le inputs.transferSystem_extendible (by decide) sorted
      (fun candidate member => (useful candidate ((listed candidate).mp member)).le) independent
      (fun candidate member => (listed candidate).mpr (otherIncluded member))
    rw [← greedy, two_nsmul, ← two_mul] at bound
    exact bound

/-- Two branches ask for the only copy to spare. -/
def twoRequests : PlanningInputs where
  branches := ((Dict.empty.set "DELHI" ⟨"DELHI", "", "", "", "", 0, 0⟩).set "PUNE"
    ⟨"PUNE", "", "", "", "", 1, 0⟩).set "GOA" ⟨"GOA", "", "", "", "", 2, 0⟩
  transfers := .empty
  forecaster := ⟨.empty, (Dict.empty.set ("B1", "PUNE") [10, 10, 10, 10, 10]).set ("B1", "GOA")
    [10, 10, 10, 10, 10]⟩
  referenceDate := 10
  maxTransfersPerBranch := 1

/-- A title with two copies on one shelf. -/
def twoOnShelf : List (Heap BookCopy × Book) :=
  [(⟨[.new "C1" "B1" "DELHI" "A-01" 100, .new "C2" "B1" "DELHI" "A-01" 100]⟩, {
    isbn := "B1"
    title := "Algorithms"
    authors := ["Cormen"]
    category := "Computing"
    publicationYear := 2009
    publisher := "MIT Press"
    description := ""
    rating := 5
    difficultyLevel := "Intermediate"
    keywords := []
    borrowHistoryCount := 0
    edition := .physical 500 400 ((Dict.empty.set "C1" 0).set "C2" 1) })]

/-- The copy goes to the nearer branch, and no feasible set is worth twice as much. -/
theorem chosen_half_of_optimum_two_requests :
    let candidates := (twoRequests.candidates (physicalStock twoOnShelf)).toFinset
    let ordered := (twoRequests.candidates (physicalStock twoOnShelf)).insertionSort
      TransferCandidate.Before
    (ordered.map fun candidate => (candidate.destBranchId, candidate.utility)) =
        [("PUNE", 4889 / 20), ("GOA", 2389 / 10)] ∧
      (twoRequests.chosen ordered).map TransferCandidate.copyId = ["C1"] ∧
      ∀ other, twoRequests.Feasible candidates other →
        ∑ candidate ∈ other, candidate.utility ≤
          2 * ∑ candidate ∈ (twoRequests.chosen ordered).toFinset, candidate.utility := by
  intro candidates ordered
  have drains : Drains TransferCandidate.Before
      (twoRequests.candidates (physicalStock twoOnShelf)) ordered :=
    .of_sorted (List.perm_insertionSort _ _) (List.pairwise_insertionSort _ _)
  have optimal := chosen_half_of_optimum twoRequests twoOnShelf ordered drains
  exact ⟨by decide +kernel, by decide +kernel, optimal.2.2.2.2.2⟩

end Optimality

end PlanningInputs

end LibraFlow.Ai
