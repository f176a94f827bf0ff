import LibraFlow.Ai.Rebalancing

/-! When the planner finds something to move. Every candidate is worth moving on
the inputs alone, and the first one off the heap always enters the plan. -/

set_option autoImplicit false

namespace LibraFlow.Ai

open LibraFlow.Core LibraFlow.Library LibraFlow.Distributed

/-- The same titles with their copies in another order. -/
def Reordered (left right : List (String × List BookCopy)) : Prop :=
  List.Forall₂ (fun before after => before.1 = after.1 ∧ before.2.Perm after.2) left right

instance : Std.Total TransferCandidate.Before :=
  ⟨fun left right => le_total left.priority right.priority⟩

instance : IsTrans TransferCandidate TransferCandidate.Before :=
  ⟨fun _ _ _ => le_trans⟩

/-- A reordered title lists the copies of the title it comes from. -/
theorem Reordered.mem {left right : List (String × List BookCopy)} {isbn : String}
    {copies : List BookCopy} (reordered : Reordered left right) (member : (isbn, copies) ∈ right) :
    ∃ before, (isbn, before) ∈ left ∧ before.Perm copies := by
  induction reordered with
  | nil => cases member
  | @cons first second before after same _ ih =>
      rcases List.mem_cons.mp member with here | later
      · rw [← here] at same
        obtain ⟨sameIsbn, sameCopies⟩ := same
        refine ⟨first.2, ?_, sameCopies⟩
        exact List.mem_cons.mpr (.inl (Prod.ext sameIsbn.symm rfl))
      · obtain ⟨old, listed, sameCopies⟩ := ih later
        exact ⟨old, List.mem_cons_of_mem _ listed, sameCopies⟩

namespace PlanningInputs

variable (inputs : PlanningInputs)

/-- The plans that differ in the order of equally useful candidates and of copies
within a branch only. -/
def Plans (books : List (Heap BookCopy × Book)) (plan : List PlannedTransfer) : Prop :=
  ∃ stock ordered, Reordered (physicalStock books) stock ∧
    ordered.Perm (inputs.candidates stock) ∧ ordered.Pairwise TransferCandidate.Before ∧
    inputs.select ordered = plan

/-- A title is short at one branch while another has a copy to spare, and moving
it pays. -/
structure Worthwhile (isbn : String) (copies : List BookCopy)
    (dest source : String × LibraryBranch) : Prop where
  elsewhere : source.1 ≠ dest.1
  room : inputs.saturated inputs.inFlightDest dest.1 = false
  short : needsStock (inputs.category isbn dest.1) (shelvedAt copies dest.1).length = true
  spare : 2 ≤ (shelvedAt copies source.1).length
  pays : 0 < demandWeight (inputs.category isbn dest.1) - transitCost source.2 dest.2

variable {inputs}

private theorem candidate?_isSome_iff {isbn : String} {copies : List BookCopy}
    {dest source : String × LibraryBranch} :
    (inputs.candidate? isbn copies dest source).isSome = true ↔
      source.1 ≠ dest.1 ∧ 2 ≤ (shelvedAt copies source.1).length ∧
        0 < demandWeight (inputs.category isbn dest.1) - transitCost source.2 dest.2 := by
  unfold candidate?
  by_cases same : source.1 = dest.1
  · simp [same]
  · rw [if_neg same]
    cases shelvedAt copies source.1 with
    | nil => simp
    | cons first rest =>
        cases rest with
        | nil => simp
        | cons second others =>
            by_cases pays : demandWeight (inputs.category isbn dest.1) -
                transitCost source.2 dest.2 ≤ 0
            · simp only [pays, ↓reduceIte, Option.isSome_none, Bool.false_eq_true, false_iff]
              exact fun conditions => absurd conditions.2.2 (not_lt_of_ge pays)
            · simpa [pays, same] using lt_of_not_ge pays

/-- What a candidate names: the first of several copies on the shelf of its source. -/
structure Names (inputs : PlanningInputs) (isbn : String) (copies : List BookCopy)
    (dest source : String × LibraryBranch) (candidate : TransferCandidate) : Prop where
  title : candidate.isbn = isbn
  leaves : candidate.sourceBranchId = source.1
  goes : candidate.destBranchId = dest.1
  priority : candidate.priority =
    -(demandWeight (inputs.category isbn dest.1) - transitCost source.2 dest.2)
  first : (shelvedAt copies source.1).head?.map BookCopy.copyId = some candidate.copyId

theorem candidate?_names {isbn : String} {copies : List BookCopy}
    {dest source : String × LibraryBranch} {candidate : TransferCandidate}
    (found : inputs.candidate? isbn copies dest source = some candidate) :
    inputs.Names isbn copies dest source candidate := by
  unfold candidate? at found
  split at found
  · cases found
  · split at found
    · next shelved =>
        simp only at found
        split at found
        · cases found
        · cases found
          exact ⟨rfl, rfl, rfl, rfl, by rw [shelved]; rfl⟩
    · cases found

theorem mem_candidates_iff {stock : List (String × List BookCopy)}
    {candidate : TransferCandidate} :
    candidate ∈ inputs.candidates stock ↔ ∃ isbn copies dest source, (isbn, copies) ∈ stock ∧
      dest ∈ inputs.branches.entries ∧ source ∈ inputs.branches.entries ∧
      inputs.Worthwhile isbn copies dest source ∧
      inputs.candidate? isbn copies dest source = some candidate := by
  simp only [candidates, List.mem_flatMap]
  constructor
  · rintro ⟨⟨isbn, copies⟩, listed, dest, destListed, member⟩
    unfold candidatesFor at member
    split at member
    · cases member
    · next room =>
        split at member
        · next short =>
            obtain ⟨source, sourceListed, found⟩ := List.mem_filterMap.mp member
            obtain ⟨elsewhere, spare, pays⟩ :=
              candidate?_isSome_iff.mp (Option.isSome_of_eq_some found)
            exact ⟨isbn, copies, dest, source, listed, destListed, sourceListed,
              ⟨elsewhere, by simpa using room, short, spare, pays⟩, found⟩
        · cases member
  · rintro ⟨isbn, copies, dest, source, listed, destListed, sourceListed, worthwhile, found⟩
    refine ⟨(isbn, copies), listed, dest, destListed, ?_⟩
    unfold candidatesFor
    rw [worthwhile.room, worthwhile.short]
    exact List.mem_filterMap.mpr ⟨source, sourceListed, found⟩

theorem candidates_eq_nil_iff {stock : List (String × List BookCopy)} :
    inputs.candidates stock = [] ↔ ∀ isbn copies dest source, (isbn, copies) ∈ stock →
      dest ∈ inputs.branches.entries → source ∈ inputs.branches.entries →
      ¬ inputs.Worthwhile isbn copies dest source := by
  constructor
  · intro empty isbn copies dest source listed destListed sourceListed worthwhile
    obtain ⟨candidate, found⟩ := Option.isSome_iff_exists.mp
      (candidate?_isSome_iff.mpr ⟨worthwhile.elsewhere, worthwhile.spare, worthwhile.pays⟩)
    have member : candidate ∈ inputs.candidates stock := mem_candidates_iff.mpr
      ⟨isbn, copies, dest, source, listed, destListed, sourceListed, worthwhile, found⟩
    rw [empty] at member
    cases member
  · intro balanced
    apply List.eq_nil_iff_forall_not_mem.mpr
    intro candidate member
    obtain ⟨isbn, copies, dest, source, listed, destListed, sourceListed, worthwhile, _⟩ :=
      mem_candidates_iff.mp member
    exact balanced isbn copies dest source listed destListed sourceListed worthwhile

theorem Worthwhile.perm {isbn : String} {before after : List BookCopy}
    {dest source : String × LibraryBranch} (worthwhile : inputs.Worthwhile isbn before dest source)
    (reordered : before.Perm after) : inputs.Worthwhile isbn after dest source := by
  have same : ∀ branchId, (shelvedAt after branchId).length = (shelvedAt before branchId).length :=
    fun branchId => (reordered.filter _).length_eq.symm
  exact ⟨worthwhile.elsewhere, worthwhile.room, by rw [same]; exact worthwhile.short,
    by rw [same]; exact worthwhile.spare, worthwhile.pays⟩

/-- Reordering copies makes no new candidates. -/
theorem candidates_nil_of_reordered {before after : List (String × List BookCopy)}
    (reordered : Reordered before after) (empty : inputs.candidates before = []) :
    inputs.candidates after = [] := by
  rw [candidates_eq_nil_iff] at empty ⊢
  intro isbn copies dest source listed destListed sourceListed worthwhile
  obtain ⟨old, oldListed, sameCopies⟩ := reordered.mem listed
  exact empty isbn old dest source oldListed destListed sourceListed
    (worthwhile.perm sameCopies.symm)

private theorem consider_extends_plan (selection : Selection) (candidate : TransferCandidate) :
    selection.plan <+: (inputs.consider selection candidate).plan := by
  unfold consider
  split
  · exact List.prefix_rfl
  · split
    · exact List.prefix_rfl
    · exact List.prefix_append _ _

private theorem foldl_plan_prefix (ordered : List TransferCandidate) (selection : Selection) :
    selection.plan <+: (ordered.foldl inputs.consider selection).plan := by
  induction ordered generalizing selection with
  | nil => exact List.prefix_rfl
  | cons candidate rest ih =>
      exact (consider_extends_plan selection candidate).trans (ih (inputs.consider selection candidate))

/-- The first candidate finds its copy free and its destination as it was. -/
theorem select_cons_ne_nil {first : TransferCandidate} {rest : List TransferCandidate}
    (room : inputs.saturated inputs.inFlightDest first.destBranchId = false) :
    inputs.select (first :: rest) ≠ [] := by
  intro nothing
  have kept : _ <+: (rest.foldl inputs.consider
      (inputs.consider ⟨[], [], inputs.inFlightDest⟩ first)).plan := foldl_plan_prefix rest _
  unfold select at nothing
  rw [List.foldl_cons] at nothing
  rw [nothing, List.prefix_nil] at kept
  simp [consider, room] at kept

theorem candidate_room {stock : List (String × List BookCopy)} {candidate : TransferCandidate}
    (member : candidate ∈ inputs.candidates stock) :
    inputs.saturated inputs.inFlightDest candidate.destBranchId = false := by
  obtain ⟨isbn, copies, dest, source, _, _, _, worthwhile, found⟩ := mem_candidates_iff.mp member
  rw [(candidate?_names found).goes]
  exact worthwhile.room

private theorem select_eq_nil_iff {stock : List (String × List BookCopy)}
    {ordered : List TransferCandidate} (arranged : ordered.Perm (inputs.candidates stock)) :
    inputs.select ordered = [] ↔ inputs.candidates stock = [] := by
  cases ordered with
  | nil =>
      rw [List.nil_perm] at arranged
      simp [select, arranged]
  | cons first rest =>
      have member : first ∈ inputs.candidates stock := arranged.subset (by simp)
      constructor
      · intro nothing
        exact absurd nothing (select_cons_ne_nil (candidate_room member))
      · intro empty
        rw [empty] at member
        cases member

/-- The computed plan is one of the plans of its listing. -/
theorem plans_calculate (inputs : PlanningInputs) (books : List (Heap BookCopy × Book)) :
    inputs.Plans books (calculateRebalancingPlan inputs books) := by
  refine ⟨physicalStock books, _, ?_, List.perm_insertionSort _ _, ?_, rfl⟩
  · exact List.forall₂_same.mpr fun entry _ => ⟨rfl, .refl _⟩
  · exact List.pairwise_insertionSort _ _

theorem plan_nil_of_candidates_nil {books : List (Heap BookCopy × Book)}
    {plan : List PlannedTransfer} (empty : inputs.candidates (physicalStock books) = [])
    (plans : inputs.Plans books plan) : plan = [] := by
  obtain ⟨stock, ordered, reordered, arranged, _, rfl⟩ := plans
  exact (select_eq_nil_iff arranged).mpr (candidates_nil_of_reordered reordered empty)

private theorem calculate_eq_nil_iff (inputs : PlanningInputs)
    (books : List (Heap BookCopy × Book)) :
    calculateRebalancingPlan inputs books = [] ↔
      inputs.candidates (physicalStock books) = [] :=
  select_eq_nil_iff (List.perm_insertionSort _ _)

/-- Against a listing on which nothing can be planned, another listing has the
same plans exactly when nothing can be planned on it either. -/
theorem same_plans_iff {left right : List (Heap BookCopy × Book)}
    (nothing : inputs.candidates (physicalStock right) = []) :
    (∀ plan, inputs.Plans left plan ↔ inputs.Plans right plan) ↔
      inputs.candidates (physicalStock left) = [] := by
  constructor
  · intro same
    have planned := (same _).mp (plans_calculate inputs left)
    exact (calculate_eq_nil_iff inputs left).mp (plan_nil_of_candidates_nil nothing planned)
  · intro empty plan
    have leftNil := (calculate_eq_nil_iff inputs left).mpr empty
    have rightNil := (calculate_eq_nil_iff inputs right).mpr nothing
    constructor
    · intro plans
      rw [plan_nil_of_candidates_nil empty plans, ← rightNil]
      exact plans_calculate inputs right
    · intro plans
      rw [plan_nil_of_candidates_nil nothing plans, ← leftNil]
      exact plans_calculate inputs left

end PlanningInputs

end LibraFlow.Ai
