import LibraFlow.Ai.RebalancingProperties
import LibraFlow.Postgres.Acquisition
import LibraFlow.Storage.Loading

/-! The planner over the two backends. The in-memory repository lists titles with
their copies; the PostgreSQL repository assembles the titles of a listing from
their rows alone. -/

set_option autoImplicit false

namespace LibraFlow.Postgres

open LibraFlow.Core LibraFlow.Library LibraFlow.Storage LibraFlow.Distributed LibraFlow.Ai

namespace Tables

/-- No copies are loaded for a listing. -/
def listBooks (tables : Tables) : List (Heap BookCopy × Book) :=
  tables.books.rows.values.map fun model => modelToBook model []

/-- The in-memory repository with the same titles and copies. -/
def inMemory (tables : Tables) : BookRepository :=
  .load tables.books.rows.values tables.copies.rows.values

/-- The physical titles with their copies, as the tables have them. -/
def stock (tables : Tables) : List (String × List BookCopy) :=
  tables.books.rows.values.filterMap fun model =>
    model.copies?.map fun _ => (model.isbn, tables.copiesOf model.isbn)

private theorem isbns_nodup (tables : Tables) : (tables.books.rows.values.map Book.isbn).Nodup := by
  have keys : tables.books.rows.values.map Book.isbn = tables.books.rows.entries.map Prod.fst := by
    rw [Dict.values, List.map_map]
    apply List.map_congr_left
    rintro ⟨isbn, model⟩ member
    exact tables.books.keyed isbn model ((Dict.get?_eq_some_iff _ _ _).mpr member)
  exact keys ▸ tables.books.rows.keysNodup

/-- In memory every physical title is listed with its copies. -/
theorem physicalStock_inMemory (tables : Tables) :
    physicalStock tables.inMemory.listBooks = tables.stock := by
  have filled : BookRepository.Filled tables.books.rows.values tables.copies.rows.values
      tables.inMemory :=
    BookRepository.filled_load tables.isbns_nodup tables.copyIds_nodup
  unfold BookRepository.Filled at filled
  unfold physicalStock BookRepository.listBooks stock copiesOf Dict.values
  unfold Dict.values at filled
  rw [List.map_map, List.filterMap_map]
  generalize tables.inMemory.books.entries = entries at filled
  generalize tables.books.rows.entries.map Prod.snd = titles at filled
  induction filled with
  | nil => rfl
  | @cons title entry _ _ holds _ ih =>
      obtain ⟨_, assembled⟩ := holds
      rw [List.filterMap_cons, List.filterMap_cons, ih]
      cases edition : entry.2.copies? with
      | none =>
          have none : title.copies? = none := by
            simpa [edition] using assembled.format.symm
          simp [edition, none]
      | some listed =>
          obtain ⟨_, some⟩ : ∃ old, title.copies? = some old := by
            simpa [edition, Option.isSome_iff_exists] using assembled.format.symm
          simp [edition, some, assembled.isbn, assembled.copies listed edition]

/-- A title of a PostgreSQL listing has no copies. -/
theorem mem_physicalStock {tables : Tables} {isbn : String} {copies : List BookCopy}
    (member : (isbn, copies) ∈ physicalStock tables.listBooks) : copies = [] := by
  obtain ⟨⟨objects, book⟩, listed, same⟩ := List.mem_filterMap.mp member
  obtain ⟨model, _, assembled⟩ := List.mem_map.mp listed
  obtain ⟨held, edition, pair⟩ := Option.map_eq_some_iff.mp same
  cases assembled
  cases pair
  have nothing : held = .empty := by
    cases format : model.edition <;> simp [Book.copies?, loadEdition, format] at edition
    exact edition.symm
  rw [nothing]
  rfl

private theorem candidates_listBooks (inputs : PlanningInputs) (tables : Tables) :
    inputs.candidates (physicalStock tables.listBooks) = [] := by
  rw [PlanningInputs.candidates_eq_nil_iff]
  intro isbn copies dest source member _ _ worthwhile
  have spare := worthwhile.spare
  rw [mem_physicalStock member] at spare
  cases spare

end Tables

/-- What the planner reads besides the titles, over the branches of the tables. -/
def planningInputs (tables : Tables) (transfers : Dict String TransferRequest)
    (forecaster : DemandForecaster) (referenceDate : Nat) (maxTransfersPerBranch : Int) :
    PlanningInputs :=
  ⟨tables.branches, transfers, forecaster, referenceDate, maxTransfersPerBranch⟩

/-- Both backends plan the same, up to the order of equally useful candidates and
of copies within a branch, exactly when no physical title is worth moving. -/
theorem same_plans_iff_balanced (tables : Tables) (transfers : Dict String TransferRequest)
    (forecaster : DemandForecaster) (referenceDate : Nat) (maxTransfersPerBranch : Int) :
    let inputs := planningInputs tables transfers forecaster referenceDate maxTransfersPerBranch
    (∀ plan, inputs.Plans tables.inMemory.listBooks plan ↔
        inputs.Plans tables.listBooks plan) ↔
      ∀ isbn model dest source, tables.books.get? isbn = some model → model.copies?.isSome →
        dest ∈ tables.branches.entries → source ∈ tables.branches.entries →
        ¬ inputs.Worthwhile isbn (tables.copiesOf isbn) dest source := by
  intro inputs
  rw [PlanningInputs.same_plans_iff (tables.candidates_listBooks inputs),
    tables.physicalStock_inMemory, PlanningInputs.candidates_eq_nil_iff]
  constructor
  · intro balanced isbn model dest source found physical
    obtain ⟨listed, edition⟩ := Option.isSome_iff_exists.mp physical
    refine balanced isbn (tables.copiesOf isbn) dest source ?_
    refine List.mem_filterMap.mpr ⟨model, (Dict.mem_values_iff _ _).mpr ⟨isbn, found⟩, ?_⟩
    rw [edition, Option.map_some, Table.key_of_get? found]
  · intro balanced isbn copies dest source member
    obtain ⟨model, listed, same⟩ := List.mem_filterMap.mp member
    obtain ⟨key, found⟩ := (Dict.mem_values_iff _ _).mp listed
    obtain ⟨_, edition, pair⟩ := Option.map_eq_some_iff.mp same
    have identity : model.isbn = key := tables.books.keyed key model found
    cases pair
    rw [← identity] at found
    exact balanced model.isbn model dest source found (by simp [edition])

/-- Five readers took the title at the second branch today; both copies are on
the shelf of the first. -/
def surgeAtPune : DemandForecaster :=
  ⟨.empty, Dict.empty.set ("B1", "PUNE") [10, 10, 10, 10, 10]⟩

/-- In memory one copy is sent to the branch with the surge, on PostgreSQL none. -/
theorem surge_planned_in_memory_only :
    ∃ tables transfers forecaster referenceDate maxTransfersPerBranch,
      ¬ ∀ plan, (planningInputs tables transfers forecaster referenceDate
          maxTransfersPerBranch).Plans tables.inMemory.listBooks plan ↔
        (planningInputs tables transfers forecaster referenceDate maxTransfersPerBranch).Plans
          tables.listBooks plan := by
  refine ⟨smallLibrary, .empty, surgeAtPune, 10, 3, ?_⟩
  have planned : calculateRebalancingPlan (planningInputs smallLibrary .empty surgeAtPune 10 3)
      smallLibrary.inMemory.listBooks =
      [⟨"B1", "C1", "DELHI", "PUNE", 24215 / 100, 785 / 100⟩] := by decide +kernel
  intro same
  have nothing := PlanningInputs.plan_nil_of_candidates_nil (Tables.candidates_listBooks _ _)
    ((same _).mp (PlanningInputs.plans_calculate _ _))
  rw [planned] at nothing
  cases nothing

end LibraFlow.Postgres
