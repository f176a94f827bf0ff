import LibraFlow.Storage.OutboxRelay

/-! Laws of the outbox store seen by event identifier, and what a claim does on
either backend. -/

set_option autoImplicit false

namespace LibraFlow.Storage.Outbox

open LibraFlow.Core

variable {π : Type}

def lookup (eventId : String) (store : List (OutboxEvent π)) : Option (OutboxEvent π) :=
  store.find? fun event => decide (event.eventId = eventId)

def ids (store : List (OutboxEvent π)) : List String := store.map OutboxEvent.eventId

theorem lookup_some {store : List (OutboxEvent π)} {eventId : String} {event : OutboxEvent π}
    (found : lookup eventId store = some event) : event ∈ store ∧ event.eventId = eventId :=
  ⟨List.mem_of_find?_eq_some found, by simpa using List.find?_some found⟩

theorem lookup_of_mem {store : List (OutboxEvent π)} {event : OutboxEvent π}
    (distinct : (ids store).Nodup) (member : event ∈ store) :
    lookup event.eventId store = some event := by
  induction store with
  | nil => cases member
  | cons first rest ih =>
      rw [ids, List.map_cons, List.nodup_cons] at distinct
      rw [lookup, List.find?_cons]
      rcases List.mem_cons.mp member with rfl | later
      · simp
      · have different : first.eventId ≠ event.eventId := by
          intro same
          exact distinct.1 (same ▸ List.mem_map_of_mem later)
        simpa [different, lookup] using ih distinct.2 later

theorem lookup_eq_none_iff {store : List (OutboxEvent π)} {eventId : String} :
    lookup eventId store = none ↔ eventId ∉ ids store := by
  simp [lookup, ids]

theorem lookup_saveEvent {store : List (OutboxEvent π)} {eventId topic other : String}
    {payload : π} {now : Datetime} (fresh : eventId ∉ ids store) :
    lookup other (saveEvent store eventId topic payload now) =
      if other = eventId then some (newEvent eventId topic payload now)
      else lookup other store := by
  have unknown := lookup_eq_none_iff.mpr fresh
  unfold lookup saveEvent at *
  rw [List.find?_append]
  split
  · next same =>
      subst other
      rw [unknown]
      simp [newEvent]
  · next different =>
      have skipped : (newEvent eventId topic payload now).eventId ≠ other := Ne.symm different
      simp [skipped]

private theorem ids_modifyFirst {store : List (OutboxEvent π)} {eventId : String}
    {change : OutboxEvent π → OutboxEvent π} (keeps : ∀ event, (change event).eventId = event.eventId) :
    ids (modifyFirst eventId change store) = ids store := by
  induction store with
  | nil => rfl
  | cons first rest ih =>
      unfold modifyFirst
      split
      · simp [ids, keeps]
      · simpa [ids] using ih

private theorem lookup_modifyFirst {store : List (OutboxEvent π)} {eventId other : String}
    {change : OutboxEvent π → OutboxEvent π} (keeps : ∀ event, (change event).eventId = event.eventId) :
    lookup other (modifyFirst eventId change store) =
      if other = eventId then (lookup other store).map change else lookup other store := by
  induction store with
  | nil => simp [lookup, modifyFirst]
  | cons first rest ih =>
      unfold lookup at ih ⊢
      unfold modifyFirst
      by_cases here : first.eventId = eventId
      · by_cases asked : other = eventId
        · simp [here, asked, keeps]
        · have skipped : eventId ≠ other := Ne.symm asked
          simp [here, asked, keeps, skipped]
      · rw [if_neg here, List.find?_cons, List.find?_cons]
        by_cases asked : first.eventId = other
        · have skipped : other ≠ eventId := fun same => here (asked.trans same)
          simp [asked, skipped]
        · simpa [asked] using ih

section Marks

variable {store : List (OutboxEvent π)} {eventId other : String} {now : Datetime}

theorem ids_markPublished : ids (markPublished eventId now store) = ids store :=
  ids_modifyFirst fun _ => rfl

theorem ids_markFailed : ids (markFailed eventId store) = ids store :=
  ids_modifyFirst fun _ => rfl

theorem lookup_markPublished : lookup other (markPublished eventId now store) =
    if other = eventId then (lookup other store).map (publish now) else lookup other store :=
  lookup_modifyFirst fun _ => rfl

theorem lookup_markFailed : lookup other (markFailed eventId store) =
    if other = eventId then (lookup other store).map fail else lookup other store :=
  lookup_modifyFirst fun _ => rfl

end Marks

end LibraFlow.Storage.Outbox

namespace LibraFlow.Storage.OutboxRelay

open LibraFlow.Core Outbox

variable {π : Type}

/-- What a claim guarantees on both backends. -/
structure Claimed (store batch after : List (OutboxEvent π)) : Prop where
  distinct : (ids batch).Nodup
  source : ∀ event ∈ batch, ∃ row, lookup event.eventId store = some row ∧
    row.status = .pending ∧ event = claimEvent row
  changed : ∀ eventId, lookup eventId after =
    (lookup eventId store).map fun row => if eventId ∈ ids batch then claimEvent row else row
  sameIds : ids after = ids store
  progress : batch = [] → ∀ row ∈ store, row.status ≠ .pending

/-- The events an in-memory claim takes, by its recursion over the store. -/
theorem fetchPending_spec (limit : Nat) (store : List (OutboxEvent π))
    (distinct : (ids store).Nodup) :
    (ids (fetchPending limit store).1).Nodup ∧
    (∀ event ∈ (fetchPending limit store).1, ∃ row ∈ store,
      row.status = .pending ∧ event = claimEvent row) ∧
    (fetchPending limit store).2 = store.map (fun row =>
      if row.eventId ∈ ids (fetchPending limit store).1 then claimEvent row else row) ∧
    (0 < limit → (fetchPending limit store).1 = [] → ∀ row ∈ store, row.status ≠ .pending) := by
  induction store generalizing limit with
  | nil => cases limit <;> simp [fetchPending, ids]
  | cons first rest ih =>
      rw [ids, List.map_cons, List.nodup_cons] at distinct
      obtain ⟨firstNew, restDistinct⟩ := distinct
      cases limit with
      | zero => simp [fetchPending, ids]
      | succ limit =>
          by_cases pending : first.status = .pending
          · obtain ⟨batchDistinct, source, after, _⟩ := ih limit restDistinct
            have outside : first.eventId ∉ ids (fetchPending limit rest).1 := by
              intro member
              obtain ⟨event, inBatch, same⟩ := List.mem_map.mp member
              obtain ⟨row, inRest, _, claimed⟩ := source event inBatch
              have rowId : row.eventId = first.eventId := by
                rw [← same, claimed]
                rfl
              exact firstNew (rowId ▸ List.mem_map_of_mem inRest)
            simp only [fetchPending, pending, ↓reduceIte]
            refine ⟨?_, ?_, ?_, ?_⟩
            · simp only [ids, List.map_cons, List.nodup_cons]
              exact ⟨outside, batchDistinct⟩
            · intro event member
              rcases List.mem_cons.mp member with rfl | later
              · exact ⟨first, by simp, pending, rfl⟩
              · obtain ⟨row, inRest, facts⟩ := source event later
                exact ⟨row, by simp [inRest], facts⟩
            · rw [List.map_cons, after]
              refine congrArg₂ List.cons (by simp [ids, claimEvent]) ?_
              apply List.map_congr_left
              intro row inRest
              have different : row.eventId ≠ first.eventId := by
                intro same
                exact firstNew (same ▸ List.mem_map_of_mem inRest)
              simp [ids, different]
            · intro _ empty
              cases empty
          · obtain ⟨batchDistinct, source, after, progress⟩ := ih (limit + 1) restDistinct
            have outside : first.eventId ∉ ids (fetchPending (limit + 1) rest).1 := by
              intro member
              obtain ⟨event, inBatch, same⟩ := List.mem_map.mp member
              obtain ⟨row, inRest, _, claimed⟩ := source event inBatch
              have rowId : row.eventId = first.eventId := by
                rw [← same, claimed]
                rfl
              exact firstNew (rowId ▸ List.mem_map_of_mem inRest)
            simp only [fetchPending, pending, ↓reduceIte]
            refine ⟨batchDistinct, ?_, ?_, ?_⟩
            · intro event member
              obtain ⟨row, inRest, facts⟩ := source event member
              exact ⟨row, by simp [inRest], facts⟩
            · rw [List.map_cons, if_neg outside]
              exact congrArg _ after
            · intro positive empty row member
              rcases List.mem_cons.mp member with rfl | later
              · exact pending
              · exact progress positive empty row later

private theorem ids_map_claim (store : List (OutboxEvent π)) (chosen : List String) :
    ids (store.map fun row => if row.eventId ∈ chosen then claimEvent row else row) =
      ids store := by
  simp only [ids, List.map_map]
  apply List.map_congr_left
  intro row _
  simp only [Function.comp_apply]
  split <;> rfl

private theorem lookup_map_claim (store : List (OutboxEvent π)) (chosen : List String)
    (eventId : String) :
    lookup eventId (store.map fun row =>
        if row.eventId ∈ chosen then claimEvent row else row) =
      (lookup eventId store).map fun row =>
        if eventId ∈ chosen then claimEvent row else row := by
  induction store with
  | nil => rfl
  | cons first rest ih =>
      unfold lookup at ih ⊢
      rw [List.map_cons, List.find?_cons, List.find?_cons]
      have keeps : (if first.eventId ∈ chosen then claimEvent first else first).eventId =
          first.eventId := by split <;> rfl
      rw [keeps]
      by_cases here : first.eventId = eventId
      · simp [here]
      · simpa [here] using ih

theorem Claims.claimed {backend : Backend} {store batch after : List (OutboxEvent π)}
    (claims : Claims backend store batch after) (distinct : (ids store).Nodup) :
    Claimed store batch after := by
  cases claims with
  | inMemory =>
      obtain ⟨batchDistinct, source, changed, progress⟩ :=
        fetchPending_spec batchLimit store distinct
      refine ⟨batchDistinct, ?_, ?_, ?_, progress (by decide)⟩
      · intro event member
        obtain ⟨row, inStore, pending, rfl⟩ := source event member
        exact ⟨row, lookup_of_mem distinct inStore, pending, rfl⟩
      · intro eventId
        rw [changed, lookup_map_claim]
      · rw [changed, ids_map_claim]
  | @postgres _ rows rowsDistinct pending size =>
      have member : ∀ row ∈ rows, row ∈ store ∧ row.status = .pending := fun row inRows => by
        simpa [pendingEvents] using pending row inRows
      have sameIds : ids (rows.map claimEvent) = rows.map OutboxEvent.eventId := by
        simp only [ids, List.map_map]
        rfl
      refine ⟨?_, ?_, ?_, ids_map_claim store _, ?_⟩
      · rw [sameIds]
        apply (List.nodup_map_iff_inj_on rowsDistinct).mpr
        intro left inLeft right inRight same
        have leftFound := lookup_of_mem distinct (member left inLeft).1
        have rightFound := lookup_of_mem distinct (member right inRight).1
        rw [same, rightFound, Option.some.injEq] at leftFound
        exact leftFound.symm
      · intro event inBatch
        obtain ⟨row, inRows, rfl⟩ := List.mem_map.mp inBatch
        exact ⟨row, lookup_of_mem distinct (member row inRows).1, (member row inRows).2, rfl⟩
      · intro eventId
        rw [lookup_map_claim, sameIds]
      · intro empty row inStore status
        have none : rows.length = 0 := by
          rw [List.map_eq_nil_iff.mp empty]
          rfl
        have waiting : row ∈ pendingEvents store := by simp [pendingEvents, inStore, status]
        have some := List.length_pos_of_mem waiting
        have limit : 0 < batchLimit := by decide
        omega

end LibraFlow.Storage.OutboxRelay
