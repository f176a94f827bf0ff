import LibraFlow.Container.Stock
import LibraFlow.Storage.Acquisition

/-! Adding copies to the in-memory container. Nothing checks whether the copy
identifier is in use, so the exact condition for leaving the circulating stock
alone is found on the state before the call. -/

set_option autoImplicit false

namespace LibraFlow.Container

open LibraFlow.Core LibraFlow.Library LibraFlow.Storage LibraFlow.Storage.BookRepository
  LibraFlow.Patterns LibraFlow.Services

def StockKeyed (state : State) : Prop := state.bookRepo.Keyed

theorem Restocks.keyed {before after : BookRepository} {operation : Operation}
    (restocks : Restocks before operation after) (keyed : before.Keyed) : after.Keyed := by
  cases restocks with
  | circulates edits => exact keyed.copyEdits edits
  | lists accepted =>
      refine keyed.saveBook ?_
      intro listed copyId ref edition member
      rw [createBook_ok accepted listed edition] at member
      cases member
  | acquires found =>
      have stored := (Option.filter_eq_some_iff.mp found).1
      exact (keyed.attach stored rfl).resaveBook _

theorem run_keyed {branchRepo registered : Dict String Distributed.LibraryBranch}
    {trace : List (Transition State TimedOperation)} {final : State}
    (run : Run Step (State.empty branchRepo registered) trace final) : StockKeyed final := by
  refine run.always keyed_empty ?_
  intro before call after keyed step
  cases step
  exact (exec_restocks call.operation call.now before).keyed keyed

/-- The identifier is not in use, or by a copy that looks like a new one, and the
title lists no copy that differs from the one in the store. A title that is not
physical takes no copies at all. -/
def sparesStock (repository : BookRepository) (isbn copyId : String) : Bool :=
  match physicalOnly (repository.getBook isbn) with
  | none => true
  | some book =>
      ((repository.view copyId).all fun old =>
        old.circulating = ⟨isbn, .available, none, none, none, 0⟩) &&
      book.copies?.all fun listed => listed.entries.all fun (other, ref) =>
        other = copyId || (repository.view other).all fun old =>
          (repository.objects.read? ref).all fun object => object.circulating = old.circulating

theorem addPhysicalCopy_undisturbed_iff {state : State} (keyed : StockKeyed state)
    (isbn copyId branchId shelfLocation : String) (price : ℚ) (actorId : String)
    (now : Datetime) :
    Undisturbed state.users.get? state.bookRepo.view (addPhysicalCopy isbn copyId branchId
        shelfLocation price actorId now state).2.bookRepo.view ↔
      sparesStock state.bookRepo isbn copyId = true := by
  rw [undisturbed_iff]
  cases found : physicalOnly (state.bookRepo.getBook isbn) with
  | none =>
      have unchanged : (addPhysicalCopy isbn copyId branchId shelfLocation price actorId now
          state).2.bookRepo = state.bookRepo := by
        simp only [addPhysicalCopy, Proc.read_bind_apply, found, Proc.expect_none_bind_apply]
      simp only [sparesStock, found, unchanged, iff_true]
      intro other old held
      exact ⟨old, held, rfl⟩
  | some book =>
      obtain ⟨stored, physical⟩ := Option.filter_eq_some_iff.mp found
      obtain ⟨listed, edition⟩ := Option.isSome_iff_exists.mp physical
      have reached : (addPhysicalCopy isbn copyId branchId shelfLocation price actorId now
          state).2.bookRepo = ((state.bookRepo.attach isbn book
            (.new copyId isbn branchId shelfLocation price)).saveCopy
              state.bookRepo.objects.next).resaveBook isbn := by
        simp only [addPhysicalCopy, Proc.read_bind_apply, found]
        rfl
      have title : (BookCopy.new copyId isbn branchId shelfLocation price).bookIsbn = isbn := rfl
      have view := keyed.view_attach stored edition title
      simp only [reached, view, sparesStock, found, edition, Option.all_some, Bool.and_eq_true,
        List.all_eq_true, Prod.forall, ← Dict.get?_eq_some_iff, Option.all_eq_true,
        Bool.or_eq_true, decide_eq_true_eq]
      constructor
      · intro kept
        refine ⟨?_, ?_⟩
        · intro old held
          obtain ⟨new, isNew, same⟩ := kept copyId old held
          simp only [BookCopy.new, ↓reduceIte, Option.some.injEq] at isNew
          rw [← same, ← isNew]
          rfl
        · intro other ref member
          by_cases reused : other = copyId
          · exact .inl reused
          · right
            intro old held object read
            obtain ⟨new, isNew, same⟩ := kept other old held
            simp only [BookCopy.new, Ne.symm reused, ↓reduceIte, member, read,
              Option.some.injEq] at isNew
            rw [isNew]
            exact same
      · rintro ⟨fresh, relisted⟩ other old held
        by_cases reused : copyId = other
        · subst other
          refine ⟨_, if_pos rfl, ?_⟩
          rw [fresh old held]
          rfl
        · simp only [BookCopy.new, reused, ↓reduceIte]
          cases member : listed.get? other with
          | none => exact ⟨old, held, rfl⟩
          | some ref =>
              obtain ⟨object, read, _⟩ :=
                keyed.titleIds isbn book listed other ref stored edition member
              have same := (relisted other ref member).resolve_left (Ne.symm reused)
              exact ⟨object, read, same old held object read⟩

end LibraFlow.Container
