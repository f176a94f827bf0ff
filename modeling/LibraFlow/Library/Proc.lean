import Mathlib.Init

/-! Procedures that read and update a state and may raise. Raising keeps every
update made before it: nothing is rolled back unless a caller does so. -/

set_option autoImplicit false

namespace LibraFlow.Library

/-- A procedure over states `σ` that returns an `α` or raises an `ε`. -/
def Proc (σ ε α : Type) : Type := σ → Except ε α × σ

namespace Proc

variable {σ ε α β : Type}

def pure (value : α) : Proc σ ε α := fun state => (.ok value, state)

def bind (first : Proc σ ε α) (next : α → Proc σ ε β) : Proc σ ε β := fun state =>
  match first state with
  | (.ok value, after) => next value after
  | (.error error, after) => (.error error, after)

instance : Monad (Proc σ ε) where
  pure := pure
  bind := bind

def raise (error : ε) : Proc σ ε α := fun state => (.error error, state)

def read (view : σ → α) : Proc σ ε α := fun state => (.ok (view state), state)

def update (change : σ → σ) : Proc σ ε Unit := fun state => (.ok (), change state)

/-- The value of an optional lookup, or an exception. -/
def expect (error : ε) : Option α → Proc σ ε α
  | some value => pure value
  | none => raise error

/-- Re-raise the failure of a pure computation. -/
def lift {δ : Type} (convert : δ → ε) : Except δ α → Proc σ ε α
  | .ok value => pure value
  | .error error => raise (convert error)

/-- Raise unless the condition holds. -/
def check (condition : Bool) (error : ε) : Proc σ ε Unit :=
  if condition then pure () else raise error

@[simp] theorem pure_apply (value : α) (state : σ) :
    (Pure.pure value : Proc σ ε α) state = (.ok value, state) := rfl

@[simp] theorem raise_apply (error : ε) (state : σ) :
    (raise error : Proc σ ε α) state = (.error error, state) := rfl

@[simp] theorem read_bind_apply (view : σ → α) (next : α → Proc σ ε β) (state : σ) :
    (read view >>= next) state = next (view state) state := rfl

@[simp] theorem update_bind_apply (change : σ → σ) (next : Unit → Proc σ ε β) (state : σ) :
    (update change >>= next) state = next () (change state) := rfl

@[simp] theorem update_apply (change : σ → σ) (state : σ) :
    (update change : Proc σ ε Unit) state = (.ok (), change state) := rfl

@[simp] theorem pure_bind_apply (value : α) (next : α → Proc σ ε β) (state : σ) :
    ((Pure.pure value : Proc σ ε α) >>= next) state = next value state := rfl

@[simp] theorem raise_bind_apply (error : ε) (next : α → Proc σ ε β) (state : σ) :
    ((raise error : Proc σ ε α) >>= next) state = (.error error, state) := rfl

@[simp] theorem expect_some_bind_apply (error : ε) (value : α) (next : α → Proc σ ε β)
    (state : σ) : (expect error (some value) >>= next) state = next value state := rfl

@[simp] theorem expect_none_bind_apply (error : ε) (next : α → Proc σ ε β) (state : σ) :
    (expect error (none : Option α) >>= next) state = (.error error, state) := rfl

@[simp] theorem lift_ok_bind_apply {δ : Type} (convert : δ → ε) (value : α)
    (next : α → Proc σ ε β) (state : σ) :
    (lift convert (.ok value) >>= next) state = next value state := rfl

@[simp] theorem lift_error_bind_apply {δ : Type} (convert : δ → ε) (error : δ)
    (next : α → Proc σ ε β) (state : σ) :
    (lift convert (.error error : Except δ α) >>= next) state =
      (.error (convert error), state) := rfl

@[simp] theorem check_true_bind_apply (error : ε) (next : Unit → Proc σ ε β) (state : σ) :
    (check true error >>= next) state = next () state := rfl

@[simp] theorem check_false_bind_apply (error : ε) (next : Unit → Proc σ ε β) (state : σ) :
    (check false error >>= next) state = (.error error, state) := rfl

/-- Sequencing after an arbitrary procedure, by its outcome. -/
theorem bind_apply (first : Proc σ ε α) (next : α → Proc σ ε β) (state : σ) :
    (first >>= next) state =
      match first state with
      | (.ok value, after) => next value after
      | (.error error, after) => (.error error, after) := rfl

end Proc

end LibraFlow.Library
