import FlatFileDb.Error

/-!
# Steps that change a state and may fail

A step takes a state to a result and a state. What was changed before a failure stays changed: the
state comes back in both cases.
-/

namespace FlatFileDb

/-- A step on a state that may fail. -/
def Action (σ α : Type) : Type :=
  σ → Except Error α × σ

namespace Action

variable {σ τ α β : Type}

instance : Monad (Action σ) where
  pure a := fun s => (.ok a, s)
  bind step next := fun s =>
    match step s with
    | (.ok a, s) => next a s
    | (.error e, s) => (.error e, s)

instance : MonadExceptOf Error (Action σ) where
  throw e := fun s => (.error e, s)
  tryCatch step handle := fun s =>
    match step s with
    | (.ok a, s) => (.ok a, s)
    | (.error e, s) => handle e s

/-- The state. -/
def get : Action σ σ :=
  fun s => (.ok s, s)

/-- Changes the state. -/
def modify (f : σ → σ) : Action σ Unit :=
  fun s => (.ok (), f s)

/-- A result that does not touch the state. -/
def ofExcept (result : Except Error α) : Action σ α :=
  fun s => (result, s)

/-- A result that is read off the state. -/
def read (f : σ → Except Error α) : Action σ α :=
  fun s => (f s, s)

/-- A step whose failure is passed over; what it changed stays changed. -/
def attempt (step : Action σ α) : Action σ Unit :=
  fun s => (.ok (), (step s).2)

/-- A step on a part of a larger state. -/
def onPart (part : σ → τ) (put : τ → σ → σ) (step : Action τ α) : Action σ α :=
  fun s =>
    let (result, t) := step (part s)
    (result, put t s)

@[simp] theorem pure_apply (a : α) (s : σ) : (pure a : Action σ α) s = (.ok a, s) := rfl

theorem bind_apply (step : Action σ α) (next : α → Action σ β) (s : σ) :
    (step >>= next) s
      = match step s with
        | (.ok a, s) => next a s
        | (.error e, s) => (.error e, s) := rfl

@[simp] theorem throw_apply (e : Error) (s : σ) :
    (throw e : Action σ α) s = (.error e, s) := rfl

end Action

end FlatFileDb
