import CollateralDebt.Error

/-!
Actions on a state. An action gives a result or an error and, in either case, the state it leaves: what was
written before a failure stays written, so an action that fails without a trace has to make its checks first.
-/

namespace CollateralDebt

/-- A step that reads and writes a state and may fail. -/
abbrev Action (σ : Type) := EStateM Error σ

namespace Action

variable {σ τ α β : Type}

def ofExcept (result : Except Error α) : Action σ α := fun state =>
  match result with
  | .ok a => .ok a state
  | .error error => .error error state

instance : MonadLift (Except Error) (Action σ) := ⟨ofExcept⟩

/-- An action on a part of a state: the part it leaves is put back, also after a failure. -/
def onPart (part : τ → σ) (putBack : σ → τ → τ) (action : Action σ α) : Action τ α := fun whole =>
  match action (part whole) with
  | .ok a state => .ok a (putBack state whole)
  | .error error state => .error error (putBack state whole)

/-- The state that an action leaves and its result. -/
def perform (action : Action σ α) (state : σ) : σ × Except Error α :=
  match action state with
  | .ok a state => (state, .ok a)
  | .error error state => (state, .error error)

@[simp] theorem perform_pure (a : α) (state : σ) : perform (pure a) state = (state, .ok a) := rfl

@[simp] theorem perform_throw (error : Error) (state : σ) :
    perform (throw error : Action σ α) state = (state, .error error) := rfl

/-- A result that needs no state leaves the state alone. -/
@[simp] theorem perform_ofExcept (result : Except Error α) (state : σ) :
    perform (ofExcept result) state = (state, result) := by
  cases result <;> rfl

/-- The second of two actions starts from the state that the first one leaves, and is left out if that fails. -/
theorem perform_bind (first : Action σ α) (next : α → Action σ β) (state : σ) :
    perform (first >>= next) state =
      match perform first state with
      | (after, .ok a) => perform (next a) after
      | (after, .error error) => (after, .error error) := by
  simp only [perform, bind, EStateM.bind]
  cases first state <;> rfl

theorem perform_onPart (part : τ → σ) (putBack : σ → τ → τ) (action : Action σ α) (whole : τ) :
    perform (onPart part putBack action) whole =
      (putBack (perform action (part whole)).1 whole, (perform action (part whole)).2) := by
  simp only [perform, onPart]
  cases action (part whole) <;> rfl

end Action

end CollateralDebt
