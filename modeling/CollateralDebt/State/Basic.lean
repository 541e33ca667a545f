import CollateralDebt.Ledger
import CollateralDebt.StabilityPool.Basic
import CollateralDebt.Surplus

/-!
The state that outlives the program: parameters, troves, deposits and surplus.
-/

namespace CollateralDebt

/-- Everything that is needed to resume. -/
structure State where
  version : Nat
  params : Params
  ledger : Ledger
  pool : StabilityPool
  surplus : Surplus
  deriving DecidableEq

namespace State

/-- The version of the format that is written and read. -/
def currentVersion : Nat := 1

/-- The state without troves, deposits and surplus. -/
def empty (p : Params) : State := ⟨currentVersion, p, .empty, .ofParams p, .empty⟩

instance : Inhabited State := ⟨empty .standard⟩

def create (p : Params) : Except Error State := p.check.map fun _ => empty p

/-- The state is in order: its parameters make sense, its ledger is in order, and its pool has a product and is
scaled as the parameters say. -/
def check (s : State) : Except Error Unit := do
  s.params.check
  s.ledger.check
  if s.pool.product.isZero then throw (.invalidParameter "stability_pool" "product factor is zero")
  if s.pool.factor ≠ .ofWord s.params.productFactor ∨ s.pool.floor ≠ .ofWord s.params.productFloor then
    throw (.invalidParameter "stability_pool" "P scaling differs from parameters")

end State

end CollateralDebt
