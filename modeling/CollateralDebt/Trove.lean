import CollateralDebt.Address
import CollateralDebt.Amount.Arithmetic

/-!
Troves: positions of debt against collateral. A record holds the amounts that are settled; what redistributions
have added since the record's snapshot is still pending and not part of them.
-/

namespace CollateralDebt

/-- What redistributions have added up to for each unit staked. -/
structure Level where
  /-- Collateral for each unit staked. -/
  collateral : Amount
  debt : Amount
  deriving DecidableEq, Repr

def Level.zero : Level := ⟨.zero, .zero⟩

/-- Where a trove stands in its life. -/
inductive TroveStatus where
  | nonExistent
  | active
  | closedByOwner
  | closedByLiquidation
  deriving DecidableEq, Repr

/-- Whether the trove was open once and is no more. -/
def TroveStatus.isTerminal : TroveStatus → Bool
  | .closedByOwner | .closedByLiquidation => true
  | _ => false

namespace TroveStatus

def name : TroveStatus → String
  | nonExistent => "NonExistent"
  | active => "Active"
  | closedByOwner => "ClosedByOwner"
  | closedByLiquidation => "ClosedByLiquidation"

def ofName? (name : String) : Option TroveStatus :=
  [nonExistent, active, closedByOwner, closedByLiquidation].find? fun status => status.name == name

@[simp] theorem ofName?_name (status : TroveStatus) : ofName? status.name = some status := by
  cases status <;> rfl

end TroveStatus

/-- The record of an account's trove. -/
structure Trove where
  owner : Address
  debt : Amount
  /-- The settled collateral. -/
  collateral : Amount
  /-- The share of redistributions that the trove takes. -/
  stake : Amount
  status : TroveStatus
  /-- The place of an active trove's owner in the row of owners. -/
  slot : Nat
  /-- The level up to which redistributions are settled. -/
  snapshot : Level
  deriving DecidableEq, Repr

namespace Trove

/-- The record of a trove that was never opened. -/
def unopened (owner : Address) : Trove := ⟨owner, .zero, .zero, .zero, .nonExistent, 0, .zero⟩

def isActive (t : Trove) : Bool := t.status = .active

def requireActive (t : Trove) : Except Error Unit :=
  if t.isActive then .ok () else .error (.troveNotActive t.owner.text)

/-- The ratio of the settled amounts at a price. -/
def settledRatio (t : Trove) (price : Amount) : Amount := Amount.collateralRatio t.collateral t.debt price

/-- The record after the trove is closed: nothing is left in it but its owner and how it ended. -/
def closed (t : Trove) (status : TroveStatus) : Trove := { Trove.unopened t.owner with status }

end Trove

end CollateralDebt
