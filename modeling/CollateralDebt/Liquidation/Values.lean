import CollateralDebt.Rewards

/-!
What a liquidation does with each trove, added up over a batch. Nothing here touches the ledger or the pool: a
running state says how the system would stand after the troves planned so far, and totals add up their values.
-/

namespace CollateralDebt

/-- The rule by which a trove is liquidated. -/
inductive LiquidationMode where
  /-- In Normal Mode, below the minimum ratio. -/
  | normal
  /-- In Recovery Mode, below one: everything is redistributed. -/
  | recoveryUnderwater
  /-- In Recovery Mode, from one up to the minimum ratio: offset first, then redistribute. -/
  | recoveryBelowMinimum
  /-- In Recovery Mode, from the minimum ratio up to that of the system: only what the minimum asks for is
  taken. -/
  | recoveryCapped
  deriving DecidableEq, Repr

def LiquidationMode.isRecovery : LiquidationMode → Bool
  | .normal => false
  | _ => true

namespace LiquidationMode

def name : LiquidationMode → String
  | normal => "Normal"
  | recoveryUnderwater => "RecoveryUnderwater"
  | recoveryBelowMinimum => "RecoveryBelowMcr"
  | recoveryCapped => "RecoveryCapped"

def ofName? (name : String) : Option LiquidationMode :=
  [normal, recoveryUnderwater, recoveryBelowMinimum, recoveryCapped].find? fun mode => mode.name == name

@[simp] theorem ofName?_name (mode : LiquidationMode) : ofName? mode.name = some mode := by
  cases mode <;> rfl

end LiquidationMode

/-- Where the debt and the collateral of one liquidated trove go. -/
structure LiquidationValues where
  borrower : Address
  mode : LiquidationMode
  ratio : Amount
  entire : EntireTrove
  gasCompensation : Amount
  offsetDebt : Amount
  poolCollateral : Amount
  redistributedDebt : Amount
  redistributedCollateral : Amount
  surplus : Amount
  deriving DecidableEq, Repr

/-- Whether every unit of the trove goes to one place. -/
def LiquidationValues.isBalanced (v : LiquidationValues) : Bool :=
  v.offsetDebt.units + v.redistributedDebt.units == v.entire.debt.units
    && v.gasCompensation.units + v.poolCollateral.units + v.redistributedCollateral.units + v.surplus.units
      == v.entire.collateral.units

/-- The values of a batch, added up. -/
structure LiquidationTotals where
  collateral : Amount
  debt : Amount
  gasCompensation : Amount
  offsetDebt : Amount
  poolCollateral : Amount
  redistributedDebt : Amount
  redistributedCollateral : Amount
  surplus : Amount
  /-- Stakes of the troves. -/
  stakes : Amount
  deriving DecidableEq, Repr

namespace LiquidationTotals

def zero : LiquidationTotals := ⟨.zero, .zero, .zero, .zero, .zero, .zero, .zero, .zero, .zero⟩

def add (t : LiquidationTotals) (v : LiquidationValues) : Except Error LiquidationTotals := do
  let collateral ← t.collateral.plus v.entire.collateral
  let debt ← t.debt.plus v.entire.debt
  let gasCompensation ← t.gasCompensation.plus v.gasCompensation
  let offsetDebt ← t.offsetDebt.plus v.offsetDebt
  let poolCollateral ← t.poolCollateral.plus v.poolCollateral
  let redistributedDebt ← t.redistributedDebt.plus v.redistributedDebt
  let redistributedCollateral ← t.redistributedCollateral.plus v.redistributedCollateral
  let surplus ← t.surplus.plus v.surplus
  let stakes ← t.stakes.plus v.entire.stake
  return { collateral, debt, gasCompensation, offsetDebt, poolCollateral, redistributedDebt,
           redistributedCollateral, surplus, stakes }

end LiquidationTotals

/-- The system as it would stand after the troves planned so far. -/
structure RunningState where
  systemDebt : Amount
  systemCollateral : Amount
  /-- The deposits that no offset has used. -/
  deposits : Amount
  /-- The active troves that are not planned for liquidation. -/
  activeTroves : Nat
  deriving DecidableEq, Repr

/-- The system after one more trove. Debt that is offset leaves the system, and so does all collateral that is not
redistributed. -/
def RunningState.advance (s : RunningState) (v : LiquidationValues) : Except Error RunningState := do
  let paid ← v.poolCollateral.plus v.gasCompensation
  let left ← paid.plus v.surplus
  let systemDebt ← s.systemDebt.minus v.offsetDebt
  let systemCollateral ← s.systemCollateral.minus left
  let deposits ← s.deposits.minus v.offsetDebt
  return { systemDebt, systemCollateral, deposits, activeTroves := s.activeTroves - 1 }

end CollateralDebt
