import CollateralDebt.Address
import CollateralDebt.Amount.Arithmetic

/-!
Operations: everything that an account can ask of the system. Some requests can be refused whatever the state.
-/

namespace CollateralDebt

/-- The change of an amount. -/
inductive AmountChange where
  | unchanged
  | increase (amount : Amount)
  | decrease (amount : Amount)
  deriving DecidableEq, Repr

namespace AmountChange

def isUnchanged : AmountChange → Bool
  | unchanged => true
  | increase d | decrease d => d.isZero

def apply (change : AmountChange) (amount : Amount) : Except Error Amount :=
  match change with
  | unchanged => .ok amount
  | increase d => amount.plus d
  | decrease d => amount.minus d

end AmountChange

/-- A request of an account. -/
inductive Operation where
  | openTrove (owner : Address) (collateral debt : Amount)
  /-- Change the entire amounts of a trove. -/
  | adjustTrove (owner : Address) (collateral debt : AmountChange)
  | closeTrove (owner : Address)
  | provide (depositor : Address) (amount : Amount)
  /-- Take from a deposit in the stability pool; taking nothing collects the collateral it has gained. -/
  | withdraw (depositor : Address) (amount : Amount)
  | liquidate (caller borrower : Address)
  /-- Liquidate every trove of a list that can be liquidated, in order. -/
  | liquidateBatch (caller : Address) (borrowers : List Address)
  | claimSurplus (owner : Address)
  deriving DecidableEq, Repr

namespace Operation

def name : Operation → String
  | openTrove .. => "OpenTrove"
  | adjustTrove .. => "AdjustTrove"
  | closeTrove .. => "CloseTrove"
  | provide .. => "ProvideToStabilityPool"
  | withdraw .. => "WithdrawFromStabilityPool"
  | liquidate .. => "Liquidate"
  | liquidateBatch .. => "BatchLiquidate"
  | claimSurplus .. => "ClaimCollateralSurplus"

def check : Operation → Except Error Unit
  | adjustTrove _ collateral debt =>
      if collateral.isUnchanged && debt.isUnchanged then .error .zeroAmount else .ok ()
  | liquidateBatch _ borrowers => if borrowers.isEmpty then .error .nothingToLiquidate else .ok ()
  | _ => .ok ()

end Operation

end CollateralDebt
