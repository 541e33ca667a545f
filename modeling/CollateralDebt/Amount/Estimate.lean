import CollateralDebt.Amount.Basic

/-!
Amounts as floating-point numbers, for reports and tolerances only: each conversion rounds to the nearest
number, and no balance depends on one.
-/

namespace CollateralDebt.Amount

/-- An amount in wholes, rounded. -/
def toFloat (a : Amount) : Float := Float.ofNat a.units / Float.ofNat scale

/-- Whether a value differs from a target by at most a share of the target; only nothing is near nothing. -/
def isNear (value target : Amount) (tolerance : Float) : Bool :=
  if target.isZero then value.isZero
  else
    let distance := (value.units - target.units) + (target.units - value.units)
    Float.ofNat distance / Float.ofNat target.units ≤ tolerance

/-- The change from one amount to another in basis points, toward zero; none if the first amount is zero. -/
def changeInBasisPoints (previous current : Amount) : Int :=
  if previous.isZero then 0
  else ((current.toFloat - previous.toFloat) / previous.toFloat * 10000.0).toInt64.toInt

end CollateralDebt.Amount
