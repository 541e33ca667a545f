import CollateralDebt.Amount.Arithmetic

/-!
What amounts have to satisfy before an operation looks at any state.
-/

namespace CollateralDebt.Requirement

def positive (amount : Amount) : Except Error Unit := if amount.isZero then .error .zeroAmount else .ok ()

/-- The debt is not nothing and reaches the minimum. -/
def sufficientDebt (debt minimum : Amount) : Except Error Unit :=
  if debt.isZero then .error .zeroAmount
  else if debt < minimum then .error (.debtBelowMinimum debt.text minimum.text)
  else .ok ()

def sufficientRatio (ratio minimum : Amount) : Except Error Unit :=
  if ratio < minimum then .error (.collateralRatioTooLow ratio.text minimum.text) else .ok ()

/-- The price is neither nothing nor the largest amount. -/
def usablePrice (price : Amount) : Except Error Unit :=
  if price.isZero then .error (.invalidPrice "price cannot be zero")
  else if price = Amount.max then .error (.invalidPrice "price out of range")
  else .ok ()

end CollateralDebt.Requirement
