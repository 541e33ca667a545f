import CollateralDebt.StabilityPool.Basic

/-!
Offsets: debt is cancelled against the deposits of the stability pool, and collateral is credited to them. The
loss for each unit deposited is rounded up, so that deposits never claim more than the pool holds; what was
charged too much, and what the division of collateral left over, is carried to the next offset.
-/

namespace CollateralDebt

/-- How the debt and collateral of a liquidated trove are divided between the pool and the other troves. -/
structure Split where
  offsetDebt : Amount
  poolCollateral : Amount
  redistributedDebt : Amount
  redistributedCollateral : Amount
  deriving DecidableEq, Repr

/-- The pool takes as much of a debt as it holds, and collateral in the same proportion. -/
def Split.of (debt collateral deposits : Amount) : Except Error Split :=
  if deposits.isZero || debt.isZero then .ok ⟨.zero, .zero, debt, collateral⟩
  else do
    let offsetDebt := min debt deposits
    let poolCollateral ← collateral.mulDiv offsetDebt debt .down
    let redistributedDebt ← debt.minus offsetDebt
    let redistributedCollateral ← collateral.minus poolCollateral
    return { offsetDebt, poolCollateral, redistributedDebt, redistributedCollateral }

/-- An offset that is computed and not yet carried out. -/
structure Offset where
  debtLoss : Amount
  collateralGain : Amount
  product : Amount
  phase : Phase
  /-- The phase before, whose running sum grows. -/
  sumPhase : Phase
  /-- The running sum of that phase afterwards. -/
  sum : RunningSum
  carriedGain : Amount
  /-- What the division of debt charges too much. -/
  carriedLoss : Amount
  deriving DecidableEq, Repr

namespace StabilityPool

/-- The loss for each unit deposited, in units of the last place, and what is charged too much. An offset of the
whole pool takes exactly one; any other is rounded up after what was charged too much before is taken off. -/
def lossPerUnit (debtLoss total carried : Amount) : Except Error (Nat × Amount) :=
  if debtLoss = total then .ok (Amount.scale, .zero)
  else do
    let numerator := debtLoss.units * Amount.scale - carried.units
    let perUnit := Nat.min (numerator / total.units + 1) Amount.scale
    let excess ← Amount.narrow (perUnit * total.units - numerator) .carriedLoss
    return (perUnit, excess)

/-- The running sum of the phase now, after a gain for each unit deposited. -/
def grownSum (s : StabilityPool) (gainPerUnit : Nat) : Except Error RunningSum :=
  let marginal := gainPerUnit * s.product.units
  if RunningSum.bound ≤ marginal then .error (.overflow .marginalGain)
  else match RunningSum.ofUnits? ((s.sumAt s.phase).units + marginal) with
    | none => .error (.overflow .poolSum)
    | some sum => .ok sum

/-- The product and the phase after each unit deposited keeps so many units of its last place. -/
def reducedProduct (s : StabilityPool) (kept : Nat) : Except Error (Amount × Phase) :=
  if kept = 0 then .ok (.one, s.phase.nextEpoch)
  else
    let candidate := s.product.units * kept / Amount.scale
    if candidate < s.floor.units then do
      let rescaled ← Amount.narrow (s.product.units * kept * s.factor.units / Amount.scale) .rescaledProduct
      return (rescaled, s.phase.nextScale)
    else do
      let product ← Amount.narrow candidate .product
      return (product, s.phase)

/-- The offset of a debt, of which the pool must hold enough, for a gain of collateral. -/
def offsetOf (s : StabilityPool) (debtLoss collateralGain : Amount) : Except Error Offset := do
  if debtLoss.isZero then throw .zeroAmount
  if s.totalDeposits.isZero then throw (.degenerateDivision .offsetOfEmptyPool)
  if s.totalDeposits < debtLoss then throw (.insufficientPoolForOffset debtLoss.text s.totalDeposits.text)
  let gain := collateralGain.units * Amount.scale + s.carriedGain.units
  let carriedGain ← Amount.narrow (gain % s.totalDeposits.units) .carriedGain
  let (lossPerUnit, carriedLoss) ← lossPerUnit debtLoss s.totalDeposits s.carriedLoss
  let sum ← s.grownSum (gain / s.totalDeposits.units)
  let (product, phase) ← s.reducedProduct (Amount.scale - lossPerUnit)
  if product.isZero then throw (.underflow .vanishingProduct)
  return { debtLoss, collateralGain, product, phase, sumPhase := s.phase, sum, carriedGain, carriedLoss }

def applyOffset (s : StabilityPool) (o : Offset) : StabilityPool :=
  { s with
    sums := s.sums.insert o.sumPhase o.sum
    product := o.product
    phase := o.phase
    carriedGain := o.carriedGain
    carriedLoss := o.carriedLoss
    totalDeposits := s.totalDeposits.minusClamped o.debtLoss
    collateral := s.collateral.plusClamped o.collateralGain
    offsets := s.offsets + 1
    debtAbsorbed := s.debtAbsorbed.plusClamped o.debtLoss }

/-- Debt is cancelled against the deposits, and collateral is credited to them. -/
def offset (debtLoss collateralGain : Amount) : Action StabilityPool Offset := do
  let s ← get
  let o ← s.offsetOf debtLoss collateralGain
  set (s.applyOffset o)
  return o

end StabilityPool

end CollateralDebt
