import CollateralDebt.Liquidation.Values
import CollateralDebt.Solvency
import CollateralDebt.StabilityPool.Offset

/-!
Planning a batch of liquidations. The borrowers are taken in the order given; the ratio of the system, and with it
the rule for each trove, is computed from the state that the troves planned before would leave. A trove that is
not liquidated is skipped with a reason. Planning writes nothing.
-/

namespace CollateralDebt

/-- Why a borrower of a batch is not liquidated. -/
inductive SkipReason where
  /-- The borrower occurs earlier in the batch. -/
  | duplicate
  | notActive
  | lastTrove
  | healthy
  /-- The pool does not hold enough for a liquidation that takes only a part. -/
  | insufficientPool
  deriving DecidableEq, Repr

/-- What a batch will do. -/
structure LiquidationPlan where
  price : Amount
  recoveryAtStart : Bool
  values : List LiquidationValues
  totals : LiquidationTotals
  skipped : List (Address × SkipReason)
  deriving DecidableEq, Repr

namespace LiquidationPlan

def isEmpty (p : LiquidationPlan) : Bool := p.values.isEmpty

/-- The values of a trove that gives its liquidator the gas compensation, is offset as far as the pool holds
deposits, and is redistributed for the rest. -/
def offsetValues (p : Params) (borrower : Address) (entire : EntireTrove) (ratio : Amount) (mode : LiquidationMode)
    (deposits : Amount) : Except Error LiquidationValues := do
  let gasCompensation := p.gasCompensation entire.collateral
  let rest ← entire.collateral.minus gasCompensation
  let split ← Split.of entire.debt rest deposits
  return {
    borrower, mode, ratio, entire, gasCompensation
    offsetDebt := split.offsetDebt
    poolCollateral := split.poolCollateral
    redistributedDebt := split.redistributedDebt
    redistributedCollateral := split.redistributedCollateral
    surplus := .zero }

/-- The values of a trove that is worth less than its debt: the pool is left alone. -/
def underwaterValues (p : Params) (borrower : Address) (entire : EntireTrove) (ratio : Amount) :
    Except Error LiquidationValues := do
  let gasCompensation := p.gasCompensation entire.collateral
  let redistributedCollateral ← entire.collateral.minus gasCompensation
  return {
    borrower, ratio, entire, gasCompensation, redistributedCollateral
    mode := .recoveryUnderwater
    offsetDebt := .zero
    poolCollateral := .zero
    redistributedDebt := entire.debt
    surplus := .zero }

/-- The values of a trove of which only the collateral is taken that the minimum ratio asks for; the pool takes
all its debt. -/
def cappedValues (p : Params) (price : Amount) (borrower : Address) (entire : EntireTrove) (ratio : Amount) :
    Except Error LiquidationValues := do
  let asked ← entire.debt.mulDiv p.minimumRatio price .down
  let seized := min asked entire.collateral
  let gasCompensation := p.gasCompensation seized
  let poolCollateral ← seized.minus gasCompensation
  let surplus ← entire.collateral.minus seized
  return {
    borrower, ratio, entire, gasCompensation, poolCollateral, surplus
    mode := .recoveryCapped
    offsetDebt := entire.debt
    redistributedDebt := .zero
    redistributedCollateral := .zero }

/-- What happens to an active trove while the system stands as it does. -/
def assess (p : Params) (price : Amount) (s : RunningState) (borrower : Address) (entire : EntireTrove) :
    Except Error (Except SkipReason LiquidationValues) :=
  let ratio := Amount.collateralRatio entire.collateral entire.debt price
  let systemRatio := Amount.collateralRatio s.systemCollateral s.systemDebt price
  if p.isRecovery systemRatio then
    if ratio < Amount.one then (underwaterValues p borrower entire ratio).map .ok
    else if ratio < p.minimumRatio then
      (offsetValues p borrower entire ratio .recoveryBelowMinimum s.deposits).map .ok
    else if systemRatio ≤ ratio then .ok (.error .healthy)
    else if s.deposits < entire.debt then .ok (.error .insufficientPool)
    else (cappedValues p price borrower entire ratio).map .ok
  else if ratio < p.minimumRatio then (offsetValues p borrower entire ratio .normal s.deposits).map .ok
  else .ok (.error .healthy)

/-- A plan in the making: the plan, and the system as it would stand after it. -/
structure Draft where
  plan : LiquidationPlan
  state : RunningState
  /-- The borrowers looked at, the latest first. -/
  seen : List Address

def Draft.skip (d : Draft) (borrower : Address) (reason : SkipReason) : Draft :=
  { d with
    seen := borrower :: d.seen
    plan := { d.plan with skipped := d.plan.skipped ++ [(borrower, reason)] } }

def Draft.liquidate (d : Draft) (values : LiquidationValues) : Except Error Draft := do
  let state ← d.state.advance values
  let totals ← d.plan.totals.add values
  return {
    state
    seen := values.borrower :: d.seen
    plan := { d.plan with totals, values := d.plan.values ++ [values] } }

def Draft.consider (l : Ledger) (p : Params) (d : Draft) (borrower : Address) : Except Error Draft :=
  if d.seen.contains borrower then .ok (d.skip borrower .duplicate)
  else match l.troves.get? borrower with
    | none => .ok (d.skip borrower .notActive)
    | some trove =>
        if !trove.isActive then .ok (d.skip borrower .notActive)
        else if d.state.activeTroves ≤ 1 then .ok (d.skip borrower .lastTrove)
        else do
          let entire ← l.rewards.entire trove
          match ← assess p d.plan.price d.state borrower entire with
          | .error reason => return d.skip borrower reason
          | .ok values => d.liquidate values

def Draft.start (l : Ledger) (s : StabilityPool) (p : Params) (price : Amount) : Draft where
  plan := {
    price
    recoveryAtStart := l.inRecovery p price
    values := []
    totals := .zero
    skipped := [] }
  state := {
    systemDebt := l.pools.debt
    systemCollateral := l.pools.collateral
    deposits := s.totalDeposits
    activeTroves := l.activeCount }
  seen := []

def make (l : Ledger) (s : StabilityPool) (p : Params) (price : Amount) (borrowers : List Address) :
    Except Error LiquidationPlan := do
  let draft ← borrowers.foldlM (Draft.consider l p) (Draft.start l s p price)
  return draft.plan

end LiquidationPlan

end CollateralDebt
