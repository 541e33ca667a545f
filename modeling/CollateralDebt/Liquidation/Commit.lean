import CollateralDebt.Liquidation.History
import CollateralDebt.Surplus

/-!
Carrying out liquidations. A plan is committed as a whole: the redistribution and the offset of its totals are
computed first, and only when both exist are the troves closed, the pool and the surplus changed, and the batch
remembered. So a batch that fails leaves everything as it was.
-/

namespace CollateralDebt

/-- What a batch did. -/
structure LiquidationOutcome where
  price : Amount
  /-- Whether the system was in Recovery Mode before the batch. -/
  recoveryAtStart : Bool
  liquidated : List LiquidationValues
  totals : LiquidationTotals
  offset : Option Offset
  redistribution : Option Redistribution
  deriving DecidableEq, Repr

/-- Everything that a liquidation changes. -/
structure Liquidator where
  ledger : Ledger
  pool : StabilityPool
  surplus : Surplus
  history : LiquidationHistory
  deriving DecidableEq

namespace Liquidator

def closeAll (l : Ledger) (values : List LiquidationValues) : Ledger :=
  values.foldl (fun l v => l.closeLiquidated v.borrower v.entire) l

/-- All that a plan leaves for owners credited to them. -/
def creditAll (s : Surplus) (values : List LiquidationValues) : Surplus :=
  values.foldl (fun s v => s.credit v.borrower v.surplus) s

/-- The offset that the totals of a plan ask for, if any debt is to be offset. -/
def offsetFor (s : StabilityPool) (totals : LiquidationTotals) : Except Error (Option Offset) :=
  if totals.offsetDebt.isZero then .ok none
  else (s.offsetOf totals.offsetDebt totals.poolCollateral).map some

/-- Everything after a plan is carried out with its redistribution and its offset. -/
def carryOut (s : Liquidator) (plan : LiquidationPlan) (redistribution : Option Redistribution)
    (offset : Option Offset) : Liquidator :=
  let closed := closeAll s.ledger plan.values
  let redistributed := match redistribution with
    | some d => closed.addToDefault d
    | none => closed
  let burned := match offset with
    | some o => redistributed.burn o.debtLoss
    | none => redistributed
  { ledger := burned.rebase
    pool := match offset with
      | some o => s.pool.applyOffset o
      | none => s.pool
    surplus := creditAll s.surplus plan.values
    history := s.history.remember plan }

/-- A plan is committed. It should have been made for things as they stand; one that was not fails or is carried
out as it is. -/
def commit (plan : LiquidationPlan) : Action Liquidator LiquidationOutcome := do
  let s ← get
  if plan.isEmpty then throw .nothingToLiquidate
  let stakes ← s.ledger.rewards.totalStakes.minus plan.totals.stakes
  let redistribution ← s.ledger.rewards.redistribution plan.totals.redistributedCollateral
    plan.totals.redistributedDebt stakes
  let offset ← offsetFor s.pool plan.totals
  set (s.carryOut plan redistribution offset)
  return {
    offset, redistribution
    price := plan.price
    recoveryAtStart := plan.recoveryAtStart
    liquidated := plan.values
    totals := plan.totals }

/-- Every borrower of a list whose trove can be liquidated is, in the order given. -/
def liquidateBatch (p : Params) (price : Amount) (borrowers : List Address) :
    Action Liquidator LiquidationOutcome := do
  let s ← get
  let plan ← LiquidationPlan.make s.ledger s.pool p price borrowers
  if plan.isEmpty then throw .nothingToLiquidate
  commit plan

def liquidate (p : Params) (price : Amount) (borrower : Address) : Action Liquidator LiquidationOutcome := do
  let s ← get
  if !s.ledger.isActive borrower then throw (.notLiquidatable (borrower.text ++ " has no active trove"))
  if s.ledger.activeCount ≤ 1 then throw (.notLiquidatable (borrower.text ++ " holds the only active trove"))
  liquidateBatch p price [borrower]

end Liquidator

end CollateralDebt
