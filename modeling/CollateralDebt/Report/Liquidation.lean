import CollateralDebt.Liquidation.Commit
import CollateralDebt.Report.StabilityPool
import CollateralDebt.Report.Trove

/-!
Liquidations as JSON: what is planned for each trove, what a batch adds up to, what it did, and what is kept of
past ones.
-/

namespace CollateralDebt

def LiquidationMode.toJson (mode : LiquidationMode) : Json := .ofText mode.name

def LiquidationValues.toJson (v : LiquidationValues) : Json :=
  .ofFields [
    ("borrower", v.borrower.toJson),
    ("mode", v.mode.toJson),
    ("icr", v.ratio.toJson),
    ("entire", v.entire.toJson),
    ("collateral_gas_compensation", v.gasCompensation.toJson),
    ("debt_to_offset", v.offsetDebt.toJson),
    ("collateral_to_send_to_sp", v.poolCollateral.toJson),
    ("debt_to_redistribute", v.redistributedDebt.toJson),
    ("collateral_to_redistribute", v.redistributedCollateral.toJson),
    ("collateral_surplus", v.surplus.toJson)]

def LiquidationTotals.toJson (t : LiquidationTotals) : Json :=
  .ofFields [
    ("total_collateral_in_sequence", t.collateral.toJson),
    ("total_debt_in_sequence", t.debt.toJson),
    ("total_collateral_gas_compensation", t.gasCompensation.toJson),
    ("total_debt_to_offset", t.offsetDebt.toJson),
    ("total_collateral_to_send_to_sp", t.poolCollateral.toJson),
    ("total_debt_to_redistribute", t.redistributedDebt.toJson),
    ("total_collateral_to_redistribute", t.redistributedCollateral.toJson),
    ("total_collateral_surplus", t.surplus.toJson),
    ("total_stakes_removed", t.stakes.toJson)]

def RunningState.toJson (s : RunningState) : Json :=
  .ofFields [
    ("system_debt", s.systemDebt.toJson),
    ("system_collateral", s.systemCollateral.toJson),
    ("remaining_pool_deposits", s.deposits.toJson),
    ("remaining_active", .ofNat s.activeTroves)]

/-- Why a trove is passed over, as JSON. -/
def SkipReason.toJson (reason : SkipReason) : Json :=
  .ofText (match reason with
    | duplicate => "Duplicate"
    | notActive => "NotActive"
    | lastTrove => "LastTrove"
    | healthy => "Healthy"
    | insufficientPool => "InsufficientPool")

def LiquidationPlan.toJson (p : LiquidationPlan) : Json :=
  .ofFields [
    ("price", p.price.toJson),
    ("recovery_at_start", .bool p.recoveryAtStart),
    ("empty", .bool p.isEmpty),
    ("values", .ofList LiquidationValues.toJson p.values),
    ("balanced", .ofList (fun v => .bool v.isBalanced) p.values),
    ("totals", p.totals.toJson),
    ("skipped", .ofList (fun (owner, reason) => .array [owner.toJson, reason.toJson]) p.skipped)]

/-- What a batch did, as JSON. -/
def LiquidationOutcome.toJson (o : LiquidationOutcome) : Json :=
  .ofFields [
    ("price", o.price.toJson),
    ("recovery_at_start", .bool o.recoveryAtStart),
    ("liquidated", .ofList LiquidationValues.toJson o.liquidated),
    ("totals", o.totals.toJson),
    ("offset", .ofOption Offset.toJson o.offset),
    ("redistribution", .ofOption Redistribution.toJson o.redistribution),
    ("gas", o.totals.gasCompensation.toJson)]

/-- What is kept of a liquidation, as JSON. -/
def LiquidationRecord.toJson (r : LiquidationRecord) : Json :=
  .ofFields [
    ("borrower", r.borrower.toJson),
    ("mode", r.mode.toJson),
    ("debt", r.debt.toJson),
    ("collateral", r.collateral.toJson),
    ("debt_offset", r.offsetDebt.toJson),
    ("debt_redistributed", r.redistributedDebt.toJson),
    ("gas_compensation", r.gasCompensation.toJson),
    ("collateral_surplus", r.surplus.toJson),
    ("price", r.price.toJson),
    ("ratio_at_liquidation", r.ratio.toJson)]

def LiquidationStatistics.toJson (s : LiquidationStatistics) : Json :=
  .ofFields [
    ("total_liquidations", .ofNat s.troves),
    ("total_batches", .ofNat s.batches),
    ("recovery_mode_liquidations", .ofNat s.recoveryTroves),
    ("total_debt_liquidated", s.debt.toJson),
    ("total_collateral_liquidated", s.collateral.toJson),
    ("total_debt_offset", s.offsetDebt.toJson),
    ("total_debt_redistributed", s.redistributedDebt.toJson),
    ("total_gas_compensation", s.gasCompensation.toJson),
    ("total_collateral_surplus", s.surplus.toJson)]

/-- The statistics and the history of liquidations as JSON. -/
def LiquidationHistory.toJson (h : LiquidationHistory) : Json :=
  .ofFields [
    ("stats", h.statistics.toJson),
    ("history", .ofList LiquidationRecord.toJson h.records),
    ("liquidations", .ofNat h.statistics.troves),
    ("debt", h.statistics.debt.toJson)]

end CollateralDebt
