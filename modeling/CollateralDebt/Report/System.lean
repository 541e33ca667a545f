import CollateralDebt.Report.Liquidation
import CollateralDebt.Solvency

/-!
The system as JSON: where it stands against Recovery Mode, and the totals of its ledger, its stability pool and
its surplus.
-/

namespace CollateralDebt

/-- Where the system stands against Recovery Mode, as JSON. -/
def RecoveryStatus.toJson (s : RecoveryStatus) : Json :=
  .ofFields [
    ("is_active", .bool s.isActive),
    ("tcr", s.ratio.toJson),
    ("exit_threshold", s.exitThreshold.toJson),
    ("shortfall", s.shortfall.toJson),
    ("total_collateral", s.totalCollateral.toJson),
    ("total_debt", s.totalDebt.toJson),
    ("price", s.price.toJson),
    ("troves_at_risk", .ofNat s.trovesAtRisk),
    ("debt_at_risk", s.debtAtRisk.toJson)]

/-- The level of redistributions and what their divisions left over, as a row. -/
def Rewards.levelRow (r : Rewards) : Json :=
  .array [r.level.collateral.toJson, r.level.debt.toJson, r.carriedCollateral.unitsJson, r.carriedDebt.unitsJson]

/-- The totals of the system, as rows. -/
def summaryJson (l : Ledger) (s : StabilityPool) (u : Surplus) : Json :=
  .ofFields [
    ("pools", .ofList Amount.toJson [l.pools.activeCollateral, l.pools.activeDebt, l.pools.defaultCollateral,
      l.pools.defaultDebt]),
    ("supply", .ofList Amount.toJson [l.minted, l.burned]),
    ("stakes", .ofList Amount.toJson [l.rewards.totalStakes, l.rewards.stakesBasis, l.rewards.collateralBasis]),
    ("l", l.rewards.levelRow),
    ("owners", .ofNat l.activeCount),
    ("sp", .array [s.totalDeposits.toJson, s.collateral.toJson, s.product.unitsJson, .ofNat s.phase.scale,
      .ofNat s.phase.epoch, .ofNat s.deposits.size]),
    ("surplus", .array [u.total.toJson, .ofNat u.balances.size, .bool u.balances.entries.isEmpty])]

end CollateralDebt
