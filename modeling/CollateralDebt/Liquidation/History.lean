import CollateralDebt.Liquidation.Plan

/-!
What is remembered of liquidations: the latest records up to a limit, and counts and sums over all batches that
were ever committed.
-/

namespace CollateralDebt

/-- A liquidated trove, as it is remembered. -/
structure LiquidationRecord where
  borrower : Address
  mode : LiquidationMode
  debt : Amount
  collateral : Amount
  offsetDebt : Amount
  redistributedDebt : Amount
  gasCompensation : Amount
  surplus : Amount
  price : Amount
  ratio : Amount
  deriving DecidableEq, Repr

/-- The record of a trove liquidated at a price. -/
def LiquidationRecord.ofValues (price : Amount) (v : LiquidationValues) : LiquidationRecord where
  borrower := v.borrower
  mode := v.mode
  debt := v.entire.debt
  collateral := v.entire.collateral
  offsetDebt := v.offsetDebt
  redistributedDebt := v.redistributedDebt
  gasCompensation := v.gasCompensation
  surplus := v.surplus
  price
  ratio := v.ratio

/-- Counts and sums over all liquidations so far. -/
structure LiquidationStatistics where
  troves : Nat
  batches : Nat
  /-- Troves liquidated by a rule of Recovery Mode. -/
  recoveryTroves : Nat
  debt : Amount
  collateral : Amount
  offsetDebt : Amount
  redistributedDebt : Amount
  gasCompensation : Amount
  surplus : Amount
  deriving DecidableEq, Repr

namespace LiquidationStatistics

def zero : LiquidationStatistics := ⟨0, 0, 0, .zero, .zero, .zero, .zero, .zero, .zero⟩

def add (s : LiquidationStatistics) (plan : LiquidationPlan) : LiquidationStatistics where
  troves := s.troves + plan.values.length
  batches := s.batches + 1
  recoveryTroves := s.recoveryTroves + plan.values.countP fun v => v.mode.isRecovery
  debt := s.debt.plusClamped plan.totals.debt
  collateral := s.collateral.plusClamped plan.totals.collateral
  offsetDebt := s.offsetDebt.plusClamped plan.totals.offsetDebt
  redistributedDebt := s.redistributedDebt.plusClamped plan.totals.redistributedDebt
  gasCompensation := s.gasCompensation.plusClamped plan.totals.gasCompensation
  surplus := s.surplus.plusClamped plan.totals.surplus

end LiquidationStatistics

/-- What is remembered of liquidations: the latest records up to a limit, and statistics over all. -/
structure LiquidationHistory where
  /-- The latest records, the oldest first. -/
  records : List LiquidationRecord
  limit : Nat
  statistics : LiquidationStatistics
  deriving DecidableEq, Repr

namespace LiquidationHistory

/-- No liquidation so far, with a limit for the records to come. -/
def new (limit : Nat) : LiquidationHistory := ⟨[], limit, .zero⟩

def remember (h : LiquidationHistory) (plan : LiquidationPlan) : LiquidationHistory :=
  let records := h.records ++ plan.values.map (LiquidationRecord.ofValues plan.price)
  { h with statistics := h.statistics.add plan, records := records.drop (records.length - h.limit) }

def recordsOf (h : LiquidationHistory) (borrower : Address) : List LiquidationRecord :=
  h.records.filter fun r => r.borrower = borrower

end LiquidationHistory

end CollateralDebt
