import CollateralDebt.Json.Basic
import CollateralDebt.StabilityPool.Offset

/-!
The stability pool as JSON: what an operation on it did, and how it stands. Products, sums and the two bounds of
the scaling are written by their units.
-/

namespace CollateralDebt

def RunningSum.toJson (sum : RunningSum) : Json := .ofText (Digits.text sum.units)

def Split.toJson (s : Split) : Json :=
  .ofFields [
    ("debt_to_offset", s.offsetDebt.toJson),
    ("collateral_to_pool", s.poolCollateral.toJson),
    ("debt_to_redistribute", s.redistributedDebt.toJson),
    ("collateral_to_redistribute", s.redistributedCollateral.toJson)]

def Offset.toJson (o : Offset) : Json :=
  .ofFields [
    ("debt_loss", o.debtLoss.toJson),
    ("collateral_gain", o.collateralGain.toJson),
    ("p", o.product.unitsJson),
    ("epoch", .ofNat o.phase.epoch),
    ("scale", .ofNat o.phase.scale),
    ("s_key", .array [.ofNat o.sumPhase.epoch, .ofNat o.sumPhase.scale]),
    ("s", o.sum.toJson)]

def DepositChange.toJson (c : DepositChange) : Json :=
  .ofFields [
    ("depositor", c.depositor.toJson),
    ("collateral_gain", c.gain.toJson),
    ("deposit_loss", c.loss.toJson),
    ("withdrawn", c.withdrawn.toJson),
    ("new_deposit", c.deposit.toJson)]

/-- A deposit as it was made, as JSON. -/
def Deposit.toJson (d : Deposit) : Json :=
  .ofFields [
    ("initial", d.initial.toJson),
    ("p", d.snapshot.product.unitsJson),
    ("s", d.snapshot.sum.toJson),
    ("epoch", .ofNat d.snapshot.phase.epoch),
    ("scale", .ofNat d.snapshot.phase.scale)]

/-- How the pool stands, as JSON. -/
def StabilityPool.toJson (s : StabilityPool) : Json :=
  .ofFields [
    ("total_deposits", s.totalDeposits.toJson),
    ("collateral", s.collateral.toJson),
    ("depositors", .ofNat s.deposits.size),
    ("p", s.product.unitsJson),
    ("scale", .ofNat s.phase.scale),
    ("epoch", .ofNat s.phase.epoch),
    ("total_offsets", .ofNat s.offsets),
    ("total_debt_absorbed", s.debtAbsorbed.toJson),
    ("precision_floor", s.floor.unitsJson),
    ("scale_factor", s.factor.unitsJson)]

end CollateralDebt
