import CollateralDebt.Event.Basic
import CollateralDebt.Report.Liquidation

/-!
Events as JSON: the fields of an event, and its kind beside them.
-/

namespace CollateralDebt.Event

def fields : Event → List (String × Json)
  | troveUpdated e => [
      ("borrower", e.borrower.toJson), ("debt", e.debt.toJson), ("collateral", e.collateral.toJson),
      ("stake", e.stake.toJson), ("operation", .ofText e.operation.name)]
  | troveLiquidated e => [
      ("borrower", e.borrower.toJson), ("debt", e.debt.toJson), ("collateral", e.collateral.toJson),
      ("mode", e.mode.toJson)]
  | liquidation e => [
      ("liquidated_debt", e.debt.toJson), ("liquidated_collateral", e.collateral.toJson),
      ("collateral_gas_compensation", e.gasCompensation.toJson), ("debt_offset", e.offsetDebt.toJson),
      ("debt_redistributed", e.redistributedDebt.toJson), ("collateral_surplus", e.surplus.toJson),
      ("price", e.price.toJson)]
  | levelUpdated level => [("l_collateral", level.collateral.toJson), ("l_debt", level.debt.toJson)]
  | rebased e => [
      ("total_stakes_snapshot", e.stakes.toJson), ("total_collateral_snapshot", e.collateral.toJson)]
  | poolOffset e => [
      ("debt_loss", e.debtLoss.toJson), ("collateral_gain", e.collateralGain.toJson), ("p", e.product.unitsJson),
      ("s", e.sum.toJson), ("epoch", .ofNat e.phase.epoch), ("scale", .ofNat e.phase.scale)]
  | deposited e => [
      ("depositor", e.depositor.toJson), ("amount", e.amount.toJson), ("new_deposit", e.deposit.toJson),
      ("collateral_gain", e.gain.toJson)]
  | withdrawn e => [
      ("depositor", e.depositor.toJson), ("withdrawn", e.amount.toJson), ("new_deposit", e.deposit.toJson),
      ("collateral_gain", e.gain.toJson)]
  | surplusCredited e | surplusClaimed e | gasCompensationPaid e => [
      ("account", e.account.toJson), ("amount", e.amount.toJson)]
  | recoveryEntered e | recoveryExited e => [("tcr", e.ratio.toJson), ("price", e.price.toJson)]

def toJson (e : Event) : Json := .ofFields (e.fields ++ [("type", .ofText e.kind)])

end CollateralDebt.Event
