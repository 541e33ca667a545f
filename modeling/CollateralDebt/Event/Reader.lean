import CollateralDebt.Event.Basic
import CollateralDebt.Json.Basic

/-!
Reading events from JSON. An event is a choice named for its kind, and what comes with it is the record of its
fields.
-/

namespace CollateralDebt

/-- The count of 64 bits that a value is. -/
def Json.count64? (j : Json) : Option Nat := j.word?.map UInt64.toNat

/-- The units of an amount, given as a count of at most 64 bits. -/
def Json.units? (j : Json) : Option Amount := j.word?.map Amount.ofWord

/-- The running sum that a value writes as text. -/
def Json.sum? (j : Json) : Option RunningSum := j.text?.bind fun text => RunningSum.ofChars? text.toList

def LiquidationMode.ofJson? (j : Json) : Option LiquidationMode := j.name?.bind ofName?

/-- The operation of an owner that a value names. -/
def TroveOperation.ofJson? (j : Json) : Option TroveOperation := j.name?.bind ofName?

namespace Event

def readTroveUpdated (j : Json) : Option TroveUpdated :=
  match Json.record? ["borrower", "debt", "collateral", "stake", "operation"] j with
  | some [some borrower, some debt, some collateral, some stake, some operation] => do
      let borrower ← borrower.address?
      let debt ← debt.amount?
      let collateral ← collateral.amount?
      let stake ← stake.amount?
      let operation ← TroveOperation.ofJson? operation
      return { borrower, debt, collateral, stake, operation }
  | _ => none

def readTroveLiquidated (j : Json) : Option TroveLiquidated :=
  match Json.record? ["borrower", "debt", "collateral", "mode"] j with
  | some [some borrower, some debt, some collateral, some mode] => do
      let borrower ← borrower.address?
      let debt ← debt.amount?
      let collateral ← collateral.amount?
      let mode ← LiquidationMode.ofJson? mode
      return { borrower, debt, collateral, mode }
  | _ => none

def readLiquidation (j : Json) : Option BatchLiquidated :=
  match Json.record? ["liquidated_debt", "liquidated_collateral", "collateral_gas_compensation", "debt_offset",
      "debt_redistributed", "collateral_surplus", "price"] j with
  | some [some debt, some collateral, some gas, some offset, some redistributed, some surplus, some price] => do
      let debt ← debt.amount?
      let collateral ← collateral.amount?
      let gasCompensation ← gas.amount?
      let offsetDebt ← offset.amount?
      let redistributedDebt ← redistributed.amount?
      let surplus ← surplus.amount?
      let price ← price.amount?
      return { debt, collateral, gasCompensation, offsetDebt, redistributedDebt, surplus, price }
  | _ => none

def readTwo (first second : String) (j : Json) : Option (Amount × Amount) :=
  match Json.record? [first, second] j with
  | some [some a, some b] => do
      let a ← a.amount?
      let b ← b.amount?
      return (a, b)
  | _ => none

def readPoolOffset (j : Json) : Option PoolOffset :=
  match Json.record? ["debt_loss", "collateral_gain", "p", "s", "epoch", "scale"] j with
  | some [some debtLoss, some gain, some product, some sum, some epoch, some scale] => do
      let debtLoss ← debtLoss.amount?
      let collateralGain ← gain.amount?
      let product ← product.units?
      let sum ← sum.sum?
      let epoch ← epoch.count64?
      let scale ← scale.count64?
      return { debtLoss, collateralGain, product, sum, phase := ⟨epoch, scale⟩ }
  | _ => none

/-- A depositor and three amounts, of which the first has a name of its own. -/
def readDeposit (amountName : String) (j : Json) : Option (Address × Amount × Amount × Amount) :=
  match Json.record? ["depositor", amountName, "new_deposit", "collateral_gain"] j with
  | some [some depositor, some amount, some deposit, some gain] => do
      let depositor ← depositor.address?
      let amount ← amount.amount?
      let deposit ← deposit.amount?
      let gain ← gain.amount?
      return (depositor, amount, deposit, gain)
  | _ => none

def readTransfer (j : Json) : Option Transfer :=
  match Json.record? ["account", "amount"] j with
  | some [some account, some amount] => do
      let account ← account.address?
      let amount ← amount.amount?
      return { account, amount }
  | _ => none

def ofJson? (j : Json) : Option Event :=
  match j.choice? with
  | some (kind, some fields) =>
      match kind with
      | "TroveUpdated" => (readTroveUpdated fields).map troveUpdated
      | "TroveLiquidated" => (readTroveLiquidated fields).map troveLiquidated
      | "Liquidation" => (readLiquidation fields).map liquidation
      | "LTermsUpdated" => (readTwo "l_collateral" "l_debt" fields).map fun (c, d) => levelUpdated ⟨c, d⟩
      | "SystemSnapshotsUpdated" =>
          (readTwo "total_stakes_snapshot" "total_collateral_snapshot" fields).map fun (s, c) => rebased ⟨s, c⟩
      | "StabilityPoolOffset" => (readPoolOffset fields).map poolOffset
      | "StabilityDeposit" => (readDeposit "amount" fields).map fun (w, a, d, g) => deposited ⟨w, a, d, g⟩
      | "StabilityWithdraw" => (readDeposit "withdrawn" fields).map fun (w, a, d, g) => withdrawn ⟨w, a, d, g⟩
      | "CollateralSurplusAccounted" => (readTransfer fields).map surplusCredited
      | "CollateralSurplusClaimed" => (readTransfer fields).map surplusClaimed
      | "GasCompensationPaid" => (readTransfer fields).map gasCompensationPaid
      | "RecoveryModeEntered" => (readTwo "tcr" "price" fields).map fun (r, p) => recoveryEntered ⟨r, p⟩
      | "RecoveryModeExited" => (readTwo "tcr" "price" fields).map fun (r, p) => recoveryExited ⟨r, p⟩
      | _ => none
  | _ => none

end Event

end CollateralDebt
