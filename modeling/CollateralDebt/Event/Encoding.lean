import CollateralDebt.Event.Basic

/-!
Events as bytes, and the digest that identifies one: the number of its kind in four bytes, and its fields one
after the other.
-/

namespace CollateralDebt

/-- The number of a rule of liquidation, in four bytes. -/
def LiquidationMode.bytes (mode : LiquidationMode) : List UInt8 := (Format.number 4).write (match mode with
  | .normal => 0
  | .recoveryUnderwater => 1
  | .recoveryBelowMinimum => 2
  | .recoveryCapped => 3)

/-- The number of an operation of an owner, in four bytes. -/
def TroveOperation.bytes (operation : TroveOperation) : List UInt8 := (Format.number 4).write (match operation with
  | .opened => 0
  | .adjusted => 1
  | .closed => 2
  | .settled => 3)

namespace Event

def kindNumber : Event → Nat
  | troveUpdated _ => 0
  | troveLiquidated _ => 1
  | liquidation _ => 2
  | levelUpdated _ => 3
  | rebased _ => 4
  | poolOffset _ => 5
  | deposited _ => 6
  | withdrawn _ => 7
  | surplusCredited _ => 8
  | surplusClaimed _ => 9
  | gasCompensationPaid _ => 10
  | recoveryEntered _ => 11
  | recoveryExited _ => 12

def amounts (row : List Amount) : List UInt8 := row.flatMap Format.amount.write

def fieldBytes : Event → List UInt8
  | troveUpdated e => e.borrower.bytes ++ amounts [e.debt, e.collateral, e.stake] ++ e.operation.bytes
  | troveLiquidated e => e.borrower.bytes ++ amounts [e.debt, e.collateral] ++ e.mode.bytes
  | liquidation e =>
      amounts [e.debt, e.collateral, e.gasCompensation, e.offsetDebt, e.redistributedDebt, e.surplus, e.price]
  | levelUpdated level => amounts [level.collateral, level.debt]
  | rebased e => amounts [e.stakes, e.collateral]
  | poolOffset e =>
      amounts [e.debtLoss, e.collateralGain, e.product] ++ RunningSum.format.write e.sum
        ++ Format.count.write e.phase.epoch ++ Format.count.write e.phase.scale
  | deposited e => e.depositor.bytes ++ amounts [e.amount, e.deposit, e.gain]
  | withdrawn e => e.depositor.bytes ++ amounts [e.amount, e.deposit, e.gain]
  | surplusCredited e | surplusClaimed e | gasCompensationPaid e => e.account.bytes ++ amounts [e.amount]
  | recoveryEntered e | recoveryExited e => amounts [e.ratio, e.price]

def bytes (e : Event) : List UInt8 := (Format.number 4).write e.kindNumber ++ e.fieldBytes

def digest (e : Event) : Digest := Digest.sha256 e.bytes

end Event

end CollateralDebt
