import CollateralDebt.Liquidation.Values
import CollateralDebt.StabilityPool.Basic

/-!
Events: what each change of the system tells those who move the assets. A log keeps events in the order in which
they happened, until they are taken out of it.
-/

namespace CollateralDebt

/-- What the owner of a trove did to it. -/
inductive TroveOperation where
  | opened
  | adjusted
  | closed
  /-- It settled what was pending for it. -/
  | settled
  deriving DecidableEq, Repr

namespace TroveOperation

def name : TroveOperation → String
  | opened => "Open"
  | adjusted => "Adjust"
  | closed => "Close"
  | settled => "ApplyPendingRewards"

def ofName? (name : String) : Option TroveOperation :=
  [opened, adjusted, closed, settled].find? fun operation => operation.name == name

@[simp] theorem ofName?_name (operation : TroveOperation) : ofName? operation.name = some operation := by
  cases operation <;> rfl

end TroveOperation

/-- A trove after an operation of its owner. -/
structure TroveUpdated where
  borrower : Address
  debt : Amount
  collateral : Amount
  stake : Amount
  operation : TroveOperation
  deriving DecidableEq, Repr

/-- A trove closed by a liquidation. -/
structure TroveLiquidated where
  borrower : Address
  debt : Amount
  collateral : Amount
  mode : LiquidationMode
  deriving DecidableEq, Repr

/-- The totals of a batch of liquidations. -/
structure BatchLiquidated where
  debt : Amount
  collateral : Amount
  gasCompensation : Amount
  offsetDebt : Amount
  redistributedDebt : Amount
  surplus : Amount
  price : Amount
  deriving DecidableEq, Repr

/-- The basis of new stakes after a liquidation. -/
structure Rebased where
  stakes : Amount
  collateral : Amount
  deriving DecidableEq, Repr

/-- The stability pool after an offset. -/
structure PoolOffset where
  debtLoss : Amount
  collateralGain : Amount
  product : Amount
  /-- The running sum of the phase before, after it grew. -/
  sum : RunningSum
  phase : Phase
  deriving DecidableEq, Repr

/-- Debt tokens paid into the stability pool. -/
structure Deposited where
  depositor : Address
  amount : Amount
  deposit : Amount
  gain : Amount
  deriving DecidableEq, Repr

/-- Debt tokens paid back by the stability pool. -/
structure Withdrawn where
  depositor : Address
  amount : Amount
  deposit : Amount
  gain : Amount
  deriving DecidableEq, Repr

/-- Collateral for an account. -/
structure Transfer where
  account : Address
  amount : Amount
  deriving DecidableEq, Repr

/-- The system when Recovery Mode begins or ends. -/
structure ModeChange where
  ratio : Amount
  price : Amount
  deriving DecidableEq, Repr

/-- A change of the system. -/
inductive Event where
  | troveUpdated (e : TroveUpdated)
  | troveLiquidated (e : TroveLiquidated)
  | liquidation (e : BatchLiquidated)
  | levelUpdated (level : Level)
  | rebased (e : Rebased)
  | poolOffset (e : PoolOffset)
  | deposited (e : Deposited)
  | withdrawn (e : Withdrawn)
  | surplusCredited (e : Transfer)
  | surplusClaimed (e : Transfer)
  | gasCompensationPaid (e : Transfer)
  | recoveryEntered (e : ModeChange)
  | recoveryExited (e : ModeChange)
  deriving DecidableEq, Repr

def Event.kind : Event → String
  | .troveUpdated _ => "TroveUpdated"
  | .troveLiquidated _ => "TroveLiquidated"
  | .liquidation _ => "Liquidation"
  | .levelUpdated _ => "LTermsUpdated"
  | .rebased _ => "SystemSnapshotsUpdated"
  | .poolOffset _ => "StabilityPoolOffset"
  | .deposited _ => "StabilityDeposit"
  | .withdrawn _ => "StabilityWithdraw"
  | .surplusCredited _ => "CollateralSurplusAccounted"
  | .surplusClaimed _ => "CollateralSurplusClaimed"
  | .gasCompensationPaid _ => "GasCompensationPaid"
  | .recoveryEntered _ => "RecoveryModeEntered"
  | .recoveryExited _ => "RecoveryModeExited"

/-- Events in the order in which they happened. -/
structure EventLog where
  events : List Event
  deriving DecidableEq, Repr

namespace EventLog

def empty : EventLog := ⟨[]⟩

instance : Inhabited EventLog := ⟨empty⟩

def push (log : EventLog) (event : Event) : EventLog := ⟨log.events ++ [event]⟩

/-- The log with the events of another one after its own. -/
def merge (log more : EventLog) : EventLog := ⟨log.events ++ more.events⟩

def size (log : EventLog) : Nat := log.events.length

def isEmpty (log : EventLog) : Bool := log.events.isEmpty

def ofKind (log : EventLog) (kind : String) : List Event := log.events.filter fun e => e.kind == kind

def drain : Action EventLog (List Event) := do
  let log ← get
  set empty
  return log.events

end EventLog

end CollateralDebt
