import CollateralDebt.Event.Basic
import CollateralDebt.Liquidation.Commit
import CollateralDebt.Operation.Basic
import CollateralDebt.PriceFeed
import CollateralDebt.State.Encoding

/-!
The machine that owns a state, a price feed, what is remembered of liquidations, and the events not yet taken.
Each operation reads the price once, makes every check, and only then writes; events are logged after the writes.
The machine also tracks whether the last operation at a price left the system in Recovery Mode, and logs an event
when that changes.
-/

namespace CollateralDebt

/-- The system at work. -/
structure Machine where
  state : State
  feed : PriceFeed
  history : LiquidationHistory
  /-- The events that were not taken yet. -/
  log : EventLog
  /-- Whether the last operation at a price left the system in Recovery Mode. -/
  inRecovery : Bool
  deriving DecidableEq

/-- What an operation gives. -/
inductive OperationResult where
  | trove (trove : Trove)
  | closed (collateral : Amount)
  | deposit (change : DepositChange)
  | liquidation (outcome : LiquidationOutcome)
  | surplus (amount : Amount)
  deriving DecidableEq, Repr

namespace Machine

/-- A machine that resumes from a state. If there are active troves, the mode is tracked from how the state stands
at the price now. -/
def resume (state : State) (feed : PriceFeed) : Except Error Machine := do
  state.check
  let inRecovery ←
    if state.ledger.activeCount = 0 then pure false
    else do
      let price ← feed.fetch
      pure (state.ledger.inRecovery state.params price)
  return { state, feed, history := .new state.params.historyLimit.toNat, log := .empty, inRecovery }

/-- A machine without troves, deposits and surplus. -/
def create (p : Params) (feed : PriceFeed) : Except Error Machine := do
  let state ← State.create p
  resume state feed

/-- A machine that resumes from the bytes of a state. -/
def load (bytes : List UInt8) (feed : PriceFeed) : Except Error Machine := do
  let state ← State.load bytes
  resume state feed

/-- The bytes from which the machine can be resumed. -/
def save (m : Machine) : List UInt8 := m.state.encode

def record (event : Event) : Action Machine Unit := modify fun m => { m with log := m.log.push event }

def logAll (events : List Event) : Action Machine Unit := events.forM record

def price : Action Machine Amount := do
  let m ← get
  m.feed.fetch

def setPrice (price : Amount) : Action Machine Unit :=
  Action.onPart Machine.feed (fun feed m => { m with feed }) (PriceFeed.setPrice price)

def onLedger {α : Type} (action : Action Ledger α) : Action Machine α :=
  Action.onPart (fun m => m.state.ledger) (fun ledger m => { m with state := { m.state with ledger } }) action

def onPool {α : Type} (action : Action StabilityPool α) : Action Machine α :=
  Action.onPart (fun m => m.state.pool) (fun pool m => { m with state := { m.state with pool } }) action

def onSurplus {α : Type} (action : Action Surplus α) : Action Machine α :=
  Action.onPart (fun m => m.state.surplus) (fun surplus m => { m with state := { m.state with surplus } }) action

def onLiquidator {α : Type} (action : Action Liquidator α) : Action Machine α :=
  Action.onPart (fun m => ⟨m.state.ledger, m.state.pool, m.state.surplus, m.history⟩)
    (fun l m => { m with
      state := { m.state with ledger := l.ledger, pool := l.pool, surplus := l.surplus }
      history := l.history }) action

/-- The mode of the system at a price is tracked, and logged if it changed. -/
def trackMode (price : Amount) : Action Machine Unit := do
  let m ← get
  let ratio := m.state.ledger.systemRatio price
  let inRecovery := m.state.params.isRecovery ratio
  if inRecovery ≠ m.inRecovery then
    set { m with inRecovery }
    record (if inRecovery then .recoveryEntered ⟨ratio, price⟩ else .recoveryExited ⟨ratio, price⟩)

/-- The event of a trove after an operation of its owner. -/
def updateOf (trove : Trove) (operation : TroveOperation) : Event :=
  .troveUpdated ⟨trove.owner, trove.debt, trove.collateral, trove.stake, operation⟩

/-- The event of a trove that settled what was pending, if anything was. -/
def settlementOf (owner : Address) (entire : EntireTrove) (pending : Pending) : List Event :=
  if pending.isZero then []
  else [.troveUpdated ⟨owner, entire.debt, entire.collateral, entire.stake, .settled⟩]

def openTrove (owner : Address) (collateral debt : Amount) : Action Machine Trove := do
  let price ← price
  let m ← get
  if m.state.ledger.isActive owner then throw (.troveAlreadyActive owner.text)
  Requirement.positive collateral
  Requirement.sufficientDebt debt m.state.params.minimumDebt
  let verdict ← (Adjustment.opening collateral debt).verdict m.state.params price m.state.ledger.pools.collateral
    m.state.ledger.pools.debt
  verdict.require
  let trove ← onLedger (Ledger.openTrove owner collateral debt)
  record (updateOf trove .opened)
  trackMode price
  return trove

/-- The entire collateral after a change, of which no more may be taken than there is. -/
def collateralAfter (entire : EntireTrove) (change : AmountChange) : Except Error Amount :=
  match change with
  | .decrease amount =>
      if entire.collateral < amount then .error (.insufficientCollateral amount.text entire.collateral.text)
      else change.apply entire.collateral
  | _ => change.apply entire.collateral

/-- The entire debt after a change, of which no more may be repaid than there is. -/
def debtAfter (entire : EntireTrove) (change : AmountChange) : Except Error Amount :=
  match change.apply entire.debt with
  | .ok debt => .ok debt
  | .error _ => .error (.invalidParameter "debt" ("repayment exceeds debt " ++ entire.debt.text))

/-- The amounts of an active trove are changed, relative to its entire amounts. -/
def adjustTrove (owner : Address) (collateral debt : AmountChange) : Action Machine Trove := do
  if collateral.isUnchanged && debt.isUnchanged then throw .zeroAmount
  let price ← price
  let m ← get
  let entire ← m.state.ledger.entire owner
  let newCollateral ← collateralAfter entire collateral
  let newDebt ← debtAfter entire debt
  Requirement.positive newCollateral
  Requirement.sufficientDebt newDebt m.state.params.minimumDebt
  let adjustment : Adjustment := ⟨entire.collateral, entire.debt, newCollateral, newDebt⟩
  let verdict ← adjustment.verdict m.state.params price m.state.ledger.pools.collateral m.state.ledger.pools.debt
  verdict.require
  let (pending, trove) ← onLedger (Ledger.adjust owner newCollateral newDebt)
  logAll (settlementOf owner entire pending)
  record (updateOf trove .adjusted)
  trackMode price
  return trove

/-- The trove of an owner may be closed: the system is not in Recovery Mode, and would not be without it. -/
def requireClosable (m : Machine) (price : Amount) (entire : EntireTrove) : Except Error Unit := do
  let pools := m.state.ledger.pools
  if m.state.params.isRecovery (Amount.collateralRatio pools.collateral pools.debt price) then
    throw (.recoveryModeRestriction "troves cannot be closed in recovery mode")
  let collateral ← pools.collateral.minus entire.collateral
  let debt ← pools.debt.minus entire.debt
  let ratio := Amount.collateralRatio collateral debt price
  if m.state.params.isRecovery ratio then
    throw (.recoveryModeRestriction ("closing would lower TCR to " ++ ratio.text ++ " below CCR "
      ++ m.state.params.criticalRatio.text))

/-- A trove is repaid, and its collateral given back. -/
def closeTrove (owner : Address) : Action Machine Amount := do
  let price ← price
  let m ← get
  let entire ← m.state.ledger.entire owner
  if m.state.ledger.activeCount ≤ 1 then throw .lastTrove
  m.requireClosable price entire
  let closed ← onLedger (Ledger.closeByOwner owner)
  logAll (settlementOf owner entire entire.pending)
  record (.troveUpdated ⟨owner, .zero, .zero, .zero, .closed⟩)
  trackMode price
  return closed.collateral

def provide (depositor : Address) (amount : Amount) : Action Machine DepositChange := do
  let change ← onPool (StabilityPool.provide depositor amount)
  record (.deposited ⟨depositor, amount, change.deposit, change.gain⟩)
  return change

def withdraw (depositor : Address) (amount : Amount) : Action Machine DepositChange := do
  let change ← onPool (StabilityPool.withdraw depositor amount)
  record (.withdrawn ⟨depositor, change.withdrawn, change.deposit, change.gain⟩)
  return change

def liquidationOf (v : LiquidationValues) : List Event :=
  .troveLiquidated ⟨v.borrower, v.entire.debt, v.entire.collateral, v.mode⟩
    :: if v.surplus.isZero then [] else [.surplusCredited ⟨v.borrower, v.surplus⟩]

/-- The events of a batch that a caller asked for, with the rewards after it. -/
def eventsOf (caller : Address) (o : LiquidationOutcome) (rewards : Rewards) : List Event :=
  o.liquidated.flatMap liquidationOf
    ++ (o.redistribution.toList.map fun d => .levelUpdated d.level)
    ++ (o.offset.toList.map fun f =>
      .poolOffset ⟨f.debtLoss, f.collateralGain, f.product, f.sum, f.phase⟩)
    ++ [.rebased ⟨rewards.stakesBasis, rewards.collateralBasis⟩,
        .liquidation ⟨o.totals.debt, o.totals.collateral, o.totals.gasCompensation, o.totals.offsetDebt,
          o.totals.redistributedDebt, o.totals.surplus, o.price⟩,
        .gasCompensationPaid ⟨caller, o.totals.gasCompensation⟩]

/-- What a liquidation at a price did is logged. -/
def report (caller : Address) (price : Amount) (outcome : LiquidationOutcome) : Action Machine Unit := do
  let m ← get
  logAll (eventsOf caller outcome m.state.ledger.rewards)
  trackMode price

/-- A trove is liquidated; the caller is paid for it. -/
def liquidate (caller borrower : Address) : Action Machine LiquidationOutcome := do
  let price ← price
  let m ← get
  let outcome ← onLiquidator (Liquidator.liquidate m.state.params price borrower)
  report caller price outcome
  return outcome

/-- Every trove of a list that can be liquidated is; the caller is paid for it. -/
def liquidateBatch (caller : Address) (borrowers : List Address) : Action Machine LiquidationOutcome := do
  let price ← price
  let m ← get
  let outcome ← onLiquidator (Liquidator.liquidateBatch m.state.params price borrowers)
  report caller price outcome
  return outcome

def claimSurplus (owner : Address) : Action Machine Amount := do
  let amount ← onSurplus (Surplus.claim owner)
  record (.surplusClaimed ⟨owner, amount⟩)
  return amount

def execute (operation : Operation) : Action Machine OperationResult := do
  operation.check
  match operation with
  | .openTrove owner collateral debt => return .trove (← openTrove owner collateral debt)
  | .adjustTrove owner collateral debt => return .trove (← adjustTrove owner collateral debt)
  | .closeTrove owner => return .closed (← closeTrove owner)
  | .provide depositor amount => return .deposit (← provide depositor amount)
  | .withdraw depositor amount => return .deposit (← withdraw depositor amount)
  | .liquidate caller borrower => return .liquidation (← liquidate caller borrower)
  | .liquidateBatch caller borrowers => return .liquidation (← liquidateBatch caller borrowers)
  | .claimSurplus owner => return .surplus (← claimSurplus owner)

/-- The ratio of an account's trove at the price now. -/
def troveRatio (m : Machine) (owner : Address) : Except Error Amount := do
  let price ← m.feed.fetch
  m.state.ledger.troveRatio owner price

/-- The ratio of the whole system at the price now. -/
def systemRatio (m : Machine) : Except Error Amount := do
  let price ← m.feed.fetch
  return m.state.ledger.systemRatio price

/-- Whether the system is in Recovery Mode at the price now. -/
def isRecovery (m : Machine) : Except Error Bool := do
  let price ← m.feed.fetch
  return m.state.ledger.inRecovery m.state.params price

/-- How the whole system stands at the price now. -/
def recoveryStatus (m : Machine) : Except Error RecoveryStatus := do
  let price ← m.feed.fetch
  m.state.ledger.recoveryStatus m.state.params price

def drainEvents : Action Machine (List Event) :=
  Action.onPart Machine.log (fun log m => { m with log }) EventLog.drain

end Machine

end CollateralDebt
