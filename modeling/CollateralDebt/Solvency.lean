import CollateralDebt.Ledger
import CollateralDebt.Params.Basic
import CollateralDebt.Requirement

/-!
Ratios of troves and of the whole system, and what a borrower may do. The system is in Recovery Mode while its
ratio is below the critical one; that is never stored, but computed from the ledger and the price. In Recovery
Mode no collateral may leave a trove, and new debt must leave the trove at the critical ratio or above, and no
worse than before.
-/

namespace CollateralDebt

namespace Ledger

/-- The ratio of an account's trove at a price, of its entire amounts. -/
def troveRatio (l : Ledger) (owner : Address) (price : Amount) : Except Error Amount := do
  let entire ← l.entire owner
  return Amount.collateralRatio entire.collateral entire.debt price

/-- The ratio of the whole system at a price. -/
def systemRatio (l : Ledger) (price : Amount) : Amount :=
  Amount.collateralRatio l.pools.collateral l.pools.debt price

end Ledger

/-- Whether a ratio of the whole system means Recovery Mode. -/
def Params.isRecovery (p : Params) (systemRatio : Amount) : Bool := systemRatio < p.criticalRatio

/-- Whether the system is in Recovery Mode at a price. -/
def Ledger.inRecovery (l : Ledger) (p : Params) (price : Amount) : Bool := p.isRecovery (l.systemRatio price)

/-- How the whole system stands at a price. -/
structure RecoveryStatus where
  isActive : Bool
  ratio : Amount
  /-- The ratio at which Recovery Mode ends. -/
  exitThreshold : Amount
  /-- What its ratio lacks. -/
  shortfall : Amount
  totalCollateral : Amount
  totalDebt : Amount
  price : Amount
  /-- How many troves are below the critical ratio. -/
  trovesAtRisk : Nat
  debtAtRisk : Amount
  deriving DecidableEq, Repr

/-- The number and the debt of troves below the critical ratio, with one more trove looked at. -/
def Ledger.addAtRisk (l : Ledger) (p : Params) (price : Amount) (sofar : Nat × Amount) (owner : Address) :
    Except Error (Nat × Amount) := do
  let entire ← l.entire owner
  if Amount.collateralRatio entire.collateral entire.debt price < p.criticalRatio then
    let debt ← sofar.2.plus entire.debt
    return (sofar.1 + 1, debt)
  else return sofar

def Ledger.recoveryStatus (l : Ledger) (p : Params) (price : Amount) : Except Error RecoveryStatus := do
  let (trovesAtRisk, debtAtRisk) ← l.owners.foldlM (l.addAtRisk p price) (0, .zero)
  return {
    trovesAtRisk, debtAtRisk, price
    isActive := l.inRecovery p price
    ratio := l.systemRatio price
    exitThreshold := p.criticalRatio
    shortfall := p.criticalRatio.minusClamped (l.systemRatio price)
    totalCollateral := l.pools.collateral
    totalDebt := l.pools.debt }

/-- The entire amounts of a trove before and after an operation of its owner. -/
structure Adjustment where
  /-- The collateral before, nothing for a new trove. -/
  oldCollateral : Amount
  oldDebt : Amount
  newCollateral : Amount
  newDebt : Amount
  deriving DecidableEq, Repr

/-- What the rules say about an operation of an owner. -/
inductive Verdict where
  | allowed
  | blocked (reason : String)
  /-- It may be done since it meets a stricter rule. -/
  | allowedWithRestrictions (reason : String)
  deriving DecidableEq, Repr

namespace Verdict

def isAllowed : Verdict → Bool
  | blocked _ => false
  | _ => true

def require : Verdict → Except Error Unit
  | blocked reason => .error (.recoveryModeRestriction reason)
  | _ => .ok ()

end Verdict

namespace Adjustment

def opening (collateral debt : Amount) : Adjustment := ⟨.zero, .zero, collateral, debt⟩

def isOpening (a : Adjustment) : Bool := a.oldCollateral.isZero && a.oldDebt.isZero

def recoveryVerdict (a : Adjustment) (p : Params) (price : Amount) : Verdict :=
  let newRatio := Amount.collateralRatio a.newCollateral a.newDebt price
  if a.newCollateral < a.oldCollateral then .blocked "collateral withdrawal blocked in recovery mode"
  else if a.newDebt ≤ a.oldDebt then .allowed
  else if newRatio < p.criticalRatio then
    .blocked ("new debt must leave ICR at or above CCR " ++ p.criticalRatio.text ++ " in recovery mode")
  else if !a.isOpening && newRatio < Amount.collateralRatio a.oldCollateral a.oldDebt price then
    .blocked "debt increase cannot lower ICR in recovery mode"
  else .allowedWithRestrictions "trove meets CCR in recovery mode"

/-- The rules of Normal Mode: the trove must end at the minimum ratio or above, which is an error otherwise, and
the system at the critical one or above. -/
def normalVerdict (a : Adjustment) (p : Params) (price systemCollateral systemDebt : Amount) :
    Except Error Verdict := do
  Requirement.sufficientRatio (Amount.collateralRatio a.newCollateral a.newDebt price) p.minimumRatio
  let newSystemRatio := Amount.collateralRatio
    ((systemCollateral.minusClamped a.oldCollateral).plusClamped a.newCollateral)
    ((systemDebt.minusClamped a.oldDebt).plusClamped a.newDebt) price
  if p.isRecovery newSystemRatio then
    return .blocked ("operation would lower TCR to " ++ newSystemRatio.text ++ " below CCR " ++ p.criticalRatio.text)
  else return .allowed

/-- What the rules say about an adjustment in a system with so much collateral and debt before it. -/
def verdict (a : Adjustment) (p : Params) (price systemCollateral systemDebt : Amount) : Except Error Verdict :=
  if p.isRecovery (Amount.collateralRatio systemCollateral systemDebt price) then .ok (a.recoveryVerdict p price)
  else a.normalVerdict p price systemCollateral systemDebt

end Adjustment

end CollateralDebt
