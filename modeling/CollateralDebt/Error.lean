import CollateralDebt.Amount.Text

/-!
Why an operation is refused. An error says the cause; `Error.message` has the words for it and `Error.code` its
number. Errors of arithmetic name the calculation that failed (`Calculation`), so that two of them differ
whenever their calculations do.
-/

namespace CollateralDebt

/-- A calculation that can leave the range of amounts or divide by zero. -/
inductive Calculation where
  | sum (a b : Amount)
  | difference (a b : Amount)
  | quotient (a b c : Amount)
  | perStake (amount stakes : Amount)
  | redistribution
  | offsetOfEmptyPool
  | carriedGain
  | carriedLoss
  | marginalGain
  | poolSum
  | rescaledProduct
  | product
  /-- The pool's product, which may not reach zero. -/
  | vanishingProduct
  | sumSinceSnapshot
  | depositorGain
  /-- A calculation known by its name only. -/
  | named (label : String)
  deriving DecidableEq, Repr

namespace Calculation

def describe : Calculation → String
  | sum a b => a.text ++ " + " ++ b.text
  | difference a b => a.text ++ " - " ++ b.text
  | quotient a b c => "(" ++ Digits.text a.units ++ " * " ++ Digits.text b.units ++ ") / " ++ Digits.text c.units
  | perStake amount stakes => amount.text ++ " per unit of " ++ stakes.text ++ " staked"
  | redistribution => "redistribute over zero total stakes"
  | offsetOfEmptyPool => "offset against empty stability pool"
  | carriedGain => "collateral error"
  | carriedLoss => "debt loss error"
  | marginalGain => "stability pool marginal gain"
  | poolSum => "stability pool sum"
  | rescaledProduct => "rescaled P"
  | product => "P"
  | vanishingProduct => "stability pool product reached zero"
  | sumSinceSnapshot => "stability pool sum below snapshot"
  | depositorGain => "depositor collateral gain"
  | named label => label

end Calculation

/-- Why an operation is refused. Accounts, amounts and reasons are held as the text that shows them. -/
inductive Error where
  | troveNotFound (owner : String)
  | troveAlreadyActive (owner : String)
  | troveNotActive (owner : String)
  /-- The operation would leave no active trove. -/
  | lastTrove
  | insufficientCollateral (required available : String)
  | collateralRatioTooLow (current minimum : String)
  | debtBelowMinimum (amount minimum : String)
  | recoveryModeRestriction (reason : String)
  | notLiquidatable (trove : String)
  | nothingToLiquidate
  | insufficientPoolForOffset (required available : String)
  /-- A total that is divided by is zero. -/
  | degenerateDivision (calculation : Calculation)
  | depositNotFound (depositor : String)
  | noCollateralSurplus (owner : String)
  | invalidPrice (reason : String)
  | invalidParameter (name reason : String)
  | zeroAmount
  | overflow (calculation : Calculation)
  | underflow (calculation : Calculation)
  | serialization (reason : String)
  | deserialization (reason : String)
  | config (reason : String)
  | io (reason : String)
  deriving DecidableEq, Repr

namespace Error

def kind : Error → String
  | troveNotFound _ => "TroveNotFound"
  | troveAlreadyActive _ => "TroveAlreadyActive"
  | troveNotActive _ => "TroveNotActive"
  | lastTrove => "LastTrove"
  | insufficientCollateral _ _ => "InsufficientCollateral"
  | collateralRatioTooLow _ _ => "CollateralRatioTooLow"
  | debtBelowMinimum _ _ => "DebtBelowMinimum"
  | recoveryModeRestriction _ => "RecoveryModeRestriction"
  | notLiquidatable _ => "NotLiquidatable"
  | nothingToLiquidate => "NothingToLiquidate"
  | insufficientPoolForOffset _ _ => "InsufficientPoolForOffset"
  | degenerateDivision _ => "DegenerateDivision"
  | depositNotFound _ => "DepositNotFound"
  | noCollateralSurplus _ => "NoCollateralSurplus"
  | invalidPrice _ => "InvalidPrice"
  | invalidParameter _ _ => "InvalidParameter"
  | zeroAmount => "ZeroAmount"
  | overflow _ => "Overflow"
  | underflow _ => "Underflow"
  | serialization _ => "Serialization"
  | deserialization _ => "Deserialization"
  | config _ => "Config"
  | io _ => "Io"

/-- The error of a kind, with texts for what it names. -/
def ofKind? (kind a b : String) : Option Error :=
  match kind with
  | "TroveNotFound" => some (troveNotFound a)
  | "TroveAlreadyActive" => some (troveAlreadyActive a)
  | "TroveNotActive" => some (troveNotActive a)
  | "LastTrove" => some lastTrove
  | "InsufficientCollateral" => some (insufficientCollateral a b)
  | "CollateralRatioTooLow" => some (collateralRatioTooLow a b)
  | "DebtBelowMinimum" => some (debtBelowMinimum a b)
  | "RecoveryModeRestriction" => some (recoveryModeRestriction a)
  | "NotLiquidatable" => some (notLiquidatable a)
  | "NothingToLiquidate" => some nothingToLiquidate
  | "InsufficientPoolForOffset" => some (insufficientPoolForOffset a b)
  | "DegenerateDivision" => some (degenerateDivision (.named a))
  | "DepositNotFound" => some (depositNotFound a)
  | "NoCollateralSurplus" => some (noCollateralSurplus a)
  | "InvalidPrice" => some (invalidPrice a)
  | "InvalidParameter" => some (invalidParameter a b)
  | "ZeroAmount" => some zeroAmount
  | "Overflow" => some (overflow (.named a))
  | "Underflow" => some (underflow (.named a))
  | "Serialization" => some (serialization a)
  | "Deserialization" => some (deserialization a)
  | "Config" => some (config a)
  | "Io" => some (io a)
  | _ => none

/-- An error made for a kind is of that kind. -/
theorem kind_of_ofKind? {k a b : String} {e : Error} (h : ofKind? k a b = some e) : e.kind = k := by
  unfold ofKind? at h
  split at h <;> cases h <;> rfl

def message : Error → String
  | troveNotFound owner => "Trove not found: " ++ owner
  | troveAlreadyActive owner => "Trove already active: " ++ owner
  | troveNotActive owner => "Trove is not active: " ++ owner
  | lastTrove => "Only one trove in the system"
  | insufficientCollateral required available =>
      "Insufficient collateral: required " ++ required ++ ", available " ++ available
  | collateralRatioTooLow current minimum => "Collateral ratio " ++ current ++ " below minimum " ++ minimum
  | debtBelowMinimum amount minimum => "Debt amount " ++ amount ++ " below minimum " ++ minimum
  | recoveryModeRestriction reason => "Operation not permitted in Recovery Mode: " ++ reason
  | notLiquidatable trove => "Trove " ++ trove ++ " cannot be liquidated"
  | nothingToLiquidate => "Nothing to liquidate"
  | insufficientPoolForOffset required available =>
      "Insufficient stability pool deposits: required " ++ required ++ ", available " ++ available
  | degenerateDivision calculation => "Degenerate division in " ++ calculation.describe
  | depositNotFound depositor => "No stability pool deposit for " ++ depositor
  | noCollateralSurplus owner => "No collateral surplus available for " ++ owner
  | invalidPrice reason => "Invalid price: " ++ reason
  | invalidParameter name reason => "Invalid parameter " ++ name ++ ": " ++ reason
  | zeroAmount => "Amount cannot be zero"
  | overflow calculation => "Arithmetic overflow in " ++ calculation.describe
  | underflow calculation => "Arithmetic underflow in " ++ calculation.describe
  | serialization reason => "Serialization error: " ++ reason
  | deserialization reason => "Deserialization error: " ++ reason
  | config reason => "Configuration error: " ++ reason
  | io reason => "IO error: " ++ reason

/-- The number of an error: its thousands say what it is about. -/
def code : Error → Nat
  | troveNotFound _ => 1001
  | troveAlreadyActive _ => 1002
  | troveNotActive _ => 1003
  | lastTrove => 1004
  | insufficientCollateral _ _ => 1005
  | collateralRatioTooLow _ _ => 1006
  | debtBelowMinimum _ _ => 1007
  | recoveryModeRestriction _ => 1008
  | notLiquidatable _ => 2001
  | nothingToLiquidate => 2002
  | insufficientPoolForOffset _ _ => 2003
  | degenerateDivision _ => 2004
  | depositNotFound _ => 3001
  | noCollateralSurplus _ => 3002
  | invalidPrice _ => 4001
  | invalidParameter _ _ => 5001
  | zeroAmount => 5002
  | overflow _ => 5003
  | underflow _ => 5004
  | serialization _ => 7001
  | deserialization _ => 7002
  | config _ => 9001
  | io _ => 9002

/-- Whether the caller can mend the request and ask again. -/
def isRecoverable : Error → Bool
  | insufficientCollateral _ _ | collateralRatioTooLow _ _ | debtBelowMinimum _ _ | recoveryModeRestriction _
  | notLiquidatable _ | nothingToLiquidate => true
  | _ => false

/-- Whether the error shows that the accounts themselves are out of order. -/
def isCritical : Error → Bool
  | degenerateDivision _ | insufficientPoolForOffset _ _ | overflow _ | underflow _ => true
  | _ => false

end Error

end CollateralDebt
