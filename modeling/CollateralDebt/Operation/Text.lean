import CollateralDebt.Json.Parser
import CollateralDebt.Json.Printer
import CollateralDebt.Operation.Basic

/-!
Operations as JSON. An operation is a choice named for it, and what comes with it is the record of its fields; a
change of an amount is a choice too.
-/

namespace CollateralDebt

namespace AmountChange

def toJson : AmountChange → Json
  | unchanged => .ofText "Unchanged"
  | increase d => .ofFields [("Increase", d.toJson)]
  | decrease d => .ofFields [("Decrease", d.toJson)]

def ofJson? (j : Json) : Option AmountChange :=
  match j.choice? with
  | some ("Unchanged", none) => some unchanged
  | some ("Unchanged", some .null) => some unchanged
  | some ("Increase", some amount) => amount.amount?.map increase
  | some ("Decrease", some amount) => amount.amount?.map decrease
  | _ => none

end AmountChange

namespace Operation

def fields : Operation → List (String × Json)
  | openTrove owner collateral debt =>
      [("owner", owner.toJson), ("collateral", collateral.toJson), ("debt", debt.toJson)]
  | adjustTrove owner collateral debt =>
      [("owner", owner.toJson), ("collateral", collateral.toJson), ("debt", debt.toJson)]
  | closeTrove owner => [("owner", owner.toJson)]
  | provide depositor amount => [("depositor", depositor.toJson), ("amount", amount.toJson)]
  | withdraw depositor amount => [("depositor", depositor.toJson), ("amount", amount.toJson)]
  | liquidate caller borrower => [("caller", caller.toJson), ("borrower", borrower.toJson)]
  | liquidateBatch caller borrowers =>
      [("caller", caller.toJson), ("borrowers", .array (borrowers.map Address.toJson))]
  | claimSurplus owner => [("owner", owner.toJson)]

def toJson (o : Operation) : Json := .ofFields [(o.name, .ofFields o.fields)]

def readOwner (record : Json.FieldReader) (j : Json) : Option Address :=
  match record ["owner"] j with
  | some [some owner] => owner.address?
  | _ => none

def readDeposit (record : Json.FieldReader) (j : Json) : Option (Address × Amount) :=
  match record ["depositor", "amount"] j with
  | some [some depositor, some amount] => do
      let depositor ← depositor.address?
      let amount ← amount.amount?
      return (depositor, amount)
  | _ => none

def readOpening (record : Json.FieldReader) (j : Json) : Option Operation :=
  match record ["owner", "collateral", "debt"] j with
  | some [some owner, some collateral, some debt] => do
      let owner ← owner.address?
      let collateral ← collateral.amount?
      let debt ← debt.amount?
      return openTrove owner collateral debt
  | _ => none

def readAdjustment (record : Json.FieldReader) (j : Json) : Option Operation :=
  match record ["owner", "collateral", "debt"] j with
  | some [some owner, some collateral, some debt] => do
      let owner ← owner.address?
      let collateral ← AmountChange.ofJson? collateral
      let debt ← AmountChange.ofJson? debt
      return adjustTrove owner collateral debt
  | _ => none

def readLiquidation (record : Json.FieldReader) (j : Json) : Option Operation :=
  match record ["caller", "borrower"] j with
  | some [some caller, some borrower] => do
      let caller ← caller.address?
      let borrower ← borrower.address?
      return liquidate caller borrower
  | _ => none

def readBatch (record : Json.FieldReader) (j : Json) : Option Operation :=
  match record ["caller", "borrowers"] j with
  | some [some caller, some borrowers] => do
      let caller ← caller.address?
      let borrowers ← borrowers.items?
      let borrowers ← borrowers.mapM Json.address?
      return liquidateBatch caller borrowers
  | _ => none

/-- The operation that a value writes, where `record` reads its fields. -/
def read (record : Json.FieldReader) (j : Json) : Option Operation :=
  match j.choice? with
  | some ("OpenTrove", some fields) => readOpening record fields
  | some ("AdjustTrove", some fields) => readAdjustment record fields
  | some ("CloseTrove", some fields) => (readOwner record fields).map closeTrove
  | some ("ProvideToStabilityPool", some fields) => (readDeposit record fields).map fun (d, a) => provide d a
  | some ("WithdrawFromStabilityPool", some fields) => (readDeposit record fields).map fun (d, a) => withdraw d a
  | some ("Liquidate", some fields) => readLiquidation record fields
  | some ("BatchLiquidate", some fields) => readBatch record fields
  | some ("ClaimCollateralSurplus", some fields) => (readOwner record fields).map claimSurplus
  | _ => none

/-- The operation that a value writes, each field under its name. -/
def ofJson? : Json → Option Operation := read Json.members?

def text (o : Operation) : String := o.toJson.compact

/-- The operation that a text writes, its fields under their names or in order. -/
def parse (text : String) : Option Operation := (Json.parse text).bind (read Json.record?)

end Operation

end CollateralDebt
