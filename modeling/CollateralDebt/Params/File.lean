import CollateralDebt.Json.Parser
import CollateralDebt.Json.Printer
import CollateralDebt.Params.Basic

/-!
Parameter files. A file is a JSON record; the fields it leaves out have their standard values, and parameters
that make no sense together are refused.
-/

namespace CollateralDebt.Params

def toJson (p : Params) : Json :=
  .ofFields [
    ("mcr", .ofText p.minimumRatio.text),
    ("ccr", .ofText p.criticalRatio.text),
    ("gas_compensation_divisor", .ofNat p.gasDivisor.toNat),
    ("gas_compensation_floor", .ofText p.gasFloor.text),
    ("min_debt", .ofText p.minimumDebt.text),
    ("p_precision_floor", .ofNat p.productFloor.toNat),
    ("p_scale_factor", .ofNat p.productFactor.toNat),
    ("max_history", .ofNat p.historyLimit.toNat)]

/-- The value of a field, or the present value if the field is missing. -/
def fieldOr {α : Type} (read : Json → Option α) (present : α) : Option Json → Option α
  | none => some present
  | some value => read value

/-- The parameters that JSON writes, with standard values for the fields that are missing. -/
def ofJson? (j : Json) : Option Params :=
  match Json.record? ["mcr", "ccr", "gas_compensation_divisor", "gas_compensation_floor", "min_debt",
      "p_precision_floor", "p_scale_factor", "max_history"] j with
  | some [mcr, ccr, divisor, gasFloor, debt, floor, factor, history] => do
      let minimumRatio ← fieldOr Json.amount? standard.minimumRatio mcr
      let criticalRatio ← fieldOr Json.amount? standard.criticalRatio ccr
      let gasDivisor ← fieldOr Json.word? standard.gasDivisor divisor
      let gasFloor ← fieldOr Json.amount? standard.gasFloor gasFloor
      let minimumDebt ← fieldOr Json.amount? standard.minimumDebt debt
      let productFloor ← fieldOr Json.word? standard.productFloor floor
      let productFactor ← fieldOr Json.word? standard.productFactor factor
      let historyLimit ← fieldOr Json.word? standard.historyLimit history
      return { minimumRatio, criticalRatio, gasDivisor, gasFloor, minimumDebt, productFloor, productFactor,
               historyLimit }
  | _ => none

def save (p : Params) : String := p.toJson.pretty

/-- The error for a text that is no parameter file. -/
def unreadable : Error := .config "not a record of parameters"

def load (text : String) : Except Error Params :=
  match (Json.parse text).bind ofJson? with
  | none => .error unreadable
  | some p => p.check.map fun _ => p

end CollateralDebt.Params
