import CollateralDebt.Json.Basic
import CollateralDebt.Rewards

/-!
Troves and redistributions as JSON. Amounts are written as text, counts as numbers, and each record names its
fields.
-/

namespace CollateralDebt

/-- A value that may be missing, as JSON. -/
def Json.ofOption {α : Type} (write : α → Json) (value : Option α) : Json := (value.map write).getD .null

def Json.ofList {α : Type} (write : α → Json) (items : List α) : Json := .array (items.map write)

def TroveStatus.toJson (status : TroveStatus) : Json := .ofText status.name

def Level.toJson (level : Level) : Json :=
  .ofFields [("l_collateral", level.collateral.toJson), ("l_debt", level.debt.toJson)]

def Trove.toJson (t : Trove) : Json :=
  .ofFields [
    ("owner", t.owner.toJson),
    ("debt", t.debt.toJson),
    ("collateral", t.collateral.toJson),
    ("stake", t.stake.toJson),
    ("status", t.status.toJson),
    ("array_index", .ofNat t.slot),
    ("snapshot", t.snapshot.toJson)]

def Pending.toJson (p : Pending) : Json :=
  .ofFields [("collateral", p.collateral.toJson), ("debt", p.debt.toJson)]

def EntireTrove.toJson (e : EntireTrove) : Json :=
  .ofFields [
    ("debt", e.debt.toJson),
    ("collateral", e.collateral.toJson),
    ("pending", e.pending.toJson),
    ("stake", e.stake.toJson)]

def Redistribution.toJson (d : Redistribution) : Json :=
  .ofFields [
    ("collateral", d.collateral.toJson),
    ("debt", d.debt.toJson),
    ("collateral_per_unit", d.rise.collateral.toJson),
    ("debt_per_unit", d.rise.debt.toJson),
    ("l_collateral", d.level.collateral.toJson),
    ("l_debt", d.level.debt.toJson)]

end CollateralDebt
