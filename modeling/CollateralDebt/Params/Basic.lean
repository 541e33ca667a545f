import CollateralDebt.Amount.Parser

/-!
The parameters of the system: the ratios that decide when a trove or the whole system is in danger, what a
liquidator is paid, the smallest debt, how the stability pool keeps its product in range, and how many
liquidations are remembered. Single values may be overridden from named texts.
-/

namespace CollateralDebt

/-- The parameters of the system. -/
structure Params where
  /-- A trove whose ratio is below this can be liquidated. -/
  minimumRatio : Amount
  /-- While the ratio of the whole system is below this, it is in Recovery Mode. -/
  criticalRatio : Amount
  /-- The liquidator is paid one part in so many of the collateral. -/
  gasDivisor : UInt64
  /-- The liquidator is paid at least this much, if there is so much. -/
  gasFloor : Amount
  /-- The smallest debt of an open trove. -/
  minimumDebt : Amount
  /-- The stability pool changes its scale when its product would fall below so many units. -/
  productFloor : UInt64
  /-- A change of scale multiplies the product by this. -/
  productFactor : UInt64
  /-- So many liquidations are remembered. -/
  historyLimit : UInt64
  deriving DecidableEq, Repr

namespace Params

/-- A minimum of 110 %, Recovery Mode below 150 %, a half per cent and at least 0.001 for the liquidator, and no
debt below 1800. -/
def standard : Params where
  minimumRatio := ⟨1100000000000000000, by decide⟩
  criticalRatio := ⟨1500000000000000000, by decide⟩
  gasDivisor := 200
  gasFloor := ⟨1000000000000000, by decide⟩
  minimumDebt := ⟨1800 * Amount.scale, by decide⟩
  productFloor := 1000000000
  productFactor := 1000000000
  historyLimit := 1000

instance : Inhabited Params := ⟨standard⟩

/-- The parameters make sense together: every trove that can be liquidated in Normal Mode is below the ratio of
Recovery Mode, and a product that changes its scale stays at or below one. -/
def check (p : Params) : Except Error Unit :=
  if p.minimumRatio ≤ Amount.one then .error (.config ("MCR " ++ p.minimumRatio.text ++ " must exceed 1.0"))
  else if p.criticalRatio ≤ p.minimumRatio then
    .error (.config ("CCR " ++ p.criticalRatio.text ++ " must exceed MCR " ++ p.minimumRatio.text))
  else if p.gasDivisor = 0 then .error (.config "gas compensation divisor cannot be zero")
  else if p.productFloor = 0 then .error (.config "P precision floor cannot be zero")
  else if p.productFactor < 2 then .error (.config "P scale factor must be at least 2")
  else if Amount.scale < p.productFloor.toNat * p.productFactor.toNat then
    .error (.config ("P precision floor " ++ Digits.text p.productFloor.toNat ++ " times scale factor "
      ++ Digits.text p.productFactor.toNat ++ " exceeds 1e18"))
  else .ok ()

/-- What parameters have that make sense together. -/
structure Sensible (p : Params) : Prop where
  minimumRatio_gt : Amount.one < p.minimumRatio
  criticalRatio_gt : p.minimumRatio < p.criticalRatio
  gasDivisor_ne : p.gasDivisor ≠ 0
  productFloor_ne : p.productFloor ≠ 0
  productFactor_ge : 2 ≤ p.productFactor
  product_le : p.productFloor.toNat * p.productFactor.toNat ≤ Amount.scale

theorem sensible_of_check {p : Params} (h : p.check = .ok ()) : p.Sensible := by
  unfold check at h
  split at h
  · cases h
  next hminimum =>
  split at h
  · cases h
  next hcritical =>
  split at h
  · cases h
  next hdivisor =>
  split at h
  · cases h
  next hfloor =>
  split at h
  · cases h
  next hfactor =>
  split at h
  · cases h
  next hproduct =>
  exact ⟨Amount.not_le.1 hminimum, Amount.not_le.1 hcritical, hdivisor, hfloor, UInt64.not_lt.1 hfactor,
    Nat.le_of_not_lt hproduct⟩

/-- What the liquidator of a trove is paid out of its collateral. -/
def gasCompensation (p : Params) (collateral : Amount) : Amount :=
  min (max (collateral.dividedBy (Nat.max p.gasDivisor.toNat 1)) p.gasFloor) collateral

/-- The number that a text writes, with white space around it and a plus in front allowed. -/
def wordOfText? (text : String) : Option UInt64 :=
  let trimmed := Blank.trim text.toList
  let row := match trimmed with
    | '+' :: rest => rest
    | _ => trimmed
  if row.isEmpty || !row.all Char.isDigit then none
  else if Digits.toNat row < UInt64.size then some (UInt64.ofNat (Digits.toNat row))
  else none

/-- The amount of a named text, or the present amount if there is no such text. -/
def overriddenAmount (lookup : String → Option String) (name : String) (present : Amount) : Except Error Amount :=
  match lookup name with
  | none => .ok present
  | some text =>
      match Amount.parse text with
      | .ok amount => .ok amount
      | .error error => .error (.config (name ++ ": " ++ error.message))

/-- The number of a named text, or the present number if there is no such text. -/
def overriddenWord (lookup : String → Option String) (name : String) (present : UInt64) : Except Error UInt64 :=
  match lookup name with
  | none => .ok present
  | some text =>
      match wordOfText? text with
      | some word => .ok word
      | none => .error (.config (name ++ ": " ++ Quoted.text text))

/-- The parameters with the values that a table of texts gives under their names, which must make sense. -/
def override (p : Params) (lookup : String → Option String) : Except Error Params := do
  let minimumRatio ← overriddenAmount lookup "TROVE_MCR" p.minimumRatio
  let criticalRatio ← overriddenAmount lookup "TROVE_CCR" p.criticalRatio
  let gasDivisor ← overriddenWord lookup "TROVE_GAS_COMP_DIVISOR" p.gasDivisor
  let gasFloor ← overriddenAmount lookup "TROVE_GAS_COMP_FLOOR" p.gasFloor
  let minimumDebt ← overriddenAmount lookup "TROVE_MIN_DEBT" p.minimumDebt
  let overridden := { p with minimumRatio, criticalRatio, gasDivisor, gasFloor, minimumDebt }
  overridden.check
  return overridden

end Params

end CollateralDebt
