/-!
Amounts: numbers with eighteen decimal places that fit in 128 bits. An amount is held as a count of its last
places (`units`), so `1.0` is `10 ^ 18` units; debt, collateral, prices and ratios are all amounts. The
operations here cannot fail: they order amounts, and add and subtract them with the result held in range.
-/

namespace CollateralDebt

/-- A number with eighteen decimal places, below `2 ^ 128` of its last places. -/
structure Amount where
  /-- The count of last places. -/
  units : Nat
  units_lt : units < 1 <<< 128
  deriving DecidableEq, Repr

namespace Amount

def scale : Nat := 1_000_000_000_000_000_000

def zero : Amount := ⟨0, by decide⟩

def one : Amount := ⟨scale, by decide⟩

/-- The largest amount, which also stands for an infinite ratio. -/
def max : Amount := ⟨(1 <<< 128) - 1, by decide⟩

instance : Inhabited Amount := ⟨zero⟩

instance : LE Amount := ⟨fun a b => a.units ≤ b.units⟩
instance : LT Amount := ⟨fun a b => a.units < b.units⟩
instance : DecidableLE Amount := fun a b => inferInstanceAs (Decidable (a.units ≤ b.units))
instance : DecidableLT Amount := fun a b => inferInstanceAs (Decidable (a.units < b.units))
instance : Min Amount := minOfLe
instance : Max Amount := maxOfLe

@[ext] theorem ext {a b : Amount} (h : a.units = b.units) : a = b := by
  cases a; cases b; simpa using h

theorem le_iff {a b : Amount} : a ≤ b ↔ a.units ≤ b.units := Iff.rfl

theorem lt_iff {a b : Amount} : a < b ↔ a.units < b.units := Iff.rfl

theorem not_le {a b : Amount} : ¬a ≤ b ↔ b < a := Nat.not_le

theorem not_lt {a b : Amount} : ¬a < b ↔ b ≤ a := Nat.not_lt

theorem min_le_left (a b : Amount) : min a b ≤ a := by
  show (if a ≤ b then a else b) ≤ a
  split
  · exact Nat.le_refl _
  · next hbelow => exact Nat.le_of_lt (not_le.1 hbelow)

def isZero (a : Amount) : Bool := a.units == 0

theorem isZero_iff {a : Amount} : a.isZero = true ↔ a = zero := by
  simp [isZero, Amount.ext_iff, zero]

theorem units_of_isZero {a : Amount} (h : a.isZero = true) : a.units = 0 := congrArg units (isZero_iff.1 h)

theorem units_pos_iff {a : Amount} : 0 < a.units ↔ ¬a.isZero = true := by
  rw [Nat.pos_iff_ne_zero, isZero, beq_iff_eq]

/-- The amount of a count of last places, if it is in range. -/
def ofUnits? (n : Nat) : Option Amount := if h : n < 1 <<< 128 then some ⟨n, h⟩ else none

theorem ofUnits?_units (a : Amount) : ofUnits? a.units = some a := dif_pos a.units_lt

/-- The amount of a count of last places, or the largest amount if the count is out of range. -/
def clamp (n : Nat) : Amount := if h : n < 1 <<< 128 then ⟨n, h⟩ else max

theorem units_clamp (n : Nat) : (clamp n).units = min n ((1 <<< 128) - 1) := by
  unfold clamp
  split
  · show n = _
    omega
  · show (1 <<< 128) - 1 = _
    omega

theorem clamp_units (a : Amount) : clamp a.units = a := by
  rw [clamp, dif_pos a.units_lt]

/-- The sum of two amounts, or the largest amount if the sum is out of range. -/
def plusClamped (a b : Amount) : Amount := clamp (a.units + b.units)

theorem units_plusClamped (a b : Amount) : (a.plusClamped b).units = Nat.min (a.units + b.units) ((1 <<< 128) - 1) :=
  units_clamp _

theorem plusClamped_zero (a : Amount) : a.plusClamped zero = a := clamp_units a

/-- The difference of two amounts, or nothing if the second is larger. -/
def minusClamped (a b : Amount) : Amount :=
  ⟨a.units - b.units, Nat.lt_of_le_of_lt (Nat.sub_le _ _) a.units_lt⟩

theorem units_minusClamped (a b : Amount) : (a.minusClamped b).units = a.units - b.units := rfl

/-- One of so many equal parts of an amount, rounded down. -/
def dividedBy (a : Amount) (parts : Nat) : Amount :=
  ⟨a.units / parts, Nat.lt_of_le_of_lt (Nat.div_le_self _ _) a.units_lt⟩

/-- The amount of a 64-bit count of its last places. -/
def ofWord (n : UInt64) : Amount := ⟨n.toNat, Nat.lt_of_lt_of_le n.toNat_lt (by decide)⟩

def ofWhole (n : UInt64) : Amount :=
  ⟨n.toNat * scale, by have hsmall := n.toNat_lt; simp only [scale]; omega⟩

/-- A number of parts, of which a whole has `parts`, rounded down. -/
def ofParts (n : UInt64) (parts : Nat) : Amount := (ofWhole n).dividedBy parts

/-- A number of basis points, of which a whole has ten thousand. -/
def ofBasisPoints (n : UInt64) : Amount := ofParts n 10000

def ofPercent (n : UInt64) : Amount := ofParts n 100

end Amount

end CollateralDebt
