import CollateralDebt.Amount.Basic
import Mathlib.Algebra.Ring.Nat

/-! Calculations in words of 256 bits. An operation gives a word where it does not overflow and nothing otherwise, so a
calculation that gives a word has not overflowed in any step. Where the natural numbers fit, the words are the numbers.
An amount fits, and so does an amount times a number that is one unit at most. -/

namespace CollateralDebt

/-- A word of 256 bits. -/
abbrev Word := BitVec 256

namespace Word

variable {a b : Nat}

def ofNat (n : Nat) : Word := BitVec.ofNat 256 n

def plus (a b : Word) : Option Word := if a.uaddOverflow b then none else some (a + b)

def minus (a b : Word) : Option Word := if a.usubOverflow b then none else some (a - b)

def times (a b : Word) : Option Word := if a.umulOverflow b then none else some (a * b)

def dividedBy (a b : Word) : Option Word := if b = 0 then none else some (a / b)

/-- The difference, or zero where the second word is no smaller. -/
def minusClamped (a b : Word) : Option Word := if b < a then a.minus b else some (ofNat 0)

def least (a b : Word) : Word := if a < b then a else b

theorem toNat_ofNat (h : a < 2 ^ 256) : (ofNat a).toNat = a := by
  rw [ofNat, BitVec.toNat_ofNat, Nat.mod_eq_of_lt h]

theorem plus_ofNat (h : a + b < 2 ^ 256) : plus (ofNat a) (ofNat b) = some (ofNat (a + b)) := by
  have hfits : (ofNat a).uaddOverflow (ofNat b) = false := by
    rw [BitVec.uaddOverflow, toNat_ofNat (by omega), toNat_ofNat (by omega), decide_eq_false_iff_not, Nat.not_le]
    exact h
  rw [plus, hfits, if_neg Bool.false_ne_true, ofNat, ofNat, ofNat, BitVec.ofNat_add]

theorem minus_ofNat (ha : a < 2 ^ 256) (h : b ≤ a) : minus (ofNat a) (ofNat b) = some (ofNat (a - b)) := by
  have hb : b < 2 ^ 256 := Nat.lt_of_le_of_lt h ha
  have hfits : (ofNat a).usubOverflow (ofNat b) = false := by
    rw [BitVec.usubOverflow, toNat_ofNat ha, toNat_ofNat hb, decide_eq_false_iff_not, Nat.not_lt]
    exact h
  rw [minus, hfits, if_neg Bool.false_ne_true, ofNat, ofNat, ofNat, BitVec.ofNat_sub_ofNat_of_le a b hb h]

theorem times_ofNat (ha : a < 2 ^ 256) (hb : b < 2 ^ 256) (h : a * b < 2 ^ 256) :
    times (ofNat a) (ofNat b) = some (ofNat (a * b)) := by
  have hfits : (ofNat a).umulOverflow (ofNat b) = false := by
    rw [BitVec.umulOverflow, toNat_ofNat ha, toNat_ofNat hb, decide_eq_false_iff_not, Nat.not_le]
    exact h
  rw [times, hfits, if_neg Bool.false_ne_true, ofNat, ofNat, ofNat, BitVec.ofNat_mul]

theorem dividedBy_ofNat (ha : a < 2 ^ 256) (hb : b < 2 ^ 256) (h : 0 < b) :
    dividedBy (ofNat a) (ofNat b) = some (ofNat (a / b)) := by
  have hsome : ofNat b ≠ 0 := fun hzero => by
    have hnat := congrArg BitVec.toNat hzero
    rw [toNat_ofNat hb] at hnat
    exact absurd hnat (Nat.ne_of_gt h)
  have hquotient : ofNat a / ofNat b = ofNat (a / b) := BitVec.eq_of_toNat_eq <| by
    rw [BitVec.toNat_udiv, toNat_ofNat ha, toNat_ofNat hb, toNat_ofNat (Nat.lt_of_le_of_lt (Nat.div_le_self a b) ha)]
  rw [dividedBy, if_neg hsome, hquotient]

theorem ofNat_lt_iff (ha : a < 2 ^ 256) (hb : b < 2 ^ 256) : ofNat a < ofNat b ↔ a < b := by
  rw [BitVec.lt_def, toNat_ofNat ha, toNat_ofNat hb]

theorem minusClamped_ofNat (ha : a < 2 ^ 256) (hb : b < 2 ^ 256) :
    (ofNat a).minusClamped (ofNat b) = some (ofNat (a - b)) := by
  unfold minusClamped
  split
  · next hless => exact minus_ofNat ha (Nat.le_of_lt ((ofNat_lt_iff hb ha).1 hless))
  · next hmore =>
      rw [ofNat_lt_iff hb ha] at hmore
      rw [Nat.sub_eq_zero_of_le (Nat.le_of_not_lt hmore)]

theorem least_ofNat (hb : b < 2 ^ 256) (h : a ≤ b) : least (ofNat a) (ofNat b) = ofNat a := by
  unfold least
  split
  · rfl
  · next hmore =>
      rw [ofNat_lt_iff (Nat.lt_of_le_of_lt h hb) hb] at hmore
      rw [Nat.le_antisymm h (Nat.le_of_not_lt hmore)]

/-! ## Amounts -/

theorem units_lt (a : Amount) : a.units < 2 ^ 256 := Nat.lt_of_lt_of_le a.units_lt (by decide)

theorem units_mul_lt (a : Amount) {n : Nat} (h : n ≤ Amount.scale) : a.units * n < 2 ^ 256 :=
  calc a.units * n ≤ (1 <<< 128) * Amount.scale := Nat.mul_le_mul (Nat.le_of_lt a.units_lt) h
    _ < 2 ^ 256 := by decide

end Word

end CollateralDebt
