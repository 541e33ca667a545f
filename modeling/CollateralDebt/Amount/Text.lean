import CollateralDebt.Amount.Basic
import CollateralDebt.Text.Digits

/-!
How an amount is written: its whole part, and, unless they are all zero, a point and its decimal places without
the zeros at their end.
-/

namespace CollateralDebt.Amount

/-- A row of digits without the zeros at its end. -/
def trimZeros (row : List Char) : List Char := ((row.reverse).dropWhile (· == '0')).reverse

def written (a : Amount) : List Char :=
  let whole := Digits.ofNat (a.units / scale)
  if a.units % scale = 0 then whole
  else whole ++ '.' :: trimZeros (Digits.padded 18 (a.units % scale))

/-- The written form of an amount, as text. -/
def text (a : Amount) : String := String.ofList a.written

instance : ToString Amount := ⟨text⟩

end CollateralDebt.Amount
