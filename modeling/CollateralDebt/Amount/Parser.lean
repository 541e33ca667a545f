import CollateralDebt.Amount.Arithmetic
import CollateralDebt.Text.Blank
import CollateralDebt.Text.Quoted

/-!
Reading amounts. White space around an amount is skipped; then digits must follow, with at most one point among
them, at most eighteen places after it, and a value in range. A refusal quotes the text as it was given.
-/

namespace CollateralDebt.Amount

/-- Why a text is no amount. -/
inductive Fault where
  | empty
  | notDigits
  | tooManyPlaces
  /-- The whole part alone does not fit in 128 bits. -/
  | wholeOutOfRange
  /-- The value is larger than the largest amount. -/
  | outOfRange
  deriving DecidableEq, Repr

def Fault.message : Fault → String
  | .empty => "empty"
  | .notDigits => "expected unsigned decimal digits"
  | .tooManyPlaces => "more than 18 fractional digits"
  | .wholeOutOfRange => "integer part out of range"
  | .outOfRange => "value out of range"

/-- The parts of a row before and after its first point. -/
def splitPoint (row : List Char) : List Char × List Char :=
  (row.takeWhile (· != '.'), (row.dropWhile (· != '.')).drop 1)

/-- The amount that a row of characters without white space around it writes. -/
def ofTrimmed (row : List Char) : Except Fault Amount :=
  let (whole, places) := splitPoint row
  if whole.isEmpty && places.isEmpty then .error .empty
  else if !(whole ++ places).all Char.isDigit then .error .notDigits
  else if 18 < places.length then .error .tooManyPlaces
  else if 1 <<< 128 ≤ Digits.toNat whole then .error .wholeOutOfRange
  else match ofUnits? (Digits.toNat whole * scale + Digits.toNat places * Nat.pow 10 (18 - places.length)) with
    | none => .error .outOfRange
    | some a => .ok a

def parse (text : String) : Except Error Amount :=
  match ofTrimmed (Blank.trim text.toList) with
  | .ok a => .ok a
  | .error fault => .error (.invalidParameter "decimal" (Quoted.text text ++ ": " ++ fault.message))

end CollateralDebt.Amount
