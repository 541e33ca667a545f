import CollateralDebt.Text.Quoted

/-!
Bytes written in base sixteen, two digits a byte and lower case. Either case is read. A text is refused when it
has an odd number of bytes, or else at its first byte that is no digit.
-/

namespace CollateralDebt.Hex

/-- Why a text is not a row of bytes in base sixteen. -/
inductive Fault where
  | oddLength
  | badDigit (byte : UInt8) (position : Nat)
  deriving DecidableEq, Repr

/-- The words for a fault; a byte is shown as the character of its number. -/
def Fault.message : Fault → String
  | .oddLength => "Odd number of digits"
  | .badDigit byte position =>
      "Invalid character " ++ Quoted.character (Char.ofNat byte.toNat) ++ " at position " ++ toString position

def digit (d : Nat) : Char := if d < 10 then Char.ofNat (48 + d) else Char.ofNat (87 + d)

def value? (n : Nat) : Option Nat :=
  if 48 ≤ n ∧ n ≤ 57 then some (n - 48)
  else if 97 ≤ n ∧ n ≤ 102 then some (n - 87)
  else if 65 ≤ n ∧ n ≤ 70 then some (n - 55)
  else none

def digits (bytes : List UInt8) : List Char :=
  bytes.flatMap fun b => [digit (b.toNat / 16), digit (b.toNat % 16)]

def encode (bytes : List UInt8) : String := String.ofList (digits bytes)

/-- The bytes of a row of digits that starts at a position; a last digit that stands alone is left out. -/
def pairs (position : Nat) : List UInt8 → Except Fault (List UInt8)
  | high :: low :: rest =>
      match value? high.toNat with
      | none => .error (.badDigit high position)
      | some h =>
          match value? low.toNat with
          | none => .error (.badDigit low (position + 1))
          | some l => (pairs (position + 2) rest).map (UInt8.ofNat (16 * h + l) :: ·)
  | _ => .ok []

def decode (text : String) : Except Fault (List UInt8) :=
  let bytes := text.toUTF8.toList
  if bytes.length % 2 = 1 then .error .oddLength else pairs 0 bytes

theorem value?_digit {d : Nat} (h : d < 16) : value? (digit d).toNat = some d := by
  have hall : ∀ d : Fin 16, value? (digit d.val).toNat = some d.val := by decide
  exact hall ⟨d, h⟩

end CollateralDebt.Hex
