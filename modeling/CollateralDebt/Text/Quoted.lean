import CollateralDebt.Text.Unprinted

/-!
Quoted text in messages. A text stands between two quotes; inside, the quote itself and the backslash are
escaped, tab, line feed, carriage return and the zero character have short escapes, and every other unprinted
character is shown by its code point.
-/

namespace CollateralDebt.Quoted

/-- The digits of a number in base sixteen, lower case, with no zeros in front. -/
def codePoint (n : Nat) : List Char := Nat.toDigits 16 n

def escape (quote c : Char) : List Char :=
  if c = '\x00' then ['\x5c', '0']
  else if c = '\t' then ['\x5c', 't']
  else if c = '\n' then ['\x5c', 'n']
  else if c = '\r' then ['\x5c', 'r']
  else if c = quote || c = '\x5c' then ['\x5c', c]
  else if Unprinted.isUnprinted c then ['\x5c', 'u', '\x7b'] ++ codePoint c.toNat ++ ['\x7d']
  else [c]

def quote (quoteMark : Char) (text : List Char) : List Char :=
  quoteMark :: text.flatMap (escape quoteMark) ++ [quoteMark]

def text (s : String) : String := String.ofList (quote '\x22' s.toList)

def character (c : Char) : String := String.ofList (quote '\x27' [c])

end CollateralDebt.Quoted
