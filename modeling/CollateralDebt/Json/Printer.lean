import CollateralDebt.Json.Basic

/-!
Writing JSON, on one line without spaces (`compact`) or with a line for each item and field, two spaces deeper
than what it stands in (`pretty`). Quotes, backslashes and control characters are escaped, and nothing else.
-/

namespace CollateralDebt.Json

def escape (c : Char) : List Char :=
  if c = '\x22' then ['\x5c', '\x22']
  else if c = '\x5c' then ['\x5c', '\x5c']
  else if c = '\x08' then ['\x5c', 'b']
  else if c = '\x0c' then ['\x5c', 'f']
  else if c = '\n' then ['\x5c', 'n']
  else if c = '\r' then ['\x5c', 'r']
  else if c = '\t' then ['\x5c', 't']
  else if c.toNat < 32 then ['\x5c', 'u', '0', '0', Hex.digit (c.toNat / 16), Hex.digit (c.toNat % 16)]
  else [c]

/-- A quoted text; half of a surrogate pair stands for one that cannot be read. -/
def writeText : Option String → List Char
  | some text => '\x22' :: text.toList.flatMap escape ++ ['\x22']
  | none => ['\x22', '\x5c', 'u', 'd', '8', '0', '0', '\x22']

def write : Json → List Char
  | null => ['n', 'u', 'l', 'l']
  | bool true => ['t', 'r', 'u', 'e']
  | bool false => ['f', 'a', 'l', 's', 'e']
  | number literal => literal.toList
  | string text => writeText text
  | array items => '[' :: writeItems items ++ [']']
  | object fields => '\x7b' :: writeFields fields ++ ['\x7d']
where
  /-- Items with commas between them. -/
  writeItems : List Json → List Char
    | [] => []
    | [item] => write item
    | item :: next :: rest => write item ++ ',' :: writeItems (next :: rest)
  /-- Fields with commas between them. -/
  writeFields : List (Option String × Json) → List Char
    | [] => []
    | [(name, value)] => writeText name ++ ':' :: write value
    | (name, value) :: next :: rest => writeText name ++ ':' :: write value ++ ',' :: writeFields (next :: rest)

def compact (j : Json) : String := String.ofList j.write

/-- The start of a line that stands at a depth. -/
def newLine (depth : Nat) : List Char := '\n' :: List.replicate (2 * depth) ' '

/-- A value at a depth, over several lines. -/
def spread (depth : Nat) : Json → List Char
  | null => ['n', 'u', 'l', 'l']
  | bool true => ['t', 'r', 'u', 'e']
  | bool false => ['f', 'a', 'l', 's', 'e']
  | number literal => literal.toList
  | string text => writeText text
  | array [] => ['[', ']']
  | array items => '[' :: spreadItems depth items ++ newLine depth ++ [']']
  | object [] => ['\x7b', '\x7d']
  | object fields => '\x7b' :: spreadFields depth fields ++ newLine depth ++ ['\x7d']
where
  /-- Items one deeper, each on a line of its own. -/
  spreadItems (depth : Nat) : List Json → List Char
    | [] => []
    | [item] => newLine (depth + 1) ++ spread (depth + 1) item
    | item :: next :: rest =>
        newLine (depth + 1) ++ spread (depth + 1) item ++ ',' :: spreadItems depth (next :: rest)
  /-- Fields one deeper, each on a line of its own. -/
  spreadFields (depth : Nat) : List (Option String × Json) → List Char
    | [] => []
    | [(name, value)] => newLine (depth + 1) ++ writeText name ++ ':' :: ' ' :: spread (depth + 1) value
    | (name, value) :: next :: rest =>
        newLine (depth + 1) ++ writeText name ++ ':' :: ' ' :: spread (depth + 1) value
          ++ ',' :: spreadFields depth (next :: rest)

def pretty (j : Json) : String := String.ofList (j.spread 0)

end CollateralDebt.Json
