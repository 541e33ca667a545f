import CollateralDebt.Json.Basic

/-!
Reading JSON. A text is one value with white space around it, where white space is space, tab, line feed and
carriage return. There is no limit to how deep values stand inside each other. Each step of the reader uses at
least one character or enters an array or an object, so twice the length of a text bounds its steps.
-/

namespace CollateralDebt.Json

/-- White space between the parts of a JSON text. -/
def isSpace (c : Char) : Bool := c = ' ' || c = '\n' || c = '\t' || c = '\r'

def skipSpace (text : List Char) : List Char := text.dropWhile isSpace

/-- One or more digits, and what follows them. -/
def someDigits (text : List Char) : Option (List Char × List Char) :=
  if (text.takeWhile Char.isDigit).isEmpty then none
  else some (text.takeWhile Char.isDigit, text.dropWhile Char.isDigit)

/-- The whole part of a number: a zero, or digits of which the first is no zero. -/
def wholePart : List Char → Option (List Char × List Char)
  | '0' :: rest => some (['0'], rest)
  | text => someDigits text

/-- The decimal places of a number with the point before them, if there is a point. -/
def placesPart : List Char → Option (List Char × List Char)
  | '.' :: rest => (someDigits rest).map fun (digits, rest) => ('.' :: digits, rest)
  | text => some ([], text)

/-- The exponent of a number, if there is one. -/
def exponentPart : List Char → Option (List Char × List Char)
  | mark :: rest =>
      if mark = 'e' || mark = 'E' then
        match rest with
        | sign :: digits =>
            if sign = '+' || sign = '-' then
              (someDigits digits).map fun (digits, rest) => (mark :: sign :: digits, rest)
            else (someDigits rest).map fun (digits, rest) => (mark :: digits, rest)
        | [] => none
      else some ([], mark :: rest)
  | [] => some ([], [])

def unsigned (text : List Char) : Option (List Char × List Char) :=
  match wholePart text with
  | none => none
  | some (whole, text) =>
      match placesPart text with
      | none => none
      | some (places, text) =>
          match exponentPart text with
          | none => none
          | some (exponent, text) => some (whole ++ places ++ exponent, text)

/-- A number, and what follows it. -/
def readNumber : List Char → Option (Json × List Char)
  | '-' :: rest => (unsigned rest).map fun (literal, rest) => (number (String.ofList ('-' :: literal)), rest)
  | text => (unsigned text).map fun (literal, rest) => (number (String.ofList literal), rest)

/-- A part of a quoted text: a character, or a unit of 16 bits that an escape gives by its number. -/
inductive Piece where
  | char (c : Char)
  /-- A unit given by its number. -/
  | unit (n : Nat)

def shortEscape : Char → Option Char
  | '\x22' => some '\x22'
  | '\x5c' => some '\x5c'
  | '/' => some '/'
  | 'b' => some '\x08'
  | 'f' => some '\x0c'
  | 'n' => some '\n'
  | 'r' => some '\r'
  | 't' => some '\t'
  | _ => none

/-- The number that four digits in base sixteen write. -/
def unitOfDigits (a b c d : Char) : Option Nat :=
  match Hex.value? a.toNat, Hex.value? b.toNat, Hex.value? c.toNat, Hex.value? d.toNat with
  | some a, some b, some c, some d => some (4096 * a + 256 * b + 16 * c + d)
  | _, _, _, _ => none

/-- The pieces of a quoted text up to its closing quote, after those read already (the latest first), and what
follows the quote. -/
def pieces (before : List Piece) : List Char → Option (List Piece × List Char)
  | [] => none
  | '\x22' :: rest => some (before.reverse, rest)
  | '\x5c' :: 'u' :: a :: b :: c :: d :: rest =>
      match unitOfDigits a b c d with
      | some n => pieces (.unit n :: before) rest
      | none => none
  | '\x5c' :: mark :: rest =>
      match shortEscape mark with
      | some c => pieces (.char c :: before) rest
      | none => none
  | c :: rest => if c.toNat < 32 then none else pieces (.char c :: before) rest

/-- Whether a unit is the first half of a surrogate pair. -/
def isHighSurrogate (n : Nat) : Bool := 0xd800 ≤ n && n < 0xdc00

/-- Whether a unit is the second half of a surrogate pair. -/
def isLowSurrogate (n : Nat) : Bool := 0xdc00 ≤ n && n < 0xe000

/-- The characters of pieces; none if half of a surrogate pair stands alone. -/
def assemble : List Piece → Option (List Char)
  | [] => some []
  | .char c :: rest => (assemble rest).map (c :: ·)
  | .unit n :: rest =>
      if isLowSurrogate n then none
      else if isHighSurrogate n then
        match rest with
        | .unit m :: rest =>
            if isLowSurrogate m then
              (assemble rest).map (Char.ofNat (0x10000 + (n - 0xd800) * 0x400 + (m - 0xdc00)) :: ·)
            else none
        | _ => none
      else (assemble rest).map (Char.ofNat n :: ·)

/-- A quoted text after its opening quote, and what follows it. -/
def readText (text : List Char) : Option (Option String × List Char) :=
  match pieces [] text with
  | none => none
  | some (found, rest) => some ((assemble found).map String.ofList, rest)

mutual

/-- A value with white space in front, and what follows it. -/
def readValue : Nat → List Char → Option (Json × List Char)
  | 0, _ => none
  | steps + 1, text =>
      match skipSpace text with
      | 'n' :: 'u' :: 'l' :: 'l' :: rest => some (null, rest)
      | 't' :: 'r' :: 'u' :: 'e' :: rest => some (bool true, rest)
      | 'f' :: 'a' :: 'l' :: 's' :: 'e' :: rest => some (bool false, rest)
      | '\x22' :: rest => (readText rest).map fun (text, rest) => (string text, rest)
      | '[' :: rest =>
          match skipSpace rest with
          | ']' :: rest => some (array [], rest)
          | rest => (readItems steps rest).map fun (items, rest) => (array items, rest)
      | '\x7b' :: rest =>
          match skipSpace rest with
          | '\x7d' :: rest => some (object [], rest)
          | rest => (readFields steps rest).map fun (fields, rest) => (object fields, rest)
      | text => readNumber text

/-- The items of an array from one of them to the closing bracket, and what follows it. -/
def readItems : Nat → List Char → Option (List Json × List Char)
  | 0, _ => none
  | steps + 1, text =>
      match readValue steps text with
      | none => none
      | some (item, rest) =>
          match skipSpace rest with
          | ',' :: rest => (readItems steps rest).map fun (items, rest) => (item :: items, rest)
          | ']' :: rest => some ([item], rest)
          | _ => none

/-- The fields of an object from one of them to the closing brace, and what follows it. -/
def readFields : Nat → List Char → Option (List (Option String × Json) × List Char)
  | 0, _ => none
  | steps + 1, text =>
      match skipSpace text with
      | '\x22' :: rest =>
          match readText rest with
          | none => none
          | some (name, rest) =>
              match skipSpace rest with
              | ':' :: rest =>
                  match readValue steps rest with
                  | none => none
                  | some (value, rest) =>
                      match skipSpace rest with
                      | ',' :: rest =>
                          (readFields steps rest).map fun (fields, rest) => ((name, value) :: fields, rest)
                      | '\x7d' :: rest => some ([(name, value)], rest)
                      | _ => none
              | _ => none
      | _ => none

end

def ofChars? (text : List Char) : Option Json :=
  match readValue (2 * text.length + 2) text with
  | none => none
  | some (value, rest) => if (skipSpace rest).isEmpty then some value else none

def parse (text : String) : Option Json := ofChars? text.toList

end CollateralDebt.Json
