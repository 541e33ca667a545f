import CollateralDebt.Address
import CollateralDebt.Amount.Parser
import CollateralDebt.Digest.Basic

/-!
JSON values, and how the values of this library are read from them. Numbers keep their literal, since a field
that holds a count takes only literals without sign, point and exponent. A record is an object whose fields may
stand in any order beside unknown ones, or an array of its fields in order; a choice is a name, or an object of
one field that holds what comes with the name.
-/

namespace CollateralDebt

/-- A JSON value. -/
inductive Json where
  | null
  | bool (b : Bool)
  /-- A number, as it is written. -/
  | number (literal : String)
  /-- A text; `none` where an escape names half of a surrogate pair, which no text can hold. -/
  | string (text : Option String)
  | array (items : List Json)
  /-- A list of named values; names may occur more than once. -/
  | object (fields : List (Option String × Json))

namespace Json

instance : Inhabited Json := ⟨null⟩

def ofText (s : String) : Json := string (some s)

def ofNat (n : Nat) : Json := number (Digits.text n)

def ofInt : Int → Json
  | .ofNat n => ofNat n
  | .negSucc n => number ("-" ++ Digits.text (n + 1))

def ofFields (fields : List (String × Json)) : Json := object (fields.map fun field => (some field.1, field.2))

def text? : Json → Option String
  | string text => text
  | _ => none

/-- The count that a value is, if its literal is a row of digits. -/
def count? : Json → Option Nat
  | number literal => if literal.toList.all Char.isDigit then some (Digits.toNat literal.toList) else none
  | _ => none

/-- The count of 64 bits that a value is. -/
def word? (j : Json) : Option UInt64 :=
  match j.count? with
  | some n => if n < UInt64.size then some (UInt64.ofNat n) else none
  | none => none

def amount? (j : Json) : Option Amount :=
  match j.text? with
  | some text => (Amount.parse text).toOption
  | none => none

def address? (j : Json) : Option Address :=
  match j.text? with
  | some text => (Address.parse text).toOption
  | none => none

def digest? (j : Json) : Option Digest :=
  match j.text? with
  | some text => (Digest.parse text).toOption
  | none => none

/-- The items of a value that is an array. -/
def items? : Json → Option (List Json)
  | array items => some items
  | _ => none

/-- The values of a name among the fields of an object. -/
def valuesOf (name : String) (fields : List (Option String × Json)) : List Json :=
  (fields.filter fun field => field.1 == some name).map Prod.snd

/-- The value of a field that occurs at most once: refused if it occurs again. -/
def single? (name : String) (fields : List (Option String × Json)) : Option (Option Json) :=
  match valuesOf name fields with
  | [] => some none
  | [value] => some (some value)
  | _ => none

/-- How the fields of a record are read: their values, one for each name, `none` for those that are missing. -/
abbrev FieldReader := List String → Json → Option (List (Option Json))

/-- The fields of an object, which must have readable names, each known one at most once. -/
def members? : FieldReader
  | names, object fields =>
      if fields.all fun field => field.1.isSome then names.mapM fun name => single? name fields else none
  | _, _ => none

/-- The fields of a record: those of an object, or the items of an array in order, of which there may not be more
than there are names. -/
def record? : FieldReader
  | names, array items =>
      if items.length ≤ names.length then
        some (items.map some ++ List.replicate (names.length - items.length) none)
      else none
  | names, j => members? names j

/-- A choice: its name, and the value that comes with it. -/
def choice? : Json → Option (String × Option Json)
  | string (some name) => some (name, none)
  | object [(some name, value)] => some (name, some value)
  | _ => none

/-- The name of a choice that nothing comes with. -/
def name? (j : Json) : Option String :=
  match j.choice? with
  | some (name, none) => some name
  | some (name, some null) => some name
  | _ => none

end Json

def Address.toJson (a : Address) : Json := .ofText a.text

def Amount.toJson (a : Amount) : Json := .ofText a.text

/-- The units of an amount as JSON, written as text since they need not fit a number. -/
def Amount.unitsJson (a : Amount) : Json := .ofText (Digits.text a.units)

def Digest.toJson (d : Digest) : Json := .ofText d.text

end CollateralDebt
