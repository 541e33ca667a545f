import CollateralDebt.Binary.Bytes
import CollateralDebt.Error
import CollateralDebt.Text.Hex

/-!
Identifiers of a fixed number of bytes, written in base sixteen. A `0x` in front is read and dropped; the rest
must be digits for exactly as many bytes as the identifier has.
-/

namespace CollateralDebt.Identifier

/-- A text without one `0x` in front. -/
def withoutMark (text : String) : String :=
  match text.toList with
  | '0' :: 'x' :: rest => String.ofList rest
  | _ => text

/-- The bytes of an identifier of a kind that has `width` of them. -/
def bytesOfHex (kind : String) (width : Nat) (text : String) :
    Except Error { bytes : List UInt8 // bytes.length = width } :=
  match Hex.decode (withoutMark text) with
  | .error fault => .error (.invalidParameter kind fault.message)
  | .ok bytes =>
      if h : bytes.length = width then .ok ⟨bytes, h⟩
      else .error (.invalidParameter kind
        ("expected " ++ toString width ++ " bytes, got " ++ toString bytes.length))

end CollateralDebt.Identifier
