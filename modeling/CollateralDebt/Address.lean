import CollateralDebt.Identifier
import CollateralDebt.SortedMap

/-!
Accounts. An address is a number of 160 bits, written as twenty bytes with the most significant first, so that
addresses are in the order of their bytes.
-/

namespace CollateralDebt

/-- An account that owns troves, deposits and balances. -/
structure Address where
  value : Nat
  value_lt : value < 1 <<< 160
  deriving DecidableEq, Repr

namespace Address

@[ext] theorem ext {a b : Address} (h : a.value = b.value) : a = b := by
  cases a; cases b; simpa using h

instance : Key Address where
  lt a b := a.value < b.value
  decidableLT a b := inferInstanceAs (Decidable (a.value < b.value))
  irrefl a := Nat.lt_irrefl a.value
  trans := Nat.lt_trans
  eq_of_not_lt h h' := Address.ext (Nat.le_antisymm (Nat.not_lt.1 h') (Nat.not_lt.1 h))

def zero : Address := ⟨0, by decide⟩

instance : Inhabited Address := ⟨zero⟩

/-- The address whose last eight bytes are a number. -/
def ofWord (n : UInt64) : Address := ⟨n.toNat, Nat.lt_of_lt_of_le n.toNat_lt (by decide)⟩

def bytes (a : Address) : List UInt8 := Bytes.bigEndian 20 a.value

def ofBytes (bytes : List UInt8) (h : bytes.length = 20) : Address :=
  ⟨Bytes.ofBigEndian bytes, by simpa [h] using Bytes.ofBigEndian_lt bytes⟩

/-- The address of a row of bytes, if there are twenty of them. -/
def ofBytes? (bytes : List UInt8) : Option Address :=
  if h : bytes.length = 20 then some (ofBytes bytes h) else none

def ofByte (b : UInt8) : Address := ofBytes (List.replicate 20 b) (by simp)

/-- The written form of an address: `0x` and forty digits. -/
def text (a : Address) : String := "0x" ++ Hex.encode a.bytes

instance : ToString Address := ⟨text⟩

/-- The first three bytes and the last two, for a reader who knows the address. -/
def short (a : Address) : String :=
  let digits := Hex.digits a.bytes
  "0x" ++ String.ofList (digits.take 6) ++ ".." ++ String.ofList (digits.drop 36)

/-- The address that a text writes, with or without `0x`. -/
def parse (text : String) : Except Error Address :=
  (Identifier.bytesOfHex "address" 20 text).map fun bytes => ofBytes bytes.1 bytes.2

theorem ofBytes?_bytes (a : Address) : ofBytes? a.bytes = some a := by
  have hvalue : Bytes.ofBigEndian a.bytes = a.value := by
    rw [bytes, Bytes.ofBigEndian_bigEndian]
    exact Nat.mod_eq_of_lt a.value_lt
  simp [ofBytes?, ofBytes, bytes, Address.ext_iff] at hvalue ⊢
  exact hvalue

end Address

end CollateralDebt
