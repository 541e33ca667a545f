import CollateralDebt.Digest.Sha256
import CollateralDebt.Identifier

/-!
Digests: the thirty-two bytes that identify a state or an event, as a number of 256 bits with the most
significant byte first.
-/

namespace CollateralDebt

/-- A value of a hash function of 256 bits. -/
structure Digest where
  value : Nat
  value_lt : value < 1 <<< 256
  deriving DecidableEq, Repr

namespace Digest

def zero : Digest := ⟨0, by decide⟩

instance : Inhabited Digest := ⟨zero⟩

def bytes (d : Digest) : List UInt8 := Bytes.bigEndian 32 d.value

def ofBytes (bytes : List UInt8) (h : bytes.length = 32) : Digest :=
  ⟨Bytes.ofBigEndian bytes, by simpa [h] using Bytes.ofBigEndian_lt bytes⟩

/-- The digest of a row of bytes, if there are thirty-two of them. -/
def ofBytes? (bytes : List UInt8) : Option Digest :=
  if h : bytes.length = 32 then some (ofBytes bytes h) else none

def sha256 (message : List UInt8) : Digest :=
  ofBytes (Sha256.hash message).bytes (by simp [Sha256.Words.bytes])

/-- The written form of a digest: sixty-four digits. -/
def text (d : Digest) : String := Hex.encode d.bytes

/-- The digest that a text writes, with or without `0x`. -/
def parse (text : String) : Except Error Digest :=
  (Identifier.bytesOfHex "hash" 32 text).map fun bytes => ofBytes bytes.1 bytes.2

end Digest

end CollateralDebt
