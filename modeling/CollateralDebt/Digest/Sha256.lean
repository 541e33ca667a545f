import CollateralDebt.Binary.Bytes

/-!
The hash function SHA-256. A message is padded to whole blocks of sixty-four bytes; each block gives a schedule
of sixty-four words, and each word one round on a state of eight words.
-/

namespace CollateralDebt.Sha256

/-- The eight words that a hash is made of. -/
structure Words where
  a : UInt32
  b : UInt32
  c : UInt32
  d : UInt32
  e : UInt32
  f : UInt32
  g : UInt32
  h : UInt32
  deriving DecidableEq, Repr

/-- The first bits of the fractional parts of the square roots of the first eight primes. -/
def initial : Words :=
  ⟨0x6a09e667, 0xbb67ae85, 0x3c6ef372, 0xa54ff53a, 0x510e527f, 0x9b05688c, 0x1f83d9ab, 0x5be0cd19⟩

/-- The first bits of the fractional parts of the cube roots of the first sixty-four primes, one a round. -/
def constants : List UInt32 := [
  0x428a2f98, 0x71374491, 0xb5c0fbcf, 0xe9b5dba5, 0x3956c25b, 0x59f111f1, 0x923f82a4, 0xab1c5ed5,
  0xd807aa98, 0x12835b01, 0x243185be, 0x550c7dc3, 0x72be5d74, 0x80deb1fe, 0x9bdc06a7, 0xc19bf174,
  0xe49b69c1, 0xefbe4786, 0x0fc19dc6, 0x240ca1cc, 0x2de92c6f, 0x4a7484aa, 0x5cb0a9dc, 0x76f988da,
  0x983e5152, 0xa831c66d, 0xb00327c8, 0xbf597fc7, 0xc6e00bf3, 0xd5a79147, 0x06ca6351, 0x14292967,
  0x27b70a85, 0x2e1b2138, 0x4d2c6dfc, 0x53380d13, 0x650a7354, 0x766a0abb, 0x81c2c92e, 0x92722c85,
  0xa2bfe8a1, 0xa81a664b, 0xc24b8b70, 0xc76c51a3, 0xd192e819, 0xd6990624, 0xf40e3585, 0x106aa070,
  0x19a4c116, 0x1e376c08, 0x2748774c, 0x34b0bcb5, 0x391c0cb3, 0x4ed8aa4a, 0x5b9cca4f, 0x682e6ff3,
  0x748f82ee, 0x78a5636f, 0x84c87814, 0x8cc70208, 0x90befffa, 0xa4506ceb, 0xbef9a3f7, 0xc67178f2]

/-- A word turned to the right, for a distance between one and thirty-one. -/
def rotate (w distance : UInt32) : UInt32 := (w >>> distance) ||| (w <<< (32 - distance))

/-- The word of a schedule that follows the words before it, which stand with the latest first. -/
def following (words : List UInt32) : UInt32 :=
  let near := words.getD 1 0
  let far := words.getD 14 0
  (rotate near 17 ^^^ rotate near 19 ^^^ (near >>> 10)) + words.getD 6 0
    + (rotate far 7 ^^^ rotate far 18 ^^^ (far >>> 3)) + words.getD 15 0

/-- A row of words, the latest first, with more words scheduled in front. -/
def extend : Nat → List UInt32 → List UInt32
  | 0, words => words
  | more + 1, words => extend more (following words :: words)

/-- The words of a row of bytes, four bytes a word and the most significant first. -/
def wordsOfBytes : List UInt8 → List UInt32
  | b₀ :: b₁ :: b₂ :: b₃ :: rest => UInt32.ofNat (Bytes.ofBigEndian [b₀, b₁, b₂, b₃]) :: wordsOfBytes rest
  | _ => []

/-- One round, with a constant and a scheduled word. -/
def round (s : Words) (step : UInt32 × UInt32) : Words :=
  let choice := (s.e &&& s.f) ^^^ (~~~s.e &&& s.g)
  let majority := (s.a &&& s.b) ^^^ (s.a &&& s.c) ^^^ (s.b &&& s.c)
  let first := s.h + (rotate s.e 6 ^^^ rotate s.e 11 ^^^ rotate s.e 25) + choice + step.1 + step.2
  let second := (rotate s.a 2 ^^^ rotate s.a 13 ^^^ rotate s.a 22) + majority
  ⟨first + second, s.a, s.b, s.c, s.d + first, s.e, s.f, s.g⟩

/-- The state after a block: what the rounds leave, added to the state before. -/
def compress (s : Words) (block : List UInt8) : Words :=
  let schedule := (extend 48 (wordsOfBytes block).reverse).reverse
  let r := (constants.zip schedule).foldl round s
  ⟨s.a + r.a, s.b + r.b, s.c + r.c, s.d + r.d, s.e + r.e, s.f + r.f, s.g + r.g, s.h + r.h⟩

/-- A message with a one bit, zeros to the end of a block less eight bytes, and its length in bits. -/
def pad (message : List UInt8) : List UInt8 :=
  message ++ 0x80 :: List.replicate ((119 - message.length % 64) % 64) 0
    ++ Bytes.bigEndian 8 (8 * message.length)

/-- The first blocks of a row of bytes, as many as are asked for. -/
def blocks : Nat → List UInt8 → List (List UInt8)
  | 0, _ => []
  | count + 1, bytes => bytes.take 64 :: blocks count (bytes.drop 64)

def hash (message : List UInt8) : Words :=
  let padded := pad message
  (blocks (padded.length / 64) padded).foldl compress initial

/-- The thirty-two bytes of eight words, the most significant byte of each first. -/
def Words.bytes (s : Words) : List UInt8 :=
  [s.a, s.b, s.c, s.d, s.e, s.f, s.g, s.h].flatMap fun w => Bytes.bigEndian 4 w.toNat

/-- A padded message is made of whole blocks. -/
theorem length_pad_mod (message : List UInt8) : (pad message).length % 64 = 0 := by
  simp only [pad, List.append_assoc, List.length_append, List.cons_append, List.length_cons,
    List.length_replicate, Bytes.length_bigEndian]
  omega

end CollateralDebt.Sha256
