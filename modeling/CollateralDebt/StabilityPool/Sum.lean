import CollateralDebt.Binary.Format

/-!
The running sums of the stability pool: numbers below `2 ^ 256`, since a collateral gain for each unit deposited
is weighted by the pool's product. A sum is written in base sixteen after `0x`, without zeros in front, and is
read in either case, with or without the `0x`, from at least one and at most sixty-four characters. White space
may stand anywhere among the digits; since digits are paired by the length of the whole row, an odd number of
blanks leaves the last digit without a partner, and it does not count.
-/

namespace CollateralDebt

/-- The least number that 256 bits do not hold. -/
def RunningSum.bound : Nat := 1 <<< 256

/-- A running sum of collateral gains. -/
structure RunningSum where
  units : Nat
  units_lt : units < RunningSum.bound
  deriving DecidableEq, Repr

namespace RunningSum

def zero : RunningSum := ⟨0, by decide⟩

instance : Inhabited RunningSum := ⟨zero⟩

@[ext] theorem ext {a b : RunningSum} (h : a.units = b.units) : a = b := by
  cases a; cases b; simpa using h

/-- The sum of a value, if it is in range. -/
def ofUnits? (n : Nat) : Option RunningSum := if h : n < bound then some ⟨n, h⟩ else none

theorem ofUnits?_units (s : RunningSum) : ofUnits? s.units = some s := dif_pos s.units_lt

/-- The digits of a number in base sixteen, without zeros in front. -/
def hexDigits (n : Nat) : List Char :=
  if n < 16 then [Hex.digit n] else hexDigits (n / 16) ++ [Hex.digit (n % 16)]
termination_by n

/-- The number that digits in base sixteen write, after a number that stands in front of them. -/
def ofHexDigits (front : Nat) : List Char → Option Nat
  | [] => some front
  | c :: rest =>
      match Hex.value? c.toNat with
      | none => none
      | some d => ofHexDigits (16 * front + d) rest

def written (s : RunningSum) : List Char := '0' :: 'x' :: hexDigits s.units

/-- The digits of a written form, without one `0x` in front. -/
def withoutMark : List Char → List Char
  | '0' :: 'x' :: rest => rest
  | row => row

/-- Whether a character is white space that may stand among the digits of a sum. -/
def isGap (c : Char) : Bool := c == ' ' || c == '\t' || c == '\n' || c == '\r'

/-- The number of a row of digits, of which the last one counts only when the gaps come in pairs. -/
def paired (gaps n : Nat) : Nat := if gaps % 2 = 0 then n else n / 16

def ofChars? (row : List Char) : Option RunningSum :=
  let body := withoutMark row
  if body.isEmpty || 64 < body.length then none
  else (ofHexDigits 0 (body.filter fun c => !isGap c)).bind fun n => ofUnits? (paired (body.countP isGap) n)

theorem ofHexDigits_append (front : Nat) (row more : List Char) :
    ofHexDigits front (row ++ more) = (ofHexDigits front row).bind fun n => ofHexDigits n more := by
  induction row generalizing front with
  | nil => rfl
  | cons c rest ih =>
      simp only [List.cons_append, ofHexDigits]
      cases Hex.value? c.toNat with
      | none => rfl
      | some d => exact ih _

theorem ofHexDigits_hexDigits (n : Nat) : ofHexDigits 0 (hexDigits n) = some n := by
  induction n using Nat.strongRecOn with
  | ind n ih =>
      rw [hexDigits]
      split
      · next hsmall => simp [ofHexDigits, Hex.value?_digit hsmall]
      · next hlarge =>
          have hlast : n % 16 < 16 := Nat.mod_lt _ (by decide)
          rw [ofHexDigits_append, ih (n / 16) (by omega), Option.bind_some]
          simp only [ofHexDigits, Hex.value?_digit hlast]
          congr 1
          omega

theorem length_hexDigits (width : Nat) {n : Nat} (h : n < Nat.pow 16 (width + 1)) :
    1 ≤ (hexDigits n).length ∧ (hexDigits n).length ≤ width + 1 := by
  induction width generalizing n with
  | zero => rw [hexDigits, if_pos (by simpa using h)]; simp
  | succ width ih =>
      rw [hexDigits]
      split
      · simp
      · have hupper : n / 16 < 16 ^ (width + 1) := by
          rw [Nat.div_lt_iff_lt_mul (by decide), ← Nat.pow_succ]
          exact h
        have hlength := ih hupper
        simp only [List.length_append, List.length_cons, List.length_nil]
        omega

theorem mem_hexDigits {n : Nat} {c : Char} (h : c ∈ hexDigits n) : ∃ d, d < 16 ∧ c = Hex.digit d := by
  induction n using Nat.strongRecOn with
  | ind n ih =>
      rw [hexDigits] at h
      split at h
      · next hsmall => exact ⟨n, hsmall, List.mem_singleton.1 h⟩
      · next hlarge =>
          rcases List.mem_append.1 h with hmem | hmem
          · exact ih (n / 16) (by omega) hmem
          · exact ⟨n % 16, Nat.mod_lt _ (by decide), List.mem_singleton.1 hmem⟩

theorem isGap_hexDigits {n : Nat} {c : Char} (h : c ∈ hexDigits n) : isGap c = false := by
  have hall : ∀ d : Fin 16, isGap (Hex.digit d.val) = false := by decide
  obtain ⟨d, hd, rfl⟩ := mem_hexDigits h
  exact hall ⟨d, hd⟩

theorem isAscii_hexDigits {n : Nat} {c : Char} (h : c ∈ hexDigits n) : c.toNat < 128 := by
  have hall : ∀ d : Fin 16, (Hex.digit d.val).toNat < 128 := by decide
  obtain ⟨d, hd, rfl⟩ := mem_hexDigits h
  exact hall ⟨d, hd⟩

/-- Digits without gaps are all kept, and all of them count. -/
theorem filter_countP_hexDigits (n : Nat) :
    ((hexDigits n).filter fun c => !isGap c) = hexDigits n ∧ (hexDigits n).countP isGap = 0 :=
  ⟨List.filter_eq_self.2 fun _ hmem => by simp [isGap_hexDigits hmem],
    List.countP_eq_zero.2 fun _ hmem => by simp [isGap_hexDigits hmem]⟩

/-- A written sum is read back. -/
theorem ofChars?_written (s : RunningSum) : ofChars? s.written = some s := by
  have hlength := length_hexDigits 63 (Nat.lt_of_lt_of_le s.units_lt (by decide))
  have hsome : (hexDigits s.units).isEmpty = false := by
    cases hdigits : hexDigits s.units with
    | nil => simp [hdigits] at hlength
    | cons c rest => rfl
  have hshort : ¬64 < (hexDigits s.units).length := by omega
  obtain ⟨hkept, hgaps⟩ := filter_countP_hexDigits s.units
  simp [ofChars?, written, withoutMark, hsome, hshort, hkept, hgaps, paired, ofHexDigits_hexDigits,
    ofUnits?_units]

/-- A written sum is short, and ASCII. -/
theorem fits_written (s : RunningSum) : Format.text.Fits s.written := by
  have hlength := length_hexDigits 63 (Nat.lt_of_lt_of_le s.units_lt (by decide))
  refine ⟨by simp only [written, List.length_cons, UInt64.size]; omega, fun c hmem => ?_⟩
  rcases List.mem_cons.1 hmem with rfl | hmem
  · decide
  · rcases List.mem_cons.1 hmem with rfl | hmem
    · decide
    · exact isAscii_hexDigits hmem

/-- A sum, as the text that writes it. -/
def format : Format RunningSum := Format.text.convert ofChars? written ofChars?_written fun _ s _ _ => fits_written s

end RunningSum

end CollateralDebt
