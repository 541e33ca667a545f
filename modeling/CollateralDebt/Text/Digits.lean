/-!
Decimal digits. A row of digits stands for a natural number, read from the most significant digit; each
number has one shortest row, and one row of each width that holds it.
-/

namespace CollateralDebt.Digits

def digit (d : Nat) : Char := Char.ofNat (48 + d)

def value (c : Char) : Nat := c.toNat - 48

/-- The number that a row of digits stands for, added to ten times a number for each digit. -/
def accumulate (n : Nat) (row : List Char) : Nat := row.foldl (fun m c => 10 * m + value c) n

/-- The number that a row of digits stands for; the empty row stands for zero. -/
def toNat (row : List Char) : Nat := accumulate 0 row

/-- The shortest row of digits, at least one, that stands for a number. -/
def ofNat (n : Nat) : List Char :=
  if n < 10 then [digit n] else ofNat (n / 10) ++ [digit (n % 10)]
termination_by n

/-- The last `width` digits of a number, with zeros in front. -/
def padded : Nat → Nat → List Char
  | 0, _ => []
  | width + 1, n => padded width (n / 10) ++ [digit (n % 10)]

/-- The shortest row of digits of a number, as text. -/
def text (n : Nat) : String := String.ofList (ofNat n)

theorem value_digit {d : Nat} (h : d < 10) : value (digit d) = d := by
  have hall : ∀ d : Fin 10, value (digit d.val) = d.val := by decide
  exact hall ⟨d, h⟩

theorem isDigit_digit {d : Nat} (h : d < 10) : (digit d).isDigit = true := by
  have hall : ∀ d : Fin 10, (digit d.val).isDigit = true := by decide
  exact hall ⟨d, h⟩

theorem accumulate_append (n : Nat) (row more : List Char) :
    accumulate n (row ++ more) = accumulate (accumulate n row) more := by
  simp [accumulate]

@[simp] theorem toNat_ofNat (n : Nat) : toNat (ofNat n) = n := by
  induction n using Nat.strongRecOn with
  | ind n ih =>
      rw [ofNat]
      split
      · next hsmall => simp [toNat, accumulate, value_digit hsmall]
      · next hlarge =>
          have hlast : n % 10 < 10 := Nat.mod_lt _ (by decide)
          rw [toNat, accumulate_append, ← toNat, ih (n / 10) (by omega)]
          simp only [accumulate, List.foldl_cons, List.foldl_nil, value_digit hlast]
          omega

theorem length_padded (width n : Nat) : (padded width n).length = width := by
  induction width generalizing n with
  | zero => rfl
  | succ width ih => simp [padded, ih]

theorem toNat_padded (width n : Nat) : toNat (padded width n) = n % Nat.pow 10 width := by
  induction width generalizing n with
  | zero => simp [padded, toNat, accumulate, Nat.mod_one]
  | succ width ih =>
      have hlast : n % 10 < 10 := Nat.mod_lt _ (by decide)
      rw [padded, toNat, accumulate_append, ← toNat, ih]
      simp only [accumulate, List.foldl_cons, List.foldl_nil, value_digit hlast]
      have hpower : Nat.pow 10 (width + 1) = 10 * Nat.pow 10 width := Nat.mul_comm _ _
      rw [hpower, Nat.mod_mul]
      omega

theorem all_isDigit_ofNat (n : Nat) : (ofNat n).all Char.isDigit = true := by
  induction n using Nat.strongRecOn with
  | ind n ih =>
      rw [ofNat]
      split
      · next hsmall => simp [isDigit_digit hsmall]
      · next hlarge =>
          have hlast : n % 10 < 10 := Nat.mod_lt _ (by decide)
          simp [ih (n / 10) (by omega), isDigit_digit hlast]

end CollateralDebt.Digits
