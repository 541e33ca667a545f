import CollateralDebt.Error

/-!
Arithmetic that can fail. Products are exact, however large; a result that is no amount is an error that names
the calculation, and so is a division by zero. A quotient is rounded down, or up where that is asked for.
-/

namespace CollateralDebt.Amount

/-- Which way a quotient is rounded. -/
inductive Rounding where
  | down
  /-- To the whole number above, unless nothing remains. -/
  | up
  deriving DecidableEq, Repr

/-- A count of units as an amount; the calculation that gave it overflows if it is out of range. -/
def narrow (n : Nat) (calculation : Calculation) : Except Error Amount :=
  if h : n < 1 <<< 128 then .ok ⟨n, h⟩ else .error (.overflow calculation)

theorem narrow_eq_ok_iff {n : Nat} {calculation : Calculation} {a : Amount} :
    narrow n calculation = .ok a ↔ a.units = n := by
  unfold narrow
  split
  · rw [Except.ok.injEq, Amount.ext_iff]
    exact eq_comm
  · next hlarge =>
      constructor
      · intro h
        cases h
      · intro h
        exact absurd (h ▸ a.units_lt) hlarge

theorem exists_narrow_eq_ok_iff {n : Nat} {calculation : Calculation} :
    (∃ a, narrow n calculation = .ok a) ↔ n ≤ max.units := by
  constructor
  · rintro ⟨a, h⟩
    rw [← narrow_eq_ok_iff.1 h]
    exact Nat.le_sub_one_of_lt a.units_lt
  · exact fun h => ⟨⟨n, Nat.lt_of_le_of_lt h (by decide)⟩, narrow_eq_ok_iff.2 rfl⟩

theorem eq_of_narrow_eq_error {n : Nat} {calculation : Calculation} {e : Error}
    (h : narrow n calculation = .error e) : e = .overflow calculation := by
  unfold narrow at h
  split at h
  · cases h
  · exact (Except.error.inj h).symm

def plus (a b : Amount) : Except Error Amount := narrow (a.units + b.units) (.sum a b)

/-- The difference of two amounts, of which the second may not be larger. -/
def minus (a b : Amount) : Except Error Amount :=
  if b ≤ a then .ok (a.minusClamped b) else .error (.underflow (.difference a b))

theorem plus_eq_ok_iff {a b c : Amount} : a.plus b = .ok c ↔ c.units = a.units + b.units := narrow_eq_ok_iff

theorem minus_eq_ok_iff {a b c : Amount} : a.minus b = .ok c ↔ a.units = b.units + c.units := by
  unfold minus
  split
  · next henough =>
      rw [Except.ok.injEq, Amount.ext_iff]
      simp only [minusClamped]
      rw [le_iff] at henough
      omega
  · next hfew =>
      rw [le_iff] at hfew
      constructor
      · intro h
        cases h
      · intro h
        exact absurd (by omega) hfew

/-- A quotient of counts, rounded. -/
def roundedQuotient (n d : Nat) : Rounding → Nat
  | .down => n / d
  | .up => if n % d = 0 then n / d else n / d + 1

/-- The units of `a` times those of `b`, divided by those of `c` in one step. -/
def mulDiv (a b c : Amount) (rounding : Rounding) : Except Error Amount :=
  if c.isZero then .error (.degenerateDivision (.quotient a b c))
  else narrow (roundedQuotient (a.units * b.units) c.units rounding) (.quotient a b c)

theorem mulDiv_eq_ok_iff {a b c d : Amount} {rounding : Rounding} :
    a.mulDiv b c rounding = .ok d ↔
      c ≠ zero ∧ d.units = roundedQuotient (a.units * b.units) c.units rounding := by
  unfold mulDiv
  split
  · next hzero =>
      constructor
      · intro h
        cases h
      · intro h
        exact absurd (isZero_iff.1 hzero) h.1
  · next hsome => rw [narrow_eq_ok_iff, and_iff_right fun hzero => hsome (isZero_iff.2 hzero)]

/-- A quotient rounded down can be worked out exactly when it is in range. -/
theorem exists_mulDiv_eq_ok_iff {a b c : Amount} (hc : 0 < c.units) :
    (∃ d, a.mulDiv b c .down = .ok d) ↔ a.units * b.units / c.units ≤ max.units := by
  unfold mulDiv
  rw [if_neg (units_pos_iff.1 hc)]
  exact exists_narrow_eq_ok_iff

theorem eq_of_mulDiv_eq_error {a b c : Amount} {rounding : Rounding} {e : Error} (hc : ¬c.isZero = true)
    (h : a.mulDiv b c rounding = .error e) : e = .overflow (.quotient a b c) := by
  unfold mulDiv at h
  rw [if_neg hc] at h
  exact eq_of_narrow_eq_error h

def times (a b : Amount) (rounding : Rounding) : Except Error Amount := mulDiv a b one rounding

def ratioTo (a b : Amount) (rounding : Rounding) : Except Error Amount := mulDiv a one b rounding

/-- How often the collateral at a price covers the debt, rounded down. A position without debt, or one whose
ratio is out of range, has the largest ratio, and so is never in danger. -/
def collateralRatio (collateral debt price : Amount) : Amount :=
  if debt.isZero then max
  else match mulDiv collateral price debt .down with
    | .ok ratio => ratio
    | .error _ => max

/-- The quotient rounded down is the largest count whose product with the divisor stays within the dividend. -/
theorem le_roundedQuotient_down_iff {n d m : Nat} (h : 0 < d) : m ≤ roundedQuotient n d .down ↔ m * d ≤ n :=
  Nat.le_div_iff_mul_le h

theorem le_max (a : Amount) : a ≤ max := Nat.le_sub_one_of_lt a.units_lt

/-- A bound on a ratio is one on what the debt times the bound comes to: also where the ratio has no quotient, for it is
then the largest amount, and no bound exceeds that. -/
theorem le_collateralRatio_iff {collateral debt price bound : Amount} :
    bound ≤ collateralRatio collateral debt price ↔ bound.units * debt.units ≤ collateral.units * price.units := by
  unfold collateralRatio
  split
  · next hzero =>
      rw [units_of_isZero hzero, Nat.mul_zero]
      exact ⟨fun _ => Nat.zero_le _, fun _ => le_max bound⟩
  · next hsome =>
      have hpositive := units_pos_iff.2 hsome
      cases hratio : collateral.mulDiv price debt .down with
      | ok ratio =>
          dsimp only
          rw [le_iff, (mulDiv_eq_ok_iff.1 hratio).2]
          exact le_roundedQuotient_down_iff hpositive
      | error e =>
          have hlarge : ¬collateral.units * price.units / debt.units ≤ max.units := fun hsmall => by
            obtain ⟨ratio, hfits⟩ := (exists_mulDiv_eq_ok_iff hpositive).2 hsmall
            rw [hratio] at hfits
            cases hfits
          have hreached : bound.units ≤ collateral.units * price.units / debt.units :=
            Nat.le_trans (le_max bound) (Nat.le_of_not_le hlarge)
          exact ⟨fun _ => (Nat.le_div_iff_mul_le hpositive).1 hreached, fun _ => le_max bound⟩

end CollateralDebt.Amount
