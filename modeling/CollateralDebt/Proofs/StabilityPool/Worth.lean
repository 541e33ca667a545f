import CollateralDebt.Proofs.SortedMap.Total
import CollateralDebt.Proofs.StabilityPool.Operations
import Mathlib.Algebra.Order.Field.Basic
import Mathlib.Algebra.Order.Ring.Rat
import Mathlib.Data.Nat.Cast.Order.Field
import Mathlib.Tactic.FieldSimp
import Mathlib.Tactic.Linarith
import Mathlib.Tactic.Positivity
import Mathlib.Tactic.Ring

/-! What a deposit of the stability pool is worth, before anything is rounded: its initial value times the product
now over the product it saw, with the factor divided out once for each change of scale. The pool leaves a deposit
no more than that (`left_le_worth`), and an offset keeps the same part of the worth of every deposit
(`worth_applyOffset`). Whether that part is small enough for what the pool has lost is another question, and
`overcharge` is its answer. -/

open CollateralDebt.Action

namespace CollateralDebt.StabilityPool

variable {s s' : StabilityPool}

/-- The units left of a deposit, as the pool works them out; what it cannot work out counts for nothing. -/
def left (s : StabilityPool) (d : Deposit) : Nat :=
  match s.compounded d.initial d.snapshot with
  | .ok left => left.units
  | .error _ => 0

/-- What a deposit is worth, with nothing rounded and nothing taken for negligible. -/
def worth (s : StabilityPool) (d : Deposit) : ℚ :=
  if d.snapshot.phase.epoch < s.phase.epoch then 0
  else d.initial.units * s.product.units /
    (d.snapshot.product.units * s.factor.units ^ (s.phase.scale - d.snapshot.phase.scale))

/-- The part of a deposit's worth that rounding leaves in the pool. -/
def fraction (s : StabilityPool) (d : Deposit) : ℚ := s.worth d - s.left d

theorem worth_nonneg (s : StabilityPool) (d : Deposit) : 0 ≤ s.worth d := by
  unfold worth
  split
  · exact le_rfl
  · positivity

theorem compounded_le_worth {d : Deposit} {left : Amount} (h : s.compounded d.initial d.snapshot = .ok left) :
    (left.units : ℚ) ≤ s.worth d := by
  rcases compounded_eq_ok h with ⟨rfl, -⟩ | ⟨hepoch, hleft⟩
  · rw [show Amount.zero.units = 0 from rfl, Nat.cast_zero]
    exact s.worth_nonneg d
  · rw [worth, if_neg hepoch, hleft]
    exact_mod_cast Nat.cast_div_le

/-- What is left of a deposit is not more than it is worth. -/
theorem left_le_worth (s : StabilityPool) (d : Deposit) : (s.left d : ℚ) ≤ s.worth d := by
  unfold left
  split
  · next hleft => exact compounded_le_worth hleft
  · rw [Nat.cast_zero]
    exact s.worth_nonneg d

theorem fraction_nonneg (s : StabilityPool) (d : Deposit) : 0 ≤ s.fraction d := sub_nonneg.2 (s.left_le_worth d)

/-- A deposit was settled in no later phase than it is now, at a product that was not nothing. -/
structure Dated (now : Phase) (d : Deposit) : Prop where
  product_pos : 0 < d.snapshot.product.units
  phase_le : ¬now < d.snapshot.phase

/-- What every pool that was ever reached has. -/
structure Regular (s : StabilityPool) : Prop where
  product_pos : 0 < s.product.units
  factor_pos : 0 < s.factor.units
  dated : s.deposits.All (Dated s.phase)

/-- A deposit that is settled now is worth what it is settled at. -/
theorem worth_settled (h : 0 < s.product.units) (depositor : Address) (value : Amount) (sum : RunningSum) :
    s.worth ⟨depositor, value, ⟨s.product, sum, s.phase⟩⟩ = value.units := by
  unfold worth
  rw [if_neg (Nat.lt_irrefl _), Nat.sub_self, pow_zero, mul_one]
  have hproduct : (s.product.units : ℚ) ≠ 0 := Nat.cast_ne_zero.2 h.ne'
  exact mul_div_cancel_right₀ _ hproduct

/-- The part of its worth that every deposit keeps in an offset. -/
def kept (s : StabilityPool) (o : Offset) : ℚ :=
  if o.phase.epoch = s.phase.epoch then
    o.product.units / (s.product.units * s.factor.units ^ (o.phase.scale - s.phase.scale))
  else 0

theorem kept_nonneg (s : StabilityPool) (o : Offset) : 0 ≤ s.kept o := by
  unfold kept
  split
  · positivity
  · exact le_rfl

theorem kept_of_nextEpoch {o : Offset} (h : o.phase = s.phase.nextEpoch) : s.kept o = 0 := by
  have hepoch : o.phase.epoch = s.phase.epoch + 1 := congrArg Phase.epoch h
  rw [kept, if_neg (by omega)]

theorem kept_of_nextScale {o : Offset} (h : o.phase = s.phase.nextScale) :
    s.kept o = o.product.units / (s.product.units * s.factor.units) := by
  have hscale : o.phase.scale - s.phase.scale = 1 := by
    rw [h]
    exact Nat.add_sub_cancel_left _ _
  have hepoch : o.phase.epoch = s.phase.epoch := (congrArg Phase.epoch h).trans rfl
  rw [kept, if_pos hepoch, hscale, pow_one]

theorem kept_of_phase_eq {o : Offset} (h : o.phase = s.phase) : s.kept o = o.product.units / s.product.units := by
  rw [kept, h, if_pos rfl, Nat.sub_self, pow_zero, mul_one]

/-- How much more an offset takes off what deposits are worth than off what the pool holds, if deposits are worth
what the pool holds. It is negative when the offset takes off too little. -/
def overcharge (s : StabilityPool) (o : Offset) : ℚ := s.totalDeposits.units * (1 - s.kept o) - o.debtLoss.units

/-- The three ways in which an offset can move the phase. -/
theorem Charges.phase_eq {o : Offset} {perUnit : Nat} (h : s.Charges o perUnit) :
    o.phase = s.phase.nextEpoch ∨ o.phase = s.phase.nextScale ∨ o.phase = s.phase := by
  rcases reducedProduct_eq_ok h.product_eq with ⟨-, -, hphase⟩ | ⟨-, -, hphase⟩ | ⟨-, hphase⟩
  · exact .inl hphase
  · exact .inr (.inl hphase)
  · exact .inr (.inr hphase)

/-- Within an epoch the worth of a deposit follows the product, over any number of changes of scale. -/
theorem worth_applyOffset {o : Offset} {perUnit : Nat} (h : s.Charges o perUnit) (hs : s.Regular) {d : Deposit}
    (hd : Dated s.phase d) : (s.applyOffset o).worth d = s.worth d * s.kept o := by
  have hproduct : (s.product.units : ℚ) ≠ 0 := Nat.cast_ne_zero.2 hs.product_pos.ne'
  have hfactor : (s.factor.units : ℚ) ≠ 0 := Nat.cast_ne_zero.2 hs.factor_pos.ne'
  have hseen : (d.snapshot.product.units : ℚ) ≠ 0 := Nat.cast_ne_zero.2 hd.product_pos.ne'
  have hphase := hd.phase_le
  rw [Phase.lt_iff] at hphase
  have hworth : (s.applyOffset o).worth d =
      if d.snapshot.phase.epoch < o.phase.epoch then (0 : ℚ)
      else d.initial.units * o.product.units /
        (d.snapshot.product.units * s.factor.units ^ (o.phase.scale - d.snapshot.phase.scale)) := rfl
  rw [hworth, worth]
  rcases h.phase_eq with hnext | hnext | hnext
  · have hepoch : o.phase.epoch = s.phase.epoch + 1 := congrArg Phase.epoch hnext
    rw [if_pos (by omega), kept_of_nextEpoch hnext, mul_zero]
  · have hepoch : o.phase.epoch = s.phase.epoch := (congrArg Phase.epoch hnext).trans rfl
    have hscale : o.phase.scale = s.phase.scale + 1 := congrArg Phase.scale hnext
    rw [kept_of_nextScale hnext, hepoch, hscale]
    split
    · rw [zero_mul]
    · rw [Nat.succ_sub (by omega), pow_succ]
      field_simp
  · rw [kept_of_phase_eq hnext, hnext]
    split
    · rw [zero_mul]
    · field_simp

/-- An offset takes off what deposits are worth at least what each unit is charged: the product is rounded down. -/
theorem Charges.perUnit_le {o : Offset} {perUnit : Nat} (h : s.Charges o perUnit) (hs : s.Regular)
    (hle : perUnit ≤ Amount.scale) : (perUnit : ℚ) / Amount.scale ≤ 1 - s.kept o := by
  have hproduct : (0 : ℚ) < s.product.units := Nat.cast_pos.2 hs.product_pos
  have hfactor : (0 : ℚ) < s.factor.units := Nat.cast_pos.2 hs.factor_pos
  have hscale : (0 : ℚ) < Amount.scale := Nat.cast_pos.2 (by decide)
  have hrest : ((Amount.scale - perUnit : Nat) : ℚ) / Amount.scale = 1 - perUnit / Amount.scale := by
    rw [Nat.cast_sub hle, sub_div, div_self hscale.ne']
  suffices hkept : s.kept o ≤ (Amount.scale - perUnit : Nat) / Amount.scale by linarith
  rcases h.product_rounded with ⟨-, -, hphase⟩ | ⟨hsame, raised, -, hraised, hunits⟩
  · rw [kept_of_nextEpoch hphase]
    positivity
  · rw [kept, if_pos hsame, hraised, Nat.add_sub_cancel_left, hunits, div_le_iff₀ (by positivity)]
    calc ((s.product.units * (Amount.scale - perUnit) * s.factor.units ^ raised / Amount.scale : Nat) : ℚ)
        ≤ (s.product.units * (Amount.scale - perUnit) * s.factor.units ^ raised : Nat) / Amount.scale := Nat.cast_div_le
      _ = _ := by
        rw [Nat.cast_mul, Nat.cast_mul, Nat.cast_pow]
        ring

/-- What an offset takes off too much is at least what it carries on, less what was carried to it. An offset of the
whole pool takes off neither too much nor too little. -/
theorem Charges.le_overcharge {o : Offset} {perUnit : Nat} (h : s.Charges o perUnit) (hs : s.Regular) :
    o.debtLoss = s.totalDeposits ∧ s.overcharge o = 0 ∨
    o.debtLoss ≠ s.totalDeposits ∧
      ((o.carriedLoss.units : ℚ) - s.carriedLoss.units) / Amount.scale ≤ s.overcharge o := by
  have hscale : (0 : ℚ) < Amount.scale := Nat.cast_pos.2 (by decide)
  unfold overcharge
  rcases lossPerUnit_eq_ok h.perUnit_eq h.total_pos h.debtLoss_le with ⟨hall, hone⟩ | ⟨hpart, hle, hcharged⟩
  · -- Of the whole pool nothing is kept, and what was carried is forgotten.
    have hkept : s.kept o = 0 := by
      have hproduct := h.product_eq
      rw [hone, Nat.sub_self] at hproduct
      obtain ⟨-, hphase⟩ := Prod.mk.inj (Except.ok.inj hproduct)
      exact kept_of_nextEpoch hphase.symm
    rw [hkept, hall, sub_zero, mul_one, sub_self]
    exact .inl ⟨rfl, rfl⟩
  · -- Of a part, the loss for each unit comes to the loss and the excess of it that is carried on.
    refine .inr ⟨hpart, ?_⟩
    have htaken := h.perUnit_le hs hle
    have hcharged' : (o.debtLoss.units : ℚ) * Amount.scale + o.carriedLoss.units ≤
        perUnit * s.totalDeposits.units + s.carriedLoss.units := by exact_mod_cast hcharged
    have hlost : (perUnit : ℚ) * s.totalDeposits.units ≤
        s.totalDeposits.units * (1 - s.kept o) * Amount.scale := by
      rw [div_le_iff₀ hscale] at htaken
      calc (perUnit : ℚ) * s.totalDeposits.units ≤ (1 - s.kept o) * Amount.scale * s.totalDeposits.units :=
            mul_le_mul_of_nonneg_right htaken (Nat.cast_nonneg _)
        _ = _ := by ring
    rw [div_le_iff₀ hscale, sub_mul]
    linarith

end CollateralDebt.StabilityPool
