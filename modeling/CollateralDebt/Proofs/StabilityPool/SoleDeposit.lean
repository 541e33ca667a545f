import CollateralDebt.Proofs.StabilityPool.Product
import CollateralDebt.Proofs.StabilityPool.Readings
import CollateralDebt.Proofs.StabilityPool.Settlement

/-! An offset of a pool that holds one deposit, which then bears the whole loss and has the whole gain, but for rounding.
The loss for each unit is rounded up by less than one unit of the last place, and the product of a pool that was just
opened is one, so that in each of the three ways in which an offset can end the same quotient of the deposit is left:
what scaling up multiplies by the factor, reading it divides out again (`Sole.left_eq`). The gain for each unit is rounded
down once and what the deposit has of it once more. So neither is off by more than one unit of the last place for each
whole unit of the deposit, and one (`sole_deposit_exact`). -/

open CollateralDebt.Action

namespace CollateralDebt.StabilityPool

variable {p : Params} {s : StabilityPool} {owner : Address} {deposit debtLoss collateralGain : Amount} {o : Offset}
  {perUnit : Nat}

/-- A count that is no more than two numbers over a divisor is no more than their quotients and one. -/
theorem le_quotients_add_one {n a b divisor : Nat} (hdivisor : 0 < divisor) (h : n * divisor ≤ a + b) :
    n ≤ a / divisor + b / divisor + 1 := by
  have hquotient : n ≤ (a + b) / divisor := (Nat.le_div_iff_mul_le hdivisor).2 h
  rw [Nat.add_div hdivisor] at hquotient
  split at hquotient <;> omega

/-! ## A pool with one deposit -/

/-- A pool just opened, with a deposit of one account. -/
structure Sole (s : StabilityPool) (owner : Address) (deposit : Amount) : Prop where
  consistent : s.Consistent
  floor_pos : 0 < s.floor.units
  total_eq : s.totalDeposits = deposit
  product_eq : s.product = .one
  sum_eq : s.sumAt s.phase = .zero
  carriedGain_eq : s.carriedGain = .zero
  carriedLoss_eq : s.carriedLoss = .zero
  get?_owner : s.deposits.get? owner = some ⟨owner, deposit, ⟨.one, .zero, s.phase⟩⟩

theorem exists_provide_ofParams (p : Params) (owner : Address) (hsome : 0 < deposit.units) :
    ∃ s, perform (provide owner deposit) (ofParams p) = (s, .ok ⟨owner, .zero, .zero, .zero, deposit⟩) := by
  have hpositive : Requirement.positive deposit = .ok () := if_neg (Amount.units_pos_iff.1 hsome)
  have hdeposit : Amount.zero.plus deposit = .ok deposit := Amount.plus_eq_ok_iff.2 (Nat.zero_add _).symm
  have htotal : (ofParams p).totalDeposits.plus deposit = .ok deposit := hdeposit
  have hposition : (ofParams p).position owner = .ok ⟨.zero, .zero, .zero⟩ := rfl
  unfold provide
  rw [perform_get_bind, perform_liftM_bind hpositive, perform_liftM_bind hposition, perform_liftM_bind hdeposit,
    perform_liftM_bind htotal]
  exact ⟨_, rfl⟩

theorem exists_sole (hp : p.check = .ok ()) (owner : Address) (hsome : 0 < deposit.units) :
    ∃ s change, perform (provide owner deposit) (ofParams p) = (s, .ok change) ∧ Sole s owner deposit := by
  obtain ⟨s, hdone⟩ := exists_provide_ofParams p owner hsome
  obtain ⟨hsettles, -, -⟩ := provide_settles hdone
  obtain ⟨totalDeposits, htotal, hpool⟩ := hsettles.pool_eq
  have hunmoved := hsettles.unmoved
  have hrun := (Run.start hp).provided hdone
  refine ⟨s, _, hdone, hrun.consistent, hrun.floor_pos, ?_, hunmoved.product_eq, ?_, hunmoved.carriedGain_eq,
    hunmoved.carriedLoss_eq, ?_⟩
  · rw [hpool, totalDeposits_setDeposit]
    exact Amount.ext (htotal.trans (Nat.zero_add _))
  · rw [sumAt, hunmoved.sums_eq]
    rfl
  · rw [hunmoved.phase_eq]
    exact hsettles.get?_self.trans (if_neg (Amount.units_pos_iff.1 hsome))

theorem Sole.totalDeposits_pos (h : Sole s owner deposit) : 0 < s.totalDeposits.units := by
  rw [h.total_eq]
  exact (h.consistent.follows.of_get? h.get?_owner).initial_pos

/-! ## An offset -/

/-- The running sum has room for any gain. -/
theorem Sole.exists_grownSum (h : Sole s owner deposit) (collateralGain : Amount) :
    ∃ sum, s.grownSum ((collateralGain.units * Amount.scale + s.carriedGain.units) / s.totalDeposits.units) = .ok sum ∧
      sum.units = collateralGain.units * Amount.scale / deposit.units * Amount.scale := by
  have hunits : (s.sumAt s.phase).units + (collateralGain.units * Amount.scale + s.carriedGain.units) /
      s.totalDeposits.units * s.product.units =
        collateralGain.units * Amount.scale / deposit.units * Amount.scale := by
    rw [h.sum_eq, h.carriedGain_eq, h.total_eq, h.product_eq]
    show 0 + (collateralGain.units * Amount.scale + 0) / deposit.units * Amount.scale = _
    rw [Nat.zero_add, Nat.add_zero]
  have hbound : collateralGain.units * Amount.scale / deposit.units * Amount.scale < RunningSum.bound :=
    calc collateralGain.units * Amount.scale / deposit.units * Amount.scale
        ≤ Amount.max.units * Amount.scale * Amount.scale :=
          Nat.mul_le_mul_right _ ((Nat.div_le_self _ _).trans (Nat.mul_le_mul_right _ collateralGain.le_max))
      _ < RunningSum.bound := by decide
  obtain ⟨sum, hsum⟩ := StabilityPool.exists_grownSum (hunits.trans_lt hbound)
  exact ⟨sum, hsum, (grownSum_eq_ok hsum).trans hunits⟩

/-- An offset that the deposit can bear is carried out: a product of one does not vanish. -/
theorem Sole.exists_offsetOf (h : Sole s owner deposit) (hsome : 0 < debtLoss.units) (hle : debtLoss ≤ deposit)
    (collateralGain : Amount) : ∃ o, s.offsetOf debtLoss collateralGain = .ok o ∧
      o.sum.units = collateralGain.units * Amount.scale / deposit.units * Amount.scale := by
  have hs := h.consistent
  have henough : debtLoss ≤ s.totalDeposits := h.total_eq ▸ hle
  obtain ⟨sum, hsum, hunits⟩ := h.exists_grownSum collateralGain
  obtain ⟨product, phase, hproduct⟩ := hs.exists_reducedProduct (s.keptUnits_le debtLoss)
  obtain ⟨carriedGain, carriedLoss, hoffset⟩ := offsetOf_eq hsome henough hsum hproduct
  have hsomething : ¬product.isZero = true := by
    intro hzero
    obtain ⟨hkept, hsmall⟩ :=
      (reducedProduct_vanishes_iff h.floor_pos hs.factor_pos).1 ⟨product, phase, hproduct, hzero⟩
    rw [h.product_eq, Nat.mul_assoc] at hsmall
    exact absurd hsmall (Nat.not_lt.2 (Nat.le_mul_of_pos_right _ (Nat.mul_pos hkept hs.factor_pos)))
  rw [if_neg hsomething] at hoffset
  exact ⟨_, hoffset, hunits⟩

/-! ## What the deposit is left -/

/-- Nothing is kept and an epoch begins, or what scaling up multiplies by the factor is divided out again. -/
theorem Sole.quotient_eq (h : Sole s owner deposit) (hcharges : s.Charges o perUnit) :
    s.keptUnits o.debtLoss = 0 ∧ o.phase = s.phase.nextEpoch ∨
    o.phase.epoch = s.phase.epoch ∧ o.phase.scale - s.phase.scale ≤ 1 ∧
      deposit.units * o.product.units / (Amount.scale * s.factor.units ^ (o.phase.scale - s.phase.scale)) =
        deposit.units * s.keptUnits o.debtLoss / Amount.scale := by
  have hone : s.product.units = Amount.scale := congrArg Amount.units h.product_eq
  rw [hcharges.keptUnits_eq]
  rcases hcharges.product_rounded with ⟨hkept, -, hphase⟩ | ⟨hepoch, raised, hle, hraised, hunits⟩
  · exact .inl ⟨hkept, hphase⟩
  · refine .inr ⟨hepoch, ?_⟩
    rw [hone, Nat.mul_assoc, Nat.mul_div_cancel_left _ (by decide)] at hunits
    rw [hraised, Nat.add_sub_cancel_left, hunits, ← Nat.mul_assoc,
      Nat.mul_div_mul_right _ _ (Nat.pow_pos h.consistent.factor_pos)]
    exact ⟨hle, rfl⟩

theorem Sole.left_eq (h : Sole s owner deposit) (hcharges : s.Charges o perUnit) :
    ∃ left, (s.applyOffset o).compoundedDeposit owner = .ok left ∧
      (left.units = deposit.units * s.keptUnits o.debtLoss / Amount.scale ∨
        left = .zero ∧
          deposit.units * s.keptUnits o.debtLoss / Amount.scale < deposit.units / negligibleParts) := by
  have hafter := hcharges.consistent_applyOffset h.consistent
  have hget : (s.applyOffset o).deposits.get? owner = _ := h.get?_owner
  have hd := hafter.follows.of_get? hget
  have hrange : deposit.units * o.product.units / Amount.scale ≤ Amount.max.units :=
    (mul_div_le_of_le hafter.product_le).trans deposit.le_max
  obtain ⟨left, hleft⟩ := (hd.exists_compounded_iff (hafter.dated.of_get? hget)).2 fun _ => hrange
  refine ⟨left, (compoundedDeposit_eq hget).trans hleft, ?_⟩
  rcases h.quotient_eq hcharges with ⟨hkept, hphase⟩ | ⟨hepoch, hscale, hquotient⟩
  · rcases compounded_eq_ok hleft with ⟨rfl, -⟩ | ⟨hsame, -⟩
    · rw [hkept, Nat.mul_zero, Nat.zero_div]
      exact .inl rfl
    · have hlater : s.phase.epoch < o.phase.epoch := by
        rw [hphase]
        exact Nat.lt_succ_self _
      exact absurd hlater hsame
  · rcases compounded_eq_ok hleft with ⟨rfl, hnothing | hlater | htwo | hless⟩ | ⟨-, hunits⟩
    · exact absurd hnothing hd.initial_ne
    · exact absurd hepoch (Nat.ne_of_gt hlater)
    · exact absurd hscale (Nat.not_le.2 htwo)
    · exact .inr ⟨rfl, hquotient ▸ hless⟩
    · exact .inl (hunits.trans hquotient)

/-- What is left is rounded down from what the offset leaves in the pool, and that twice. -/
theorem Sole.left_bounds (h : Sole s owner deposit) (hle : debtLoss ≤ deposit) {left : Amount}
    (hleft : left.units = deposit.units * s.keptUnits debtLoss / Amount.scale ∨
      left = .zero ∧ deposit.units * s.keptUnits debtLoss / Amount.scale < deposit.units / negligibleParts) :
    left.units ≤ deposit.units - debtLoss.units ∧
    (deposit.units / negligibleParts + deposit.units / Amount.scale + 2 ≤ deposit.units - debtLoss.units →
      deposit.units - debtLoss.units - left.units ≤ deposit.units / Amount.scale + 1) := by
  have hupper := keptUnits_mul_le h.totalDeposits_pos (h.total_eq ▸ hle)
  have hlower := s.left_mul_scale_le debtLoss
  rw [h.total_eq, h.carriedLoss_eq, show Amount.zero.units = 0 from rfl, Nat.add_zero, Nat.mul_comm] at hupper
  rw [h.total_eq, Nat.add_mul, Nat.one_mul, Nat.mul_comm (s.keptUnits debtLoss)] at hlower
  have hquotient : deposit.units * s.keptUnits debtLoss / Amount.scale ≤ deposit.units - debtLoss.units :=
    (Nat.div_le_div_right hupper).trans_eq (Nat.mul_div_cancel _ (by decide))
  have hshare := le_quotients_add_one (by decide) hlower
  rcases hleft with hunits | ⟨rfl, hnegligible⟩
  · omega
  · -- What is taken for negligible is less than what is asked for here.
    refine ⟨Nat.zero_le _, fun henough => ?_⟩
    omega

/-! ## What the deposit has gained -/

theorem Sole.gain_eq (h : Sole s owner deposit) (hcharges : s.Charges o perUnit)
    (hsum : o.sum.units = collateralGain.units * Amount.scale / deposit.units * Amount.scale) :
    ∃ gain, (s.applyOffset o).depositorGain owner = .ok gain ∧
      gain.units = deposit.units * (collateralGain.units * Amount.scale / deposit.units) / Amount.scale := by
  have hafter := hcharges.consistent_applyOffset h.consistent
  have hget : (s.applyOffset o).deposits.get? owner = _ := h.get?_owner
  have hd := hafter.follows.of_get? hget
  have hgrowth : (s.applyOffset o).growthUnits ⟨.one, .zero, s.phase⟩ =
      collateralGain.units * Amount.scale / deposit.units * Amount.scale := by
    have hparts : (s.applyOffset o).growthUnits ⟨.one, .zero, s.phase⟩ =
        ((s.applyOffset o).sumAt s.phase).units - 0 +
          ((s.applyOffset o).sumAt s.phase.nextScale).units / s.factor.units := rfl
    have hnext : s.phase.nextScale ≠ s.phase := fun hsame => Nat.succ_ne_self _ (congrArg Phase.scale hsame)
    rw [hparts, hcharges.sumAt_applyOffset, hcharges.sumAt_applyOffset, if_pos rfl, if_neg hnext, hsum,
      h.consistent.sumAt_nextScale, Nat.zero_div, Nat.sub_zero, Nat.add_zero]
  have hquotient : deposit.units * (s.applyOffset o).growthUnits ⟨.one, .zero, s.phase⟩ / Amount.one.units /
      Amount.scale = deposit.units * (collateralGain.units * Amount.scale / deposit.units) / Amount.scale := by
    rw [hgrowth, ← Nat.mul_assoc, show Amount.one.units = Amount.scale from rfl, Nat.mul_div_cancel _ (by decide)]
  have hrange : deposit.units * (collateralGain.units * Amount.scale / deposit.units) / Amount.scale ≤
      Amount.max.units :=
    calc deposit.units * (collateralGain.units * Amount.scale / deposit.units) / Amount.scale
        ≤ collateralGain.units * Amount.scale / Amount.scale := Nat.div_le_div_right (Nat.mul_div_le _ _)
      _ = collateralGain.units := Nat.mul_div_cancel _ (by decide)
      _ ≤ Amount.max.units := collateralGain.le_max
  obtain ⟨gain, hgain⟩ := (hd.exists_gained_iff (hafter.dated.of_get? hget)).2 (hquotient.trans_le hrange)
  exact ⟨gain, (depositorGain_eq hget).trans hgain, (gained_eq_ok hgain).trans hquotient⟩

/-- The gain is rounded down from the collateral, once for each unit and once for the deposit. -/
theorem Sole.gain_bounds (h : Sole s owner deposit) (collateralGain : Amount) :
    deposit.units * (collateralGain.units * Amount.scale / deposit.units) / Amount.scale ≤ collateralGain.units ∧
    collateralGain.units - deposit.units * (collateralGain.units * Amount.scale / deposit.units) / Amount.scale ≤
      deposit.units / Amount.scale + 1 := by
  have hpositive : 0 < deposit.units := h.total_eq ▸ h.totalDeposits_pos
  have hdivided := Nat.div_add_mod (collateralGain.units * Amount.scale) deposit.units
  have hrest := Nat.mod_lt (collateralGain.units * Amount.scale) hpositive
  have hbound : collateralGain.units * Amount.scale ≤
      deposit.units * (collateralGain.units * Amount.scale / deposit.units) + deposit.units := by omega
  have hshare := le_quotients_add_one (by decide) hbound
  refine ⟨?_, Nat.sub_le_iff_le_add'.2 hshare⟩
  calc deposit.units * (collateralGain.units * Amount.scale / deposit.units) / Amount.scale
      ≤ collateralGain.units * Amount.scale / Amount.scale := Nat.div_le_div_right (Nat.mul_div_le _ _)
    _ = collateralGain.units := Nat.mul_div_cancel _ (by decide)

/-- **A sole depositor bears the whole loss and has the whole gain, but for rounding.** For valid parameters, whatever
their floor and factor, an account makes a deposit in a pool just opened. Any offset of no more debt than that, for
any collateral, is carried out. Of the deposit no more is left than the offset leaves in the pool, and if that is more
than what is taken for negligible, no less but for one unit of the last place for each whole unit of the deposit, and
one. The gain is within the same bound of the collateral, and not above it. -/
theorem sole_deposit_exact (hp : p.check = .ok ()) (owner : Address) (hsome : 0 < deposit.units) :
    ∃ s change, perform (provide owner deposit) (ofParams p) = (s, .ok change) ∧
      ∀ debtLoss collateralGain : Amount, 0 < debtLoss.units → debtLoss ≤ deposit →
        ∃ s' o left gain, perform (offset debtLoss collateralGain) s = (s', .ok o) ∧
          s'.compoundedDeposit owner = .ok left ∧ s'.depositorGain owner = .ok gain ∧
          left.units ≤ deposit.units - debtLoss.units ∧
          (deposit.units / negligibleParts + deposit.units / Amount.scale + 2 ≤ deposit.units - debtLoss.units →
            deposit.units - debtLoss.units - left.units ≤ deposit.units / Amount.scale + 1) ∧
          gain ≤ collateralGain ∧ collateralGain.units - gain.units ≤ deposit.units / Amount.scale + 1 := by
  obtain ⟨s, change, hdone, hsole⟩ := exists_sole hp owner hsome
  refine ⟨s, change, hdone, fun debtLoss collateralGain hdebt hle => ?_⟩
  obtain ⟨o, hoffset, hsum⟩ := hsole.exists_offsetOf hdebt hle collateralGain
  obtain ⟨rfl, perUnit, hcharges⟩ := offsetOf_eq_ok hoffset
  obtain ⟨left, hleft, hleftUnits⟩ := hsole.left_eq hcharges
  obtain ⟨gain, hgain, hgainUnits⟩ := hsole.gain_eq hcharges hsum
  obtain ⟨hleftLe, hleftGe⟩ := hsole.left_bounds hle hleftUnits
  obtain ⟨hgainLe, hgainGe⟩ := hsole.gain_bounds collateralGain
  rw [← hgainUnits] at hgainLe hgainGe
  exact ⟨_, o, left, gain, perform_offset hoffset, hleft, hgain, hleftLe, hleftGe, hgainLe, hgainGe⟩

/-- Parameters with a floor that is passed long before a deposit is negligible. -/
def highFloorParams : Params := { Params.standard with productFloor := 1000000000000000, productFactor := 1000 }

def soleAmount : Amount := ⟨7 * 10 ^ 24 + 1, by decide⟩

/-- It leaves a little less than fifteen parts in a million. -/
def soleLoss : Amount := ⟨7 * 10 ^ 24 - 10 ^ 20, by decide⟩

def solePool : StabilityPool := (perform (provide (.ofWord 1) soleAmount) (ofParams highFloorParams)).1

/-- Offsets that keep the scale, scale the product up and begin an epoch, and what is left after the second. -/
theorem sole_deposit_exact_sample :
    highFloorParams.check = .ok () ∧ 0 < soleAmount.units ∧ 0 < soleLoss.units ∧ soleLoss ≤ soleAmount ∧
    ((perform (offset (.ofWhole 3) (.ofWhole 1)) solePool).1.phase = ⟨0, 0⟩ ∧
      (perform (offset soleLoss (.ofWhole 1)) solePool).1.phase = ⟨0, 1⟩ ∧
      (perform (offset soleAmount (.ofWhole 1)) solePool).1.phase = ⟨1, 0⟩) ∧
    ∃ s' o left gain, perform (offset soleLoss (.ofWhole 1)) solePool = (s', .ok o) ∧
      s'.compoundedDeposit (.ofWord 1) = .ok left ∧ s'.depositorGain (.ofWord 1) = .ok gain ∧
      left.units ≤ soleAmount.units - soleLoss.units ∧
      soleAmount.units - soleLoss.units - left.units ≤ soleAmount.units / Amount.scale + 1 ∧
      gain ≤ .ofWhole 1 ∧ Amount.scale - gain.units ≤ soleAmount.units / Amount.scale + 1 := by
  have hcheck : highFloorParams.check = .ok () := rfl
  have hsome : 0 < soleAmount.units := by decide +kernel
  have hdebt : 0 < soleLoss.units := by decide +kernel
  have hle : soleLoss ≤ soleAmount := by decide +kernel
  obtain ⟨s, change, hdone, hexact⟩ := sole_deposit_exact hcheck (.ofWord 1) hsome
  have hpool : s = solePool := (congrArg Prod.fst hdone).symm
  obtain ⟨s', o, left, gain, hoffset, hleft, hgain, hleftLe, hleftGe, hgainLe, hgainGe⟩ :=
    hexact soleLoss (.ofWhole 1) hdebt hle
  rw [hpool] at hoffset
  exact ⟨hcheck, hsome, hdebt, hle, ⟨by decide +kernel, by decide +kernel, by decide +kernel⟩, s', o, left, gain,
    hoffset, hleft, hgain, hleftLe, hleftGe (by decide +kernel), hgainLe, hgainGe⟩

end CollateralDebt.StabilityPool
