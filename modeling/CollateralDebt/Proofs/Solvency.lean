import CollateralDebt.Proofs.Ledger.Asset
import CollateralDebt.Solvency

/-! What the rules for owners make sure of. The rules look at the amounts of one trove before and after, and predict the
totals of the system from them. If the totals do change as predicted, an adjustment that passes in Normal Mode leaves the
system at the critical ratio or above. In Recovery Mode only the trove is looked at: a trove that borrows more must come
to the critical ratio, which is above that of the system, and not worse than before. Then the system is as well off as it
was, up to one unit of its ratio, which is lost where two floored ratios of a trove compare as equal and the exact ones
do not. -/

open CollateralDebt.Action

namespace CollateralDebt

namespace Requirement

theorem positive_eq_ok {amount : Amount} (h : positive amount = .ok ()) : 0 < amount.units := by
  unfold positive at h
  split at h
  · cases h
  · next hzero => exact Amount.units_pos_iff.2 hzero

theorem sufficientDebt_eq_ok {debt minimum : Amount} (h : sufficientDebt debt minimum = .ok ()) :
    0 < debt.units ∧ minimum ≤ debt := by
  unfold sufficientDebt at h
  split at h
  · cases h
  · next hzero =>
      split at h
      · cases h
      · next hmin => exact ⟨Amount.units_pos_iff.2 hzero, Amount.not_lt.1 hmin⟩

theorem sufficientRatio_eq_ok {ratio minimum : Amount} (h : sufficientRatio ratio minimum = .ok ()) :
    minimum ≤ ratio := by
  unfold sufficientRatio at h
  split at h
  · cases h
  · next hmin => exact Amount.not_lt.1 hmin

end Requirement

theorem Params.isRecovery_iff {p : Params} {ratio : Amount} : p.isRecovery ratio = true ↔ ratio < p.criticalRatio :=
  decide_eq_true_iff

theorem Params.not_isRecovery_iff {p : Params} {ratio : Amount} :
    ¬p.isRecovery ratio = true ↔ p.criticalRatio ≤ ratio := by
  rw [isRecovery_iff, Amount.not_lt]

namespace Asset

/-- What an adjustment starts from. -/
def before : Asset → Adjustment → Amount
  | collateral, a => a.oldCollateral
  | debt, a => a.oldDebt

/-- What an adjustment comes to. -/
def after : Asset → Adjustment → Amount
  | collateral, a => a.newCollateral
  | debt, a => a.newDebt

end Asset

namespace Adjustment

variable {a : Adjustment} {p : Params} {l l' : Ledger} {price : Amount}

def oldRatio (a : Adjustment) (price : Amount) : Amount := Amount.collateralRatio a.oldCollateral a.oldDebt price

def newRatio (a : Adjustment) (price : Amount) : Amount := Amount.collateralRatio a.newCollateral a.newDebt price

/-- The ratio that the rules predict for the system. -/
def predictedRatio (a : Adjustment) (l : Ledger) (price : Amount) : Amount :=
  Amount.collateralRatio ((l.pools.collateral.minusClamped a.oldCollateral).plusClamped a.newCollateral)
    ((l.pools.debt.minusClamped a.oldDebt).plusClamped a.newDebt) price

/-- An adjustment of a trove is allowed, in the mode in which the system is at a price. -/
structure Passes (a : Adjustment) (p : Params) (l : Ledger) (price : Amount) : Prop where
  collateral_pos : 0 < a.newCollateral.units
  debt_pos : 0 < a.newDebt.units
  debt_ge : p.minimumDebt ≤ a.newDebt
  normal : p.criticalRatio ≤ l.systemRatio price →
    p.minimumRatio ≤ a.newRatio price ∧ p.criticalRatio ≤ a.predictedRatio l price
  recovery : l.systemRatio price < p.criticalRatio → a.oldCollateral ≤ a.newCollateral ∧
    (a.newDebt ≤ a.oldDebt ∨
      p.criticalRatio ≤ a.newRatio price ∧ (a.isOpening = true ∨ a.oldRatio price ≤ a.newRatio price))

theorem normal_of_require {v : Verdict}
    (h : a.normalVerdict p price l.pools.collateral l.pools.debt = .ok v) (hrequire : v.require = .ok ()) :
    p.minimumRatio ≤ a.newRatio price ∧ p.criticalRatio ≤ a.predictedRatio l price := by
  unfold normalVerdict at h
  obtain ⟨_, hratio, h⟩ := except_bind_eq_ok.1 h
  refine ⟨Requirement.sufficientRatio_eq_ok hratio, ?_⟩
  dsimp only at h
  split at h
  · cases h
    cases hrequire
  · next hpredicted => exact Params.not_isRecovery_iff.1 hpredicted

theorem recovery_of_require (hrequire : (a.recoveryVerdict p price).require = .ok ()) :
    a.oldCollateral ≤ a.newCollateral ∧
      (a.newDebt ≤ a.oldDebt ∨
        p.criticalRatio ≤ a.newRatio price ∧ (a.isOpening = true ∨ a.oldRatio price ≤ a.newRatio price)) := by
  unfold recoveryVerdict at hrequire
  dsimp only at hrequire
  split at hrequire
  · cases hrequire
  next hcollateral =>
  refine ⟨Amount.not_lt.1 hcollateral, ?_⟩
  split at hrequire
  · next hdebt => exact .inl hdebt
  split at hrequire
  · cases hrequire
  next hcritical =>
  split at hrequire
  · cases hrequire
  next hworse =>
  refine .inr ⟨Amount.not_lt.1 hcritical, ?_⟩
  rw [Bool.and_eq_true, Bool.not_eq_true', decide_eq_true_iff, not_and, Bool.eq_false_iff] at hworse
  by_cases hopening : a.isOpening = true
  · exact .inl hopening
  · exact .inr (Amount.not_lt.1 (hworse hopening))

theorem passes_of_checks {v : Verdict} (hpositive : Requirement.positive a.newCollateral = .ok ())
    (hdebt : Requirement.sufficientDebt a.newDebt p.minimumDebt = .ok ())
    (hverdict : a.verdict p price l.pools.collateral l.pools.debt = .ok v) (hrequire : v.require = .ok ()) :
    a.Passes p l price := by
  obtain ⟨hdebtPos, hdebtGe⟩ := Requirement.sufficientDebt_eq_ok hdebt
  unfold verdict at hverdict
  refine ⟨Requirement.positive_eq_ok hpositive, hdebtPos, hdebtGe, fun hnormal => ?_, fun hrecovery => ?_⟩
  · have hmode : ¬p.isRecovery (Amount.collateralRatio l.pools.collateral l.pools.debt price) = true :=
      Params.not_isRecovery_iff.2 hnormal
    rw [if_neg hmode] at hverdict
    exact normal_of_require hverdict hrequire
  · have hmode : p.isRecovery (Amount.collateralRatio l.pools.collateral l.pools.debt price) = true :=
      Params.isRecovery_iff.2 hrecovery
    rw [if_pos hmode] at hverdict
    cases hverdict
    exact recovery_of_require hrequire

/-- All of a trove is taken out. -/
def closing (e : EntireTrove) : Adjustment := ⟨e.collateral, e.debt, .zero, .zero⟩

/-- The system holds what it held, with the new amounts of a trove in place of the old ones. -/
structure Replaces (a : Adjustment) (l l' : Ledger) : Prop where
  before_le : ∀ x : Asset, (x.before a).units ≤ (x.held l.pools).units
  held_eq : ∀ x : Asset, (x.held l'.pools).units + (x.before a).units = (x.held l.pools).units + (x.after a).units

theorem Replaces.predicted_held (h : a.Replaces l l') (x : Asset) :
    ((x.held l.pools).minusClamped (x.before a)).plusClamped (x.after a) = x.held l'.pools := by
  have hbefore := h.before_le x
  have hheld := h.held_eq x
  have hrange := (x.held l'.pools).units_lt
  have hsum : (x.held l.pools).units - (x.before a).units + (x.after a).units = (x.held l'.pools).units := by omega
  apply Amount.ext
  rw [Amount.units_plusClamped, Amount.units_minusClamped, hsum]
  exact Nat.min_eq_left (by omega)

theorem Replaces.predictedRatio_eq (h : a.Replaces l l') (price : Amount) :
    a.predictedRatio l price = l'.systemRatio price :=
  congrArg₂ (fun collateral debt => Amount.collateralRatio collateral debt price) (h.predicted_held .collateral)
    (h.predicted_held .debt)

/-- **In Normal Mode the system stays there.** -/
theorem Passes.stays_normal (h : a.Passes p l price) (hreplaces : a.Replaces l l')
    (hnormal : p.criticalRatio ≤ l.systemRatio price) : p.criticalRatio ≤ l'.systemRatio price := by
  rw [← hreplaces.predictedRatio_eq]
  exact (h.normal hnormal).2

end Adjustment

/-- A ratio that is not the largest amount is less than one unit below the exact one. -/
theorem Amount.lt_of_ratio_lt_max {collateral debt price : Amount} (h : collateralRatio collateral debt price < max) :
    collateral.units * price.units < ((collateralRatio collateral debt price).units + 1) * debt.units := by
  refine Nat.lt_of_not_le fun hle => ?_
  have hnext : (⟨_, Nat.lt_of_le_of_lt h max.units_lt⟩ : Amount) ≤ collateralRatio collateral debt price :=
    le_collateralRatio_iff.2 hle
  exact Nat.not_succ_le_self _ hnext

/-- A part of a whole grows in both its terms. The whole has at least a ratio `T`, in so many units, and the part comes to
at least `T` and to at least its floored ratio `k` before. If `k` is below `T`, the part was below the whole and lifts
it; otherwise what the part grows by has at least the ratio `k`, but for less than one unit of the part as it was. -/
theorem mul_le_of_part_grows {T k P C D C' D' c d c' d' : Nat} (hC : C' + c = C + c') (hD : D' + d = D + d')
    (hpart : d ≤ D) (hgrows : d ≤ d') (hwhole : T * D ≤ C * P) (hbefore : c * P < (k + 1) * d)
    (hkept : k * d' ≤ c' * P) (hcritical : T * d' ≤ c' * P) : T * D' ≤ C' * P + D' := by
  have hcollateral : C' * P + c * P = C * P + c' * P := by rw [← Nat.add_mul, hC, Nat.add_mul]
  have hdebt : T * D' + T * d = T * D + T * d' := by rw [← Nat.mul_add, hD, Nat.mul_add]
  by_cases habove : T ≤ k
  · obtain ⟨growth, rfl⟩ := Nat.exists_eq_add_of_le hgrows
    have hgain := Nat.mul_le_mul_right growth habove
    rw [Nat.mul_add] at hkept hdebt
    rw [Nat.succ_mul] at hbefore
    omega
  · have hbelow := Nat.mul_le_mul_right d (Nat.succ_le_of_lt (Nat.lt_of_not_le habove))
    rw [Nat.succ_mul] at hbelow hbefore
    omega

namespace Adjustment

variable {a : Adjustment} {p : Params} {l l' : Ledger} {price : Amount}

theorem isOpening_iff : a.isOpening = true ↔ a.oldCollateral = .zero ∧ a.oldDebt = .zero := by
  rw [isOpening, Bool.and_eq_true, Amount.isZero_iff, Amount.isZero_iff]

theorem Replaces.totals (h : a.Replaces l l') :
    l'.pools.collateral.units + a.oldCollateral.units = l.pools.collateral.units + a.newCollateral.units ∧
      l'.pools.debt.units + a.oldDebt.units = l.pools.debt.units + a.newDebt.units :=
  ⟨h.held_eq .collateral, h.held_eq .debt⟩

section Recovery

variable (h : a.Passes p l price) (hreplaces : a.Replaces l l') (hrecovery : l.systemRatio price < p.criticalRatio)
include h hreplaces hrecovery

/-- A new trove comes at the critical ratio or above, and so cannot lower that of the system. -/
theorem Passes.opening_keeps_ratio (hopening : a.isOpening = true) : l.systemRatio price ≤ l'.systemRatio price := by
  obtain ⟨hnoCollateral, hnoDebt⟩ := isOpening_iff.1 hopening
  obtain ⟨hcollateral, hdebt⟩ := hreplaces.totals
  rw [hnoCollateral] at hcollateral
  rw [hnoDebt] at hdebt
  obtain ⟨-, hless | ⟨hcritical, -⟩⟩ := h.recovery hrecovery
  · rw [hnoDebt] at hless
    exact absurd hless (Nat.not_le.2 h.debt_pos)
  · have hwhole := Amount.le_collateralRatio_iff.1 (Nat.le_refl (l.systemRatio price).units)
    have hnew := Amount.le_collateralRatio_iff.1 (Nat.le_trans (Nat.le_of_lt hrecovery) hcritical)
    refine Amount.le_collateralRatio_iff.2 ?_
    calc (l.systemRatio price).units * l'.pools.debt.units
        = (l.systemRatio price).units * l.pools.debt.units + (l.systemRatio price).units * a.newDebt.units := by
          rw [← Nat.mul_add]
          exact congrArg _ hdebt
      _ ≤ l.pools.collateral.units * price.units + a.newCollateral.units * price.units := Nat.add_le_add hwhole hnew
      _ = l'.pools.collateral.units * price.units := by
          rw [← Nat.add_mul]
          exact congrArg (· * price.units) hcollateral.symm

/-- If no debt is drawn, the system does not lose. -/
theorem Passes.repaying_keeps_ratio (hless : a.newDebt ≤ a.oldDebt) : l.systemRatio price ≤ l'.systemRatio price := by
  obtain ⟨hcollateral, hdebt⟩ := hreplaces.totals
  have hkept : a.oldCollateral.units ≤ a.newCollateral.units := (h.recovery hrecovery).1
  rw [Amount.le_iff] at hless
  refine Amount.le_collateralRatio_iff.2 ?_
  calc (l.systemRatio price).units * l'.pools.debt.units
      ≤ (l.systemRatio price).units * l.pools.debt.units := Nat.mul_le_mul_left _ (by omega)
    _ ≤ l.pools.collateral.units * price.units := Amount.le_collateralRatio_iff.1 (Nat.le_refl _)
    _ ≤ l'.pools.collateral.units * price.units := Nat.mul_le_mul_right _ (by omega)

/-- **In Recovery Mode the system is not worse off**, but for one unit of its ratio, if the trove had a ratio that can be
told from all larger ones. -/
theorem Passes.keeps_ratio (hfinite : a.oldRatio price < Amount.max) :
    (l.systemRatio price).units ≤ (l'.systemRatio price).units + 1 := by
  rcases Nat.le_total a.newDebt.units a.oldDebt.units with hless | hgrows
  · exact Nat.le_succ_of_le (h.repaying_keeps_ratio hreplaces hrecovery hless)
  obtain ⟨-, hless | ⟨hcritical, hopening | hkept⟩⟩ := h.recovery hrecovery
  · exact Nat.le_succ_of_le (h.repaying_keeps_ratio hreplaces hrecovery hless)
  · exact Nat.le_succ_of_le (h.opening_keeps_ratio hreplaces hrecovery hopening)
  · obtain ⟨hcollateral, hdebt⟩ := hreplaces.totals
    have hgrown := mul_le_of_part_grows hcollateral hdebt (hreplaces.before_le .debt) hgrows
      (Amount.le_collateralRatio_iff.1 (Nat.le_refl (l.systemRatio price).units)) (Amount.lt_of_ratio_lt_max hfinite)
      (Amount.le_collateralRatio_iff.1 hkept)
      (Amount.le_collateralRatio_iff.1 (Nat.le_trans (Nat.le_of_lt hrecovery) hcritical))
    have hlower : (l.systemRatio price).minusClamped ⟨1, by decide⟩ ≤ l'.systemRatio price := by
      refine Amount.le_collateralRatio_iff.2 ?_
      rw [Amount.units_minusClamped, Nat.sub_mul, Nat.one_mul]
      exact Nat.sub_le_of_le_add hgrown
    exact Nat.le_add_of_sub_le hlower

end Recovery

end Adjustment

end CollateralDebt
