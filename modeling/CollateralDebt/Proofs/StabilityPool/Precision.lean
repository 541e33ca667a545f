import CollateralDebt.Proofs.StabilityPool.Remainder
import CollateralDebt.Proofs.StabilityPool.Settlement

/-! How exact the product is. Within an epoch it should be one times what each unit keeps in every offset; the pool rounds
it down after each, at the precision of the scale that the offset ends in. Scaled back, with the factor divided out as
often as the product was scaled up, it is never more than the exact product, and less by no more than one unit of the
last place of each scale that an offset ended in (`Run.product_tracks`). An offset that scales the product up is no
exception: it loses less than one that does not. -/

open CollateralDebt.Action

namespace CollateralDebt.StabilityPool

variable {p : Params} {s s' : StabilityPool} {paidIn : Nat} {change : DepositChange} {o : Offset} {perUnit : Nat}
  {turns : List Turn}

/-- The product with the factor divided out as often as it was scaled up. -/
def scaledBack (s : StabilityPool) : ℚ := s.product.units / s.factor.units ^ s.phase.scale

/-- The offsets since the epoch began, with the pools before them, the latest first. -/
def epochOffsets : List Turn → List (StabilityPool × Offset)
  | [] => []
  | .deposit _ _ :: earlier => epochOffsets earlier
  | .offset before o :: earlier => if o.phase.epoch = before.phase.epoch then (before, o) :: epochOffsets earlier else []

/-- The product that the pool would have if nothing were rounded but what each unit keeps. -/
def exactProduct (turns : List Turn) : ℚ :=
  Amount.scale * ((epochOffsets turns).map fun (before, o) => (before.keptUnits o.debtLoss / Amount.scale : ℚ)).prod

/-- One unit of the last place for each offset since the epoch began, in the scale that it ended in. -/
def lastPlaces (s : StabilityPool) (turns : List Turn) : ℚ :=
  ((epochOffsets turns).map fun (_, o) => (1 / s.factor.units ^ o.phase.scale : ℚ)).sum

theorem lastPlaces_nonneg (s : StabilityPool) (turns : List Turn) : 0 ≤ lastPlaces s turns := by
  refine List.sum_nonneg fun place hmem => ?_
  obtain ⟨entry, -, rfl⟩ := List.mem_map.1 hmem
  positivity

/-! ## One offset -/

/-- Scaled up or not, the product is rounded down once. -/
theorem Charges.scaledBack_applyOffset (h : s.Charges o perUnit) (hs : s.Regular)
    (hsame : o.phase.epoch = s.phase.epoch) :
    (s.applyOffset o).scaledBack ≤ s.scaledBack * (s.keptUnits o.debtLoss / Amount.scale) ∧
    s.scaledBack * (s.keptUnits o.debtLoss / Amount.scale) ≤
      (s.applyOffset o).scaledBack + 1 / s.factor.units ^ o.phase.scale := by
  rcases h.product_rounded with ⟨-, -, hnext⟩ | ⟨-, raised, -, hscale, hunits⟩
  · rw [hnext] at hsame
    exact absurd hsame (Nat.succ_ne_self _)
  rw [← h.keptUnits_eq] at hunits
  have hfactor : (0 : ℚ) < s.factor.units := Nat.cast_pos.2 hs.factor_pos
  have hafter : (s.applyOffset o).scaledBack = o.product.units / s.factor.units ^ o.phase.scale := rfl
  have hexact : s.scaledBack * (s.keptUnits o.debtLoss / Amount.scale) =
      (s.product.units * s.keptUnits o.debtLoss * s.factor.units ^ raised : Nat) / (Amount.scale : Nat) /
        s.factor.units ^ o.phase.scale := by
    rw [scaledBack, hscale, pow_add, Nat.cast_mul, Nat.cast_mul, Nat.cast_pow]
    field_simp
  have hlost := div_lt_add_one (s.product.units * s.keptUnits o.debtLoss * s.factor.units ^ raised) Amount.scale
  have hpower : (0 : ℚ) ≤ s.factor.units ^ o.phase.scale := by positivity
  rw [hafter, hexact, hunits, ← add_div]
  exact ⟨div_le_div_of_nonneg_right Nat.cast_div_le hpower, div_le_div_of_nonneg_right hlost.le hpower⟩

/-! ## Runs -/

/-- The product is the exact one, but for what rounding took off. -/
structure Tracks (s : StabilityPool) (turns : List Turn) : Prop where
  scaledBack_le : s.scaledBack ≤ exactProduct turns
  exactProduct_le : exactProduct turns ≤ s.scaledBack + lastPlaces s turns

/-- An epoch begins with a product of one. -/
theorem tracks_of_one (hproduct : s.product = .one) (hscale : s.phase.scale = 0) (hnone : epochOffsets turns = []) :
    Tracks s turns := by
  have hexact : exactProduct turns = s.scaledBack := by
    rw [exactProduct, scaledBack, hnone, hproduct, hscale, pow_zero, div_one]
    exact mul_one _
  refine ⟨hexact.ge, hexact.le.trans ?_⟩
  rw [lastPlaces, hnone, List.map_nil, List.sum_nil, add_zero]

theorem Unmoved.tracks (h : Unmoved s s') (hs : Tracks s turns) : Tracks s' (.deposit s change :: turns) := by
  have hback : s'.scaledBack = s.scaledBack := by
    rw [scaledBack, scaledBack, h.product_eq, h.phase_eq, h.factor_eq]
  have hplaces : lastPlaces s' (.deposit s change :: turns) = lastPlaces s turns := by
    rw [lastPlaces, lastPlaces, epochOffsets, h.factor_eq]
  refine ⟨hback.le.trans hs.scaledBack_le, ?_⟩
  rw [hback, hplaces]
  exact hs.exactProduct_le

/-- **An offset takes what was rounded off down with the product, and adds one rounding.** -/
theorem Charges.tracks (h : s.Charges o perUnit) (hs : s.Regular) (htracks : Tracks s turns) :
    Tracks (s.applyOffset o) (.offset s o :: turns) := by
  by_cases hsame : o.phase.epoch = s.phase.epoch
  · have hoffsets : epochOffsets (.offset s o :: turns) = (s, o) :: epochOffsets turns := if_pos hsame
    have hexact : exactProduct (.offset s o :: turns) =
        exactProduct turns * (s.keptUnits o.debtLoss / Amount.scale) := by
      rw [exactProduct, exactProduct, hoffsets, List.map_cons, List.prod_cons]
      ring
    have hplaces : lastPlaces (s.applyOffset o) (.offset s o :: turns) =
        1 / s.factor.units ^ o.phase.scale + lastPlaces s turns := by
      rw [lastPlaces, hoffsets, List.map_cons, List.sum_cons]
      rfl
    obtain ⟨hle, hge⟩ := h.scaledBack_applyOffset hs hsame
    have hpart : (0 : ℚ) ≤ s.keptUnits o.debtLoss / Amount.scale := by positivity
    have hpart_le : (s.keptUnits o.debtLoss : ℚ) / Amount.scale ≤ 1 :=
      (div_le_one (Nat.cast_pos.2 (by decide))).2 (Nat.cast_le.2 (s.keptUnits_le _))
    have hdown := mul_le_mul_of_nonneg_right htracks.scaledBack_le hpart
    have hup := mul_le_mul_of_nonneg_right htracks.exactProduct_le hpart
    have hrounded : lastPlaces s turns * (s.keptUnits o.debtLoss / Amount.scale) ≤ lastPlaces s turns :=
      mul_le_of_le_one_right (lastPlaces_nonneg s turns) hpart_le
    rw [add_mul] at hup
    refine ⟨hexact ▸ hle.trans hdown, ?_⟩
    rw [hexact, hplaces]
    linarith
  · have hnone : epochOffsets (.offset s o :: turns) = [] := if_neg hsame
    rcases h.product_rounded with ⟨-, hone, hphase⟩ | ⟨hepoch, -⟩
    · exact tracks_of_one hone (congrArg Phase.scale hphase) hnone
    · exact absurd hepoch hsame

theorem Run.tracks (h : Run p s turns) : Tracks s turns :=
  h.induct (fun _ => tracks_of_one rfl rfl rfl) (fun _ htracks hsettles => hsettles.unmoved.tracks htracks)
    fun hrun htracks hcharges _ => hcharges.tracks hrun.consistent.toRegular htracks

/-- **The product tracks the exact one.** After any operations the product, scaled back, is no more than one times what
each unit kept in every offset of the epoch that is on, and less by no more than the last places of the scales that these
offsets ended in. The next offset, if it stays in the epoch, loses no more than the last place of the scale it ends in,
whether or not it scales the product up, and never gains. -/
theorem Run.product_tracks (h : Run p s turns) :
    (0 ≤ exactProduct turns - s.scaledBack ∧ exactProduct turns - s.scaledBack ≤ lastPlaces s turns) ∧
    ∀ debtLoss collateralGain s' o, perform (StabilityPool.offset debtLoss collateralGain) s = (s', .ok o) →
      o.phase.epoch = s.phase.epoch →
        s'.scaledBack ≤ s.scaledBack * (s.keptUnits o.debtLoss / Amount.scale) ∧
        s.scaledBack * (s.keptUnits o.debtLoss / Amount.scale) ≤ s'.scaledBack + 1 / s.factor.units ^ o.phase.scale := by
  have htracks := h.tracks
  refine ⟨⟨sub_nonneg.2 htracks.scaledBack_le, sub_le_iff_le_add'.2 htracks.exactProduct_le⟩, ?_⟩
  intro debtLoss collateralGain s' o hdone hsame
  obtain ⟨rfl, perUnit, hcharges⟩ := offset_eq_ok hdone
  exact hcharges.scaledBack_applyOffset h.consistent.toRegular hsame

/-- Two offsets keep the scale, one scales the product up, and one comes after it. -/
def trackedCalls : List Call := [
  .provide (.ofWord 1) (.ofWhole 3000),
  .offset (.ofWhole 1000) .zero,
  .offset (.ofWhole 600) .zero,
  .provide (.ofWord 2) (.ofWhole 5000000000),
  .offset (.ofWhole 5000001398) .zero,
  .offset (.ofWhole 1) .zero]

def trackedPool : StabilityPool := (replay .standard trackedCalls).1

def trackedTurns : List Turn := (replay .standard trackedCalls).2

theorem run_tracked : Run .standard trackedPool trackedTurns := run_replay rfl trackedCalls

def nextLoss : Amount := ⟨300000000000000000, by decide⟩

/-- Rounding takes something off the product, and no more than two units of the last place and two of the next scale. -/
theorem Run.product_tracks_sample :
    trackedPool.phase = ⟨0, 1⟩ ∧ (epochOffsets trackedTurns).map (fun e => e.2.phase.scale) = [1, 1, 0, 0] ∧
    lastPlaces trackedPool trackedTurns = 2 + 2 / 1000000000 ∧
    exactProduct trackedTurns ≠ trackedPool.scaledBack ∧ 0 ≤ exactProduct trackedTurns - trackedPool.scaledBack ∧
    exactProduct trackedTurns - trackedPool.scaledBack ≤ lastPlaces trackedPool trackedTurns ∧
    ∃ s' o, perform (StabilityPool.offset nextLoss .zero) trackedPool = (s', .ok o) ∧ o.phase = ⟨0, 1⟩ ∧
      s'.scaledBack ≤ trackedPool.scaledBack * (trackedPool.keptUnits o.debtLoss / Amount.scale) := by
  obtain ⟨⟨hnonneg, hle⟩, hnext⟩ := Run.product_tracks run_tracked
  have hok : (perform (StabilityPool.offset nextLoss .zero) trackedPool).2.isOk = true := by decide +kernel
  obtain ⟨o, hgiven⟩ := exists_ok_of_isOk hok
  have hdone := perform_eq_ok_of_snd hgiven
  have hphase : o.phase = ⟨0, 1⟩ :=
    (congrArg StabilityPool.phase (offset_eq_ok hdone).1).symm.trans (by decide +kernel)
  obtain ⟨hdown, -⟩ := hnext nextLoss .zero _ o hdone (by rw [hphase]; decide +kernel)
  exact ⟨by decide +kernel, by decide +kernel, by decide +kernel, by decide +kernel, hnonneg, hle, _, o, hdone, hphase,
    hdown⟩

end CollateralDebt.StabilityPool
