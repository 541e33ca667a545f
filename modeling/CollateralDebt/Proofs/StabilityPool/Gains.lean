import CollateralDebt.Proofs.StabilityPool.Run

/-! What deposits have gained, against the collateral that the pool holds for them. Before anything is rounded a
deposit has earned its initial value times the growth of the running sums, over the product it saw. An offset adds to
that what the deposit is worth times the gain for each unit, as long as the deposit still earns; so if what deposits
are worth is no more than the pool holds, an offset adds no more to all of them than it divides, and what it carries on
is kept back (`Charges.earnedOfAll_applyOffset`). Settling a deposit pays no more than it has earned. So the collateral
covers what all deposits have earned, with what is carried (`Run.reserved`), and no payment of a gain is cut short
(`Run.gains_covered`). -/

open CollateralDebt.Action

namespace CollateralDebt.StabilityPool

variable {p : Params} {s s' : StabilityPool} {depositor : Address} {paidIn : Nat} {change : DepositChange}
  {o : Offset} {perUnit gainPerUnit : Nat} {d : Deposit} {turns : List Turn}

/-! ## What a deposit has earned -/

/-- The units that a deposit has gained, as the pool works them out; what it cannot work out counts for nothing. -/
def gain (s : StabilityPool) (d : Deposit) : Nat :=
  match s.gained d.initial d.snapshot with
  | .ok gain => gain.units
  | .error _ => 0

/-- How far the running sums have grown since a snapshot, as the pool works it out. -/
def growthUnits (s : StabilityPool) (snapshot : DepositSnapshot) : Nat :=
  (s.sumAt snapshot.phase).units - snapshot.sum.units + (s.sumAt snapshot.phase.nextScale).units / s.factor.units

/-- How far the running sums have grown since a snapshot, with nothing rounded: the sum of its phase, and that of the
next scale, where gains weigh less by the factor. -/
def growth (s : StabilityPool) (snapshot : DepositSnapshot) : ℚ :=
  (s.sumAt snapshot.phase).units - snapshot.sum.units + (s.sumAt snapshot.phase.nextScale).units / s.factor.units

/-- What a deposit has gained, with nothing rounded. -/
def earned (s : StabilityPool) (d : Deposit) : ℚ :=
  d.initial.units * s.growth d.snapshot / (d.snapshot.product.units * Amount.scale)

/-- What all deposits have gained together, with nothing rounded. -/
def earnedOfAll (s : StabilityPool) : ℚ := s.deposits.total s.earned

theorem gained_eq_ok {initial gain : Amount} {snapshot : DepositSnapshot} (h : s.gained initial snapshot = .ok gain) :
    gain.units = initial.units * s.growthUnits snapshot / snapshot.product.units / Amount.scale := by
  unfold gained at h
  split at h
  · next hnothing =>
      cases h
      rw [Amount.units_of_isZero hnothing, Nat.zero_mul, Nat.zero_div, Nat.zero_div]
      rfl
  · dsimp only at h
    split at h
    · cases h
    · split at h
      · cases h
      · exact Amount.narrow_eq_ok_iff.1 h

theorem Follows.growthUnits_le (hd : s.Follows d) : (s.growthUnits d.snapshot : ℚ) ≤ s.growth d.snapshot := by
  rw [growthUnits, Nat.cast_add, Nat.cast_sub hd.sum_le, growth]
  exact add_le_add_right Nat.cast_div_le _

theorem Follows.growth_nonneg (hd : s.Follows d) : 0 ≤ s.growth d.snapshot :=
  (Nat.cast_nonneg _).trans hd.growthUnits_le

theorem Follows.earned_nonneg (hd : s.Follows d) : 0 ≤ s.earned d := by
  have hgrowth := hd.growth_nonneg
  unfold earned
  positivity

/-- The gain that the pool works out, whether or not it is in range, is not more than what is earned. -/
theorem Follows.quotient_le_earned (hd : s.Follows d) :
    ((d.initial.units * s.growthUnits d.snapshot / d.snapshot.product.units / Amount.scale : Nat) : ℚ) ≤
      s.earned d := by
  have hgrowth := hd.growthUnits_le
  rw [Nat.div_div_eq_div_mul, earned]
  refine Nat.cast_div_le.trans ?_
  rw [Nat.cast_mul, Nat.cast_mul]
  gcongr

/-- What a deposit has gained is not more than it has earned. -/
theorem Follows.gain_le_earned (hd : s.Follows d) : (s.gain d : ℚ) ≤ s.earned d := by
  unfold gain
  split
  · next gain hgain =>
      rw [gained_eq_ok hgain]
      exact hd.quotient_le_earned
  · rw [Nat.cast_zero]
    exact hd.earned_nonneg

theorem units_of_depositorGain {gain : Amount} (h : s.depositorGain depositor = .ok gain) :
    gain.units = (s.deposits.get? depositor).elim 0 s.gain := by
  cases hget : s.deposits.get? depositor with
  | none =>
      rw [depositorGain, hget] at h
      cases h
      rfl
  | some d =>
      rw [depositorGain_eq hget] at h
      rw [Option.elim_some, StabilityPool.gain, h]

/-- What an account is paid for its gain was earned. -/
theorem Consistent.gain_le (hs : s.Consistent) {gain : Amount} (h : s.depositorGain depositor = .ok gain) :
    (gain.units : ℚ) ≤ (s.deposits.get? depositor).elim 0 s.earned := by
  rw [units_of_depositorGain h]
  cases hget : s.deposits.get? depositor with
  | none => exact le_of_eq Nat.cast_zero
  | some d => exact (hs.follows.of_get? hget).gain_le_earned

theorem Consistent.elim_earned_le (hs : s.Consistent) (depositor : Address) :
    (s.deposits.get? depositor).elim 0 s.earned ≤ s.earnedOfAll := by
  have herase := s.deposits.total_erase depositor s.earned
  have hrest : 0 ≤ (s.deposits.erase depositor).total s.earned :=
    SortedMap.total_nonneg ((hs.follows.erase depositor).imp fun _ hd => hd.earned_nonneg)
  rw [earnedOfAll]
  linarith

/-- All deposits together have gained no more than they have earned. -/
theorem Consistent.total_gain_le (hs : s.Consistent) :
    ((s.deposits.total s.gain : Nat) : ℚ) ≤ s.earnedOfAll := by
  have hcast : ((s.deposits.total s.gain : Nat) : ℚ) = s.deposits.total fun d => (s.gain d : ℚ) :=
    (s.deposits.total_map s.gain (Nat.castAddMonoidHom ℚ)).symm
  rw [hcast]
  exact SortedMap.total_le_total (hs.follows.imp fun _ hd => hd.gain_le_earned)

/-! ## Settling a deposit -/

/-- A deposit that is settled now has earned nothing yet. -/
theorem Consistent.earned_settled (hs : s.Consistent) (change : DepositChange) :
    s.earned (s.settledDeposit change) = 0 := by
  have hgrowth : s.growth (s.settledDeposit change).snapshot = 0 := by
    show ((s.sumAt s.phase).units - (s.sumAt s.phase).units + (s.sumAt s.phase.nextScale).units / s.factor.units : ℚ) = 0
    rw [hs.sumAt_nextScale, Nat.cast_zero, zero_div, add_zero, sub_self]
  rw [earned, hgrowth, mul_zero, zero_div]

theorem Unmoved.earned_eq (h : Unmoved s s') : s'.earned = s.earned := by
  funext d
  rw [earned, earned, growth, growth, sumAt, sumAt, sumAt, sumAt, h.sums_eq, h.factor_eq]

/-- What a settled deposit had earned is taken off. -/
theorem Settles.earnedOfAll_add (h : Settles s paidIn change s') (hs : s.Consistent) :
    s'.earnedOfAll + (s.deposits.get? change.depositor).elim 0 s.earned = s.earnedOfAll := by
  rw [earnedOfAll, h.unmoved.earned_eq, h.deposits_eq]
  split
  · exact s.deposits.total_erase change.depositor s.earned
  · have hinsert := s.deposits.total_insert change.depositor (s.settledDeposit change) s.earned
    rw [hs.earned_settled, add_zero] at hinsert
    exact hinsert

/-- A gain that the collateral covers is paid in full. -/
theorem Settles.collateral_add (h : Settles s paidIn change s') (hs : s.Consistent)
    (hcovered : s.earnedOfAll ≤ s.collateral.units) :
    s'.collateral.units + change.gain.units = s.collateral.units := by
  have hgain : (change.gain.units : ℚ) ≤ s.collateral.units :=
    (hs.gain_le h.gain_eq).trans ((hs.elim_earned_le _).trans hcovered)
  rw [h.collateral_eq]
  exact Nat.sub_add_cancel (Nat.cast_le.1 hgain)

/-! ## Offsets -/

/-- What a deposit is worth as long as it earns, which is within its scale and in the next one. -/
def earningWorth (s : StabilityPool) (d : Deposit) : ℚ :=
  if s.phase.scale - d.snapshot.phase.scale ≤ 1 then s.worth d else 0

theorem earningWorth_nonneg (s : StabilityPool) (d : Deposit) : 0 ≤ s.earningWorth d := by
  unfold earningWorth
  split
  · exact s.worth_nonneg d
  · exact le_rfl

theorem Charges.sumAt_applyOffset (h : s.Charges o perUnit) (phase : Phase) :
    (s.applyOffset o).sumAt phase = if phase = s.phase then o.sum else s.sumAt phase := by
  show ((s.sums.insert o.sumPhase o.sum).get? phase).getD .zero = _
  rw [SortedMap.get?_insert, h.sumPhase_eq]
  split <;> rfl

/-- How far the sums have grown for a snapshot after an offset, by where the pool was when it was made. -/
theorem Charges.growth_applyOffset (h : s.Charges o perUnit) (hgain : s.Credits o gainPerUnit)
    (snapshot : DepositSnapshot) :
    (snapshot.phase = s.phase ∧
      (s.applyOffset o).growth snapshot = s.growth snapshot + gainPerUnit * s.product.units) ∨
    (s.phase = snapshot.phase.nextScale ∧
      (s.applyOffset o).growth snapshot = s.growth snapshot + gainPerUnit * s.product.units / s.factor.units) ∨
    (s.applyOffset o).growth snapshot = s.growth snapshot := by
  have hsum : (o.sum.units : ℚ) = (s.sumAt s.phase).units + gainPerUnit * s.product.units := by
    rw [hgain.sum_eq, Nat.cast_add, Nat.cast_mul]
  have hgrowth : (s.applyOffset o).growth snapshot = ((s.applyOffset o).sumAt snapshot.phase).units -
      snapshot.sum.units + ((s.applyOffset o).sumAt snapshot.phase.nextScale).units / s.factor.units := rfl
  rw [hgrowth, growth, h.sumAt_applyOffset, h.sumAt_applyOffset]
  by_cases hsame : snapshot.phase = s.phase
  · have hlater : ¬snapshot.phase.nextScale = s.phase := by
      rw [hsame]
      exact fun hnext => Nat.succ_ne_self _ (congrArg Phase.scale hnext)
    rw [if_pos hsame, if_neg hlater, hsum, hsame]
    exact .inl ⟨rfl, by ring⟩
  · rw [if_neg hsame]
    by_cases hnext : snapshot.phase.nextScale = s.phase
    · rw [if_pos hnext, hsum, hnext]
      exact .inr (.inl ⟨rfl, by ring⟩)
    · rw [if_neg hnext]
      exact .inr (.inr rfl)

/-- An offset adds to what a deposit has earned no more than its worth, as long as it earns, times the gain for each
unit. -/
theorem Charges.earned_applyOffset_le (h : s.Charges o perUnit) (hgain : s.Credits o gainPerUnit) (hs : s.Regular)
    (hd : Dated s.phase d) :
    (s.applyOffset o).earned d ≤ s.earned d + s.earningWorth d * (gainPerUnit / Amount.scale) := by
  have hscale : (Amount.scale : ℚ) ≠ 0 := Nat.cast_ne_zero.2 (by decide)
  have hseen : (d.snapshot.product.units : ℚ) ≠ 0 := Nat.cast_ne_zero.2 hd.product_pos.ne'
  have hfactor : (s.factor.units : ℚ) ≠ 0 := Nat.cast_ne_zero.2 hs.factor_pos.ne'
  have hweight := s.earningWorth_nonneg d
  unfold earned
  rcases h.growth_applyOffset hgain d.snapshot with ⟨hsame, hgrowth⟩ | ⟨hnext, hgrowth⟩ | hgrowth
  · have hworth : s.earningWorth d = d.initial.units * s.product.units / d.snapshot.product.units := by
      rw [earningWorth, worth, hsame, Nat.sub_self, if_pos (Nat.zero_le _), if_neg (Nat.lt_irrefl _), pow_zero, mul_one]
    rw [hgrowth, hworth]
    apply le_of_eq
    field_simp
  · have hscales : s.phase.scale - d.snapshot.phase.scale = 1 := by
      rw [hnext]
      exact Nat.add_sub_cancel_left _ _
    have hepoch : ¬d.snapshot.phase.epoch < s.phase.epoch := by
      rw [hnext]
      exact Nat.lt_irrefl _
    have hworth : s.earningWorth d =
        d.initial.units * s.product.units / (d.snapshot.product.units * s.factor.units) := by
      rw [earningWorth, worth, hscales, if_pos le_rfl, if_neg hepoch, pow_one]
    rw [hgrowth, hworth]
    apply le_of_eq
    field_simp
  · rw [hgrowth]
    exact le_add_of_nonneg_right (by positivity)

/-- **What an offset adds to what deposits have earned.** If what earns is worth no more than the pool holds, it is no
more than the gain and what was carried to the offset, less what it carries on. -/
theorem Charges.earnedOfAll_applyOffset (h : s.Charges o perUnit) (hgain : s.Credits o gainPerUnit) (hs : s.Regular)
    (hbacked : s.deposits.total s.earningWorth ≤ s.totalDeposits.units) :
    (s.applyOffset o).earnedOfAll + o.carriedGain.units / Amount.scale ≤
      s.earnedOfAll + s.carriedGain.units / Amount.scale + o.collateralGain.units := by
  have hscale : (0 : ℚ) < Amount.scale := Nat.cast_pos.2 (by decide)
  have hadded : (s.applyOffset o).earnedOfAll ≤
      s.earnedOfAll + s.deposits.total s.earningWorth * (gainPerUnit / Amount.scale) := by
    rw [earnedOfAll, earnedOfAll, ← SortedMap.total_mul, ← SortedMap.total_add]
    exact SortedMap.total_le_total (hs.dated.imp fun _ hd => h.earned_applyOffset_le hgain hs hd)
  have hdivided : (gainPerUnit : ℚ) * s.totalDeposits.units + o.carriedGain.units =
      o.collateralGain.units * Amount.scale + s.carriedGain.units := by exact_mod_cast hgain.mul_add_carried
  have hheld : s.deposits.total s.earningWorth * (gainPerUnit / Amount.scale) ≤
      s.totalDeposits.units * (gainPerUnit / Amount.scale) := by gcongr
  calc (s.applyOffset o).earnedOfAll + o.carriedGain.units / Amount.scale
      ≤ s.earnedOfAll + s.totalDeposits.units * (gainPerUnit / Amount.scale) +
        o.carriedGain.units / Amount.scale := by linarith
    _ = s.earnedOfAll + (gainPerUnit * s.totalDeposits.units + o.carriedGain.units) / Amount.scale := by ring
    _ = s.earnedOfAll + s.carriedGain.units / Amount.scale + o.collateralGain.units := by
      rw [hdivided]
      field_simp
      ring

/-! ## Runs -/

/-- The collateral that offsets credited. -/
def credited : List Turn → Nat
  | [] => 0
  | .deposit _ _ :: earlier => credited earlier
  | .offset _ o :: earlier => credited earlier + o.collateralGain.units

/-- An offset of a pool whose deposits, as long as they earn, are worth no more than it holds; what is paid in and out
does not matter. -/
def Turn.Backed : Turn → Prop
  | .deposit _ _ => True
  | .offset before _ => before.deposits.total before.earningWorth ≤ before.totalDeposits.units

instance : DecidablePred Turn.Backed
  | .deposit _ _ => inferInstanceAs (Decidable True)
  | .offset before _ =>
      inferInstanceAs (Decidable (before.deposits.total before.earningWorth ≤ before.totalDeposits.units))

/-- The collateral covers what all deposits have earned and what is carried, and is no more than was credited. -/
structure Reserved (s : StabilityPool) (turns : List Turn) : Prop where
  earned_le : s.earnedOfAll + s.carriedGain.units / Amount.scale ≤ s.collateral.units
  le_credited : s.collateral.units ≤ credited turns

theorem Reserved.earnedOfAll_le (h : Reserved s turns) : s.earnedOfAll ≤ s.collateral.units := by
  have hcarried : (0 : ℚ) ≤ s.carriedGain.units / Amount.scale := by positivity
  linarith [h.earned_le]

theorem Settles.reserved (h : Settles s paidIn change s') (hs : s.Consistent) (hreserved : Reserved s turns) :
    Reserved s' (.deposit s change :: turns) := by
  have hpaid := h.collateral_add hs hreserved.earnedOfAll_le
  have hearned := h.earnedOfAll_add hs
  have hgain := hs.gain_le h.gain_eq
  have hcovered := hreserved.earned_le
  refine ⟨?_, ?_⟩
  · rw [← hpaid, Nat.cast_add] at hcovered
    rw [h.unmoved.carriedGain_eq]
    linarith
  · rw [h.collateral_eq]
    exact (Nat.sub_le _ _).trans hreserved.le_credited

theorem Charges.reserved (h : s.Charges o perUnit) (hgain : s.Credits o gainPerUnit) (hs : s.Regular)
    (hreserved : Reserved s turns) (hbacked : Turn.Backed (.offset s o))
    (hcredited : credited (.offset s o :: turns) ≤ Amount.max.units) :
    Reserved (s.applyOffset o) (.offset s o :: turns) := by
  have hadded := h.earnedOfAll_applyOffset hgain hs hbacked
  have hsum : s.collateral.units + o.collateralGain.units ≤ credited (.offset s o :: turns) :=
    Nat.add_le_add_right hreserved.le_credited _
  have hheld : (s.applyOffset o).collateral.units = s.collateral.units + o.collateralGain.units :=
    (Amount.units_plusClamped _ _).trans (Nat.min_eq_left (hsum.trans hcredited))
  refine ⟨?_, hheld.trans_le hsum⟩
  rw [hheld, Nat.cast_add]
  have hcovered := hreserved.earned_le
  exact hadded.trans (add_le_add_left hcovered _)

theorem Run.reserved (h : Run p s turns) : credited turns ≤ Amount.max.units → (∀ turn ∈ turns, turn.Backed) →
    Reserved s turns := by
  refine h.induct (motive := fun s turns => credited turns ≤ Amount.max.units → (∀ turn ∈ turns, turn.Backed) →
    Reserved s turns) ?_ ?_ ?_
  · intro _ _ _
    refine ⟨le_of_eq ?_, Nat.zero_le _⟩
    show (0 : ℚ) + ((0 : Nat) : ℚ) / Amount.scale = ((0 : Nat) : ℚ)
    rw [Nat.cast_zero, zero_div, add_zero]
  · intro s s' turns change paidIn hrun ih hsettles hcredited hbacked
    exact hsettles.reserved hrun.consistent (ih hcredited fun turn hmem => hbacked turn (List.mem_cons_of_mem _ hmem))
  · intro s turns o perUnit gainPerUnit hrun ih hcharges hcredits hcredited hbacked
    have hbefore := ih ((Nat.le_add_right _ _).trans hcredited) fun turn hmem =>
      hbacked turn (List.mem_cons_of_mem _ hmem)
    exact hcharges.reserved hcredits hrun.consistent.toRegular hbefore (hbacked _ List.mem_cons_self) hcredited

/-- **The collateral covers all gains.** If the gains credited so far are an amount together, and before each offset
what deposits were worth where they earned was no more than the pool held, then the gains of all depositors together,
those of epochs that are over included, are no more than the collateral, and an account that is paid its gain is paid
in full. -/
theorem Run.gains_covered (h : Run p s turns) (hcredited : credited turns ≤ Amount.max.units)
    (hbacked : ∀ turn ∈ turns, turn.Backed) :
    s.deposits.total s.gain ≤ s.collateral.units ∧
    ∀ depositor amount s' change, perform (provide depositor amount) s = (s', .ok change) ∨
      perform (withdraw depositor amount) s = (s', .ok change) →
        s'.collateral.units + change.gain.units = s.collateral.units := by
  have hs := h.consistent
  have hcovered := (h.reserved hcredited hbacked).earnedOfAll_le
  refine ⟨Nat.cast_le.1 (hs.total_gain_le.trans hcovered), fun depositor amount s' change hdone => ?_⟩
  rcases hdone with hprovided | hwithdrawn
  · exact (provide_settles hprovided).1.collateral_add hs hcovered
  · exact (withdraw_settles hwithdrawn).1.collateral_add hs hcovered

/-- Offsets in two scales of an epoch, one that consumes the pool, and one in the epoch that follows. -/
def gainingCalls : List Call := [
  .provide (.ofWord 1) (.ofWhole 10000000000),
  .offset ⟨9999999999 * 10 ^ 18 - 1, by decide⟩ (.ofWhole 100),
  .provide (.ofWord 2) (.ofWhole 3),
  .offset (.ofWhole 2) (.ofWhole 1),
  .offset ⟨2 * 10 ^ 18 + 1, by decide⟩ (.ofWhole 7),
  .provide (.ofWord 3) (.ofWhole 5),
  .offset (.ofWhole 1) (.ofWhole 2)]

def gainingPool : StabilityPool := (replay .standard gainingCalls).1

/-- Two accounts have gains of an epoch that is over, and one of them is paid. -/
theorem Run.gains_covered_sample :
    gainingPool.phase = ⟨1, 0⟩ ∧ credited (replay .standard gainingCalls).2 ≤ Amount.max.units ∧
    (∀ turn ∈ (replay .standard gainingCalls).2, turn.Backed) ∧
    109 * Amount.scale < gainingPool.deposits.total gainingPool.gain ∧
    gainingPool.deposits.total gainingPool.gain ≤ gainingPool.collateral.units ∧
    ∃ s' change, perform (withdraw (.ofWord 2) .zero) gainingPool = (s', .ok change) ∧
      5 * Amount.scale < change.gain.units ∧
      s'.collateral.units + change.gain.units = gainingPool.collateral.units := by
  have hcredited : credited (replay .standard gainingCalls).2 ≤ Amount.max.units := by decide +kernel
  have hbacked : ∀ turn ∈ (replay .standard gainingCalls).2, turn.Backed := by decide +kernel
  obtain ⟨hcovered, hpaid⟩ := Run.gains_covered (run_replay rfl gainingCalls) hcredited hbacked
  exact ⟨by decide +kernel, hcredited, hbacked, by decide +kernel, hcovered, _, _, rfl, by decide +kernel,
    hpaid (.ofWord 2) .zero _ _ (.inr rfl)⟩

end CollateralDebt.StabilityPool
