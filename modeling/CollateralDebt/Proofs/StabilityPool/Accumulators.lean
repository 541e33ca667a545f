import CollateralDebt.Proofs.StabilityPool.Solvency

/-! The accumulators of the pool, and the snapshots that deposits have of them. The product stays above nothing and
does not pass one, because what is scaled up was below the floor; phases only go on, and no phase has a sum before it
is reached. Every deposit saw a product and a sum from which the pool has only gone on: within its phase the product
fell and the sum grew, and one scale later the product is less than the factor times what the deposit saw. So what is
left of a deposit and what it has gained can be worked out from any pool that is reached, unless a number is out of
range. -/

open CollateralDebt.Action

namespace CollateralDebt

namespace Phase

theorem lt_nextScale (a : Phase) : a < a.nextScale := .inr ⟨rfl, Nat.lt_succ_self _⟩

theorem lt_nextEpoch (a : Phase) : a < a.nextEpoch := .inl (Nat.lt_succ_self _)

theorem nextScale_inj {a b : Phase} (h : a.nextScale = b.nextScale) : a = b := by
  obtain ⟨hepoch, hscale⟩ := Phase.mk.inj h
  cases a
  cases b
  exact congrArg₂ Phase.mk hepoch (Nat.succ.inj hscale)

theorem eq_of_parts {a b : Phase} (hepoch : a.epoch = b.epoch) (hscale : a.scale = b.scale) : a = b := by
  cases a
  cases b
  exact congrArg₂ Phase.mk hepoch hscale

theorem not_lt_trans {a b c : Phase} (hab : ¬b < a) (hbc : ¬c < b) : ¬c < a := by
  rw [lt_iff] at *
  omega

theorem lt_of_not_lt_of_lt {a b c : Phase} (hab : ¬b < a) (hbc : b < c) : a < c := by
  rw [lt_iff] at *
  omega

end Phase

namespace StabilityPool

variable {s s' : StabilityPool} {depositor : Address} {paidIn paidOut : Nat} {o : Offset} {perUnit : Nat} {d : Deposit}

/-- The pool has only gone on from what a deposit saw of it. -/
structure Follows (s : StabilityPool) (d : Deposit) : Prop where
  initial_pos : 0 < d.initial.units
  product_le : d.snapshot.product ≤ .one
  sum_le : d.snapshot.sum.units ≤ (s.sumAt d.snapshot.phase).units
  fallen : d.snapshot.phase = s.phase → s.product ≤ d.snapshot.product
  raised : s.phase = d.snapshot.phase.nextScale → s.product.units < s.factor.units * d.snapshot.product.units

/-- Only the accumulators matter for it. -/
theorem Follows.of_eq (h : s.Follows d) (hproduct : s'.product = s.product) (hphase : s'.phase = s.phase)
    (hsums : s'.sums = s.sums) (hfactor : s'.factor = s.factor) : s'.Follows d := by
  refine ⟨h.initial_pos, h.product_le, ?_, ?_, ?_⟩
  · rw [sumAt, hsums]
    exact h.sum_le
  · rw [hproduct, hphase]
    exact h.fallen
  · rw [hproduct, hphase, hfactor]
    exact h.raised

/-- The accumulators are in range, and every deposit is followed. -/
structure Consistent (s : StabilityPool) : Prop extends Regular s where
  product_le : s.product ≤ .one
  rescaled_le : s.floor.units * s.factor.units ≤ Amount.scale
  reached : ∀ phase, s.phase < phase → s.sums.get? phase = none
  follows : s.deposits.All s.Follows

/-! ## Settling a deposit -/

/-- What is paid in or out of the pool says nothing about its accumulators. -/
theorem Consistent.paid (h : s.Consistent) (totalDeposits collateral : Amount) :
    Consistent { s with totalDeposits, collateral } where
  product_pos := h.product_pos
  factor_pos := h.factor_pos
  dated := h.dated
  product_le := h.product_le
  rescaled_le := h.rescaled_le
  reached := h.reached
  follows := h.follows.imp fun _ hd => hd.of_eq rfl rfl rfl rfl

/-- A deposit that is settled now sees the accumulators as they are. -/
theorem Consistent.follows_settled (h : s.Consistent) (depositor : Address) {value : Amount}
    (hvalue : ¬value.isZero = true) : s.Follows ⟨depositor, value, ⟨s.product, s.sumAt s.phase, s.phase⟩⟩ where
  initial_pos := Amount.units_pos_iff.2 hvalue
  product_le := h.product_le
  sum_le := Nat.le_refl _
  fallen _ := Nat.le_refl _
  raised hnext := absurd (congrArg Phase.scale hnext) (Nat.ne_of_lt (Nat.lt_succ_self _))

/-- The next scale has no sum before it is reached. -/
theorem Consistent.sumAt_nextScale (h : s.Consistent) : (s.sumAt s.phase.nextScale).units = 0 := by
  rw [sumAt, h.reached _ s.phase.lt_nextScale]
  rfl

theorem Consistent.setDeposit (h : s.Consistent) (depositor : Address) (value : Amount) :
    (s.setDeposit depositor value).Consistent := by
  have hregular := h.toRegular.setDeposit depositor value
  have hkept : ∀ deposits, s.deposits.All (Follows { s with deposits }) :=
    fun deposits => h.follows.imp fun _ hd => hd.of_eq rfl rfl rfl rfl
  unfold StabilityPool.setDeposit at hregular ⊢
  by_cases hvalue : value.isZero = true
  · rw [if_pos hvalue] at hregular ⊢
    exact ⟨hregular, h.product_le, h.rescaled_le, h.reached, (hkept _).erase depositor⟩
  · rw [if_neg hvalue] at hregular ⊢
    refine ⟨hregular, h.product_le, h.rescaled_le, h.reached, (hkept _).insert depositor ?_⟩
    exact (h.follows_settled depositor hvalue).of_eq rfl rfl rfl rfl

theorem phase_setDeposit (s : StabilityPool) (depositor : Address) (value : Amount) :
    (s.setDeposit depositor value).phase = s.phase := by
  unfold setDeposit
  split <;> rfl

theorem Resettles.consistent (h : Resettles s depositor paidIn paidOut s') (hs : s.Consistent) : s'.Consistent := by
  cases h with
  | mk hleft hdeposit htotal => exact (hs.paid _ _).setDeposit depositor _

theorem Resettles.phase_eq (h : Resettles s depositor paidIn paidOut s') : s'.phase = s.phase := by
  cases h with
  | mk hleft hdeposit htotal => exact phase_setDeposit _ _ _

/-! ## Offsets -/

/-- Less than all is kept of a product. -/
theorem units_mul_div_scale_lt {n kept : Nat} (hn : 0 < n) (hkept : kept < Amount.scale) :
    n * kept / Amount.scale < n :=
  Nat.div_lt_of_lt_mul (by rw [Nat.mul_comm]; exact Nat.mul_lt_mul_of_pos_right hkept hn)

/-- A part of a count, of a whole that is no less than the part, is no more than the count. -/
theorem mul_div_le_of_le {n part whole : Nat} (h : part ≤ whole) : n * part / whole ≤ n := by
  apply Nat.div_le_of_le_mul
  rw [Nat.mul_comm whole]
  exact Nat.mul_le_mul_left _ h

/-- A product that was below the floor does not pass one when it is scaled up. -/
theorem rescaled_le_scale {n floor factor : Nat} (hbelow : n / Amount.scale < floor)
    (hbound : floor * factor ≤ Amount.scale) : n * factor / Amount.scale ≤ Amount.scale := by
  have hn : n < floor * Amount.scale := (Nat.div_lt_iff_lt_mul (by decide)).1 hbelow
  apply Nat.div_le_of_le_mul
  calc n * factor ≤ floor * Amount.scale * factor := Nat.mul_le_mul_right _ hn.le
    _ = Amount.scale * (floor * factor) := by ring
    _ ≤ Amount.scale * Amount.scale := Nat.mul_le_mul_left _ hbound

/-- An offset begins an epoch at one, or scales the product up by less than the factor, or lets it fall. -/
theorem Charges.product_cases (h : s.Charges o perUnit) (hs : s.Consistent) :
    (o.product = .one ∧ o.phase = s.phase.nextEpoch) ∨
    (o.product ≤ .one ∧ o.product.units < s.factor.units * s.product.units ∧ o.phase = s.phase.nextScale) ∨
    (o.product ≤ s.product ∧ o.phase = s.phase) := by
  have hkept : Amount.scale - perUnit < Amount.scale := Nat.sub_lt (by decide) (lossPerUnit_pos h.perUnit_eq)
  rcases reducedProduct_eq_ok h.product_eq with ⟨-, hone, hphase⟩ | ⟨hfloor, hunits, hphase⟩ | ⟨hunits, hphase⟩
  · exact .inl ⟨hone, hphase⟩
  · refine .inr (.inl ⟨?_, ?_, hphase⟩)
    · rw [Amount.le_iff, hunits]
      exact rescaled_le_scale hfloor hs.rescaled_le
    · rw [hunits, Nat.mul_right_comm, Nat.mul_comm s.factor.units]
      exact units_mul_div_scale_lt (Nat.mul_pos hs.product_pos hs.factor_pos) hkept
  · refine .inr (.inr ⟨?_, hphase⟩)
    rw [Amount.le_iff, hunits]
    exact (units_mul_div_scale_lt hs.product_pos hkept).le

theorem Charges.phase_le (h : s.Charges o perUnit) : ¬o.phase < s.phase := by
  rw [Phase.lt_iff]
  rcases h.phase_eq with hphase | hphase | hphase
  · simp only [hphase, Phase.nextEpoch]
    omega
  · simp only [hphase, Phase.nextScale]
    omega
  · rw [hphase]
    omega

/-- No running sum falls in an offset. -/
theorem Charges.sumAt_le (h : s.Charges o perUnit) (phase : Phase) :
    (s.sumAt phase).units ≤ ((s.applyOffset o).sumAt phase).units := by
  show _ ≤ (((s.sums.insert o.sumPhase o.sum).get? phase).getD .zero).units
  rw [SortedMap.get?_insert, h.sumPhase_eq]
  split
  · next hsame =>
      rw [hsame]
      exact h.sum_ge
  · exact Nat.le_refl _

/-- **An offset follows every deposit that was followed.** -/
theorem Charges.follows_applyOffset (h : s.Charges o perUnit) (hs : s.Consistent) (hdated : Dated s.phase d)
    (hd : s.Follows d) : (s.applyOffset o).Follows d := by
  have hbehind := hdated.phase_le
  refine ⟨hd.initial_pos, hd.product_le, hd.sum_le.trans (h.sumAt_le _), fun hsame => ?_, fun hnext => ?_⟩
  · -- A deposit that saw the phase now cannot have seen it before it began.
    have hsame : d.snapshot.phase = o.phase := hsame
    rcases h.product_cases hs with ⟨-, hphase⟩ | ⟨-, -, hphase⟩ | ⟨hfell, hphase⟩
    · rw [hsame, hphase] at hbehind
      exact absurd s.phase.lt_nextEpoch hbehind
    · rw [hsame, hphase] at hbehind
      exact absurd s.phase.lt_nextScale hbehind
    · exact Nat.le_trans hfell (hd.fallen (hsame.trans hphase))
  · have hnext : o.phase = d.snapshot.phase.nextScale := hnext
    rcases h.product_cases hs with ⟨-, hphase⟩ | ⟨-, hraised, hphase⟩ | ⟨hfell, hphase⟩
    · have hscale := congrArg Phase.scale (hphase.symm.trans hnext)
      cases hscale
    · have hseen := Phase.nextScale_inj (hnext.symm.trans hphase)
      exact hraised.trans_le (Nat.mul_le_mul_left _ (hd.fallen hseen))
    · exact Nat.lt_of_le_of_lt hfell (hd.raised (hphase.symm.trans hnext))

theorem Charges.consistent_applyOffset (h : s.Charges o perUnit) (hs : s.Consistent) :
    (s.applyOffset o).Consistent := by
  refine ⟨h.regular_applyOffset hs.toRegular, ?_, hs.rescaled_le, fun phase hlater => ?_, fun entry hmem => ?_⟩
  · rcases h.product_cases hs with ⟨hone, -⟩ | ⟨hle, -⟩ | ⟨hfell, -⟩
    · exact Nat.le_of_eq (congrArg Amount.units hone)
    · exact hle
    · exact Nat.le_trans hfell hs.product_le
  · have hlater : s.phase < phase := Phase.lt_of_not_lt_of_lt h.phase_le hlater
    show (s.sums.insert o.sumPhase o.sum).get? phase = none
    rw [SortedMap.get?_insert, h.sumPhase_eq, if_neg (fun hsame => Key.irrefl _ (hsame ▸ hlater))]
    exact hs.reached phase hlater
  · exact h.follows_applyOffset hs (hs.dated entry hmem) (hs.follows entry hmem)

/-! ## Any calls -/

/-- The pool that a call leaves, done or refused. -/
def after (s : StabilityPool) : Call → StabilityPool
  | .provide depositor amount => (perform (provide depositor amount) s).1
  | .withdraw depositor amount => (perform (withdraw depositor amount) s).1
  | .offset debtLoss collateralGain => (perform (offset debtLoss collateralGain) s).1

def afterAll (s : StabilityPool) (calls : List Call) : StabilityPool := calls.foldl after s

theorem after_cases (s : StabilityPool) (call : Call) :
    s.after call = s ∨ (∃ depositor paidIn paidOut, Resettles s depositor paidIn paidOut (s.after call)) ∨
      ∃ o perUnit, s.Charges o perUnit ∧ s.after call = s.applyOffset o := by
  cases call with
  | provide depositor amount =>
      rcases (provide_allOrNothing depositor amount s).same_or_done with hsame | ⟨change, hdone⟩
      · exact .inl hsame
      · exact .inr (.inl ⟨_, _, _, (provide_eq_ok hdone).1⟩)
  | withdraw depositor amount =>
      rcases (withdraw_allOrNothing depositor amount s).same_or_done with hsame | ⟨change, hdone⟩
      · exact .inl hsame
      · exact .inr (.inl ⟨_, _, _, (withdraw_eq_ok hdone).1⟩)
  | offset debtLoss collateralGain =>
      rcases (offset_allOrNothing debtLoss collateralGain s).same_or_done with hsame | ⟨o, hdone⟩
      · exact .inl hsame
      · obtain ⟨happlied, perUnit, hcharges⟩ := offset_eq_ok hdone
        exact .inr (.inr ⟨o, perUnit, hcharges, happlied⟩)

/-- **A call keeps the accumulators consistent, and the phase goes on.** -/
theorem Consistent.after (h : s.Consistent) (call : Call) :
    (s.after call).Consistent ∧ ¬(s.after call).phase < s.phase := by
  rcases s.after_cases call with hsame | ⟨depositor, paidIn, paidOut, hresettled⟩ | ⟨o, perUnit, hcharges, hafter⟩
  · rw [hsame]
    exact ⟨h, Key.irrefl _⟩
  · rw [hresettled.phase_eq]
    exact ⟨hresettled.consistent h, Key.irrefl _⟩
  · rw [hafter]
    exact ⟨hcharges.consistent_applyOffset h, hcharges.phase_le⟩

theorem Consistent.afterAll (h : s.Consistent) (calls : List Call) :
    (s.afterAll calls).Consistent ∧ ¬(s.afterAll calls).phase < s.phase := by
  induction calls generalizing s with
  | nil => exact ⟨h, Key.irrefl _⟩
  | cons call rest ih =>
      obtain ⟨hnext, hon⟩ := h.after call
      obtain ⟨hconsistent, hlater⟩ := ih hnext
      exact ⟨hconsistent, Phase.not_lt_trans hon hlater⟩

theorem consistent_ofParams {p : Params} (h : p.check = .ok ()) : (ofParams p).Consistent where
  product_pos := show 0 < Amount.scale by decide
  factor_pos := productFactor_pos_of_check h
  dated := SortedMap.all_empty _
  product_le := Nat.le_refl _
  rescaled_le := (Params.sensible_of_check h).product_le
  reached _ _ := rfl
  follows := SortedMap.all_empty _

/-! ## Reading a deposit -/

/-- What is left of a deposit can be worked out if it saw some product, unless a quotient is out of range. -/
theorem compounded_eq_error {initial : Amount} {snapshot : DepositSnapshot} {e : Error}
    (hproduct : 0 < snapshot.product.units) (h : s.compounded initial snapshot = .error e) :
    ∃ calculation, e = .overflow calculation := by
  rcases s.compounded_cases initial snapshot with ⟨hzero, -⟩ | ⟨-, -, -, hread⟩
  · rw [hzero] at h
    cases h
  · rw [hread, except_map_eq_error] at h
    exact ⟨_, Amount.eq_of_mulDiv_eq_error (Amount.units_pos_iff.1 hproduct) h⟩

/-- What a deposit that is followed has gained can be worked out, unless a number is out of range. -/
theorem Follows.gained_eq_error {e : Error} (hd : s.Follows d) (h : s.gained d.initial d.snapshot = .error e) :
    e = .overflow .depositorGain := by
  unfold gained at h
  split at h
  · cases h
  · dsimp only at h
    rw [if_neg (Nat.not_lt.2 hd.sum_le)] at h
    split at h
    · exact (Except.error.inj h).symm
    · exact Amount.eq_of_narrow_eq_error h

theorem Consistent.read_eq_error (h : s.Consistent) {e : Error}
    (hread : s.compoundedDeposit depositor = .error e ∨ s.depositorGain depositor = .error e) :
    ∃ calculation, e = .overflow calculation := by
  cases hget : s.deposits.get? depositor with
  | none =>
      rw [compoundedDeposit, depositorGain, hget] at hread
      rcases hread with hleft | hgain
      · cases hleft
      · cases hgain
  | some d =>
      rw [compoundedDeposit_eq hget, depositorGain_eq hget] at hread
      rcases hread with hleft | hgain
      · exact compounded_eq_error (h.dated.of_get? hget).product_pos hleft
      · exact ⟨_, (h.follows.of_get? hget).gained_eq_error hgain⟩

/-- **The accumulators of a pool and the snapshots of its deposits agree.** For valid parameters and any calls, done or
refused, the product is above nothing and not above one, the phase never goes back, and no phase that is to come has a
sum. Every deposit has a value, and saw a product in that range and a phase that has come; the sum of that phase has
not fallen since, the product has not risen within the phase, and one scale later it is less than the factor times
what the deposit saw. Reading a deposit divides by the product that it saw and by the factor; neither is nothing, and
the sum is never below what the deposit saw, so only a number out of range can stand in the way. -/
theorem accumulators_agree {p : Params} (hp : p.check = .ok ()) (calls : List Call) :
    let s := (ofParams p).afterAll calls
    (0 < s.product.units ∧ s.product ≤ .one) ∧
    (∀ more, ¬(s.afterAll more).phase < s.phase) ∧
    (∀ phase, s.phase < phase → s.sums.get? phase = none) ∧
    (∀ depositor d, s.deposits.get? depositor = some d →
      0 < d.initial.units ∧ (0 < d.snapshot.product.units ∧ d.snapshot.product ≤ .one) ∧
      ¬s.phase < d.snapshot.phase ∧ d.snapshot.sum.units ≤ (s.sumAt d.snapshot.phase).units ∧
      (d.snapshot.phase = s.phase → s.product ≤ d.snapshot.product) ∧
      (s.phase = d.snapshot.phase.nextScale → s.product.units < s.factor.units * d.snapshot.product.units)) ∧
    0 < s.factor.units ∧
    ∀ depositor e, s.compoundedDeposit depositor = .error e ∨ s.depositorGain depositor = .error e →
      ∃ calculation, e = .overflow calculation := by
  intro s
  have hs : s.Consistent := ((consistent_ofParams hp).afterAll calls).1
  refine ⟨⟨hs.product_pos, hs.product_le⟩, fun more => (hs.afterAll more).2, hs.reached, fun depositor d hget => ?_,
    hs.factor_pos, fun depositor e hread => hs.read_eq_error hread⟩
  have hdated := hs.dated.of_get? hget
  have hd := hs.follows.of_get? hget
  exact ⟨hd.initial_pos, ⟨hdated.product_pos, hd.product_le⟩, hdated.phase_le, hd.sum_le, hd.fallen, hd.raised⟩

/-- The first offset leaves one part in ten thousand million, so that the product is scaled up; the second deposit is
made after that, and a third account has none to take out. -/
def rescalingCalls : List Call := [
  .provide (.ofWord 1) (.ofWhole 10000000000),
  .offset (.ofWhole 9999999999) (.ofWhole 100),
  .provide (.ofWord 2) (.ofWhole 3),
  .withdraw (.ofWord 3) (.ofWhole 1),
  .offset (.ofWhole 2) (.ofWhole 1)]

def rescaledPool : StabilityPool := (ofParams .standard).afterAll rescalingCalls

/-- One deposit was made a scale ago and one since then; an offset of the rest begins an epoch. -/
theorem accumulators_agree_sample :
    rescaledPool.phase = ⟨0, 1⟩ ∧ (rescaledPool.afterAll [.offset (.ofWhole 2) (.ofWhole 1)]).phase = ⟨1, 0⟩ ∧
    (0 < rescaledPool.product.units ∧ rescaledPool.product ≤ .one) ∧
    (∃ d, rescaledPool.deposits.get? (.ofWord 1) = some d ∧ rescaledPool.phase = d.snapshot.phase.nextScale ∧
      rescaledPool.product.units < rescaledPool.factor.units * d.snapshot.product.units) ∧
    ∃ d, rescaledPool.deposits.get? (.ofWord 2) = some d ∧ d.snapshot.phase = rescaledPool.phase ∧
      rescaledPool.product ≤ d.snapshot.product := by
  have hstandard : Params.standard.check = .ok () := rfl
  have hseen : ∀ owner phase, (rescaledPool.deposits.get? owner).map (fun d => d.snapshot.phase) = some phase →
      ∃ d, rescaledPool.deposits.get? owner = some d ∧ d.snapshot.phase = phase :=
    fun owner phase hphase => Option.map_eq_some_iff.1 hphase
  obtain ⟨hrange, -, -, hdeposits, -⟩ := accumulators_agree hstandard rescalingCalls
  obtain ⟨first, hfirst, hbefore⟩ := hseen (.ofWord 1) ⟨0, 0⟩ (by decide +kernel)
  obtain ⟨second, hsecond, hsince⟩ := hseen (.ofWord 2) ⟨0, 1⟩ (by decide +kernel)
  have hphase : rescaledPool.phase = ⟨0, 1⟩ := by decide +kernel
  obtain ⟨-, -, -, -, -, hraised⟩ := hdeposits (.ofWord 1) first hfirst
  obtain ⟨-, -, -, -, hfallen, -⟩ := hdeposits (.ofWord 2) second hsecond
  have hnext : rescaledPool.phase = first.snapshot.phase.nextScale := by rw [hphase, hbefore]; rfl
  have hsame : second.snapshot.phase = rescaledPool.phase := hsince.trans hphase.symm
  exact ⟨hphase, by decide +kernel, hrange, ⟨first, hfirst, hnext, hraised hnext⟩, second, hsecond, hsame,
    hfallen hsame⟩

end StabilityPool

end CollateralDebt
