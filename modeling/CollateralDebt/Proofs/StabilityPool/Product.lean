import CollateralDebt.Proofs.StabilityPool.Run

/-! What offsets do to the product of the pool. Each unit deposited keeps what the loss leaves of it, and a product
that would fall below the floor is scaled up, but only once. An offset is refused because the product would vanish
exactly when the product, what each unit keeps of itself and the factor do not come to one unit of the last place
(`Run.vanishes_iff`). An offset that leaves one part in so many as the factor is never refused for it, and as long as
there were no others the product has not fallen below the floor. A pool that was nearly emptied several times has a
product that an offset can make vanish, whatever the pool holds by then (`vanishes_worn`). -/

open CollateralDebt.Action

namespace CollateralDebt.StabilityPool

variable {p : Params} {s : StabilityPool} {o : Offset} {perUnit : Nat} {debtLoss collateralGain : Amount}
  {turns : List Turn}

/-! ## What each unit keeps -/

/-- What an offset leaves of each unit deposited, in units of the last place. -/
def keptUnits (s : StabilityPool) (debtLoss : Amount) : Nat :=
  match lossPerUnit debtLoss s.totalDeposits s.carriedLoss with
  | .ok (perUnit, _) => Amount.scale - perUnit
  | .error _ => 0

theorem keptUnits_eq {excess : Amount}
    (h : lossPerUnit debtLoss s.totalDeposits s.carriedLoss = .ok (perUnit, excess)) :
    s.keptUnits debtLoss = Amount.scale - perUnit := by
  rw [keptUnits, h]

theorem keptUnits_le (s : StabilityPool) (debtLoss : Amount) : s.keptUnits debtLoss ≤ Amount.scale := by
  unfold keptUnits
  split
  · exact Nat.sub_le _ _
  · exact Nat.zero_le _

/-- What is charged too much comes to less than one unit of the last place for each unit deposited. -/
theorem roundedUp_mul_le (numerator total : Nat) :
    (numerator / total + 1).min Amount.scale * total ≤ numerator + total :=
  calc (numerator / total + 1).min Amount.scale * total ≤ (numerator / total + 1) * total :=
        Nat.mul_le_mul_right _ (Nat.min_le_left _ _)
    _ = numerator / total * total + total := Nat.succ_mul _ _
    _ ≤ numerator + total := Nat.add_le_add_right (Nat.div_mul_le_self _ _) _

/-- The loss for each unit can always be worked out: what it charges too much is no more than the pool holds. -/
theorem exists_lossPerUnit (debtLoss total carried : Amount) :
    ∃ perUnit excess, lossPerUnit debtLoss total carried = .ok (perUnit, excess) := by
  unfold lossPerUnit
  split
  · exact ⟨_, _, rfl⟩
  · have hbound := roundedUp_mul_le (debtLoss.units * Amount.scale - carried.units) total.units
    have hsmall := total.units_lt
    refine ⟨_, ⟨_, ?_⟩, except_bind_eq_ok.2 ⟨_, Amount.narrow_eq_ok_iff.2 rfl, rfl⟩⟩
    omega

theorem lossPerUnit_mul_le {total carried excess : Amount}
    (h : lossPerUnit debtLoss total carried = .ok (perUnit, excess)) :
    perUnit * total.units ≤ debtLoss.units * Amount.scale + total.units := by
  unfold lossPerUnit at h
  split at h
  · next hall =>
      cases h
      rw [hall, Nat.mul_comm]
      exact Nat.le_add_right _ _
  · obtain ⟨narrowed, -, h⟩ := except_bind_eq_ok.1 h
    cases h
    exact (roundedUp_mul_le _ _).trans (Nat.add_le_add_right (Nat.sub_le _ _) _)

/-- Each unit keeps its share of what the offset leaves in the pool, but for one unit of the last place. -/
theorem left_mul_scale_le (s : StabilityPool) (debtLoss : Amount) :
    (s.totalDeposits.units - debtLoss.units) * Amount.scale ≤ (s.keptUnits debtLoss + 1) * s.totalDeposits.units := by
  obtain ⟨perUnit, excess, hloss⟩ := exists_lossPerUnit debtLoss s.totalDeposits s.carriedLoss
  have hcharged := lossPerUnit_mul_le hloss
  rw [keptUnits_eq hloss, Nat.sub_mul, Nat.add_mul, Nat.sub_mul, Nat.mul_comm s.totalDeposits.units]
  omega

/-- Each unit keeps no more than its share of what the offset leaves in the pool and of what was charged too much
before. -/
theorem keptUnits_mul_le (htotal : 0 < s.totalDeposits.units) (hle : debtLoss ≤ s.totalDeposits) :
    s.keptUnits debtLoss * s.totalDeposits.units ≤
      (s.totalDeposits.units - debtLoss.units) * Amount.scale + s.carriedLoss.units := by
  obtain ⟨perUnit, excess, hloss⟩ := exists_lossPerUnit debtLoss s.totalDeposits s.carriedLoss
  rw [keptUnits_eq hloss, Nat.sub_mul, Nat.sub_mul, Nat.mul_comm Amount.scale]
  rcases lossPerUnit_eq_ok hloss htotal hle with ⟨-, rfl⟩ | ⟨-, -, hcharged⟩
  · rw [Nat.mul_comm Amount.scale, Nat.sub_self]
    exact Nat.zero_le _
  · omega

theorem Charges.keptUnits_eq (h : s.Charges o perUnit) : s.keptUnits o.debtLoss = Amount.scale - perUnit :=
  StabilityPool.keptUnits_eq h.perUnit_eq

/-! ## When the product vanishes -/

/-- The product can always be worked out: it is one at most, also where it is scaled up. -/
theorem Consistent.exists_reducedProduct (hs : s.Consistent) {kept : Nat} (hkept : kept ≤ Amount.scale) :
    ∃ product phase, s.reducedProduct kept = .ok (product, phase) := by
  unfold reducedProduct
  split
  · exact ⟨_, _, rfl⟩
  · dsimp only
    split
    · next hfloor =>
        have hle := (rescaled_le_scale hfloor hs.rescaled_le).trans (Nat.le_sub_one_of_lt Amount.one.units_lt)
        obtain ⟨rescaled, hrescaled⟩ := Amount.exists_narrow_eq_ok_iff.2 hle
        exact ⟨_, _, except_bind_eq_ok.2 ⟨rescaled, hrescaled, rfl⟩⟩
    · have hle : s.product.units * kept / Amount.scale ≤ Amount.max.units :=
        (mul_div_le_of_le hkept).trans s.product.le_max
      obtain ⟨reduced, hreduced⟩ := Amount.exists_narrow_eq_ok_iff.2 hle
      exact ⟨_, _, except_bind_eq_ok.2 ⟨reduced, hreduced, rfl⟩⟩

/-- A product vanishes if it is scaled up and still is less than one unit of the last place. -/
theorem reducedProduct_vanishes_iff (hfloor : 0 < s.floor.units) (hfactor : 0 < s.factor.units) {kept : Nat} :
    (∃ product phase, s.reducedProduct kept = .ok (product, phase) ∧ product.isZero = true) ↔
      0 < kept ∧ s.product.units * kept * s.factor.units < Amount.scale := by
  constructor
  · rintro ⟨product, phase, hreduced, hzero⟩
    rw [Amount.isZero_iff] at hzero
    unfold reducedProduct at hreduced
    split at hreduced
    · cases hreduced
      cases congrArg Amount.units hzero
    · next hkept =>
        refine ⟨Nat.pos_of_ne_zero hkept, ?_⟩
        dsimp only at hreduced
        split at hreduced
        · obtain ⟨rescaled, hrescaled, hreduced⟩ := except_bind_eq_ok.1 hreduced
          cases hreduced
          have hunits := Amount.narrow_eq_ok_iff.1 hrescaled
          rw [hzero] at hunits
          exact (Nat.div_eq_zero_iff_lt (by decide)).1 hunits.symm
        · next hreaches =>
            obtain ⟨reduced, hnarrow, hsame⟩ := except_bind_eq_ok.1 hreduced
            cases hsame
            rw [← Amount.narrow_eq_ok_iff.1 hnarrow, hzero] at hreaches
            exact absurd hfloor hreaches
  · rintro ⟨hkept, hsmall⟩
    have hscaled : s.product.units * kept * s.factor.units / Amount.scale = 0 := Nat.div_eq_of_lt hsmall
    have hfallen : s.product.units * kept / Amount.scale = 0 :=
      Nat.div_eq_of_lt ((Nat.le_mul_of_pos_right _ hfactor).trans_lt hsmall)
    refine ⟨.zero, s.phase.nextScale, ?_, rfl⟩
    unfold reducedProduct
    rw [if_neg hkept.ne']
    dsimp only
    rw [hscaled, hfallen, if_pos hfloor]
    rfl

theorem exists_grownSum {gainPerUnit : Nat}
    (h : (s.sumAt s.phase).units + gainPerUnit * s.product.units < RunningSum.bound) :
    ∃ sum, s.grownSum gainPerUnit = .ok sum := by
  have hmarginal : gainPerUnit * s.product.units < RunningSum.bound := (Nat.le_add_left _ _).trans_lt h
  unfold grownSum RunningSum.ofUnits?
  dsimp only
  rw [if_neg (Nat.not_le.2 hmarginal), dif_pos h]
  exact ⟨_, rfl⟩

/-- An offset of some debt, of which the pool holds enough, whose running sum and product can be worked out: only a
product that vanishes stands in its way. -/
theorem offsetOf_eq {sum : RunningSum} {product : Amount} {phase : Phase} (hsome : 0 < debtLoss.units)
    (henough : debtLoss ≤ s.totalDeposits)
    (hsum : s.grownSum
      ((collateralGain.units * Amount.scale + s.carriedGain.units) / s.totalDeposits.units) = .ok sum)
    (hproduct : s.reducedProduct (s.keptUnits debtLoss) = .ok (product, phase)) :
    ∃ carriedGain carriedLoss, s.offsetOf debtLoss collateralGain =
      if product.isZero then .error (.underflow .vanishingProduct)
      else .ok { debtLoss, collateralGain, product, phase, sumPhase := s.phase, sum, carriedGain, carriedLoss } := by
  have htotal : 0 < s.totalDeposits.units := hsome.trans_le henough
  have hsmall := (Nat.mod_lt (collateralGain.units * Amount.scale + s.carriedGain.units) htotal).trans
    s.totalDeposits.units_lt
  obtain ⟨carriedGain, hcarried⟩ : ∃ carriedGain, Amount.narrow
      ((collateralGain.units * Amount.scale + s.carriedGain.units) % s.totalDeposits.units) .carriedGain =
        .ok carriedGain := ⟨⟨_, hsmall⟩, Amount.narrow_eq_ok_iff.2 rfl⟩
  obtain ⟨perUnit, carriedLoss, hloss⟩ := exists_lossPerUnit debtLoss s.totalDeposits s.carriedLoss
  rw [keptUnits_eq hloss] at hproduct
  refine ⟨carriedGain, carriedLoss, ?_⟩
  unfold StabilityPool.offsetOf
  rw [if_neg (Amount.units_pos_iff.1 hsome), if_neg (Amount.units_pos_iff.1 htotal), if_neg (Amount.not_lt.2 henough)]
  dsimp only
  rw [hcarried, hloss, hsum]
  show (s.reducedProduct (Amount.scale - perUnit) >>= _) = _
  rw [hproduct]
  show (if product.isZero = true then _ else _) = _
  split <;> rfl

/-- An offset of some debt, of which the pool holds enough, is refused for a product that vanishes exactly when the
product scaled up is less than one unit of the last place; that is looked at after the running sum. -/
theorem offsetOf_vanishes_iff (hfloor : 0 < s.floor.units) (hfactor : 0 < s.factor.units)
    (hsome : 0 < debtLoss.units) (henough : debtLoss ≤ s.totalDeposits) :
    s.offsetOf debtLoss collateralGain = .error (.underflow .vanishingProduct) ↔
      (∃ sum, s.grownSum
        ((collateralGain.units * Amount.scale + s.carriedGain.units) / s.totalDeposits.units) = .ok sum) ∧
      0 < s.keptUnits debtLoss ∧ s.product.units * s.keptUnits debtLoss * s.factor.units < Amount.scale := by
  have htotal : 0 < s.totalDeposits.units := hsome.trans_le henough
  rw [← reducedProduct_vanishes_iff hfloor hfactor]
  constructor
  · intro h
    obtain ⟨perUnit, carriedLoss, hloss⟩ := exists_lossPerUnit debtLoss s.totalDeposits s.carriedLoss
    rw [keptUnits_eq hloss]
    unfold StabilityPool.offsetOf at h
    rw [if_neg (Amount.units_pos_iff.1 hsome), if_neg (Amount.units_pos_iff.1 htotal),
      if_neg (Amount.not_lt.2 henough)] at h
    rcases except_bind_eq_error.1 h with h | ⟨carriedGain, -, h⟩
    · cases Amount.eq_of_narrow_eq_error h
    rcases except_bind_eq_error.1 h with h | ⟨⟨perUnit', carriedLoss'⟩, hloss', h⟩
    · cases lossPerUnit_eq_error h
    rw [hloss] at hloss'
    cases hloss'
    rcases except_bind_eq_error.1 h with h | ⟨sum, hsum, h⟩
    · rcases grownSum_eq_error h with hsame | hsame <;> cases hsame
    rcases except_bind_eq_error.1 h with h | ⟨⟨product, phase⟩, hproduct, h⟩
    · rcases reducedProduct_eq_error h with hsame | hsame <;> cases hsame
    rcases except_guard_eq_error h with ⟨hzero, -⟩ | ⟨-, h⟩
    · exact ⟨⟨sum, hsum⟩, product, phase, hproduct, hzero⟩
    · cases h
  · rintro ⟨⟨sum, hsum⟩, product, phase, hproduct, hzero⟩
    obtain ⟨carriedGain, carriedLoss, hoffset⟩ := offsetOf_eq hsome henough hsum hproduct
    rw [hoffset, if_pos hzero]

/-! ## Offsets that leave enough -/

/-- An offset that consumes the pool, or leaves one part in so many as the factor and one unit of the last place
more. -/
def Spares (s : StabilityPool) (debtLoss : Amount) : Prop :=
  debtLoss = s.totalDeposits ∨ s.totalDeposits.units * (Amount.scale + s.factor.units) ≤
    (s.totalDeposits.units - debtLoss.units) * Amount.scale * s.factor.units

instance (s : StabilityPool) (debtLoss : Amount) : Decidable (s.Spares debtLoss) := inferInstanceAs (Decidable (_ ∨ _))

/-- What each unit keeps comes to one again when it is scaled up. -/
theorem Spares.scale_le (h : s.Spares debtLoss) (hkept : 0 < s.keptUnits debtLoss)
    (htotal : 0 < s.totalDeposits.units) : Amount.scale ≤ s.keptUnits debtLoss * s.factor.units := by
  rcases h with hall | hleft
  · rw [keptUnits, lossPerUnit, if_pos hall] at hkept
    exact absurd hkept (Nat.lt_irrefl 0)
  · have hshare := Nat.mul_le_mul_right s.factor.units (s.left_mul_scale_le debtLoss)
    have hboth : s.totalDeposits.units * (Amount.scale + s.factor.units) ≤
        s.totalDeposits.units * ((s.keptUnits debtLoss + 1) * s.factor.units) :=
      calc s.totalDeposits.units * (Amount.scale + s.factor.units)
          ≤ (s.keptUnits debtLoss + 1) * s.totalDeposits.units * s.factor.units := hleft.trans hshare
        _ = s.totalDeposits.units * ((s.keptUnits debtLoss + 1) * s.factor.units) := by ring
    have hunit := Nat.le_of_mul_le_mul_left hboth htotal
    rw [Nat.succ_mul] at hunit
    exact Nat.le_of_add_le_add_right hunit

/-- A product that goes on within its scale has reached the floor. -/
theorem floor_le_of_phase_eq {kept : Nat} {product : Amount} (h : s.reducedProduct kept = .ok (product, s.phase)) :
    s.floor ≤ product := by
  unfold reducedProduct at h
  split at h
  · have hepoch := congrArg Phase.epoch (Prod.mk.inj (Except.ok.inj h)).2
    exact absurd hepoch (Nat.succ_ne_self _)
  · dsimp only at h
    split at h
    · obtain ⟨rescaled, -, h⟩ := except_bind_eq_ok.1 h
      have hscale := congrArg Phase.scale (Prod.mk.inj (Except.ok.inj h)).2
      exact absurd hscale (Nat.succ_ne_self _)
    · next hreaches =>
        obtain ⟨reduced, hreduced, h⟩ := except_bind_eq_ok.1 h
        cases h
        rw [Amount.le_iff, Amount.narrow_eq_ok_iff.1 hreduced]
        exact Nat.le_of_not_lt hreaches

/-- **An offset that leaves enough leaves the product at the floor or above.** -/
theorem Charges.floor_le (h : s.Charges o perUnit) (hs : s.Consistent) (hfloor : s.floor ≤ s.product)
    (hspares : s.Spares o.debtLoss) : s.floor ≤ o.product := by
  have hkept := h.keptUnits_eq
  rcases reducedProduct_eq_ok h.product_eq with ⟨-, hone, -⟩ | ⟨-, hunits, hphase⟩ | ⟨-, hphase⟩
  · rw [hone]
    exact (Nat.le_mul_of_pos_right _ hs.factor_pos).trans hs.rescaled_le
  · -- Scaled up, the product is no less than it was.
    rw [← hkept] at hunits
    have hpositive : 0 < s.keptUnits o.debtLoss := by
      refine Nat.pos_of_ne_zero fun hnothing => h.product_pos.ne' ?_
      rw [hunits, hnothing, Nat.mul_zero, Nat.zero_mul, Nat.zero_div]
    refine Nat.le_trans hfloor ?_
    rw [hunits, Nat.mul_assoc]
    exact (Nat.le_div_iff_mul_le (by decide)).2 (Nat.mul_le_mul_left _ (hspares.scale_le hpositive h.total_pos))
  · have hproduct := h.product_eq
    rw [hphase] at hproduct
    exact floor_le_of_phase_eq hproduct

/-! ## Runs -/

/-- An offset that leaves enough; what is paid in and out does not matter. -/
def Turn.Spares : Turn → Prop
  | .deposit _ _ => True
  | .offset before o => before.Spares o.debtLoss

instance : DecidablePred Turn.Spares
  | .deposit _ _ => inferInstanceAs (Decidable True)
  | .offset before o => inferInstanceAs (Decidable (before.Spares o.debtLoss))

theorem Run.floor_le (h : Run p s turns) : (∀ turn ∈ turns, turn.Spares) → s.floor ≤ s.product := by
  refine h.induct (motive := fun s turns => (∀ turn ∈ turns, turn.Spares) → s.floor ≤ s.product) ?_ ?_ ?_
  · intro hcheck _
    have hs := consistent_ofParams hcheck
    exact (Nat.le_mul_of_pos_right _ hs.factor_pos).trans hs.rescaled_le
  · intro s s' turns change paidIn hrun ih hsettles hspare
    have hfloor := ih fun turn hmem => hspare turn (List.mem_cons_of_mem _ hmem)
    rw [hsettles.unmoved.product_eq, hsettles.unmoved.floor_eq]
    exact hfloor
  · intro s turns o perUnit gainPerUnit hrun ih hcharges hcredits hspare
    have hfloor := ih fun turn hmem => hspare turn (List.mem_cons_of_mem _ hmem)
    exact hcharges.floor_le hrun.consistent hfloor (hspare _ List.mem_cons_self)

/-- **When an offset is refused because the product would vanish.** It is exactly when something is kept of each unit
and the product, what is kept and the factor come to less than one unit of the last place. No reached pool refuses an
offset that leaves one part in so many as the factor for it. If all offsets so far left as much the product is at the
floor or above, and then, if the floor scaled up is one, no offset at all is refused for it. -/
theorem Run.vanishes_iff (h : Run p s turns) (debtLoss collateralGain : Amount) (hsome : 0 < debtLoss.units)
    (henough : debtLoss ≤ s.totalDeposits) :
    (s.offsetOf debtLoss collateralGain = .error (.underflow .vanishingProduct) ↔
      (∃ sum, s.grownSum
        ((collateralGain.units * Amount.scale + s.carriedGain.units) / s.totalDeposits.units) = .ok sum) ∧
      0 < s.keptUnits debtLoss ∧ s.product.units * s.keptUnits debtLoss * s.factor.units < Amount.scale) ∧
    (s.Spares debtLoss → s.offsetOf debtLoss collateralGain ≠ .error (.underflow .vanishingProduct)) ∧
    ((∀ turn ∈ turns, turn.Spares) → s.floor ≤ s.product ∧ (s.floor.units * s.factor.units = Amount.scale →
      s.offsetOf debtLoss collateralGain ≠ .error (.underflow .vanishingProduct))) := by
  have hs := h.consistent
  have htotal : 0 < s.totalDeposits.units := hsome.trans_le henough
  have hiff := @offsetOf_vanishes_iff s debtLoss collateralGain h.floor_pos hs.factor_pos hsome henough
  refine ⟨hiff, fun hspares hvanishes => ?_, fun hspared => ⟨h.floor_le hspared, fun hone hvanishes => ?_⟩⟩
  · obtain ⟨-, hkept, hsmall⟩ := hiff.1 hvanishes
    rw [Nat.mul_assoc] at hsmall
    have hreaches := Nat.mul_le_mul hs.product_pos (hspares.scale_le hkept htotal)
    rw [Nat.one_mul] at hreaches
    exact absurd hsmall (Nat.not_lt.2 hreaches)
  · obtain ⟨-, hkept, hsmall⟩ := hiff.1 hvanishes
    have hreaches : Amount.scale ≤ s.product.units * s.keptUnits debtLoss * s.factor.units :=
      calc Amount.scale = s.floor.units * 1 * s.factor.units := by rw [Nat.mul_one, hone]
        _ ≤ s.product.units * s.keptUnits debtLoss * s.factor.units :=
          Nat.mul_le_mul_right _ (Nat.mul_le_mul (h.floor_le hspared) hkept)
    exact absurd hsmall (Nat.not_lt.2 hreaches)

/-- Two offsets that leave next to nothing, each followed by a deposit that makes a million of it again. -/
def wornCalls : List Call := [
  .provide (.ofWord 1) (.ofWhole 1000000),
  .offset ⟨10 ^ 24 - 2 * 10 ^ 6, by decide⟩ .zero,
  .provide (.ofWord 2) ⟨10 ^ 24 - 2 * 10 ^ 6, by decide⟩,
  .offset ⟨10 ^ 24 - 10 ^ 6, by decide⟩ .zero,
  .provide (.ofWord 3) ⟨10 ^ 24 - 10 ^ 6, by decide⟩]

def wornPool : StabilityPool := (replay .standard wornCalls).1

def wornLoss : Amount := ⟨10 ^ 24 - 10 ^ 6, by decide⟩

theorem run_worn : Run .standard wornPool (replay .standard wornCalls).2 := run_replay rfl wornCalls

/-- A run whose offsets left enough, after which none is refused, and a pool that was worn out. -/
theorem Run.vanishes_iff_sample :
    (∀ turn ∈ (replay .standard coveredCalls).2, turn.Spares) ∧
    (replay .standard coveredCalls).1.floor ≤ (replay .standard coveredCalls).1.product ∧
    (replay .standard coveredCalls).1.offsetOf (.ofWhole 1000) (.ofWhole 3) ≠
      .error (.underflow .vanishingProduct) ∧
    wornPool.Spares (.ofWhole 999999) ∧
    wornPool.offsetOf (.ofWhole 999999) (.ofWhole 3) ≠ .error (.underflow .vanishingProduct) ∧
    wornPool.product.units * wornPool.keptUnits wornLoss * wornPool.factor.units < Amount.scale := by
  have hspared : ∀ turn ∈ (replay .standard coveredCalls).2, turn.Spares := by decide +kernel
  have hspares : wornPool.Spares (.ofWhole 999999) := by decide +kernel
  obtain ⟨-, -, hfloor⟩ := Run.vanishes_iff run_covered (.ofWhole 1000) (.ofWhole 3) (by decide +kernel)
    (by decide +kernel)
  obtain ⟨-, hleft, -⟩ := Run.vanishes_iff run_worn (.ofWhole 999999) (.ofWhole 3) (by decide +kernel)
    (by decide +kernel)
  obtain ⟨hworn, -, -⟩ := Run.vanishes_iff run_worn wornLoss .zero (by decide +kernel) (by decide +kernel)
  exact ⟨hspared, (hfloor hspared).1, (hfloor hspared).2 (by decide +kernel), hspares, hleft hspares,
    (hworn.1 (by decide +kernel)).2.2⟩

/-- With the standard parameters a pool that holds a million refuses an offset of nearly all of it, because its
product would vanish. -/
theorem vanishes_worn :
    Run .standard wornPool (replay .standard wornCalls).2 ∧ wornPool.totalDeposits = .ofWhole 1000000 ∧
      0 < wornLoss.units ∧ wornLoss ≤ wornPool.totalDeposits ∧
      wornPool.offsetOf wornLoss .zero = .error (.underflow .vanishingProduct) :=
  ⟨run_worn, by decide +kernel, by decide +kernel, by decide +kernel, by decide +kernel⟩

end CollateralDebt.StabilityPool
