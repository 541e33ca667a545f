import CollateralDebt.Proofs.StabilityPool.SoleDeposit

/-! How the readings of a deposit move while its account leaves it alone. Offsets draw on a deposit: less is left of
it and it gains more. The product goes up when it is scaled up, but by less than the factor, which is divided out of
the quotient from then on, so the quotient never rises (`Charges.drawn`). Two scales on, and in a new epoch, nothing is
read any more, and what is taken for negligible is measured by what the deposit was, so it stays negligible. The sums
that a deposit earns from never fall. Operations on other deposits change none of it, so the same holds over any calls
of other accounts, be what is between readable or not (`Run.drawn_upon`). -/

open CollateralDebt.Action

namespace CollateralDebt.StabilityPool

variable {p : Params} {s s' s'' : StabilityPool} {depositor : Address} {d : Deposit} {o : Offset} {perUnit paidIn : Nat}
  {change : DepositChange} {turns : List Turn}

/-! ## The quotient that is left of a deposit -/

/-- What is left of a deposit as long as its epoch goes on, before a negligible result is taken for nothing, over any
number of changes of scale. -/
def quotient (s : StabilityPool) (d : Deposit) : Nat :=
  d.initial.units * s.product.units /
    (d.snapshot.product.units * s.factor.units ^ (s.phase.scale - d.snapshot.phase.scale))

theorem units_dividedBy_factor {raised : Amount}
    (h : d.initial.mulDiv s.product d.snapshot.product .down = .ok raised) :
    (raised.dividedBy (s.factor.units ^ (s.phase.scale - d.snapshot.phase.scale))).units = s.quotient d := by
  show raised.units / _ = _
  rw [(Amount.mulDiv_eq_ok_iff.1 h).2, quotient, ← Nat.div_div_eq_div_mul]
  rfl

theorem unlessBelow_mono (limit : Nat) {a b : Amount} (h : a ≤ b) : unlessBelow limit a ≤ unlessBelow limit b := by
  unfold unlessBelow
  split
  · exact Nat.zero_le _
  · next hreaches =>
      rw [if_neg (Nat.not_lt.2 ((Nat.le_of_not_lt hreaches).trans h))]
      exact h

/-! ## Drawing on a deposit -/

/-- From one pool to a later one a deposit is drawn on: while its epoch goes on no more is left of it, and the sums
that it earns from have not fallen. -/
structure Drawn (d : Deposit) (s s' : StabilityPool) : Prop where
  phase_le : ¬s'.phase < s.phase
  quotient_le : ¬d.snapshot.phase.epoch < s'.phase.epoch → s'.quotient d ≤ s.quotient d
  growthUnits_le : s.growthUnits d.snapshot ≤ s'.growthUnits d.snapshot

theorem Drawn.refl (d : Deposit) (s : StabilityPool) : Drawn d s s := ⟨Key.irrefl _, fun _ => le_rfl, le_rfl⟩

theorem Drawn.trans (h : Drawn d s s') (h' : Drawn d s' s'') : Drawn d s s'' := by
  refine ⟨Phase.not_lt_trans h.phase_le h'.phase_le, fun hgoes => ?_, h.growthUnits_le.trans h'.growthUnits_le⟩
  have hphase := h'.phase_le
  rw [Phase.lt_iff] at hphase
  exact (h'.quotient_le hgoes).trans (h.quotient_le (by omega))

theorem Unmoved.drawn (h : Unmoved s s') (d : Deposit) : Drawn d s s' := by
  refine ⟨?_, fun _ => le_of_eq ?_, le_of_eq ?_⟩
  · rw [h.phase_eq]
    exact Key.irrefl _
  · rw [quotient, quotient, h.product_eq, h.phase_eq, h.factor_eq]
  · rw [growthUnits, growthUnits, sumAt, sumAt, sumAt, sumAt, h.sums_eq, h.factor_eq]

/-- **An offset draws on every deposit.** What scaling up multiplies the product by is less than the factor that the
quotient is divided by from then on. -/
theorem Charges.drawn (h : s.Charges o perUnit) (hs : s.Consistent) (hd : Dated s.phase d) :
    Drawn d s (s.applyOffset o) := by
  have hbehind := hd.phase_le
  rw [Phase.lt_iff] at hbehind
  refine ⟨h.phase_le, fun hgoes => ?_, Nat.add_le_add (Nat.sub_le_sub_right (h.sumAt_le _) _)
    (Nat.div_le_div_right (h.sumAt_le _))⟩
  have hgoes : ¬d.snapshot.phase.epoch < o.phase.epoch := hgoes
  show d.initial.units * o.product.units /
    (d.snapshot.product.units * s.factor.units ^ (o.phase.scale - d.snapshot.phase.scale)) ≤ s.quotient d
  rcases h.product_cases hs with ⟨-, hphase⟩ | ⟨-, hraised, hphase⟩ | ⟨hfell, hphase⟩
  · have hepoch : o.phase.epoch = s.phase.epoch + 1 := congrArg Phase.epoch hphase
    omega
  · have hepoch : o.phase.epoch = s.phase.epoch := (congrArg Phase.epoch hphase).trans rfl
    have hscale : o.phase.scale = s.phase.scale + 1 := congrArg Phase.scale hphase
    rw [hscale, Nat.succ_sub (by omega), Nat.pow_succ, ← Nat.mul_assoc]
    calc d.initial.units * o.product.units /
          (d.snapshot.product.units * s.factor.units ^ (s.phase.scale - d.snapshot.phase.scale) * s.factor.units)
        ≤ d.initial.units * s.product.units * s.factor.units /
          (d.snapshot.product.units * s.factor.units ^ (s.phase.scale - d.snapshot.phase.scale) * s.factor.units) := by
          refine Nat.div_le_div_right ?_
          rw [Nat.mul_assoc, Nat.mul_comm s.product.units]
          exact Nat.mul_le_mul_left _ hraised.le
      _ = s.quotient d := Nat.mul_div_mul_right _ _ hs.factor_pos
  · rw [hphase]
    exact Nat.div_le_div_right (Nat.mul_le_mul_left _ hfell)

/-! ## What an account reads -/

/-- Where it can be read, no more is left of a deposit that was drawn on. -/
theorem Drawn.left_le (h : Drawn d s s') (hd : Dated s.phase d) {left left' : Amount}
    (hleft : s.compounded d.initial d.snapshot = .ok left) (hleft' : s'.compounded d.initial d.snapshot = .ok left') :
    left' ≤ left := by
  have hbehind := hd.phase_le
  have hon := h.phase_le
  rw [Phase.lt_iff] at hbehind hon
  rcases s'.compounded_cases d.initial d.snapshot with ⟨hzero, -⟩ | ⟨hsome, hgoes, hscale, hread'⟩
  · cases hleft'.symm.trans hzero
    exact Nat.zero_le _
  · rcases s.compounded_cases d.initial d.snapshot with ⟨-, hnothing | hlater | htwo⟩ | ⟨-, -, -, hread⟩
    -- What made it nothing before makes it nothing now.
    · exact absurd hnothing hsome
    · omega
    · omega
    · obtain ⟨raised, hraised, rfl⟩ := except_map_eq_ok.1 (hread.symm.trans hleft)
      obtain ⟨raised', hraised', rfl⟩ := except_map_eq_ok.1 (hread'.symm.trans hleft')
      refine unlessBelow_mono _ ?_
      rw [Amount.le_iff, units_dividedBy_factor hraised, units_dividedBy_factor hraised']
      exact h.quotient_le hgoes

/-- Where it can be read, a deposit that was drawn on has gained no less. -/
theorem Drawn.gain_le (h : Drawn d s s') {gain gain' : Amount} (hgain : s.gained d.initial d.snapshot = .ok gain)
    (hgain' : s'.gained d.initial d.snapshot = .ok gain') : gain ≤ gain' := by
  rw [Amount.le_iff, gained_eq_ok hgain, gained_eq_ok hgain']
  exact Nat.div_le_div_right (Nat.div_le_div_right (Nat.mul_le_mul_left _ h.growthUnits_le))

/-- From one pool to another an account's deposit is drawn on, as far as the account can read it. -/
structure DrawnUpon (depositor : Address) (s s' : StabilityPool) : Prop where
  left_le : ∀ left left', s.compoundedDeposit depositor = .ok left → s'.compoundedDeposit depositor = .ok left' →
    left' ≤ left
  gain_le : ∀ gain gain', s.depositorGain depositor = .ok gain → s'.depositorGain depositor = .ok gain' → gain ≤ gain'

theorem drawnUpon_of_absent (h : s.deposits.get? depositor = none) (h' : s'.deposits.get? depositor = none) :
    DrawnUpon depositor s s' := by
  refine ⟨fun left left' hleft hleft' => ?_, fun gain gain' hgain hgain' => ?_⟩
  · rw [compoundedDeposit, h'] at hleft'
    cases hleft'
    exact Nat.zero_le _
  · rw [depositorGain, h] at hgain
    cases hgain
    exact Nat.zero_le _

theorem Drawn.drawnUpon (h : Drawn d s s') (hd : Dated s.phase d) (hget : s.deposits.get? depositor = some d)
    (hget' : s'.deposits.get? depositor = some d) : DrawnUpon depositor s s' := by
  refine ⟨fun left left' hleft hleft' => ?_, fun gain gain' hgain hgain' => ?_⟩
  · rw [compoundedDeposit_eq hget] at hleft
    rw [compoundedDeposit_eq hget'] at hleft'
    exact h.left_le hd hleft hleft'
  · rw [depositorGain_eq hget] at hgain
    rw [depositorGain_eq hget'] at hgain'
    exact h.gain_le hgain hgain'

/-! ## Calls of other accounts -/

/-- The account whose deposit a call settles. -/
def Call.depositor? : Call → Option Address
  | .provide depositor _ => some depositor
  | .withdraw depositor _ => some depositor
  | .offset _ _ => none

/-- A call of another account leaves a deposit as it was settled, and may draw on it. -/
theorem Consistent.drawn_after (hs : s.Consistent) {call : Call} (hother : call.depositor? ≠ some depositor) :
    (s.after call).deposits.get? depositor = s.deposits.get? depositor ∧
      ∀ d, s.deposits.get? depositor = some d → Drawn d s (s.after call) := by
  have hsettled : ∀ {s' paidIn change}, Settles s paidIn change s' → depositor ≠ change.depositor →
      s'.deposits.get? depositor = s.deposits.get? depositor ∧
        ∀ d, s.deposits.get? depositor = some d → Drawn d s s' :=
    fun hsettles hne => ⟨hsettles.get?_of_ne hne, fun d _ => hsettles.unmoved.drawn d⟩
  have hrefused : s.after call = s → (s.after call).deposits.get? depositor = s.deposits.get? depositor ∧
      ∀ d, s.deposits.get? depositor = some d → Drawn d s (s.after call) := by
    intro hsame
    rw [hsame]
    exact ⟨rfl, fun d _ => Drawn.refl d s⟩
  cases call with
  | provide other amount =>
      rcases (provide_allOrNothing other amount s).same_or_done with hsame | ⟨change, hdone⟩
      · exact hrefused hsame
      · obtain ⟨hsettles, rfl, -⟩ := provide_settles hdone
        exact hsettled hsettles fun hsame => hother (congrArg some hsame.symm)
  | withdraw other amount =>
      rcases (withdraw_allOrNothing other amount s).same_or_done with hsame | ⟨change, hdone⟩
      · exact hrefused hsame
      · obtain ⟨hsettles, rfl⟩ := withdraw_settles hdone
        exact hsettled hsettles fun hsame => hother (congrArg some hsame.symm)
  | offset debtLoss collateralGain =>
      rcases (offset_allOrNothing debtLoss collateralGain s).same_or_done with hsame | ⟨o, hdone⟩
      · exact hrefused hsame
      · obtain ⟨happlied, perUnit, hcharges⟩ := offset_eq_ok hdone
        have hafter : s.after (.offset debtLoss collateralGain) = s.applyOffset o := happlied
        rw [hafter]
        exact ⟨rfl, fun d hget => hcharges.drawn hs (hs.dated.of_get? hget)⟩

theorem Consistent.drawn_afterAll (hs : s.Consistent) {calls : List Call}
    (hothers : ∀ call ∈ calls, call.depositor? ≠ some depositor) :
    (s.afterAll calls).deposits.get? depositor = s.deposits.get? depositor ∧
      ∀ d, s.deposits.get? depositor = some d → Drawn d s (s.afterAll calls) := by
  induction calls generalizing s with
  | nil => exact ⟨rfl, fun d _ => Drawn.refl d s⟩
  | cons call rest ih =>
      obtain ⟨hkept, hdrawn⟩ := hs.drawn_after (hothers call List.mem_cons_self)
      obtain ⟨hkept', hdrawn'⟩ := ih (hs.after call).1 fun later hmem => hothers later (List.mem_cons_of_mem _ hmem)
      exact ⟨hkept'.trans hkept, fun d hget => (hdrawn d hget).trans (hdrawn' d (hkept.trans hget))⟩

theorem Consistent.drawnUpon_afterAll (hs : s.Consistent) {calls : List Call}
    (hothers : ∀ call ∈ calls, call.depositor? ≠ some depositor) : DrawnUpon depositor s (s.afterAll calls) := by
  obtain ⟨hkept, hdrawn⟩ := hs.drawn_afterAll hothers
  cases hget : s.deposits.get? depositor with
  | none => exact drawnUpon_of_absent hget (hkept.trans hget)
  | some d => exact (hdrawn d hget).drawnUpon (hs.dated.of_get? hget) hget (hkept.trans hget)

/-- **Offsets draw on every deposit.** Whatever pool is reached, and whatever an offset does to the product, the scale
and the epoch: where an account can read its deposit before and after, no more is left of it and it has gained no less.
The same holds from before to after any calls, done or refused, among which the account does not settle its own
deposit. -/
theorem Run.drawn_upon (h : Run p s turns) (depositor : Address) :
    (∀ debtLoss collateralGain s' o, perform (StabilityPool.offset debtLoss collateralGain) s = (s', .ok o) →
      DrawnUpon depositor s s') ∧
    ∀ calls : List Call, (∀ call ∈ calls, call.depositor? ≠ some depositor) →
      DrawnUpon depositor s (s.afterAll calls) := by
  refine ⟨fun debtLoss collateralGain s' o hdone => ?_, fun calls hothers => h.consistent.drawnUpon_afterAll hothers⟩
  have hafter : s.afterAll [.offset debtLoss collateralGain] = s' := congrArg Prod.fst hdone
  rw [← hafter]
  refine h.consistent.drawnUpon_afterAll fun call hmem => ?_
  rw [List.mem_singleton.1 hmem]
  exact Option.some_ne_none _ ∘ Eq.symm

/-- A deposit is made, the product is scaled up, another deposit is made, the product is scaled up again, and the pool
is consumed. -/
def drawnCalls : List Call := [
  .provide (.ofWord 1) (.ofWhole 1000000),
  .offset (.ofWhole 999900) (.ofWhole 50),
  .provide (.ofWord 2) (.ofWhole 900),
  .offset ⟨9999 * 10 ^ 17, by decide⟩ (.ofWhole 3),
  .offset ⟨10 ^ 17, by decide⟩ (.ofWhole 2)]

/-- The pool after so many of them. -/
def drawnPool (count : Nat) : StabilityPool := (replay highFloorParams (drawnCalls.take count)).1

theorem run_drawn (count : Nat) :
    Run highFloorParams (drawnPool count) (replay highFloorParams (drawnCalls.take count)).2 :=
  run_replay rfl _

/-- Offsets that scale the product up for the first and for the second time since a deposit, and one that begins an
epoch; the gain of the first deposit stops growing two scales on. -/
theorem Run.drawn_upon_sample :
    ((∃ o, perform (StabilityPool.offset (.ofWhole 999900) (.ofWhole 50)) (drawnPool 1) = (drawnPool 2, .ok o)) ∧
      (drawnPool 2).phase = ⟨0, 1⟩ ∧ DrawnUpon (.ofWord 1) (drawnPool 1) (drawnPool 2)) ∧
    ((∃ o, perform (StabilityPool.offset ⟨9999 * 10 ^ 17, by decide⟩ (.ofWhole 3)) (drawnPool 3) =
      (drawnPool 4, .ok o)) ∧ (drawnPool 4).phase = ⟨0, 2⟩ ∧ DrawnUpon (.ofWord 1) (drawnPool 3) (drawnPool 4)) ∧
    ((∃ o, perform (StabilityPool.offset ⟨10 ^ 17, by decide⟩ (.ofWhole 2)) (drawnPool 4) = (drawnPool 5, .ok o)) ∧
      (drawnPool 5).phase = ⟨1, 0⟩ ∧ DrawnUpon (.ofWord 2) (drawnPool 4) (drawnPool 5)) ∧
    (∀ call ∈ drawnCalls.drop 1, call.depositor? ≠ some (.ofWord 1)) ∧
    DrawnUpon (.ofWord 1) (drawnPool 1) ((drawnPool 1).afterAll (drawnCalls.drop 1)) ∧
    (drawnPool 1).compoundedDeposit (.ofWord 1) = .ok (.ofWhole 1000000) ∧
    (drawnPool 2).compoundedDeposit (.ofWord 1) = .ok ⟨99999999999999 * 10 ^ 6, by decide⟩ ∧
    (drawnPool 2).depositorGain (.ofWord 1) = .ok (.ofWhole 50) ∧
    (drawnPool 4).compoundedDeposit (.ofWord 1) = .ok .zero ∧
    (drawnPool 4).depositorGain (.ofWord 1) = .ok ⟨50299999999999997 * 10 ^ 3, by decide⟩ ∧
    (drawnPool 5).depositorGain (.ofWord 1) = .ok ⟨50299999999999997 * 10 ^ 3, by decide⟩ := by
  have hothers : ∀ call ∈ drawnCalls.drop 1, call.depositor? ≠ some (.ofWord 1) := by decide +kernel
  have hdone : ∀ (debtLoss gain : Amount) (before after : StabilityPool),
      (perform (StabilityPool.offset debtLoss gain) before).1 = after ∧
        (perform (StabilityPool.offset debtLoss gain) before).2.isOk = true →
      ∃ o, perform (StabilityPool.offset debtLoss gain) before = (after, .ok o) := fun _ _ _ _ ⟨hafter, hok⟩ =>
    (exists_ok_of_isOk hok).imp fun _ hgiven => Prod.ext hafter hgiven
  obtain ⟨o, hfirst⟩ := hdone (.ofWhole 999900) (.ofWhole 50) (drawnPool 1) (drawnPool 2) (by decide +kernel)
  obtain ⟨o', hsecond⟩ :=
    hdone ⟨9999 * 10 ^ 17, by decide⟩ (.ofWhole 3) (drawnPool 3) (drawnPool 4) (by decide +kernel)
  obtain ⟨o'', hconsumed⟩ := hdone ⟨10 ^ 17, by decide⟩ (.ofWhole 2) (drawnPool 4) (drawnPool 5) (by decide +kernel)
  have hdrawn := Run.drawn_upon (run_drawn 1) (.ofWord 1)
  exact ⟨⟨⟨o, hfirst⟩, by decide +kernel, hdrawn.1 _ _ _ _ hfirst⟩,
    ⟨⟨o', hsecond⟩, by decide +kernel, (Run.drawn_upon (run_drawn 3) (.ofWord 1)).1 _ _ _ _ hsecond⟩,
    ⟨⟨o'', hconsumed⟩, by decide +kernel, (Run.drawn_upon (run_drawn 4) (.ofWord 2)).1 _ _ _ _ hconsumed⟩,
    hothers, hdrawn.2 _ hothers, by decide +kernel, by decide +kernel, by decide +kernel, by decide +kernel,
    by decide +kernel, by decide +kernel⟩

end CollateralDebt.StabilityPool
