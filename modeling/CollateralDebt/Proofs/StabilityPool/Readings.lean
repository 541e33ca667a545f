import CollateralDebt.Proofs.StabilityPool.Gains

/-! When a deposit can be read. What is left of it is out of range only one scale after it was settled, where the
product may have risen: the factor is divided out after the quotient by the product that the deposit saw, and that
quotient may be out of range although what is left never is. What a deposit has gained is out of range only if the
gain itself is no amount. An account can take out of its deposit exactly when both can be read, whatever it asks for
(`Run.readable_iff`). With the standard parameters a deposit of a million millions can become unreadable, and is
locked (`locked_raised`). -/

open CollateralDebt.Action

namespace CollateralDebt.StabilityPool

variable {p : Params} {s : StabilityPool} {depositor : Address} {d : Deposit} {turns : List Turn}

/-! ## What is left of a deposit -/

theorem Follows.initial_ne (hd : s.Follows d) : ¬d.initial.isZero = true := Amount.units_pos_iff.1 hd.initial_pos

/-- What is left of a deposit can be worked out in its own scale, where the product has only fallen, and later than in
the next one. -/
theorem Follows.exists_compounded_iff (hd : s.Follows d) (hdated : Dated s.phase d) :
    (∃ left, s.compounded d.initial d.snapshot = .ok left) ↔ (s.phase = d.snapshot.phase.nextScale →
      d.initial.units * s.product.units / d.snapshot.product.units ≤ Amount.max.units) := by
  have hbehind := hdated.phase_le
  rw [Phase.lt_iff] at hbehind
  rcases s.compounded_cases d.initial d.snapshot with ⟨hzero, hwhy⟩ | ⟨-, hepoch, hscale, hread⟩
  · -- In the next scale there is no reason for it to be nothing.
    refine iff_of_true ⟨_, hzero⟩ fun hnext => ?_
    rcases hwhy with hnothing | hlater | htwo
    · exact absurd hnothing hd.initial_ne
    · rw [hnext] at hlater
      exact absurd hlater (Nat.lt_irrefl _)
    · rw [hnext, show d.snapshot.phase.nextScale.scale = d.snapshot.phase.scale + 1 from rfl,
        Nat.add_sub_cancel_left] at htwo
      exact absurd htwo (by decide)
  · rw [hread, exists_except_map_iff, Amount.exists_mulDiv_eq_ok_iff hdated.product_pos]
    refine ⟨fun hle _ => hle, fun hnext => ?_⟩
    rcases Nat.le_one_iff_eq_zero_or_eq_one.1 hscale with hsame | hone
    · have hphase : d.snapshot.phase = s.phase := Phase.eq_of_parts (by omega) (by omega)
      exact (mul_div_le_of_le (hd.fallen hphase)).trans d.initial.le_max
    · have hlater : s.phase.epoch = d.snapshot.phase.epoch ∧ s.phase.scale = d.snapshot.phase.scale + 1 := by omega
      exact hnext (Phase.eq_of_parts hlater.1 hlater.2)

/-- A deposit that would be an amount also if it were scaled up can always be read. -/
theorem Follows.raised_le (hd : s.Follows d) (hnext : s.phase = d.snapshot.phase.nextScale) :
    d.initial.units * s.product.units / d.snapshot.product.units ≤ d.initial.units * s.factor.units := by
  apply Nat.div_le_of_le_mul
  calc d.initial.units * s.product.units ≤ d.initial.units * (s.factor.units * d.snapshot.product.units) :=
        Nat.mul_le_mul_left _ (hd.raised hnext).le
    _ = d.snapshot.product.units * (d.initial.units * s.factor.units) := by ring

/-! ## What a deposit has gained -/

/-- A product out of range of the running sums gives a gain out of range: what it is divided by is at most one, and
that in units of the last place. -/
theorem lt_quotient_of_bound_le {n product : Nat} (hproduct : 0 < product) (hle : product ≤ Amount.scale)
    (h : RunningSum.bound ≤ n) : Amount.max.units < n / product / Amount.scale := by
  rw [Nat.div_div_eq_div_mul, Nat.lt_iff_add_one_le, Nat.le_div_iff_mul_le (Nat.mul_pos hproduct (by decide))]
  calc (Amount.max.units + 1) * (product * Amount.scale) ≤ (Amount.max.units + 1) * (Amount.scale * Amount.scale) :=
        Nat.mul_le_mul_left _ (Nat.mul_le_mul_right _ hle)
    _ ≤ RunningSum.bound := by decide
    _ ≤ n := h

/-- What a deposit has gained can be worked out exactly when it is an amount. -/
theorem Follows.exists_gained_iff (hd : s.Follows d) (hdated : Dated s.phase d) :
    (∃ gain, s.gained d.initial d.snapshot = .ok gain) ↔
      d.initial.units * s.growthUnits d.snapshot / d.snapshot.product.units / Amount.scale ≤ Amount.max.units := by
  unfold gained
  rw [if_neg hd.initial_ne]
  dsimp only
  rw [if_neg (Nat.not_lt.2 hd.sum_le)]
  split
  · next hlarge =>
      refine iff_of_false (fun ⟨_, h⟩ => nomatch h) (Nat.not_le.2 ?_)
      exact lt_quotient_of_bound_le hdated.product_pos hd.product_le hlarge
  · exact Amount.exists_narrow_eq_ok_iff

/-! ## Taking out of a deposit -/

/-- An account takes out of its deposit exactly when both what is left of it and what it has gained can be read. -/
theorem exists_withdraw_iff (hget : s.deposits.get? depositor = some d) (amount : Amount) :
    (∃ s' change, perform (withdraw depositor amount) s = (s', .ok change)) ↔
      (∃ left, s.compoundedDeposit depositor = .ok left) ∧ ∃ gain, s.depositorGain depositor = .ok gain := by
  constructor
  · rintro ⟨s', change, h⟩
    obtain ⟨hsettles, rfl⟩ := withdraw_settles h
    obtain ⟨left, hleft, -⟩ := hsettles.left_add
    exact ⟨⟨left, hleft⟩, change.gain, hsettles.gain_eq⟩
  · rintro ⟨⟨left, hleft⟩, gain, hgain⟩
    rw [compoundedDeposit_eq hget] at hleft
    rw [depositorGain_eq hget] at hgain
    have hposition : s.position depositor = .ok ⟨d.initial, left, gain⟩ := by
      unfold StabilityPool.position
      rw [hget]
      exact except_bind_eq_ok.2 ⟨left, hleft, except_bind_eq_ok.2 ⟨gain, hgain, rfl⟩⟩
    have hcontains : ¬(!s.deposits.contains depositor) = true := by
      rw [SortedMap.contains, hget]
      exact Bool.false_ne_true
    have hless : min amount left ≤ left := by
      show (if amount ≤ left then amount else left) ≤ left
      split
      · assumption
      · exact Nat.le_refl _
    rcases hperform : perform (withdraw depositor amount) s with ⟨s', e | change⟩
    · -- Each step that could fail has what it needs.
      unfold withdraw at hperform
      rw [perform_get_bind] at hperform
      rcases perform_guard_eq_error hperform with ⟨hmissing, -⟩ | ⟨-, hperform⟩
      · exact absurd hmissing hcontains
      rcases perform_liftM_bind_eq_error hperform with hfails | ⟨position, hread, hperform⟩
      · rw [hposition] at hfails
        cases hfails
      rw [hposition] at hread
      cases hread
      rcases perform_liftM_bind_eq_error hperform with hfails | ⟨deposit, -, hperform⟩
      · rw [Amount.minus, if_pos hless] at hfails
        cases hfails
      · cases hperform
    · exact ⟨s', change, rfl⟩

/-! ## Runs -/

/-- **When a deposit can be read.** What is left of it can be worked out unless the pool is one scale on and the
quotient by the product that the deposit saw, of which the factor is yet to be divided out, is no amount; what it has
gained can be worked out exactly when it is an amount. An account can take out of its deposit, whatever it asks for,
exactly when both can. So what is left can be read of every deposit that would be an amount also if it were scaled up;
and what was gained can be read if the gains credited so far are an amount together and before each offset what
deposits were worth where they earned was no more than the pool held. -/
theorem Run.readable_iff (h : Run p s turns) (hget : s.deposits.get? depositor = some d) :
    ((∃ left, s.compoundedDeposit depositor = .ok left) ↔ (s.phase = d.snapshot.phase.nextScale →
      d.initial.units * s.product.units / d.snapshot.product.units ≤ Amount.max.units)) ∧
    ((∃ gain, s.depositorGain depositor = .ok gain) ↔
      d.initial.units * s.growthUnits d.snapshot / d.snapshot.product.units / Amount.scale ≤ Amount.max.units) ∧
    (∀ amount, (∃ s' change, perform (withdraw depositor amount) s = (s', .ok change)) ↔
      (∃ left, s.compoundedDeposit depositor = .ok left) ∧ ∃ gain, s.depositorGain depositor = .ok gain) ∧
    (d.initial.units * s.factor.units ≤ Amount.max.units → ∃ left, s.compoundedDeposit depositor = .ok left) ∧
    (credited turns ≤ Amount.max.units → (∀ turn ∈ turns, turn.Backed) →
      ∃ gain, s.depositorGain depositor = .ok gain) := by
  have hs := h.consistent
  have hd := hs.follows.of_get? hget
  have hdated := hs.dated.of_get? hget
  have hleft := hd.exists_compounded_iff hdated
  have hgain := hd.exists_gained_iff hdated
  rw [← compoundedDeposit_eq hget] at hleft
  rw [← depositorGain_eq hget] at hgain
  refine ⟨hleft, hgain, exists_withdraw_iff hget, fun hsmall => ?_, fun hcredited hbacked => ?_⟩
  · exact hleft.2 fun hnext => (hd.raised_le hnext).trans hsmall
  · have hreserved := h.reserved hcredited hbacked
    have hearned : s.earned d ≤ s.earnedOfAll := by
      have hone := hs.elim_earned_le depositor
      rw [hget] at hone
      exact hone
    have hfits : s.earned d ≤ Amount.max.units :=
      (hearned.trans hreserved.earnedOfAll_le).trans (Nat.cast_le.2 (hreserved.le_credited.trans hcredited))
    exact hgain.2 (Nat.cast_le.1 (hd.quotient_le_earned.trans hfits))

/-- A deposit of nearly a million millions is made where the product is just above the floor; then an offset takes half
of the pool, and the product is scaled up. -/
def raisedCalls : List Call := [
  .provide (.ofWord 1) (.ofWhole 1000000000),
  .offset (.ofWhole 999999998) .zero,
  .provide (.ofWord 2) (.ofWhole 999999999998),
  .offset (.ofWhole 500000000001) (.ofWhole 7)]

def raisedPool : StabilityPool := (replay .standard raisedCalls).1

theorem run_raised : Run .standard raisedPool (replay .standard raisedCalls).2 := run_replay rfl raisedCalls

/-- The smaller deposit can be read one scale on, and taken out of; the larger one has a gain that can be read. -/
theorem Run.readable_iff_sample : ∃ small large,
    raisedPool.deposits.get? (.ofWord 1) = some small ∧ raisedPool.phase = small.snapshot.phase.nextScale ∧
    (∃ left, raisedPool.compoundedDeposit (.ofWord 1) = .ok left) ∧
    (∃ s' change, perform (withdraw (.ofWord 1) (.ofWhole 1)) raisedPool = (s', .ok change)) ∧
    raisedPool.deposits.get? (.ofWord 2) = some large ∧
    ∃ gain, raisedPool.depositorGain (.ofWord 2) = .ok gain := by
  have hpresent : ∀ owner seen, (raisedPool.deposits.get? owner).map (fun d => (d.initial, d.snapshot.phase)) =
      some seen → ∃ d, raisedPool.deposits.get? owner = some d ∧ (d.initial, d.snapshot.phase) = seen :=
    fun owner seen hseen => Option.map_eq_some_iff.1 hseen
  obtain ⟨small, hsmall, hfirst⟩ := hpresent (.ofWord 1) (.ofWhole 1000000000, ⟨0, 0⟩) (by decide +kernel)
  obtain ⟨large, hlarge, -⟩ := hpresent (.ofWord 2) (.ofWhole 999999999998, ⟨0, 0⟩) (by decide +kernel)
  obtain ⟨hinitial, hphase⟩ := Prod.mk.inj hfirst
  obtain ⟨-, -, hwithdraw, hraised, hreserved⟩ := Run.readable_iff run_raised hsmall
  obtain ⟨-, -, -, -, hgained⟩ := Run.readable_iff run_raised hlarge
  have hcredited : credited (replay .standard raisedCalls).2 ≤ Amount.max.units := by decide +kernel
  have hbacked : ∀ turn ∈ (replay .standard raisedCalls).2, turn.Backed := by decide +kernel
  have hread := hraised (by rw [hinitial]; decide +kernel)
  refine ⟨small, large, hsmall, by rw [hphase]; decide +kernel, hread, ?_, hlarge, hgained hcredited hbacked⟩
  exact (hwithdraw (.ofWhole 1)).2 ⟨hread, hreserved hcredited hbacked⟩

/-- The larger deposit cannot be read, and its account can take nothing out of it, although what is left of it is half
of what it was. -/
theorem locked_raised :
    Run .standard raisedPool (replay .standard raisedCalls).2 ∧
    (∃ d, raisedPool.deposits.get? (.ofWord 2) = some d ∧
      d.initial.units * raisedPool.product.units / d.snapshot.product.units / raisedPool.factor.units ≤
        d.initial.units / 2) ∧
    (¬∃ left, raisedPool.compoundedDeposit (.ofWord 2) = .ok left) ∧
    ∀ amount, ¬∃ s' change, perform (withdraw (.ofWord 2) amount) raisedPool = (s', .ok change) := by
  have hunread : ¬∃ left, raisedPool.compoundedDeposit (.ofWord 2) = .ok left := by
    have hfails : (raisedPool.compoundedDeposit (.ofWord 2)).isOk = false := by decide +kernel
    rintro ⟨left, hleft⟩
    rw [hleft] at hfails
    cases hfails
  have hhalf : (raisedPool.deposits.get? (.ofWord 2)).map (fun d => decide
      (d.initial.units * raisedPool.product.units / d.snapshot.product.units / raisedPool.factor.units ≤
        d.initial.units / 2)) = some true := by decide +kernel
  obtain ⟨d, hget, hless⟩ := Option.map_eq_some_iff.1 hhalf
  exact ⟨run_raised, ⟨d, hget, of_decide_eq_true hless⟩, hunread, fun amount hdone =>
    hunread ((exists_withdraw_iff hget amount).1 hdone).1⟩

end CollateralDebt.StabilityPool
