import CollateralDebt.Proofs.Action.Outcome
import CollateralDebt.StabilityPool.Offset
import Mathlib.Algebra.Ring.Nat

/-! What the operations of the stability pool come to when they succeed. Providing and withdrawing do the same to a
deposit: what is left of it is worked out, something is paid in or out, and the rest is settled now. An offset
takes a loss for each unit deposited, and the product is reduced by it. -/

open CollateralDebt.Action

namespace CollateralDebt.StabilityPool

variable {s s' : StabilityPool}

/-! ## Reading a deposit -/

/-- An amount below a limit is taken for nothing. -/
def unlessBelow (limit : Nat) (a : Amount) : Amount := if a.units < limit then .zero else a

theorem pure_unlessBelow (limit : Nat) (a : Amount) :
    (if a.units < limit then pure .zero else pure a : Except Error Amount) = .ok (unlessBelow limit a) := by
  unfold unlessBelow
  split <;> rfl

/-- What is left of a deposit. It is nothing if there was nothing, and later than in the next scale. Otherwise the
product now over the product that it saw is taken of it, then the factor is divided out if the scale has changed, and
a negligible result is taken for nothing. -/
theorem compounded_cases (s : StabilityPool) (initial : Amount) (snapshot : DepositSnapshot) :
    (s.compounded initial snapshot = .ok .zero ∧ (initial.isZero = true ∨
      snapshot.phase.epoch < s.phase.epoch ∨ 2 ≤ s.phase.scale - snapshot.phase.scale)) ∨
    (¬initial.isZero = true ∧ ¬snapshot.phase.epoch < s.phase.epoch ∧ s.phase.scale - snapshot.phase.scale ≤ 1 ∧
      s.compounded initial snapshot = (initial.mulDiv s.product snapshot.product .down).map fun quotient =>
        unlessBelow (initial.units / negligibleParts)
          (quotient.dividedBy (s.factor.units ^ (s.phase.scale - snapshot.phase.scale)))) := by
  unfold compounded
  by_cases hnothing : (initial.isZero || decide (snapshot.phase.epoch < s.phase.epoch)) = true
  · rw [if_pos hnothing]
    rw [Bool.or_eq_true, decide_eq_true_eq] at hnothing
    exact .inl ⟨rfl, hnothing.imp_right .inl⟩
  · rw [if_neg hnothing]
    rw [Bool.or_eq_true, decide_eq_true_eq, not_or] at hnothing
    obtain ⟨hsome, hepoch⟩ := hnothing
    dsimp only
    rcases s.phase.scale - snapshot.phase.scale with _ | _ | later
    · refine .inr ⟨hsome, hepoch, Nat.zero_le _, ?_⟩
      cases initial.mulDiv s.product snapshot.product .down with
      | error e => rfl
      | ok quotient =>
          have hwhole : quotient.dividedBy (s.factor.units ^ 0) = quotient := Amount.ext (Nat.div_one _)
          show _ = Except.ok (unlessBelow _ (quotient.dividedBy (s.factor.units ^ 0)))
          rw [hwhole]
          exact pure_unlessBelow _ quotient
    · refine .inr ⟨hsome, hepoch, Nat.le_refl _, ?_⟩
      rw [Nat.zero_add, Nat.pow_one]
      cases initial.mulDiv s.product snapshot.product .down with
      | error e => rfl
      | ok quotient => exact pure_unlessBelow _ _
    · refine .inl ⟨(pure_unlessBelow _ .zero).trans ?_, .inr (.inr (Nat.le_add_left _ _))⟩
      unfold unlessBelow
      split <;> rfl

/-- What is left of a deposit is nothing, for a reason, or it has followed the product and is not negligible. -/
theorem compounded_eq_ok {initial left : Amount} {snapshot : DepositSnapshot}
    (h : s.compounded initial snapshot = .ok left) :
    left = .zero ∧ (initial.isZero = true ∨ snapshot.phase.epoch < s.phase.epoch ∨
      2 ≤ s.phase.scale - snapshot.phase.scale ∨ initial.units * s.product.units /
        (snapshot.product.units * s.factor.units ^ (s.phase.scale - snapshot.phase.scale)) <
          initial.units / negligibleParts) ∨
    ¬snapshot.phase.epoch < s.phase.epoch ∧ left.units = initial.units * s.product.units /
      (snapshot.product.units * s.factor.units ^ (s.phase.scale - snapshot.phase.scale)) := by
  rcases s.compounded_cases initial snapshot with ⟨hzero, hnothing | hlater | htwo⟩ | ⟨-, hepoch, -, hread⟩
  · exact .inl ⟨Except.ok.inj (h.symm.trans hzero), .inl hnothing⟩
  · exact .inl ⟨Except.ok.inj (h.symm.trans hzero), .inr (.inl hlater)⟩
  · exact .inl ⟨Except.ok.inj (h.symm.trans hzero), .inr (.inr (.inl htwo))⟩
  · rw [hread] at h
    obtain ⟨quotient, hquotient, rfl⟩ := except_map_eq_ok.1 h
    have hunits : quotient.units = initial.units * s.product.units / snapshot.product.units :=
      (Amount.mulDiv_eq_ok_iff.1 hquotient).2
    rw [← Nat.div_div_eq_div_mul, ← hunits]
    unfold unlessBelow
    split
    · next hless => exact .inl ⟨rfl, .inr (.inr (.inr hless))⟩
    · exact .inr ⟨hepoch, rfl⟩

theorem compoundedDeposit_eq {depositor : Address} {d : Deposit} (h : s.deposits.get? depositor = some d) :
    s.compoundedDeposit depositor = s.compounded d.initial d.snapshot := by
  rw [compoundedDeposit, h]

theorem depositorGain_eq {depositor : Address} {d : Deposit} (h : s.deposits.get? depositor = some d) :
    s.depositorGain depositor = s.gained d.initial d.snapshot := by
  rw [depositorGain, h]

/-! ## Settling a deposit -/

/-- A deposit is settled at what is left of it, with so much paid in and so much paid out. The pool's total follows,
but for a payment out of more than there is. -/
inductive Resettles (s : StabilityPool) (depositor : Address) (paidIn paidOut : Nat) : StabilityPool → Prop where
  | mk {left deposit totalDeposits collateral : Amount} (hleft : s.compoundedDeposit depositor = .ok left)
      (hdeposit : deposit.units + paidOut = left.units + paidIn)
      (htotal : totalDeposits.units = s.totalDeposits.units + paidIn - paidOut) :
      Resettles s depositor paidIn paidOut (setDeposit { s with totalDeposits, collateral } depositor deposit)

/-- An operation on a deposit, with what it reports: so much is paid in, the gain is paid out of the collateral, and
the deposit that is reported is settled now. -/
structure Settles (s : StabilityPool) (paidIn : Nat) (change : DepositChange) (s' : StabilityPool) : Prop where
  left_add : ∃ left, s.compoundedDeposit change.depositor = .ok left ∧
    change.deposit.units + change.withdrawn.units = left.units + paidIn
  gain_eq : s.depositorGain change.depositor = .ok change.gain
  pool_eq : ∃ totalDeposits : Amount,
    totalDeposits.units = s.totalDeposits.units + paidIn - change.withdrawn.units ∧
    s' = setDeposit { s with totalDeposits, collateral := s.collateral.minusClamped change.gain }
      change.depositor change.deposit

theorem Settles.resettles {change : DepositChange} {paidIn : Nat} (h : Settles s paidIn change s') :
    Resettles s change.depositor paidIn change.withdrawn.units s' := by
  obtain ⟨left, hleft, hdeposit⟩ := h.left_add
  obtain ⟨totalDeposits, htotal, rfl⟩ := h.pool_eq
  exact .mk hleft hdeposit htotal

theorem Settles.collateral_eq {change : DepositChange} {paidIn : Nat} (h : Settles s paidIn change s') :
    s'.collateral.units = s.collateral.units - change.gain.units := by
  obtain ⟨totalDeposits, -, rfl⟩ := h.pool_eq
  unfold setDeposit
  split <;> rfl

theorem Settles.collateral_le {change : DepositChange} {paidIn : Nat} (h : Settles s paidIn change s') :
    s'.collateral.units ≤ s.collateral.units := by
  rw [h.collateral_eq]
  exact Nat.sub_le _ _

theorem position_eq_ok {depositor : Address} {position : Position} (h : s.position depositor = .ok position) :
    s.compoundedDeposit depositor = .ok position.left ∧ s.depositorGain depositor = .ok position.gain := by
  unfold StabilityPool.position at h
  unfold compoundedDeposit depositorGain
  cases hget : s.deposits.get? depositor with
  | none =>
      rw [hget] at h
      cases h
      exact ⟨rfl, rfl⟩
  | some deposit =>
      rw [hget] at h
      obtain ⟨left, hleft, h⟩ := except_bind_eq_ok.1 h
      obtain ⟨gain, hgain, h⟩ := except_bind_eq_ok.1 h
      cases h
      exact ⟨hleft, hgain⟩

theorem provide_settles {depositor : Address} {amount : Amount} {change : DepositChange}
    (h : perform (provide depositor amount) s = (s', .ok change)) :
    Settles s amount.units change s' ∧ change.depositor = depositor ∧ change.withdrawn = .zero := by
  unfold provide at h
  rw [perform_get_bind] at h
  obtain ⟨_, -, h⟩ := perform_liftM_bind_eq_ok.1 h
  obtain ⟨position, hposition, h⟩ := perform_liftM_bind_eq_ok.1 h
  obtain ⟨deposit, hdeposit, h⟩ := perform_liftM_bind_eq_ok.1 h
  obtain ⟨totalDeposits, htotal, h⟩ := perform_liftM_bind_eq_ok.1 h
  rw [perform_set_bind] at h
  cases h
  obtain ⟨hleft, hgain⟩ := position_eq_ok hposition
  have hunits := Amount.plus_eq_ok_iff.1 hdeposit
  exact ⟨⟨⟨_, hleft, by rw [hunits]; rfl⟩, hgain, totalDeposits, Amount.plus_eq_ok_iff.1 htotal, rfl⟩, rfl, rfl⟩

/-- As much is taken out as was asked for and is left. -/
theorem withdraw_computes {depositor : Address} {amount : Amount} {change : DepositChange}
    (h : perform (withdraw depositor amount) s = (s', .ok change)) :
    Settles s 0 change s' ∧ change.depositor = depositor ∧
      ∃ left, s.compoundedDeposit depositor = .ok left ∧ change.withdrawn = min amount left := by
  unfold withdraw at h
  rw [perform_get_bind] at h
  obtain ⟨-, h⟩ := perform_guard_eq_ok.1 h
  obtain ⟨position, hposition, h⟩ := perform_liftM_bind_eq_ok.1 h
  obtain ⟨deposit, hdeposit, h⟩ := perform_liftM_bind_eq_ok.1 h
  rw [perform_set_bind] at h
  cases h
  obtain ⟨hleft, hgain⟩ := position_eq_ok hposition
  have hunits := Amount.minus_eq_ok_iff.1 hdeposit
  refine ⟨⟨⟨_, hleft, ?_⟩, hgain, _, rfl, rfl⟩, rfl, position.left, hleft, rfl⟩
  rw [hunits, Nat.add_comm, Nat.add_zero]

theorem withdraw_settles {depositor : Address} {amount : Amount} {change : DepositChange}
    (h : perform (withdraw depositor amount) s = (s', .ok change)) :
    Settles s 0 change s' ∧ change.depositor = depositor := by
  obtain ⟨hsettles, hdepositor, -⟩ := withdraw_computes h
  exact ⟨hsettles, hdepositor⟩

theorem provide_eq_ok {depositor : Address} {amount : Amount} {change : DepositChange}
    (h : perform (provide depositor amount) s = (s', .ok change)) :
    Resettles s depositor amount.units 0 s' ∧ change.depositor = depositor ∧ change.withdrawn = .zero := by
  obtain ⟨hsettles, rfl, hnothing⟩ := provide_settles h
  have hresettled := hsettles.resettles
  rw [hnothing] at hresettled
  exact ⟨hresettled, rfl, hnothing⟩

theorem withdraw_eq_ok {depositor : Address} {amount : Amount} {change : DepositChange}
    (h : perform (withdraw depositor amount) s = (s', .ok change)) :
    Resettles s depositor 0 change.withdrawn.units s' ∧ change.depositor = depositor := by
  obtain ⟨hsettles, rfl⟩ := withdraw_settles h
  exact ⟨hsettles.resettles, rfl⟩

/-- What an offset has computed when it succeeds. -/
structure Charges (s : StabilityPool) (o : Offset) (perUnit : Nat) : Prop where
  debtLoss_le : o.debtLoss.units ≤ s.totalDeposits.units
  total_pos : 0 < s.totalDeposits.units
  perUnit_eq : lossPerUnit o.debtLoss s.totalDeposits s.carriedLoss = .ok (perUnit, o.carriedLoss)
  product_eq : s.reducedProduct (Amount.scale - perUnit) = .ok (o.product, o.phase)
  product_pos : 0 < o.product.units
  sumPhase_eq : o.sumPhase = s.phase
  sum_ge : (s.sumAt s.phase).units ≤ o.sum.units

/-- What an offset credits when it succeeds: the gain and what was carried to it are divided by what the pool holds,
the rest is carried on, and the running sum grows by the quotient, weighted by the product. -/
structure Credits (s : StabilityPool) (o : Offset) (gainPerUnit : Nat) : Prop where
  mul_add_carried : gainPerUnit * s.totalDeposits.units + o.carriedGain.units =
    o.collateralGain.units * Amount.scale + s.carriedGain.units
  sum_eq : o.sum.units = (s.sumAt s.phase).units + gainPerUnit * s.product.units

theorem grownSum_eq_ok {gainPerUnit : Nat} {sum : RunningSum} (h : s.grownSum gainPerUnit = .ok sum) :
    sum.units = (s.sumAt s.phase).units + gainPerUnit * s.product.units := by
  unfold grownSum RunningSum.ofUnits? at h
  dsimp only at h
  split at h
  · cases h
  · split at h
    · cases h
    · next hsum =>
        split at hsum
        · cases hsum
          cases h
          rfl
        · cases hsum

theorem offsetOf_computes {debtLoss collateralGain : Amount} {o : Offset}
    (h : s.offsetOf debtLoss collateralGain = .ok o) :
    o.debtLoss = debtLoss ∧ o.collateralGain = collateralGain ∧ (∃ perUnit, s.Charges o perUnit) ∧
      ∃ gainPerUnit, s.Credits o gainPerUnit := by
  unfold StabilityPool.offsetOf at h
  obtain ⟨-, h⟩ := except_guard_eq_ok.1 h
  obtain ⟨htotal, h⟩ := except_guard_eq_ok.1 h
  obtain ⟨henough, h⟩ := except_guard_eq_ok.1 h
  obtain ⟨carriedGain, hcarried, h⟩ := except_bind_eq_ok.1 h
  obtain ⟨⟨perUnit, carriedLoss⟩, hloss, h⟩ := except_bind_eq_ok.1 h
  obtain ⟨sum, hsum, h⟩ := except_bind_eq_ok.1 h
  obtain ⟨⟨product, phase⟩, hproduct, h⟩ := except_bind_eq_ok.1 h
  obtain ⟨hvanishing, h⟩ := except_guard_eq_ok.1 h
  cases h
  have hgrown := grownSum_eq_ok hsum
  refine ⟨rfl, rfl, ⟨perUnit, Nat.le_of_not_lt henough, Amount.units_pos_iff.2 htotal, hloss, hproduct,
    Amount.units_pos_iff.2 hvanishing, rfl, ?_⟩, _, ?_, hgrown⟩
  · rw [hgrown]
    exact Nat.le_add_right _ _
  · rw [Amount.narrow_eq_ok_iff.1 hcarried]
    exact Nat.div_add_mod' _ _

theorem offsetOf_eq_ok {debtLoss collateralGain : Amount} {o : Offset}
    (h : s.offsetOf debtLoss collateralGain = .ok o) : o.debtLoss = debtLoss ∧ ∃ perUnit, s.Charges o perUnit := by
  obtain ⟨hloss, -, hcharges, -⟩ := offsetOf_computes h
  exact ⟨hloss, hcharges⟩

theorem lossPerUnit_eq_error {debtLoss total carried : Amount} {e : Error}
    (h : lossPerUnit debtLoss total carried = .error e) : e = .overflow .carriedLoss := by
  unfold lossPerUnit at h
  split at h
  · cases h
  · rcases except_bind_eq_error.1 h with h | ⟨_, -, h⟩
    · exact Amount.eq_of_narrow_eq_error h
    · cases h

theorem grownSum_eq_error {gainPerUnit : Nat} {e : Error} (h : s.grownSum gainPerUnit = .error e) :
    e = .overflow .marginalGain ∨ e = .overflow .poolSum := by
  unfold grownSum at h
  dsimp only at h
  split at h
  · exact .inl (Except.error.inj h).symm
  · split at h
    · exact .inr (Except.error.inj h).symm
    · cases h

theorem reducedProduct_eq_error {kept : Nat} {e : Error} (h : s.reducedProduct kept = .error e) :
    e = .overflow .rescaledProduct ∨ e = .overflow .product := by
  unfold reducedProduct at h
  split at h
  · cases h
  · dsimp only at h
    split at h
    · rcases except_bind_eq_error.1 h with h | ⟨_, -, h⟩
      · exact .inl (Amount.eq_of_narrow_eq_error h)
      · cases h
    · rcases except_bind_eq_error.1 h with h | ⟨_, -, h⟩
      · exact .inr (Amount.eq_of_narrow_eq_error h)
      · cases h

/-- An offset of some debt, of which the pool holds enough, fails only if a number is out of range. -/
theorem offsetOf_eq_error {debtLoss collateralGain : Amount} {e : Error} (hsome : ¬debtLoss.isZero = true)
    (henough : debtLoss ≤ s.totalDeposits) (h : s.offsetOf debtLoss collateralGain = .error e) :
    e = .underflow .vanishingProduct ∨ ∃ calculation, e = .overflow calculation := by
  have htotal : ¬s.totalDeposits.isZero = true :=
    Amount.units_pos_iff.1 (Nat.lt_of_lt_of_le (Amount.units_pos_iff.2 hsome) henough)
  unfold StabilityPool.offsetOf at h
  rw [if_neg hsome, if_neg htotal, if_neg (Amount.not_lt.2 henough)] at h
  rcases except_bind_eq_error.1 h with h | ⟨carriedGain, -, h⟩
  · exact .inr ⟨_, Amount.eq_of_narrow_eq_error h⟩
  rcases except_bind_eq_error.1 h with h | ⟨⟨perUnit, carriedLoss⟩, -, h⟩
  · exact .inr ⟨_, lossPerUnit_eq_error h⟩
  rcases except_bind_eq_error.1 h with h | ⟨sum, -, h⟩
  · rcases grownSum_eq_error h with rfl | rfl <;> exact .inr ⟨_, rfl⟩
  rcases except_bind_eq_error.1 h with h | ⟨⟨product, phase⟩, -, h⟩
  · rcases reducedProduct_eq_error h with rfl | rfl <;> exact .inr ⟨_, rfl⟩
  rcases except_guard_eq_error h with ⟨-, rfl⟩ | ⟨-, h⟩
  · exact .inl rfl
  · cases h

theorem offset_computes {debtLoss collateralGain : Amount} {o : Offset}
    (h : perform (offset debtLoss collateralGain) s = (s', .ok o)) :
    s' = s.applyOffset o ∧ (∃ perUnit, s.Charges o perUnit) ∧ ∃ gainPerUnit, s.Credits o gainPerUnit := by
  unfold offset at h
  rw [perform_get_bind] at h
  obtain ⟨o', ho, h⟩ := perform_liftM_bind_eq_ok.1 h
  rw [perform_set_bind] at h
  cases h
  exact ⟨rfl, (offsetOf_computes ho).2.2⟩

theorem perform_offset {debtLoss collateralGain : Amount} {o : Offset}
    (h : s.offsetOf debtLoss collateralGain = .ok o) :
    perform (offset debtLoss collateralGain) s = (s.applyOffset o, .ok o) := by
  unfold offset
  rw [perform_get_bind]
  exact perform_liftM_bind_eq_ok.2 ⟨o, h, rfl⟩

theorem offset_eq_ok {debtLoss collateralGain : Amount} {o : Offset}
    (h : perform (offset debtLoss collateralGain) s = (s', .ok o)) :
    s' = s.applyOffset o ∧ ∃ perUnit, s.Charges o perUnit := by
  obtain ⟨hafter, hcharges, -⟩ := offset_computes h
  exact ⟨hafter, hcharges⟩

/-- Each unit deposited keeps something of itself, or a new epoch begins. The product is scaled up where it would fall
below the floor. -/
theorem reducedProduct_eq_ok {kept : Nat} {product : Amount} {phase : Phase}
    (h : s.reducedProduct kept = .ok (product, phase)) :
    (kept = 0 ∧ product = .one ∧ phase = s.phase.nextEpoch) ∨
    (s.product.units * kept / Amount.scale < s.floor.units ∧
      product.units = s.product.units * kept * s.factor.units / Amount.scale ∧ phase = s.phase.nextScale) ∨
    (product.units = s.product.units * kept / Amount.scale ∧ phase = s.phase) := by
  unfold reducedProduct at h
  split at h
  · next hkept =>
      cases h
      exact .inl ⟨hkept, rfl, rfl⟩
  · dsimp only at h
    split at h
    · next hfloor =>
        obtain ⟨rescaled, hrescaled, h⟩ := except_bind_eq_ok.1 h
        cases h
        exact .inr (.inl ⟨hfloor, Amount.narrow_eq_ok_iff.1 hrescaled, rfl⟩)
    · obtain ⟨reduced, hreduced, h⟩ := except_bind_eq_ok.1 h
      cases h
      exact .inr (.inr ⟨Amount.narrow_eq_ok_iff.1 hreduced, rfl⟩)

/-- An epoch begins, or the product is reduced to what each unit keeps, scaled up at most once, and then rounded down. -/
theorem Charges.product_rounded {o : Offset} {perUnit : Nat} (h : s.Charges o perUnit) :
    (Amount.scale - perUnit = 0 ∧ o.product = .one ∧ o.phase = s.phase.nextEpoch) ∨
    o.phase.epoch = s.phase.epoch ∧ ∃ raised ≤ 1, o.phase.scale = s.phase.scale + raised ∧
      o.product.units = s.product.units * (Amount.scale - perUnit) * s.factor.units ^ raised / Amount.scale := by
  rcases reducedProduct_eq_ok h.product_eq with hepoch | ⟨-, hunits, hphase⟩ | ⟨hunits, hphase⟩
  · exact .inl hepoch
  · rw [hphase]
    exact .inr ⟨rfl, 1, Nat.le_refl _, rfl, by rw [hunits, Nat.pow_one]⟩
  · rw [hphase]
    exact .inr ⟨rfl, 0, Nat.zero_le _, rfl, by rw [hunits, Nat.pow_zero, Nat.mul_one]⟩

/-- A loss for each unit that is rounded up comes to the whole loss, also where it is held to one. -/
theorem le_roundedUp_mul {numerator total : Nat} (htotal : 0 < total) (hle : numerator ≤ total * Amount.scale) :
    numerator ≤ (numerator / total + 1).min Amount.scale * total := by
  rcases Nat.le_total (numerator / total + 1) Amount.scale with hfits | hcap
  · rw [show (numerator / total + 1).min Amount.scale = numerator / total + 1 from Nat.min_eq_left hfits]
    exact Nat.le_of_lt (Nat.lt_mul_of_div_lt (Nat.lt_succ_self _) htotal)
  · rw [show (numerator / total + 1).min Amount.scale = Amount.scale from Nat.min_eq_right hcap, Nat.mul_comm]
    exact hle

/-- The loss for each unit comes to the whole loss, less what was charged too much before, and the excess of it is
what is carried on. When more was charged before than this loss comes to, the difference is forgotten. -/
theorem lossPerUnit_eq_ok {debtLoss total carried excess : Amount} {perUnit : Nat}
    (h : lossPerUnit debtLoss total carried = .ok (perUnit, excess)) (htotal : 0 < total.units)
    (hle : debtLoss.units ≤ total.units) :
    (debtLoss = total ∧ perUnit = Amount.scale) ∨
    (debtLoss ≠ total ∧ perUnit ≤ Amount.scale ∧
      debtLoss.units * Amount.scale + excess.units ≤ perUnit * total.units + carried.units) := by
  unfold lossPerUnit at h
  split at h
  · next hall =>
      cases h
      exact .inl ⟨hall, rfl⟩
  · next hpart =>
      obtain ⟨narrowed, hnarrow, h⟩ := except_bind_eq_ok.1 h
      cases h
      have hexcess := Amount.narrow_eq_ok_iff.1 hnarrow
      have hbound : debtLoss.units * Amount.scale - carried.units ≤ total.units * Amount.scale :=
        Nat.le_trans (Nat.sub_le _ _) (Nat.mul_le_mul_right _ hle)
      have hreaches := le_roundedUp_mul htotal hbound
      exact .inr ⟨hpart, Nat.min_le_right _ _, by omega⟩

/-- Every offset takes something off each unit. -/
theorem lossPerUnit_pos {debtLoss total carried excess : Amount} {perUnit : Nat}
    (h : lossPerUnit debtLoss total carried = .ok (perUnit, excess)) : 0 < perUnit := by
  unfold lossPerUnit at h
  split at h
  · cases h
    decide
  · obtain ⟨narrowed, -, h⟩ := except_bind_eq_ok.1 h
    cases h
    exact Nat.lt_min.2 ⟨Nat.succ_pos _, by decide⟩

/-! ## Refused operations -/

theorem provide_allOrNothing (depositor : Address) (amount : Amount) (s : StabilityPool) :
    AllOrNothing (provide depositor amount) s := by
  unfold provide
  refine allOrNothing_get_bind (allOrNothing_liftM_bind fun _ _ => allOrNothing_liftM_bind fun position _ => ?_)
  refine allOrNothing_liftM_bind fun deposit _ => allOrNothing_liftM_bind fun totalDeposits _ => ?_
  exact allOrNothing_set_return _ _ _

theorem withdraw_allOrNothing (depositor : Address) (amount : Amount) (s : StabilityPool) :
    AllOrNothing (withdraw depositor amount) s := by
  unfold withdraw
  refine allOrNothing_get_bind (allOrNothing_ite (fun _ => allOrNothing_throw_bind _ _ _) fun _ => ?_)
  refine allOrNothing_liftM_bind fun position _ => allOrNothing_liftM_bind fun deposit _ => ?_
  exact allOrNothing_set_return _ _ _

theorem offset_allOrNothing (debtLoss collateralGain : Amount) (s : StabilityPool) :
    AllOrNothing (offset debtLoss collateralGain) s := by
  unfold offset
  exact allOrNothing_get_bind (allOrNothing_liftM_bind fun o _ => allOrNothing_set_return _ _ _)

end CollateralDebt.StabilityPool
