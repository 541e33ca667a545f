import CollateralDebt.Proofs.Liquidation.Batch
import CollateralDebt.Proofs.Liquidation.Decision

/-! What a plan forecasts, and what its commit does. Planning moves a running state on by each trove that is
liquidated, with checked differences; a commit closes the troves one after the other with differences that are
clamped, and redistributes and offsets the totals. Both take the same out of the system, so the forecast is how the
system stands after the commit. It also says that the pool holds enough for the offset of the totals, and a batch
always leaves the stakes that are not in it; what can still fail is a redistribution over no stakes, and arithmetic
that goes out of range. -/

open CollateralDebt.Action

namespace CollateralDebt

theorem RunningState.running_now (l : Ledger) (s : StabilityPool) (a : Asset) : a.running (.now l s) = a.held l.pools := by
  cases a <;> rfl

namespace Liquidator

variable {s s' : Liquidator} {plan : LiquidationPlan} {outcome : LiquidationOutcome} {forecast : RunningState}

/-! ## A commit that succeeds -/

/-- What the system has of an asset after a batch is what the plan forecasts. -/
theorem Committed.held_eq {a : Asset} {inflow outflow settlements : Nat} (h : Committed s s' plan outcome)
    (hfits : plan.Fits s.ledger) (hregular : s.ledger.Regular)
    (hsound : (s.ledger.books a).Sound inflow outflow 0 settlements) (hinflow : inflow < 2 ^ 128)
    (hforecast : plan.values.foldlM RunningState.advance (.now s.ledger s.pool) = .ok forecast) :
    a.held s'.ledger.pools = a.running forecast := by
  have hbefore : (a.active s.ledger.pools).units + (a.default s.ledger.pools).units + 0 + outflow = inflow :=
    hsound.held_eq
  have hafter : (a.active s'.ledger.pools).units + (a.default s'.ledger.pools).units + 0 +
      (outflow + (plan.values.map a.lost).sum) = inflow := (h.sound hfits hregular hsound hinflow).held_eq
  have hlost := (RunningState.loses_of_foldlM hforecast).system a
  rw [RunningState.running_now, Pools.units_held (by omega)] at hlost
  apply Amount.ext
  rw [Pools.units_held (by omega)]
  omega

theorem units_totalDeposits_carryOut (s : Liquidator) (plan : LiquidationPlan) (redistribution : Option Redistribution)
    (offset : Option Offset) :
    (s.carryOut plan redistribution offset).pool.totalDeposits.units =
      s.pool.totalDeposits.units - offset.elim 0 fun o => o.debtLoss.units := by
  cases offset <;> rfl

theorem Committed.totalDeposits_eq (h : Committed s s' plan outcome) (hfits : plan.Fits s.ledger)
    (hforecast : plan.values.foldlM RunningState.advance (.now s.ledger s.pool) = .ok forecast) :
    s'.pool.totalDeposits = forecast.deposits := by
  have hused : forecast.deposits.units + _ = s.pool.totalDeposits.units :=
    (RunningState.loses_of_foldlM hforecast).deposits
  rw [← hfits.totals.offsetDebt, ← offsetFor_eq_ok h.offset] at hused
  apply Amount.ext
  rw [h.state, units_totalDeposits_carryOut]
  omega

theorem Committed.activeCount_eq (h : Committed s s' plan outcome) (hfits : plan.Fits s.ledger)
    (hs : s.ledger.InOrder)
    (hforecast : plan.values.foldlM RunningState.advance (.now s.ledger s.pool) = .ok forecast) :
    s'.ledger.activeCount = forecast.activeTroves := by
  have hleft := h.activeCount_add hfits hs
  rw [(RunningState.loses_of_foldlM hforecast).activeTroves]
  show _ = s.ledger.activeCount - _
  omega

/-! ## A commit that fails -/

theorem exists_stakes (hfits : plan.Fits s.ledger) (hregular : s.ledger.Regular) :
    ∃ stakes, s.ledger.rewards.totalStakes.minus plan.totals.stakes = .ok stakes := ⟨_, minus_stakes hfits hregular⟩

theorem offsetFor_eq_error {pool : StabilityPool} {totals : LiquidationTotals} {e : Error}
    (henough : totals.offsetDebt ≤ pool.totalDeposits) (h : offsetFor pool totals = .error e) :
    e = .underflow .vanishingProduct ∨ ∃ calculation, e = .overflow calculation := by
  unfold offsetFor at h
  split at h
  · cases h
  · next hsome =>
      cases ho : pool.offsetOf totals.offsetDebt totals.poolCollateral with
      | ok o =>
          rw [ho] at h
          cases h
      | error e' =>
          rw [ho] at h
          cases h
          exact StabilityPool.offsetOf_eq_error hsome henough ho

/-- Why the commit of a plan can fail that has a forecast, and when nothing is staked that is left. -/
theorem commit_refused {e : Error} (hfits : plan.Fits s.ledger) (hregular : s.ledger.Regular)
    (hforecast : plan.values.foldlM RunningState.advance (.now s.ledger s.pool) = .ok forecast)
    (h : perform (commit plan) s = (s', .error e)) :
    plan.isEmpty = true ∧ e = .nothingToLiquidate ∨
      (e = .degenerateDivision .redistribution ∧ 0 < plan.totals.redistributedDebt.units ∧
        (closeAll s.ledger plan.values).rewards.totalStakes.units = 0) ∨
      e = .underflow .vanishingProduct ∨ ∃ calculation, e = .overflow calculation := by
  have henough : plan.totals.offsetDebt ≤ s.pool.totalDeposits := by
    have hused : forecast.deposits.units + _ = s.pool.totalDeposits.units :=
      (RunningState.loses_of_foldlM hforecast).deposits
    rw [← hfits.totals.offsetDebt] at hused
    exact Amount.le_iff.2 (by omega)
  have hstakes := minus_stakes hfits hregular
  unfold commit at h
  rw [perform_get_bind] at h
  rcases perform_guard_eq_error h with ⟨hempty, rfl⟩ | ⟨-, h⟩
  · exact .inl ⟨hempty, rfl⟩
  rw [perform_liftM_bind hstakes] at h
  rcases perform_liftM_bind_eq_error h with h | ⟨redistribution, -, h⟩
  · exact .inr ((Rewards.redistribution_eq_error h).imp_right .inr)
  rcases perform_liftM_bind_eq_error h with h | ⟨offset, -, h⟩
  · exact .inr (.inr (offsetFor_eq_error henough h))
  · cases h

theorem commit_eq_error {e : Error} (hfits : plan.Fits s.ledger) (hregular : s.ledger.Regular)
    (hforecast : plan.values.foldlM RunningState.advance (.now s.ledger s.pool) = .ok forecast)
    (h : perform (commit plan) s = (s', .error e)) :
    plan.isEmpty = true ∧ e = .nothingToLiquidate ∨ e = .degenerateDivision .redistribution ∨
      e = .underflow .vanishingProduct ∨ ∃ calculation, e = .overflow calculation :=
  (commit_refused hfits hregular hforecast h).imp_right (Or.imp_left And.left)

end Liquidator

end CollateralDebt
