import CollateralDebt.Proofs.Liquidation.Forecast
import CollateralDebt.Proofs.Machine.Order

/-! The forecast of a plan over a whole run. In every machine that is reached the books are sound and the row is in
order, which is what a commit needs to end up where the plan says. Of collateral that is known as long as all that
was ever locked is an amount. -/

open CollateralDebt.Action

namespace CollateralDebt

namespace Machine

variable {p q : Params} {m : Machine} {t : Transcript} {price : Amount} {borrowers : List Address}
  {plan : LiquidationPlan}

/-- **A commit ends where its plan says.** For any parameters, price and list, the troves of a plan lead from the system
as it stands to a forecast. The commit of the plan in the same machine finds the stakes to take off the total, and
never asks the pool for more than it holds: if it fails, there was nothing to liquidate, nobody is left with a stake,
or a number is out of range. If it succeeds, the debt and the collateral of the system, its active troves and the
deposits are those of the forecast. -/
theorem Run.commit_as_forecast (h : Run p m t)
    (hplan : LiquidationPlan.make m.state.ledger m.state.pool q price borrowers = .ok plan) :
    ∃ forecast, plan.values.foldlM RunningState.advance (.now m.state.ledger m.state.pool) = .ok forecast ∧
      (∃ stakes, m.state.ledger.rewards.totalStakes.minus plan.totals.stakes = .ok stakes) ∧
      (∀ s' e, perform (Liquidator.commit plan) m.liquidator = (s', .error e) →
        plan.isEmpty = true ∧ e = .nothingToLiquidate ∨ e = .degenerateDivision .redistribution ∨
          e = .underflow .vanishingProduct ∨ ∃ calculation, e = .overflow calculation) ∧
      ∀ s' outcome, perform (Liquidator.commit plan) m.liquidator = (s', .ok outcome) →
        s'.ledger.pools.debt = forecast.systemDebt ∧
        (t.locked < 2 ^ 128 → s'.ledger.pools.collateral = forecast.systemCollateral) ∧
        s'.ledger.activeCount = forecast.activeTroves ∧
        s'.pool.totalDeposits = forecast.deposits := by
  have hfits : plan.Fits m.liquidator.ledger := LiquidationPlan.fits_of_make hplan
  have hregular : m.liquidator.ledger.Regular := h.accounted.regular
  have horder : m.liquidator.ledger.InOrder := h.kept.inOrder
  obtain ⟨forecast, hforecast, -⟩ := LiquidationPlan.forecast_of_make hplan
  refine ⟨forecast, hforecast, Liquidator.exists_stakes hfits hregular, fun s' e hfail => ?_, fun s' outcome hdone => ?_⟩
  · exact Liquidator.commit_eq_error hfits hregular hforecast hfail
  · have hcommitted := Liquidator.commit_eq_ok hdone
    refine ⟨?_, fun hlocked => ?_, hcommitted.activeCount_eq hfits horder hforecast,
      hcommitted.totalDeposits_eq hfits hforecast⟩
    · exact hcommitted.held_eq (a := .debt) hfits hregular h.accounted.debt m.state.ledger.minted.units_lt hforecast
    · obtain ⟨out, hsound⟩ := h.accounted.collateral hlocked
      exact hcommitted.held_eq (a := .collateral) hfits hregular hsound hlocked hforecast

/-- Something is pending from a first liquidation, and two more troves are at risk. -/
def pendingRequests : List Request := sampleRequests.take 5 ++ [
  .operation (.liquidate (.ofWord 4) (.ofWord 1)),
  .operation (.provide (.ofWord 2) (.ofWhole 5000)),
  .operation (.openTrove (.ofWord 6) (.ofWhole 100) (.ofWhole 4000))]

def pendingReached : Machine := (replay sampleStart pendingRequests).1

theorem run_pending : Run .standard pendingReached (replay sampleStart pendingRequests).2 :=
  run_replay create_sample pendingRequests

def pendingBatch : List Address := [.ofWord 3, .ofWord 6, .ofWord 3, .ofWord 2]

/-- The pool takes all of the first trove and a part of the second one, and the forecast is met. -/
theorem Run.commit_as_forecast_sample : ∃ plan forecast s' outcome,
    LiquidationPlan.make pendingReached.state.ledger pendingReached.state.pool .standard (.ofWhole 40) pendingBatch =
      .ok plan ∧
    plan.values.map LiquidationValues.borrower = [.ofWord 3, .ofWord 6] ∧
    plan.values.foldlM RunningState.advance (.now pendingReached.state.ledger pendingReached.state.pool) = .ok forecast ∧
    perform (Liquidator.commit plan) pendingReached.liquidator = (s', .ok outcome) ∧
    s'.ledger.pools.debt.units = 23500 * Amount.scale ∧
    s'.ledger.pools.debt = forecast.systemDebt ∧ s'.ledger.pools.collateral = forecast.systemCollateral ∧
    s'.ledger.activeCount = forecast.activeTroves ∧ s'.pool.totalDeposits = forecast.deposits := by
  have hran : (LiquidationPlan.make pendingReached.state.ledger pendingReached.state.pool .standard (.ofWhole 40)
      pendingBatch).map (fun plan => (plan.values.map LiquidationValues.borrower,
        (perform (Liquidator.commit plan) pendingReached.liquidator).2.isOk,
        (perform (Liquidator.commit plan) pendingReached.liquidator).1.ledger.pools.debt.units)) =
      .ok ([.ofWord 3, .ofWord 6], true, 23500 * Amount.scale) := by decide +kernel
  obtain ⟨plan, hplan, hfacts⟩ := except_map_eq_ok.1 hran
  obtain ⟨hborrowers, hfacts⟩ := Prod.mk.inj hfacts
  obtain ⟨hcommits, hdebt⟩ := Prod.mk.inj hfacts
  obtain ⟨outcome, houtcome⟩ := exists_ok_of_isOk hcommits
  have hdone : perform (Liquidator.commit plan) pendingReached.liquidator = (_, .ok outcome) := Prod.ext rfl houtcome
  obtain ⟨forecast, hforecast, -, -, hmet⟩ := Run.commit_as_forecast run_pending hplan
  obtain ⟨hsystemDebt, hcollateral, hcount, hdeposits⟩ := hmet _ outcome hdone
  exact ⟨plan, forecast, _, outcome, hplan, hborrowers, hforecast, hdone, hdebt, hsystemDebt,
    hcollateral (by decide +kernel), hcount, hdeposits⟩

end Machine

end CollateralDebt
