import CollateralDebt.Proofs.Ledger.Stakes
import CollateralDebt.Proofs.Liquidation.Forecast

/-! Stakes through a batch. The troves of a plan leave with their stakes, and all others stay active with theirs, at
least one of them. What the batch redistributes is divided by what those stake together; so a commit fails with a
degenerate division exactly when there is debt to redistribute and none of them stakes anything
(`commit_degenerate_iff`). A batch that succeeds takes the basis of new stakes from what is left. -/

open CollateralDebt.Action

namespace CollateralDebt

namespace Liquidator

variable {l : Ledger} {s s' : Liquidator} {plan : LiquidationPlan} {outcome : LiquidationOutcome}
  {forecast : RunningState} {values : List LiquidationValues} {owner : Address} {t : Trove}

/-! ## The troves that are left -/

/-- Whose trove is active after a batch is not in it, and had the same stake before. -/
theorem activeTrove_of_closeAll (h : Closable l values) (hl : l.InOrder)
    (ht : (closeAll l values).activeTrove owner = .ok t) :
    owner ∉ values.map LiquidationValues.borrower ∧
      ∃ before, l.activeTrove owner = .ok before ∧ before.stake = t.stake := by
  induction values generalizing l with
  | nil => exact ⟨List.not_mem_nil, t, ht, rfl⟩
  | cons v rest ih =>
      obtain ⟨closed, hfound, -⟩ := h.found v List.mem_cons_self
      have hstatus : TroveStatus.closedByLiquidation ≠ .active := by decide
      rw [closeAll_cons] at ht
      obtain ⟨hrest, later, hlater, hstake⟩ := ih h.tail (hl.leave hfound v.entire hstatus) ht
      obtain ⟨hne, before, hbefore, hsame⟩ := hl.activeTrove_of_leave hfound hstatus hlater
      rw [List.map_cons, List.mem_cons, not_or]
      exact ⟨⟨hne, hrest⟩, before, hbefore, hsame.trans hstake⟩

/-- A trove that is not in a batch stays active. -/
theorem exists_activeTrove_closeAll (ht : l.activeTrove owner = .ok t)
    (hne : owner ∉ values.map LiquidationValues.borrower) :
    ∃ r, (closeAll l values).activeTrove owner = .ok r ∧ r.stake = t.stake := by
  induction values generalizing l t with
  | nil => exact ⟨t, ht, rfl⟩
  | cons v rest ih =>
      rw [List.map_cons, List.mem_cons, not_or] at hne
      obtain ⟨hget, hactive⟩ := Ledger.get?_of_activeTrove ht
      obtain ⟨slot, hkept⟩ := Ledger.get?_leave hne.1 hget v.entire .closedByLiquidation
      have hlater : (l.closeLiquidated v.borrower v.entire).activeTrove owner = .ok { t with slot } :=
        Ledger.activeTrove_of_get? hkept hactive
      obtain ⟨r, hr, hstake⟩ := ih hlater hne.2
      exact ⟨r, hr, hstake⟩

/-- A batch that leaves one place of the row leaves an active trove. -/
theorem exists_unplanned (h : Closable l values) (hl : l.InOrder) (hothers : values.length < l.activeCount) :
    ∃ owner t, l.activeTrove owner = .ok t ∧ owner ∉ values.map LiquidationValues.borrower := by
  have hcount := activeCount_closeAll h hl
  have hleft : 0 < (closeAll l values).owners.length := by
    show 0 < (closeAll l values).activeCount
    omega
  obtain ⟨t, hget, hactive, -⟩ := (inOrder_closeAll h hl).placed 0 _ (List.getElem?_eq_getElem hleft)
  obtain ⟨hne, before, hbefore, -⟩ := activeTrove_of_closeAll h hl (Ledger.activeTrove_of_get? hget hactive)
  exact ⟨_, before, hbefore, hne⟩

/-- Nothing is staked after a batch exactly if no active trove outside of it stakes anything. -/
theorem totalStakes_closeAll_eq_zero_iff (h : Closable l values) (hl : l.InOrder) (hregular : l.Regular) :
    (closeAll l values).rewards.totalStakes.units = 0 ↔
      ∀ owner t, l.activeTrove owner = .ok t → owner ∉ values.map LiquidationValues.borrower → t.stake = .zero := by
  rw [(regular_closeAll h hregular).totalStakes_eq_zero_iff]
  constructor
  · intro hnone owner t ht hne
    obtain ⟨r, hr, hstake⟩ := exists_activeTrove_closeAll ht hne
    exact hstake.symm.trans (hnone owner r hr)
  · intro hnone owner t ht
    obtain ⟨hne, before, hbefore, hstake⟩ := activeTrove_of_closeAll h hl ht
    exact hstake.symm.trans (hnone owner before hbefore hne)

/-! ## Commits -/

/-- **A commit fails with a degenerate division** exactly when there is debt to redistribute and nobody who is left
stakes anything. -/
theorem commit_degenerate_iff (hfits : plan.Fits s.ledger) (hregular : s.ledger.Regular) (horder : s.ledger.InOrder)
    (hforecast : plan.values.foldlM RunningState.advance (.now s.ledger s.pool) = .ok forecast)
    (hsome : plan.isEmpty = false) :
    (∃ division, (perform (commit plan) s).2 = .error (.degenerateDivision division)) ↔
      0 < plan.totals.redistributedDebt.units ∧ ∀ owner t, s.ledger.activeTrove owner = .ok t →
        owner ∉ plan.values.map LiquidationValues.borrower → t.stake = .zero := by
  rw [← totalStakes_closeAll_eq_zero_iff (closable_of_fits hfits) horder hregular]
  constructor
  · rintro ⟨division, h⟩
    have hrefused : perform (commit plan) s = (_, .error (.degenerateDivision division)) := Prod.ext rfl h
    rcases commit_refused hfits hregular hforecast hrefused with ⟨-, hother⟩ | ⟨-, hdegenerate⟩ | hother | ⟨_, hother⟩
    · cases hother
    · exact hdegenerate
    · cases hother
    · cases hother
  · rintro ⟨hdebt, hstakes⟩
    have hnothing : (closeAll s.ledger plan.values).rewards.totalStakes.isZero = true :=
      Amount.isZero_iff.2 (Amount.ext hstakes)
    refine ⟨.redistribution, ?_⟩
    unfold commit
    rw [perform_get_bind, hsome, if_neg Bool.false_ne_true, perform_liftM_bind (minus_stakes hfits hregular),
      Rewards.redistribution, if_neg (Amount.units_pos_iff.1 hdebt), if_pos hnothing]
    rfl

theorem stakesCovered_closeAll (h : l.StakesCovered) (values : List LiquidationValues) :
    (closeAll l values).StakesCovered := by
  induction values generalizing l with
  | nil => exact h
  | cons v rest ih =>
      rw [closeAll_cons]
      exact ih (h.leave v.borrower v.entire (by decide))

/-- A batch changes no record after the closures, and takes the basis of what is left. -/
theorem Committed.stakesCovered {inflow outflow settlements : Nat} (hcommitted : Committed s s' plan outcome)
    (h : s.ledger.StakesCovered) (hfits : plan.Fits s.ledger) (hregular : s.ledger.Regular)
    (hsound : (s.ledger.books .collateral).Sound inflow outflow 0 settlements) (hinflow : inflow < 2 ^ 128) :
    s'.ledger.StakesCovered := by
  have hbacked : s'.ledger.StakesBacked := by
    unfold Ledger.StakesBacked
    rw [hcommitted.records.1]
    exact (stakesCovered_closeAll h plan.values).backed
  have hafter := hcommitted.sound hfits hregular hsound hinflow
  have hrebased := hbacked.rebase (hcommitted.regular hfits hregular) hafter.recorded_eq
  rw [hcommitted.parts.1] at hrebased ⊢
  exact hrebased

end Liquidator

end CollateralDebt
