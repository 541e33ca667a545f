import CollateralDebt.Liquidation.Commit
import CollateralDebt.Proofs.Ledger.Row
import CollateralDebt.Proofs.Liquidation.Plan
import CollateralDebt.Proofs.StabilityPool.Operations

/-! A committed batch, trove by trove. Closing one trove of a plan leaves the others as the plan has them, so the
books stay sound after every part of the batch, with the entire amounts of the troves closed so far counted as
taken. The redistribution was prepared for the stakes that are left, and brings back what is redistributed; the
rest has gone out. -/

open CollateralDebt.Action

namespace CollateralDebt

namespace Liquidator

variable {l : Ledger} {v w : LiquidationValues} {values : List LiquidationValues}

theorem closeAll_cons (l : Ledger) (v : LiquidationValues) (values : List LiquidationValues) :
    closeAll l (v :: values) = closeAll (l.closeLiquidated v.borrower v.entire) values := rfl

/-- A trove of a plan is still found as planned after another one is closed. -/
theorem found_closeLiquidated (h : v.Found l) (hne : v.borrower ≠ w.borrower) :
    v.Found (l.closeLiquidated w.borrower w.entire) := by
  obtain ⟨t, hfound, hentire⟩ := h
  obtain ⟨slot, hkept⟩ := Ledger.found_leave hfound hentire hne w.entire .closedByLiquidation
  exact ⟨_, hkept⟩

theorem found_closeAll (h : v.Found l) (hne : v.borrower ∉ values.map LiquidationValues.borrower) :
    v.Found (closeAll l values) := by
  induction values generalizing l with
  | nil => exact h
  | cons w rest ih =>
      rw [List.map_cons, List.mem_cons, not_or] at hne
      rw [closeAll_cons]
      exact ih (found_closeLiquidated h hne.1) hne.2

theorem closeAll_rewards (l : Ledger) (values : List LiquidationValues) :
    (closeAll l values).rewards = { l.rewards with totalStakes := (closeAll l values).rewards.totalStakes } := by
  induction values generalizing l with
  | nil => rfl
  | cons v rest ih =>
      obtain ⟨owners, troves, -, hframe⟩ := Ledger.leave_frame l v.borrower v.entire .closedByLiquidation
      rw [closeAll_cons, ih, Ledger.closeLiquidated_eq_leave, hframe]
      rfl

theorem closeAll_supply (l : Ledger) (values : List LiquidationValues) :
    (closeAll l values).minted = l.minted ∧ (closeAll l values).burned = l.burned := by
  induction values generalizing l with
  | nil => exact ⟨rfl, rfl⟩
  | cons v rest ih =>
      obtain ⟨owners, troves, -, hframe⟩ := Ledger.leave_frame l v.borrower v.entire .closedByLiquidation
      rw [closeAll_cons, (ih _).1, (ih _).2, Ledger.closeLiquidated_eq_leave, hframe]
      exact ⟨rfl, rfl⟩

/-- Troves that a ledger has as planned, each of them once. -/
structure Closable (l : Ledger) (values : List LiquidationValues) : Prop where
  found : ∀ v ∈ values, v.Found l
  distinct : (values.map LiquidationValues.borrower).Nodup

theorem Closable.tail (h : Closable l (v :: values)) :
    Closable (l.closeLiquidated v.borrower v.entire) values := by
  obtain ⟨hfound, hdistinct⟩ := h
  rw [List.map_cons, List.nodup_cons] at hdistinct
  refine ⟨fun w hmem => ?_, hdistinct.2⟩
  apply found_closeLiquidated (hfound w (List.mem_cons_of_mem _ hmem))
  intro hsame
  exact hdistinct.1 (hsame ▸ List.mem_map_of_mem hmem)

theorem Closable.split {before after : List LiquidationValues} (h : Closable l (before ++ v :: after)) :
    Closable l before ∧ v.Found (closeAll l before) := by
  obtain ⟨hfound, hdistinct⟩ := h
  rw [List.map_append, List.nodup_append] at hdistinct
  refine ⟨⟨fun w hmem => hfound w (List.mem_append_left _ hmem), hdistinct.1⟩, ?_⟩
  apply found_closeAll (hfound v (List.mem_append_right _ List.mem_cons_self))
  intro hmem
  exact hdistinct.2.2 _ hmem _ List.mem_cons_self rfl

theorem regular_closeAll (h : Closable l values) (hregular : l.Regular) : (closeAll l values).Regular := by
  induction values generalizing l with
  | nil => exact hregular
  | cons v rest ih =>
      obtain ⟨t, hfound, hentire⟩ := h.found v List.mem_cons_self
      rw [closeAll_cons]
      exact ih h.tail (hregular.leave hfound hentire (by decide))

/-- The stakes that are left, and those of the troves closed, are all there were. -/
theorem stakes_closeAll (h : Closable l values) (hregular : l.Regular) :
    (closeAll l values).rewards.totalStakes.units + (values.map fun v => v.entire.stake.units).sum =
      l.rewards.totalStakes.units := by
  induction values generalizing l with
  | nil => rfl
  | cons v rest ih =>
      obtain ⟨t, hfound, hentire⟩ := h.found v List.mem_cons_self
      have hrest := ih h.tail (hregular.leave hfound hentire (by decide))
      have hle := Ledger.le_activeTotal hfound fun t => t.stake.units
      have htotal := hregular.stakes
      have hstake := congrArg Amount.units (Rewards.entire_eq_ok hentire).2.1
      obtain ⟨owners, troves, -, hframe⟩ := Ledger.leave_frame l v.borrower v.entire .closedByLiquidation
      have hdropped : (l.closeLiquidated v.borrower v.entire).rewards.totalStakes.units =
          l.rewards.totalStakes.units - v.entire.stake.units := by
        rw [Ledger.closeLiquidated_eq_leave, hframe]
        rfl
      rw [closeAll_cons, List.map_cons, List.sum_cons]
      omega

theorem inOrder_closeAll (h : Closable l values) (hl : l.InOrder) : (closeAll l values).InOrder := by
  induction values generalizing l with
  | nil => exact hl
  | cons v rest ih =>
      obtain ⟨t, hfound, -⟩ := h.found v List.mem_cons_self
      rw [closeAll_cons]
      exact ih h.tail (hl.leave hfound v.entire (by decide))

/-- Every trove of a batch that is closed takes its owner out of the row. -/
theorem activeCount_closeAll (h : Closable l values) (hl : l.InOrder) :
    (closeAll l values).activeCount + values.length = l.activeCount := by
  induction values generalizing l with
  | nil => rfl
  | cons v rest ih =>
      obtain ⟨t, hfound, -⟩ := h.found v List.mem_cons_self
      have hrest := ih h.tail (hl.leave hfound v.entire (by decide))
      have hleft := hl.length_leave hfound v.entire .closedByLiquidation
      rw [closeAll_cons, List.length_cons, ← Nat.add_assoc, hrest]
      exact hleft

/-- **After any part of a batch the books are sound.** The entire amounts of the troves closed are out of the active
pool, and every one of them settled. -/
theorem sound_closeAll {a : Asset} {inflow outflow taken settlements : Nat} (h : Closable l values)
    (hsound : (l.books a).Sound inflow outflow taken settlements) (hinflow : inflow < 2 ^ 128) :
    ((closeAll l values).books a).Sound inflow outflow
      (taken + (values.map fun v => (a.entire v.entire).units).sum) (settlements + values.length) := by
  induction values generalizing l taken settlements with
  | nil => exact hsound
  | cons v rest ih =>
      obtain ⟨t, hfound, hentire⟩ := h.found v List.mem_cons_self
      have hturn := Ledger.leave_turnover hfound hentire (show TroveStatus.closedByLiquidation ≠ .active by decide)
        hsound hinflow
      have hsum := (Rewards.entire_eq_ok hentire).2.2 a
      have hpending := Ledger.pending_eq_due (a := a) hfound hentire
      have hclosed : ((l.closeLiquidated v.borrower v.entire).books a).Sound inflow outflow
          (taken + (a.entire v.entire).units) (settlements + 1) := by
        refine hturn.sound hsound ?_ (Nat.le_refl _)
        simp only [Option.elim_some, Option.elim_none]
        omega
      have hrest := ih h.tail hclosed
      rw [closeAll_cons, List.map_cons, List.sum_cons, List.length_cons, ← Nat.add_assoc, Nat.add_comm rest.length,
        ← Nat.add_assoc]
      exact hrest

theorem offsetFor_eq_ok {s : StabilityPool} {totals : LiquidationTotals} {offset : Option Offset}
    (h : offsetFor s totals = .ok offset) :
    (offset.elim 0 fun o => o.debtLoss.units) = totals.offsetDebt.units := by
  unfold offsetFor at h
  split at h
  · next hzero =>
      cases h
      rw [Amount.isZero_iff.1 hzero]
      rfl
  · obtain ⟨o, ho, rfl⟩ := except_map_eq_ok.1 h
    rw [Option.elim_some, (StabilityPool.offsetOf_eq_ok ho).1]

theorem offsetOf_of_offsetFor {s : StabilityPool} {totals : LiquidationTotals} {o : Offset}
    (h : offsetFor s totals = .ok (some o)) : s.offsetOf totals.offsetDebt totals.poolCollateral = .ok o := by
  unfold offsetFor at h
  split at h
  · cases h
  · obtain ⟨o', ho, hsame⟩ := except_map_eq_ok.1 h
    cases hsame
    exact ho

theorem offsetFor_eq_some {s : StabilityPool} {totals : LiquidationTotals} {o : Offset}
    (h : offsetFor s totals = .ok (some o)) :
    o.debtLoss = totals.offsetDebt ∧ o.collateralGain = totals.poolCollateral := by
  obtain ⟨hloss, hgain, -⟩ := StabilityPool.offsetOf_computes (offsetOf_of_offsetFor h)
  exact ⟨hloss, hgain⟩

theorem redistributed_debt {r : Rewards} {collateral debt stakes : Amount} {redistribution : Option Redistribution}
    (h : r.redistribution collateral debt stakes = .ok redistribution) :
    (redistribution.elim 0 fun d => d.debt.units) = debt.units := by
  cases redistribution with
  | some d => rw [Option.elim_some, (Rewards.redistribution_eq_ok h).2.1]
  | none =>
      unfold Rewards.redistribution at h
      split at h
      · next hzero =>
          rw [Amount.isZero_iff.1 hzero]
          rfl
      · split at h
        · cases h
        · obtain ⟨_, -, h⟩ := except_bind_eq_ok.1 h
          obtain ⟨_, -, h⟩ := except_bind_eq_ok.1 h
          obtain ⟨_, -, h⟩ := except_bind_eq_ok.1 h
          obtain ⟨_, -, h⟩ := except_bind_eq_ok.1 h
          cases h

/-- A plan was committed. -/
structure Committed (s s' : Liquidator) (plan : LiquidationPlan) (outcome : LiquidationOutcome) : Prop where
  nonempty : plan.isEmpty = false
  redistribution : ∃ stakes, s.ledger.rewards.totalStakes.minus plan.totals.stakes = .ok stakes ∧
    s.ledger.rewards.redistribution plan.totals.redistributedCollateral plan.totals.redistributedDebt stakes =
      .ok outcome.redistribution
  offset : offsetFor s.pool plan.totals = .ok outcome.offset
  state : s' = s.carryOut plan outcome.redistribution outcome.offset
  outcome : outcome = ⟨plan.price, plan.recoveryAtStart, plan.values, plan.totals, outcome.offset, outcome.redistribution⟩

theorem commit_eq_ok {s s' : Liquidator} {plan : LiquidationPlan} {outcome : LiquidationOutcome}
    (h : perform (commit plan) s = (s', .ok outcome)) : Committed s s' plan outcome := by
  unfold commit at h
  rw [perform_get_bind] at h
  obtain ⟨hnonempty, h⟩ := perform_guard_eq_ok.1 h
  obtain ⟨stakes, hstakes, h⟩ := perform_liftM_bind_eq_ok.1 h
  obtain ⟨redistribution, hredistribution, h⟩ := perform_liftM_bind_eq_ok.1 h
  obtain ⟨offset, hoffset, h⟩ := perform_liftM_bind_eq_ok.1 h
  rw [perform_set_bind, perform_pure] at h
  obtain ⟨rfl, hresult⟩ := Prod.mk.inj h
  cases hresult
  exact ⟨by simpa using hnonempty, ⟨stakes, hstakes, hredistribution⟩, hoffset, rfl, rfl⟩

/-- A batch was planned for the state as it stood, and committed. -/
theorem liquidateBatch_eq_ok {p : Params} {price : Amount} {borrowers : List Address} {s s' : Liquidator}
    {outcome : LiquidationOutcome} (h : perform (liquidateBatch p price borrowers) s = (s', .ok outcome)) :
    ∃ plan, LiquidationPlan.make s.ledger s.pool p price borrowers = .ok plan ∧ Committed s s' plan outcome := by
  unfold liquidateBatch at h
  rw [perform_get_bind] at h
  obtain ⟨plan, hplan, h⟩ := perform_liftM_bind_eq_ok.1 h
  obtain ⟨-, h⟩ := perform_guard_eq_ok.1 h
  exact ⟨plan, hplan, commit_eq_ok h⟩

/-- A batch that was done is a plan for the troves as they stood, and was committed. -/
theorem exists_committed {p : Params} {price : Amount} {borrowers : List Address} {s s' : Liquidator}
    {outcome : LiquidationOutcome} (h : perform (liquidateBatch p price borrowers) s = (s', .ok outcome)) :
    ∃ plan : LiquidationPlan, plan.Fits s.ledger ∧ Committed s s' plan outcome := by
  obtain ⟨plan, hplan, hcommitted⟩ := liquidateBatch_eq_ok h
  exact ⟨plan, LiquidationPlan.fits_of_make hplan, hcommitted⟩

theorem liquidate_eq_ok {p : Params} {price : Amount} {borrower : Address} {s s' : Liquidator}
    {outcome : LiquidationOutcome} (h : perform (liquidate p price borrower) s = (s', .ok outcome)) :
    s.ledger.isActive borrower = true ∧ 1 < s.ledger.activeCount ∧
      perform (liquidateBatch p price [borrower]) s = (s', .ok outcome) := by
  unfold liquidate at h
  rw [perform_get_bind] at h
  obtain ⟨hactive, h⟩ := perform_guard_eq_ok.1 h
  obtain ⟨hcount, h⟩ := perform_guard_eq_ok.1 h
  exact ⟨by simpa using hactive, Nat.lt_of_not_le hcount, h⟩

end Liquidator

end CollateralDebt
