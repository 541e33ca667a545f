import CollateralDebt.Proofs.Liquidation.Stakes
import CollateralDebt.Proofs.Machine.Collateral
import CollateralDebt.Proofs.Machine.Order

/-! Who shares in redistributions. The stake of an active trove is the one that the latest operation of its owner gave
it, worked out from the basis that the last liquidation before it had left. A redistribution makes the basis smaller
against the collateral of the system. Once the basis asks for more collateral than a trove has for one unit of stake, the
trove is active with no stake and takes no part in redistributions, and a batch that leaves only such troves cannot be
committed with debt to redistribute (`Run.shares_iff`). -/

open CollateralDebt.Action

namespace CollateralDebt

namespace Machine

variable {p : Params} {m m' : Machine} {t : Transcript} {owner : Address} {operation : Operation} {given trove : Trove}

/-- The latest operation of an owner in a transcript was done in a machine, and gave a trove. -/
def GivenLast (p : Params) (t : Transcript) (owner : Address) (m : Machine) (given : Trove) : Prop :=
  ∃ later operation earlier m', t = later ++ (operation, .trove given) :: earlier ∧
    (∀ step ∈ later, step.1.borrower? ≠ some owner) ∧ operation.borrower? = some owner ∧ Run p m earlier ∧
    perform (execute operation) m = (m', .ok (.trove given))

theorem GivenLast.later {step : Operation × OperationResult} (h : GivenLast p t owner m given)
    (hother : step.1.borrower? ≠ some owner) : GivenLast p (step :: t) owner m given := by
  obtain ⟨later, operation, earlier, m', rfl, hlater, hrest⟩ := h
  exact ⟨step :: later, operation, earlier, m', rfl, List.forall_mem_cons.2 ⟨hother, hlater⟩, hrest⟩

/-! ## Where a stake is from -/

/-- An operation that gives an owner a trove works its stake out from the basis there is. -/
theorem newStake_of_execute (howner : operation.borrower? = some owner)
    (h : perform (execute operation) m = (m', .ok (.trove given))) :
    0 < given.collateral.units ∧ m.state.ledger.rewards.newStake given.collateral = .ok given.stake := by
  obtain ⟨price, adjustment, ledger, -, hborrows, -⟩ := borrows_of_execute howner h
  cases hborrows with
  | opened hpasses hdone =>
      obtain ⟨hopened, rfl, -⟩ := Ledger.openTrove_eq_ok hdone
      exact ⟨hpasses.collateral_pos, hopened.stake⟩
  | adjusted hentire hcollateral hdebt hpasses hdone =>
      obtain ⟨old, e, hadjusted, -, rfl, -⟩ := Ledger.adjust_eq_ok hdone
      exact ⟨hpasses.collateral_pos, hadjusted.stake⟩

/-- **Whose trove is active after an operation** was given it by the operation, or had one with the same stake before. -/
theorem stake_of_effect {feed : PriceFeed} {s s' : Liquidator} {result : OperationResult} (horder : s.ledger.InOrder)
    (heffect : Effect p feed s operation result s') (hfound : s'.ledger.activeTrove owner = .ok trove) :
    operation.borrower? = some owner ∧ result = .trove trove ∨
      operation.borrower? ≠ some owner ∧ ∃ before, s.ledger.activeTrove owner = .ok before ∧ before.stake = trove.stake := by
  have hput : ∀ {other given}, s'.ledger.troves = s.ledger.troves.insert other given →
      (some other = some owner ∧ OperationResult.trove given = .trove trove) ∨
        some other ≠ some owner ∧ ∃ before, s.ledger.activeTrove owner = .ok before ∧ before.stake = trove.stake := by
    intro other given htroves
    rcases Ledger.activeTrove_of_insert htroves hfound with ⟨rfl, rfl⟩ | ⟨hne, hbefore⟩
    · exact .inl ⟨rfl, rfl⟩
    · exact .inr ⟨fun hsame => hne (Option.some.inj hsame), trove, hbefore, rfl⟩
  have hliquidated : ∀ outcome, Effect p feed s operation (.liquidation outcome) s' →
      ∃ before, s.ledger.activeTrove owner = .ok before ∧ before.stake = trove.stake := by
    intro outcome hliquidation
    obtain ⟨⟨plan, hfits, hcommitted⟩, -⟩ := hliquidation.committed
    have hclosed : (Liquidator.closeAll s.ledger plan.values).activeTrove owner = .ok trove := by
      rw [Ledger.activeTrove, ← hcommitted.records.1]
      exact hfound
    exact (Liquidator.activeTrove_of_closeAll (Liquidator.closable_of_fits hfits) horder hclosed).2
  have hnobody : none ≠ some owner := (Option.some_ne_none owner).symm
  cases heffect with
  | opened hdone => exact hput (Ledger.openTrove_eq_ok hdone).1.troves
  | adjusted hentire hcollateral hdebt hdone =>
      obtain ⟨old, e, hadjusted, -⟩ := Ledger.adjust_eq_ok hdone
      exact hput hadjusted.troves
  | closed hdone =>
      obtain ⟨old, e, hrepaid, -⟩ := Ledger.closeByOwner_eq_ok hdone
      rw [hrepaid.left] at hfound
      obtain ⟨hne, hbefore⟩ := horder.activeTrove_of_leave hrepaid.found (by decide) hfound
      exact .inr ⟨fun hsame => hne (Option.some.inj hsame).symm, hbefore⟩
  | provided hdone => exact .inr ⟨hnobody, trove, hfound, rfl⟩
  | withdrawn hdone => exact .inr ⟨hnobody, trove, hfound, rfl⟩
  | liquidated hprice hdone => exact .inr ⟨hnobody, hliquidated _ (.liquidated hprice hdone)⟩
  | batchLiquidated hprice hdone => exact .inr ⟨hnobody, hliquidated _ (.batchLiquidated hprice hdone)⟩
  | claimed hdone => exact .inr ⟨hnobody, trove, hfound, rfl⟩

/-- The stake of an active trove is the one that it was given last. -/
theorem Run.givenLast (h : Run p m t) (hfound : m.state.ledger.activeTrove owner = .ok trove) :
    ∃ m₀ given, GivenLast p t owner m₀ given ∧ trove.stake = given.stake := by
  induction h generalizing trove with
  | start hcreate =>
      obtain ⟨-, hstate, -⟩ := create_eq_ok hcreate
      rw [hstate] at hfound
      cases hfound
  | @done m m' t operation result h hdone ih =>
      obtain ⟨heffect, -⟩ := effect_of_execute hdone
      rcases stake_of_effect h.kept.inOrder heffect hfound with ⟨howner, rfl⟩ | ⟨hother, before, hbefore, hstake⟩
      · exact ⟨m, trove, ⟨[], operation, t, m', rfl, fun step hmem => (nomatch hmem), howner, h, hdone⟩, rfl⟩
      · obtain ⟨m₀, given, hgiven, hsame⟩ := ih hbefore
        exact ⟨m₀, given, hgiven.later hother, hstake.symm.trans hsame⟩
  | @refused m m' t operation e h hrefused ih =>
      have hsame : m' = m := execute_allOrNothing _ _ _ _ hrefused
      rw [hsame] at hfound
      exact ih hfound
  | priced h hpriced ih =>
      obtain ⟨feed, rfl⟩ := setPrice_frame hpriced
      exact ih hfound

/-- **Who shares in redistributions.** An active trove of any machine that is reached has the stake that the latest
operation of its owner gave it. That is nothing exactly if the basis at that time had some stakes, and asked for more
than the collateral of the trove for one unit. Of the active troves at least one is not among those of a plan; and the
commit of a plan that has some fails with a degenerate division exactly if there is debt to redistribute and none of
the active troves that are not in it stakes anything. So it never does while all active troves have stakes. -/
theorem Run.shares_iff (h : Run p m t) :
    (∀ owner trove, m.state.ledger.activeTrove owner = .ok trove → ∃ m₀ given, GivenLast p t owner m₀ given ∧
      trove.stake = given.stake ∧
      (trove.stake = .zero ↔ 0 < m₀.state.ledger.rewards.stakesBasis.units ∧
        given.collateral.units * m₀.state.ledger.rewards.stakesBasis.units <
          m₀.state.ledger.rewards.collateralBasis.units)) ∧
    ∀ q price borrowers plan,
      LiquidationPlan.make m.state.ledger m.state.pool q price borrowers = .ok plan → plan.isEmpty = false →
      (∃ owner trove, m.state.ledger.activeTrove owner = .ok trove ∧
        owner ∉ plan.values.map LiquidationValues.borrower) ∧
      ((∃ division, (perform (Liquidator.commit plan) m.liquidator).2 = .error (.degenerateDivision division)) ↔
        0 < plan.totals.redistributedDebt.units ∧ ∀ owner trove, m.state.ledger.activeTrove owner = .ok trove →
          owner ∉ plan.values.map LiquidationValues.borrower → trove.stake = .zero) ∧
      ((∀ owner trove, m.state.ledger.activeTrove owner = .ok trove → 0 < trove.stake.units) →
        ∀ division, (perform (Liquidator.commit plan) m.liquidator).2 ≠ .error (.degenerateDivision division)) := by
  refine ⟨fun owner trove hfound => ?_, fun q price borrowers plan hplan hsome => ?_⟩
  · obtain ⟨m₀, given, hgiven, hstake⟩ := h.givenLast hfound
    obtain ⟨later, operation, earlier, m', -, -, howner, -, hdone⟩ := id hgiven
    obtain ⟨hcollateral, hnew⟩ := newStake_of_execute howner hdone
    exact ⟨m₀, given, hgiven, hstake, hstake ▸ Rewards.newStake_eq_zero_iff hcollateral hnew⟩
  · have hfits : plan.Fits m.liquidator.ledger := LiquidationPlan.fits_of_make hplan
    have horder : m.liquidator.ledger.InOrder := h.kept.inOrder
    obtain ⟨forecast, hforecast, hothers⟩ := LiquidationPlan.forecast_of_make hplan
    have hlength : 0 < plan.values.length := by
      rw [LiquidationPlan.isEmpty, List.isEmpty_eq_false_iff] at hsome
      exact List.length_pos_iff.2 hsome
    have hleft := Liquidator.exists_unplanned (Liquidator.closable_of_fits hfits) horder
      (show plan.values.length < m.state.ledger.activeCount by omega)
    have hdegenerate := Liquidator.commit_degenerate_iff hfits h.accounted.regular horder hforecast hsome
    refine ⟨hleft, hdegenerate, fun hpositive division hfail => ?_⟩
    obtain ⟨owner, trove, hfound, hne⟩ := hleft
    have hzero := (hdegenerate.1 ⟨division, hfail⟩).2 owner trove hfound hne
    have hpos := hpositive owner trove hfound
    rw [hzero] at hpos
    exact Nat.lt_irrefl 0 hpos

/-- A very large trove is redistributed to a small one, and that one to another small one, whose stake is by then far
less than a unit. A trove with two units of collateral is opened, and the price falls again. -/
def starvedRequests : List Request := [
  .price (.ofWhole 100),
  .operation (.openTrove (.ofWord 1) (.ofWhole 40000000000) (.ofWhole 2400000000000)),
  .operation (.openTrove (.ofWord 2) (.ofWhole 27) (.ofWhole 1800)),
  .price (.ofWhole 65),
  .operation (.liquidate (.ofWord 9) (.ofWord 1)),
  .price (.ofWhole 100),
  .operation (.openTrove (.ofWord 3) (.ofWhole 27) (.ofWhole 1800)),
  .price (.ofWhole 65),
  .operation (.liquidate (.ofWord 9) (.ofWord 2)),
  .price (.ofWhole 1000),
  .operation (.openTrove (.ofWord 4) (.ofWhole 2) (.ofWhole 1800)),
  .price (.ofWhole 60)]

def starvedReached : Machine := (replay sampleStart starvedRequests).1

def starvedTranscript : Transcript := (replay sampleStart starvedRequests).2

theorem run_starved : Run .standard starvedReached starvedTranscript := run_replay create_sample starvedRequests

/-- The commit of a plan for the trove with all the stakes is refused. -/
theorem starved_refused : ∃ plan,
    LiquidationPlan.make starvedReached.state.ledger starvedReached.state.pool starvedReached.state.params (.ofWhole 60)
      [.ofWord 3] = .ok plan ∧
    plan.isEmpty = false ∧ plan.values.map LiquidationValues.borrower = [.ofWord 3] ∧
    (perform (Liquidator.commit plan) starvedReached.liquidator).2 = .error (.degenerateDivision .redistribution) := by
  have hran : (LiquidationPlan.make starvedReached.state.ledger starvedReached.state.pool starvedReached.state.params
      (.ofWhole 60) [.ofWord 3]).map (fun plan => (plan.isEmpty, plan.values.map LiquidationValues.borrower,
        (perform (Liquidator.commit plan) starvedReached.liquidator).2)) =
      .ok (false, [.ofWord 3], .error (.degenerateDivision .redistribution)) := by decide +kernel
  obtain ⟨plan, hplan, hfacts⟩ := except_map_eq_ok.1 hran
  obtain ⟨hsome, hfacts⟩ := Prod.mk.inj hfacts
  obtain ⟨hborrowers, hrefused⟩ := Prod.mk.inj hfacts
  exact ⟨plan, hplan, hsome, hborrowers, hrefused⟩

theorem starved_stake : ∃ trove, starvedReached.state.ledger.activeTrove (.ofWord 4) = .ok trove ∧
    trove.stake = .zero := by
  have hstake : (starvedReached.state.ledger.activeTrove (.ofWord 4)).map Trove.stake = .ok .zero := by decide +kernel
  exact except_map_eq_ok.1 hstake

/-- The basis at which the last trove was opened asked for more than two units of collateral for the least stake, and
with that trove alone left the debt of the other one cannot be redistributed. -/
theorem Run.shares_iff_starved :
    (∃ trove m₀ given, starvedReached.state.ledger.activeTrove (.ofWord 4) = .ok trove ∧ trove.stake = .zero ∧
      GivenLast .standard starvedTranscript (.ofWord 4) m₀ given ∧
      given.collateral.units * m₀.state.ledger.rewards.stakesBasis.units <
        m₀.state.ledger.rewards.collateralBasis.units) ∧
    ∃ plan, LiquidationPlan.make starvedReached.state.ledger starvedReached.state.pool starvedReached.state.params
        (.ofWhole 60) [.ofWord 3] = .ok plan ∧
      (perform (Liquidator.commit plan) starvedReached.liquidator).2 = .error (.degenerateDivision .redistribution) ∧
      0 < plan.totals.redistributedDebt.units ∧
      ∀ owner trove, starvedReached.state.ledger.activeTrove owner = .ok trove →
        owner ∉ plan.values.map LiquidationValues.borrower → trove.stake = .zero := by
  obtain ⟨hstakes, hplans⟩ := Run.shares_iff run_starved
  obtain ⟨trove, hfound, hzero⟩ := starved_stake
  obtain ⟨m₀, given, hgiven, -, hiff⟩ := hstakes _ _ hfound
  obtain ⟨plan, hplan, hsome, -, hrefused⟩ := starved_refused
  obtain ⟨-, hdegenerate, -⟩ := hplans _ _ _ plan hplan hsome
  obtain ⟨hdebt, hleft⟩ := hdegenerate.1 ⟨_, hrefused⟩
  exact ⟨⟨trove, m₀, given, hfound, hzero, hgiven, (hiff.1 hzero).2⟩, plan, hplan, hrefused, hdebt, hleft⟩

/-- An active trove has no stake, and a plan that has a trove cannot be committed for want of stakes. -/
theorem not_shared_starved :
    (¬∀ p m t, Run p m t → ∀ owner trove, m.state.ledger.activeTrove owner = .ok trove → 0 < trove.stake.units) ∧
    ¬∀ p m t, Run p m t → ∀ price borrowers plan,
      LiquidationPlan.make m.state.ledger m.state.pool m.state.params price borrowers = .ok plan →
      plan.isEmpty = false →
      ∀ division, (perform (Liquidator.commit plan) m.liquidator).2 ≠ .error (.degenerateDivision division) := by
  constructor
  · intro hclaim
    obtain ⟨trove, hfound, hzero⟩ := starved_stake
    have hpositive := hclaim _ _ _ run_starved _ _ hfound
    rw [hzero] at hpositive
    exact Nat.lt_irrefl 0 hpositive
  · intro hclaim
    obtain ⟨plan, hplan, hsome, -, hrefused⟩ := starved_refused
    exact hclaim _ _ _ run_starved _ _ plan hplan hsome _ hrefused

end Machine

end CollateralDebt
