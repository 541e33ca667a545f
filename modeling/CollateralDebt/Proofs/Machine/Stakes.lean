import CollateralDebt.Proofs.Liquidation.Stakes
import CollateralDebt.Proofs.Machine.Collateral

/-! Stakes over a whole run. A liquidation takes stakes with the troves that have them, and then the basis anew, from
totals that gas compensation, offsets and surplus have left, in whatever proportion. But the collateral that stays in
the active pool is that of the troves that stay, each of which backs its own stake; so as long as what was locked and
not released is an amount, the basis never asks for more stake than collateral (`stakesCovered_of_effect`). -/

open CollateralDebt.Action

namespace CollateralDebt

namespace Machine

variable {p : Params} {m : Machine} {t : Transcript}

/-- **Every operation keeps stakes covered.** -/
theorem stakesCovered_of_effect {feed : PriceFeed} {s s' : Liquidator} {operation : Operation}
    {result : OperationResult} (h : s.ledger.StakesCovered) (haccounted : s.ledger.Accounted t) (hrange : t.InRange)
    (heffect : Effect p feed s operation result s') : s'.ledger.StakesCovered := by
  have hliquidated : ∀ outcome, Effect p feed s operation (.liquidation outcome) s' → s'.ledger.StakesCovered := by
    intro outcome hliquidation
    obtain ⟨⟨plan, hfits, hcommitted⟩, -⟩ := hliquidation.committed
    obtain ⟨left, hleft, -, hnet⟩ := haccounted.net hrange
    exact hcommitted.stakesCovered h hfits haccounted.regular hnet hleft
  cases heffect with
  | opened hdone => exact (Ledger.openTrove_eq_ok hdone).1.stakesCovered h
  | adjusted hentire hcollateral hdebt hdone =>
      obtain ⟨old, e, hadjusted, -⟩ := Ledger.adjust_eq_ok hdone
      exact hadjusted.stakesCovered h
  | closed hdone =>
      obtain ⟨old, e, hrepaid, -⟩ := Ledger.closeByOwner_eq_ok hdone
      exact hrepaid.stakesCovered h
  | provided hdone => exact h
  | withdrawn hdone => exact h
  | liquidated hprice hdone => exact hliquidated _ (.liquidated hprice hdone)
  | batchLiquidated hprice hdone => exact hliquidated _ (.batchLiquidated hprice hdone)
  | claimed hdone => exact h

theorem Run.stakesCovered (h : Run p m t) (hrange : t.InRange) : m.state.ledger.StakesCovered := by
  have hall := Run.induct (motive := fun s t => s.ledger.Accounted t ∧ (t.InRange → s.ledger.StakesCovered))
    ⟨Ledger.accounted_empty, fun _ => Ledger.stakesCovered_empty⟩
    (fun s s' t feed operation result hbefore heffect => by
      refine ⟨accounted_of_effect hbefore.1 heffect, fun hrange => ?_⟩
      exact stakesCovered_of_effect (hbefore.2 hrange.tail) hbefore.1 hrange.tail heffect) h
  exact hall.2.2 hrange

/-- **Stakes never exceed collateral.** In every machine reached while all collateral ever locked is an amount, an active
trove stakes at most what it has on record, all of them stake at most what the active pool holds, and the basis has at
most as many stakes as collateral. So a new stake is an amount, and no more than the collateral it is for; and where an
operation finds room for collateral in the active pool, for a new trove or in place of what a trove has, the total of
stakes has room for the stake. To compute the stake of an active trove again always succeeds. -/
theorem Run.stakes_covered (h : Run p m t) (hlocked : t.locked < 2 ^ 128) :
    (∀ owner trove, m.state.ledger.activeTrove owner = .ok trove → trove.stake ≤ trove.collateral) ∧
    m.state.ledger.rewards.totalStakes ≤ m.state.ledger.pools.activeCollateral ∧
    m.state.ledger.rewards.stakesBasis ≤ m.state.ledger.rewards.collateralBasis ∧
    (∀ collateral, ∃ stake, m.state.ledger.rewards.newStake collateral = .ok stake ∧ stake ≤ collateral) ∧
    (∀ collateral active, m.state.ledger.pools.activeCollateral.plus collateral = .ok active →
      ∃ stake rewards, m.state.ledger.rewards.newStake collateral = .ok stake ∧
        m.state.ledger.rewards.replaceStake .zero stake = .ok rewards) ∧
    (∀ owner entire collateral active, m.state.ledger.entire owner = .ok entire →
      (m.state.ledger.pools.settle entire.pending).activeCollateral.follow entire.collateral collateral = .ok active →
      ∃ stake rewards, m.state.ledger.rewards.newStake collateral = .ok stake ∧
        m.state.ledger.rewards.replaceStake entire.stake stake = .ok rewards) ∧
    ∀ owner, m.state.ledger.isActive owner = true →
      ∃ stake, (perform (Ledger.refreshStake owner) m.state.ledger).2 = .ok stake := by
  have hrange := Transcript.inRange_of_locked_lt hlocked
  have hregular := h.accounted.regular
  have hcovered := h.stakesCovered hrange
  obtain ⟨left, hleft, -, hsound⟩ := h.accounted.net hrange
  have hrecorded := hsound.recorded_eq
  refine ⟨fun owner trove hfound => ?_, hcovered.backed.totalStakes_le hregular hrecorded, hcovered.basis,
    Rewards.exists_newStake hcovered.basis, fun collateral active hroom => ?_,
    fun owner entire collateral active hentire hroom => ?_, fun owner hactive => ?_⟩
  · obtain ⟨hget, hactive⟩ := Ledger.get?_of_activeTrove hfound
    exact hcovered.backed.of_get? hget hactive
  · refine hcovered.exists_stake hregular hrecorded ?_
    rw [← Amount.plus_eq_ok_iff.1 hroom]
    exact active.units_lt
  · exact hcovered.exists_adjusted hregular hsound hleft hentire hroom
  · obtain ⟨trove, hfound⟩ := Ledger.exists_activeTrove hactive
    have hrecord : trove.collateral.units ≤ m.state.ledger.pools.activeCollateral.units :=
      Ledger.settled_le_active hsound hfound
    have hpool := m.state.ledger.pools.activeCollateral.units_lt
    obtain ⟨stake, rewards, hstake, hrewards⟩ := hcovered.exists_restake hregular hrecorded hfound trove.collateral
      (by omega)
    refine ⟨stake, ?_⟩
    unfold Ledger.refreshStake
    rw [perform_get_bind, perform_liftM_bind hfound, perform_liftM_bind hstake, perform_liftM_bind hrewards]
    rfl

/-- The trove that was opened after the first liquidation has its stake in proportion, and the next one would have less
for the same collateral. -/
theorem Run.stakes_covered_sample :
    sampleTranscript.locked < 2 ^ 128 ∧
    (∃ trove, sampleReached.state.ledger.activeTrove (.ofWord 5) = .ok trove ∧
      trove.stake.units = 995239120553123280461 ∧ trove.stake ≤ trove.collateral) ∧
    sampleReached.state.ledger.rewards.totalStakes ≤ sampleReached.state.ledger.pools.activeCollateral ∧
    (∃ stake, sampleReached.state.ledger.rewards.newStake (.ofWhole 1000) = .ok stake ∧
      stake.units = 975774867213733826828 ∧ stake ≤ .ofWhole 1000) ∧
    (∃ stake rewards, sampleReached.state.ledger.rewards.newStake (.ofWhole 1000) = .ok stake ∧
      sampleReached.state.ledger.rewards.replaceStake .zero stake = .ok rewards) ∧
    ∃ stake, (perform (Ledger.refreshStake (.ofWord 5)) sampleReached.state.ledger).2 = .ok stake := by
  have hlocked : sampleTranscript.locked < 2 ^ 128 := by decide +kernel
  obtain ⟨hbacked, htotal, -, hnew, hopens, -, hrefreshes⟩ := Run.stakes_covered run_sample hlocked
  have htrove : (sampleReached.state.ledger.activeTrove (.ofWord 5)).map (fun trove => trove.stake.units) =
      .ok 995239120553123280461 := by decide +kernel
  obtain ⟨trove, hfound, hstakeUnits⟩ := except_map_eq_ok.1 htrove
  have hstake : (sampleReached.state.ledger.rewards.newStake (.ofWhole 1000)).map Amount.units =
      .ok 975774867213733826828 := by decide +kernel
  obtain ⟨stake, hcomputed, hunits⟩ := except_map_eq_ok.1 hstake
  obtain ⟨stake', hcomputed', hle⟩ := hnew (.ofWhole 1000)
  have hsame : stake' = stake := Except.ok.inj (hcomputed'.symm.trans hcomputed)
  have hroom : (sampleReached.state.ledger.pools.activeCollateral.plus (.ofWhole 1000)).isOk = true := by decide +kernel
  obtain ⟨active, hactive⟩ := exists_ok_of_isOk hroom
  exact ⟨hlocked, ⟨trove, hfound, hstakeUnits, hbacked _ _ hfound⟩, htotal, ⟨stake, hcomputed, hunits, hsame ▸ hle⟩,
    hopens _ _ hactive, hrefreshes _ (by decide +kernel)⟩

end Machine

end CollateralDebt
