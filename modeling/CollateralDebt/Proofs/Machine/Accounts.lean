import CollateralDebt.Proofs.Liquidation.Batch
import CollateralDebt.Proofs.Machine.Run

/-! The books of a machine over a whole run. What came in as debt is what was minted and what went out is what was
burned; of collateral, what came in is what the transcript says was locked, and what went out is what it says was
released, as long as the difference has been an amount. Every operation keeps the books so. -/

open CollateralDebt.Action

namespace CollateralDebt

/-- The accounts of a ledger after what a transcript says was done. The last operation may have locked more collateral
than an amount can hold, for that is the business of the one after it. -/
structure Ledger.Accounted (l : Ledger) (t : Transcript) : Prop where
  regular : l.Regular
  debt : (l.books .debt).Sound l.minted.units l.burned.units 0 t.settlements
  held : Transcript.InRange t.tail → (l.books .collateral).Sound t.locked t.released 0 t.settlements

namespace Ledger

theorem accounted_empty : empty.Accounted [] := by
  have hbooks : ∀ a : Asset, (empty.books a).Sound 0 0 0 0 := by
    intro a
    cases a <;> exact ⟨rfl, rfl, Nat.le_refl 0, Nat.le_refl 0⟩
  exact ⟨⟨rfl, SortedMap.all_empty _⟩, hbooks .debt, fun _ => hbooks .collateral⟩

variable {l l' : Ledger} {t : Transcript} {owner : Address}

theorem Accounted.collateral (h : l.Accounted t) (hlocked : t.locked < 2 ^ 128) :
    ∃ out, (l.books .collateral).Sound t.locked out 0 t.settlements :=
  ⟨_, h.held (Transcript.inRange_of_locked_lt hlocked).tail⟩

/-- What the pools hold of collateral is an amount while the transcript is in range, and all that is needed of the books
is that nothing else came in. -/
theorem Accounted.net (h : l.Accounted t) (hrange : t.InRange) :
    ∃ left, left < 2 ^ 128 ∧ left + t.released = t.locked ∧ (l.books .collateral).Sound left 0 0 t.settlements := by
  have hsound := h.held hrange.tail
  have hlocked := hrange.locked_lt
  have hheld := hsound.held_eq
  exact ⟨_, by omega, by omega, hsound.net⟩

/-- While the transcript is in range, the books of both assets are sound with an amount that came in. -/
theorem Accounted.sound (h : l.Accounted t) (hrange : t.InRange) (a : Asset) :
    ∃ inflow outflow, inflow < 2 ^ 128 ∧ (l.books a).Sound inflow outflow 0 t.settlements := by
  cases a with
  | debt => exact ⟨_, _, l.minted.units_lt, h.debt⟩
  | collateral =>
      obtain ⟨left, hleft, -, hnet⟩ := h.net hrange
      exact ⟨left, 0, hleft, hnet⟩

/-- An operation that no trove takes part in leaves the accounts as they were. -/
theorem Accounted.quiet {step : Operation × OperationResult} (h : l.Accounted t)
    (hsettles : Transcript.settlementsOf step = 0) (hlocks : Transcript.lockedBy step = 0)
    (hreleases : Transcript.releasedBy step = 0) : l.Accounted (step :: t) := by
  have hnone : ∀ f : Operation × OperationResult → Nat, f step = 0 → ((step :: t).map f).sum = (t.map f).sum := by
    intro f hf
    rw [List.map_cons, List.sum_cons, hf, Nat.zero_add]
  have hcount : Transcript.settlements (step :: t) = t.settlements := hnone _ hsettles
  have hlocked : Transcript.locked (step :: t) = t.locked := hnone _ hlocks
  have hreleased : Transcript.released (step :: t) = t.released := hnone _ hreleases
  refine ⟨h.regular, hcount ▸ h.debt, fun hrange => ?_⟩
  rw [hcount, hlocked, hreleased]
  exact h.held (Transcript.InRange.tail hrange)

theorem Accounted.opened {collateral debt : Amount} {trove : Trove} (h : l.Accounted t)
    (hdone : perform (openTrove owner collateral debt) l = (l', .ok trove)) :
    l'.Accounted ((.openTrove owner collateral debt, .trove trove) :: t) := by
  obtain ⟨hopened, hcollateral, hdebt⟩ := openTrove_eq_ok hdone
  have hminted := Amount.plus_eq_ok_iff.1 hopened.minted
  have hsettlements : Transcript.settlements ((.openTrove owner collateral debt, .trove trove) :: t) = t.settlements :=
    Nat.zero_add _
  have hlocked : Transcript.locked ((.openTrove owner collateral debt, .trove trove) :: t) =
      collateral.units + t.locked := rfl
  have hreleased : Transcript.released ((.openTrove owner collateral debt, .trove trove) :: t) = t.released :=
    Nat.zero_add _
  refine ⟨hopened.regular h.regular, ?_, fun hrange => ?_⟩
  · refine (hopened.turnover .debt).sound h.debt ?_ (Nat.le_of_eq hsettlements.symm)
    simp only [Option.elim_some, Option.elim_none, Asset.settled, hopened.burned]
    omega
  · refine (hopened.turnover .collateral).sound (h.held (Transcript.InRange.tail hrange)) ?_
      (Nat.le_of_eq hsettlements.symm)
    simp only [Option.elim_some, Option.elim_none, Asset.settled, hcollateral]
    omega

/-- The collateral after a change is what there was, with what the change locks and without what it gives back. -/
theorem collateralAfter_eq_ok {e : EntireTrove} {change : AmountChange} {now : Amount}
    (h : Machine.collateralAfter e change = .ok now) (owner : Address) (debt : AmountChange)
    (trove : Trove) :
    now.units + Transcript.releasedBy (.adjustTrove owner change debt, .trove trove) =
      e.collateral.units + Transcript.lockedBy (.adjustTrove owner change debt, .trove trove) := by
  unfold Machine.collateralAfter at h
  cases change with
  | unchanged =>
      cases h
      rfl
  | increase amount =>
      have hplus := Amount.plus_eq_ok_iff.1 h
      exact hplus
  | decrease amount =>
      dsimp only at h
      split at h
      · cases h
      · have hminus := Amount.minus_eq_ok_iff.1 h
        show now.units + amount.units = e.collateral.units
        omega

theorem Accounted.adjusted {e : EntireTrove} {collateral debt : AmountChange} {newCollateral newDebt : Amount}
    {pending : Pending} {trove : Trove} (h : l.Accounted t) (hentire : l.entire owner = .ok e)
    (hcollateral : Machine.collateralAfter e collateral = .ok newCollateral)
    (hdone : perform (adjust owner newCollateral newDebt) l = (l', .ok (pending, trove))) :
    l'.Accounted ((.adjustTrove owner collateral debt, .trove trove) :: t) := by
  obtain ⟨old, e', hadjusted, -, rfl, -⟩ := adjust_eq_ok hdone
  have hsame : e' = e := Except.ok.inj (hadjusted.entire_before.symm.trans hentire)
  subst hsame
  have hsum := (Rewards.entire_eq_ok hadjusted.entire).2.2
  have hpending : ∀ a : Asset, _ := fun a => pending_eq_due (a := a) hadjusted.found hadjusted.entire
  obtain ⟨hminted, hburned⟩ := mintOrBurn_eq_ok hadjusted.supply
  have hcount : t.settlements + 1 ≤ Transcript.settlements ((.adjustTrove owner collateral debt, .trove trove) :: t) :=
    Nat.le_of_eq (Nat.add_comm _ _)
  have hlocked : Transcript.locked ((.adjustTrove owner collateral debt, .trove trove) :: t) =
      Transcript.lockedBy (.adjustTrove owner collateral debt, .trove trove) + t.locked := rfl
  have hreleased : Transcript.released ((.adjustTrove owner collateral debt, .trove trove) :: t) =
      Transcript.releasedBy (.adjustTrove owner collateral debt, .trove trove) + t.released := rfl
  have hflow := collateralAfter_eq_ok hcollateral owner debt trove
  refine ⟨hadjusted.regular h.regular, ?_, fun hrange => ?_⟩
  · refine (hadjusted.turnover h.debt l.minted.units_lt).sound h.debt ?_ hcount
    have hdebt := hsum .debt
    have hdue := hpending .debt
    simp only [Option.elim_some, Asset.settled, Asset.entire] at *
    omega
  · -- What the owner puts in counts as locked, and what the owner takes out as released.
    obtain ⟨left, hleft, -, hnet⟩ := h.net hrange
    have hentireUnits := hsum .collateral
    have hdue := hpending .collateral
    refine (hadjusted.turnover hnet hleft).sound (h.held (Transcript.InRange.tail hrange)) ?_ hcount
    simp only [Option.elim_some, Asset.settled, Asset.entire] at *
    omega

theorem Accounted.closed {trove : Trove} (h : l.Accounted t)
    (hdone : perform (closeByOwner owner) l = (l', .ok trove)) :
    l'.Accounted ((.closeTrove owner, .closed trove.collateral) :: t) := by
  obtain ⟨old, e, hrepaid, htrove⟩ := closeByOwner_eq_ok hdone
  have hsum := (Rewards.entire_eq_ok hrepaid.entire).2.2
  have hpending : ∀ a : Asset, _ := fun a => pending_eq_due (a := a) hrepaid.found hrepaid.entire
  have hburned := Amount.plus_eq_ok_iff.1 hrepaid.burned
  have hcount : t.settlements + 1 ≤ Transcript.settlements ((.closeTrove owner, .closed trove.collateral) :: t) :=
    Nat.le_of_eq (Nat.add_comm _ _)
  have hlocked : Transcript.locked ((.closeTrove owner, .closed trove.collateral) :: t) = t.locked := Nat.zero_add _
  have hreleased : Transcript.released ((.closeTrove owner, .closed trove.collateral) :: t) =
      trove.collateral.units + t.released := rfl
  have hregular := h.regular.leave hrepaid.found hrepaid.entire (show TroveStatus.closedByOwner ≠ .active by decide)
  have hminted : l'.minted = l.minted := by
    obtain ⟨owners, troves, -, hframe⟩ := leave_frame l owner e .closedByOwner
    rw [hrepaid.left, hframe]
    rfl
  refine ⟨by rw [hrepaid.left]; exact ⟨hregular.stakes, hregular.snapshots⟩, ?_, fun hrange => ?_⟩
  · refine (hrepaid.turnover h.debt l.minted.units_lt).sound h.debt ?_ hcount
    have hdebt := hsum .debt
    have hdue := hpending .debt
    simp only [Option.elim_some, Option.elim_none, Asset.settled, Asset.entire, hminted] at *
    omega
  · obtain ⟨left, hleft, -, hnet⟩ := h.net hrange
    refine (hrepaid.turnover hnet hleft).sound (h.held (Transcript.InRange.tail hrange)) ?_ hcount
    have hentireUnits := hsum .collateral
    have hdue := hpending .collateral
    have hreturned : trove.collateral = e.collateral := congrArg Trove.collateral htrove
    simp only [Option.elim_some, Option.elim_none, Asset.settled, Asset.entire, hreturned] at *
    omega

end Ledger

namespace Liquidator

variable {s s' : Liquidator} {t : Transcript}

theorem accounted_liquidateBatch {p : Params} {price : Amount} {borrowers : List Address} {operation : Operation}
    {outcome : LiquidationOutcome} (h : s.ledger.Accounted t)
    (hdone : perform (liquidateBatch p price borrowers) s = (s', .ok outcome))
    (hstep : Transcript.lockedBy (operation, .liquidation outcome) = 0 ∧
      Transcript.returnedBy (operation, .liquidation outcome) = 0 ∧
      Transcript.settlementsOf (operation, .liquidation outcome) = outcome.liquidated.length) :
    s'.ledger.Accounted ((operation, .liquidation outcome) :: t) := by
  obtain ⟨plan, hfits, hcommitted⟩ := exists_committed hdone
  have hliquidated : outcome.liquidated = plan.values := congrArg LiquidationOutcome.liquidated hcommitted.outcome
  obtain ⟨hlocks, hreturns, hsettles⟩ := hstep
  have hcount : Transcript.settlements ((operation, .liquidation outcome) :: t) =
      t.settlements + plan.values.length := by
    rw [Nat.add_comm, ← hliquidated, ← hsettles]
    rfl
  refine ⟨hcommitted.regular hfits h.regular, ?_, fun hrange => ?_⟩
  · rw [hcount]
    exact hcommitted.sound_debt hfits h.regular h.debt
  · obtain ⟨left, hleft, hheld, hnet⟩ := h.net hrange
    have hlost := hcommitted.lost_collateral hfits
    have hlocked : Transcript.locked ((operation, .liquidation outcome) :: t) = left + t.released := by
      rw [hheld]
      show Transcript.lockedBy _ + t.locked = t.locked
      rw [hlocks, Nat.zero_add]
    have hreleased : Transcript.released ((operation, .liquidation outcome) :: t) =
        0 + (plan.values.map Asset.collateral.lost).sum + t.released := by
      rw [hlost]
      show Transcript.releasedBy _ + t.released = _
      unfold Transcript.releasedBy
      rw [hreturns]
      simp only [Transcript.gasPaidBy, Transcript.gainedBy, Transcript.creditedBy, Nat.zero_add]
    rw [hcount, hlocked, hreleased]
    exact (hcommitted.sound hfits h.regular hnet hleft).gross t.released

end Liquidator

namespace Machine

variable {p : Params} {feed : PriceFeed} {s s' : Liquidator} {operation : Operation}

/-- The two ways to liquidate are one: some plan for the troves as they stand is committed, and no collateral is
locked. -/
theorem Effect.committed {outcome : LiquidationOutcome} (h : Effect p feed s operation (.liquidation outcome) s') :
    (∃ plan : LiquidationPlan, plan.Fits s.ledger ∧ Liquidator.Committed s s' plan outcome) ∧
      Transcript.lockedBy (operation, .liquidation outcome) = 0 := by
  cases h with
  | liquidated hprice hdone => exact ⟨Liquidator.exists_committed (Liquidator.liquidate_eq_ok hdone).2.2, rfl⟩
  | batchLiquidated hprice hdone => exact ⟨Liquidator.exists_committed hdone, rfl⟩

/-- **Every operation keeps the accounts.** -/
theorem accounted_of_effect {t : Transcript} {result : OperationResult} (h : s.ledger.Accounted t)
    (heffect : Effect p feed s operation result s') : s'.ledger.Accounted ((operation, result) :: t) := by
  cases heffect with
  | opened hdone => exact h.opened hdone
  | adjusted hentire hcollateral hdebt hdone => exact h.adjusted hentire hcollateral hdone
  | closed hdone => exact h.closed hdone
  | provided hdone => exact h.quiet rfl rfl rfl
  | withdrawn hdone => exact h.quiet rfl rfl rfl
  | liquidated hprice hdone =>
      obtain ⟨-, -, hbatch⟩ := Liquidator.liquidate_eq_ok hdone
      exact Liquidator.accounted_liquidateBatch h hbatch ⟨rfl, rfl, rfl⟩
  | batchLiquidated hprice hdone => exact Liquidator.accounted_liquidateBatch h hdone ⟨rfl, rfl, rfl⟩
  | claimed hdone => exact h.quiet rfl rfl rfl

theorem Run.accounted {m : Machine} {t : Transcript} (h : Run p m t) : m.state.ledger.Accounted t :=
  (Run.induct (motive := fun s t => s.ledger.Accounted t) Ledger.accounted_empty
    (fun _ _ _ _ _ _ hbefore heffect => accounted_of_effect hbefore heffect) h).2

end Machine

end CollateralDebt
