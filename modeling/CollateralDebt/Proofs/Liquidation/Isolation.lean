import CollateralDebt.Proofs.Ledger.Isolation
import CollateralDebt.Proofs.Liquidation.Stakes

/-! What a batch does to those who are not in it. Their records are the same but for places in the row, and who of them
had an active trove still has one. What the batch redistributes raises the level by what each unit staked receives, so
that all that is pending grows by the shares of the stakes: no trove gains more than a unit over its share, and together
they gain no more than what was redistributed and what was carried over, and a unit for each of them (`SharedOut`). -/

open CollateralDebt.Action

namespace CollateralDebt

/-- What a batch redistributes in all. -/
def Asset.redistributedOf : Asset → LiquidationTotals → Amount
  | .collateral, totals => totals.redistributedCollateral
  | .debt, totals => totals.redistributedDebt

namespace Ledger

/-- A batch took the troves that an outcome lists, and shared out what it redistributed over those that are left. -/
structure SharedOut (l l' : Ledger) (outcome : LiquidationOutcome) : Prop where
  active : ∀ owner, owner ∈ l'.owners ↔ ∃ t, l'.activeTrove owner = .ok t
  survivors : ∀ owner, owner ∈ l'.owners ↔
    owner ∈ l.owners ∧ owner ∉ outcome.liquidated.map LiquidationValues.borrower
  records : ∀ owner, owner ∉ outcome.liquidated.map LiquidationValues.borrower →
    (l'.troves.get? owner).map Trove.unplaced = (l.troves.get? owner).map Trove.unplaced
  rises : ∀ a : Asset, (a.level l.rewards.level).units ≤ (a.level l'.rewards.level).units
  growths : ∃ growth : Address → Asset → Nat, (∀ owner ∈ l'.owners, GrowsBy l l' owner (growth owner)) ∧
    ∀ a : Asset, (l'.owners.map fun owner => growth owner a).sum ≤
      ((a.redistributedOf outcome.totals).units * Amount.scale + (a.carried l.rewards).units) / Amount.scale +
        l'.owners.length

end Ledger

namespace Liquidator

variable {l : Ledger} {s s' : Liquidator} {plan : LiquidationPlan} {outcome : LiquidationOutcome}
  {values : List LiquidationValues} {owner : Address}

theorem unplaced_closeAll (hne : owner ∉ values.map LiquidationValues.borrower) :
    ((closeAll l values).troves.get? owner).map Trove.unplaced = (l.troves.get? owner).map Trove.unplaced := by
  induction values generalizing l with
  | nil => rfl
  | cons v rest ih =>
      rw [List.map_cons, List.mem_cons, not_or] at hne
      rw [closeAll_cons, ih hne.2]
      exact Ledger.unplaced_leave l v.entire .closedByLiquidation hne.1

/-- Who is in the row after a batch was there before, and is not in the batch. -/
theorem mem_owners_closeAll (h : Closable l values) (hl : l.InOrder) :
    owner ∈ (closeAll l values).owners ↔ owner ∈ l.owners ∧ owner ∉ values.map LiquidationValues.borrower := by
  rw [(inOrder_closeAll h hl).mem_owners_iff, hl.mem_owners_iff]
  constructor
  · rintro ⟨t, ht⟩
    obtain ⟨hne, before, hbefore, -⟩ := activeTrove_of_closeAll h hl ht
    exact ⟨⟨before, hbefore⟩, hne⟩
  · rintro ⟨⟨t, ht⟩, hne⟩
    obtain ⟨r, hr, -⟩ := exists_activeTrove_closeAll ht hne
    exact ⟨r, hr⟩

/-- A batch raises the level by what is redistributed and was carried over, in parts for each unit that is still staked. -/
theorem Committed.rise (h : Committed s s' plan outcome) (hfits : plan.Fits s.ledger) (hregular : s.ledger.Regular)
    (a : Asset) : (a.level s.ledger.rewards.level).units ≤ (a.level s'.ledger.rewards.level).units ∧
      a.received s.ledger.rewards.level s'.ledger.rewards.level s'.ledger.rewards.totalStakes.units ≤
        (a.redistributedOf outcome.totals).units * Amount.scale + (a.carried s.ledger.rewards).units := by
  have htotals : outcome.totals = plan.totals := congrArg LiquidationOutcome.totals h.outcome
  have hprepared := h.redistribution_closeAll hfits hregular
  have hrewards := closeAll_rewards s.ledger plan.values
  have hlevel : (closeAll s.ledger plan.values).rewards.level = s.ledger.rewards.level := by rw [hrewards]
  have hcarried : a.carried (closeAll s.ledger plan.values).rewards = a.carried s.ledger.rewards := by
    rw [hrewards]
    cases a <;> rfl
  rw [h.state, carryOut_ledger, htotals]
  cases hd : outcome.redistribution with
  | none =>
      -- Nothing was redistributed, and the level stays.
      have hstays : ∀ stakes, a.received s.ledger.rewards.level (closeAll s.ledger plan.values).rewards.level stakes = 0 := by
        intro stakes
        rw [Asset.received, hlevel, Nat.sub_self, Nat.mul_zero]
      rw [← hlevel] at hstays ⊢
      cases outcome.offset <;> exact ⟨Nat.le_refl _, (hstays _).trans_le (Nat.zero_le _)⟩
  | some d =>
      rw [hd] at hprepared
      obtain ⟨hcollateral, hdebt, hshares⟩ := Rewards.redistribution_eq_ok hprepared
      obtain ⟨rise, hrise, hsum⟩ := hshares a
      have hgiven : a.given d = a.redistributedOf plan.totals := by
        cases a with
        | collateral => exact hcollateral
        | debt => exact hdebt
      rw [hlevel] at hrise
      rw [hgiven, hcarried] at hsum
      have hreceived : a.received s.ledger.rewards.level d.level
          (closeAll s.ledger plan.values).rewards.totalStakes.units ≤
            (a.redistributedOf plan.totals).units * Amount.scale + (a.carried s.ledger.rewards).units := by
        rw [Asset.received, hrise, Nat.add_sub_cancel_left]
        omega
      have hle : (a.level s.ledger.rewards.level).units ≤ (a.level d.level).units := by omega
      cases outcome.offset <;> exact ⟨hle, hreceived⟩

/-- **A batch leaves those alone who are not in it**, but for what it redistributes over them. -/
theorem Committed.sharedOut (h : Committed s s' plan outcome) (hfits : plan.Fits s.ledger) (horder : s.ledger.InOrder)
    (hsound : s.ledger.Sound) (hsound' : s'.ledger.Sound) : s.ledger.SharedOut s'.ledger outcome := by
  have hliquidated : outcome.liquidated = plan.values := congrArg LiquidationOutcome.liquidated h.outcome
  have hrise := h.rise hfits hsound.regular
  have hsurvivors : ∀ owner, owner ∈ s'.ledger.owners ↔
      owner ∈ s.ledger.owners ∧ owner ∉ outcome.liquidated.map LiquidationValues.borrower := by
    intro owner
    rw [h.records.2, hliquidated]
    exact mem_owners_closeAll (closable_of_fits hfits) horder
  have hrecords : ∀ owner, owner ∉ outcome.liquidated.map LiquidationValues.borrower →
      (s'.ledger.troves.get? owner).map Trove.unplaced = (s.ledger.troves.get? owner).map Trove.unplaced := by
    intro owner hne
    rw [hliquidated] at hne
    rw [h.records.1]
    exact unplaced_closeAll hne
  have hkept : ∀ owner ∈ s'.ledger.owners,
      (s'.ledger.troves.get? owner).map Trove.unplaced = (s.ledger.troves.get? owner).map Trove.unplaced :=
    fun owner hmem => hrecords owner ((hsurvivors owner).1 hmem).2
  have hgrowth : ∀ owner ∈ s'.ledger.owners, ∃ growth, s.ledger.GrowsBy s'.ledger owner growth := by
    intro owner hmem
    obtain ⟨t, hfound⟩ := horder.mem_owners_iff.1 ((hsurvivors owner).1 hmem).1
    exact hsound.exists_growsBy hsound' hfound (hkept owner hmem) fun a => (hrise a).1
  choose! growth hgrows using hgrowth
  have horder' := h.inOrder hfits horder
  refine ⟨fun _ => horder'.mem_owners_iff, hsurvivors, hrecords, fun a => (hrise a).1, growth, hgrows, fun a => ?_⟩
  have hsum := horder'.sum_growth_le hsound'.regular hgrows hkept a
  exact hsum.trans (Nat.add_le_add_right (Nat.div_le_div_right (hrise a).2) _)

end Liquidator

end CollateralDebt
