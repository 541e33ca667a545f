import CollateralDebt.Proofs.Liquidation.Commit
import Mathlib.Algebra.Order.Group.Nat

/-! A whole batch on the books. Of the entire amounts that leave the active pool, the redistribution puts its part
into the default pool and the rest goes out; of the debt, what goes out is what the stability pool cancels, so
that what was minted is still in the pools or burned. Nothing is clamped at any point of it (`CommitsExactly`). -/

namespace CollateralDebt

theorem Books.Sound.goOut {b : Books} {inflow outflow taken out settlements : Nat}
    (h : b.Sound inflow outflow (taken + out) settlements) : b.Sound inflow (outflow + out) taken settlements := by
  obtain ⟨hrecorded, hheld, hcovered, hdust⟩ := h
  exact ⟨hrecorded, by omega, hcovered, hdust⟩

/-- Settling what is pending clamps no debt. -/
def Ledger.SettlesExactly (l : Ledger) (e : EntireTrove) : Prop :=
  e.pending.debt ≤ l.pools.defaultDebt ∧ l.pools.activeDebt.units + e.pending.debt.units < 2 ^ 128

/-- Closing a trove with its entire amounts clamps no debt. -/
def Ledger.ClosesExactly (l : Ledger) (e : EntireTrove) : Prop :=
  l.SettlesExactly e ∧ e.debt ≤ (l.pools.settle e.pending).activeDebt

theorem Ledger.settlesExactly {l : Ledger} {owner : Address} {t : Trove} {e : EntireTrove}
    {inflow outflow taken settlements : Nat} (hsound : (l.books .debt).Sound inflow outflow taken settlements)
    (hinflow : inflow < 2 ^ 128) (hfound : l.activeTrove owner = .ok t) (hentire : l.rewards.entire t = .ok e) :
    l.SettlesExactly e := by
  have hpending : e.pending.debt.units = Asset.debt.due l.rewards.level t := pending_eq_due (a := .debt) hfound hentire
  have hdue : _ ≤ l.pools.defaultDebt.units := due_le_default hsound hfound
  have hheld : l.pools.activeDebt.units + l.pools.defaultDebt.units + taken + outflow = inflow := hsound.held_eq
  refine ⟨Amount.le_iff.2 (by omega), by omega⟩

namespace Liquidator

variable {s s' : Liquidator} {plan : LiquidationPlan} {outcome : LiquidationOutcome}

/-- Carrying out a plan clamps no debt: not when one of its troves is closed after those before it, not when what is
redistributed joins the default pool, and not when what is offset is counted as burned. -/
structure CommitsExactly (s : Liquidator) (plan : LiquidationPlan) : Prop where
  closes : ∀ before v after, plan.values = before ++ v :: after →
    (closeAll s.ledger before).ClosesExactly v.entire
  redistributes : ∀ stakes d, s.ledger.rewards.redistribution plan.totals.redistributedCollateral
    plan.totals.redistributedDebt stakes = .ok (some d) →
    (closeAll s.ledger plan.values).pools.defaultDebt.units + d.debt.units < 2 ^ 128
  burns : ∀ o, offsetFor s.pool plan.totals = .ok (some o) → s.ledger.burned.units + o.debtLoss.units < 2 ^ 128

theorem closable_of_fits (hfits : plan.Fits s.ledger) : Closable s.ledger plan.values := ⟨hfits.found, hfits.distinct⟩

/-- What the troves of a batch have is lost to the system or redistributed. -/
theorem sum_lost_add_redistributed {values : List LiquidationValues} (hbalanced : ∀ v ∈ values, v.isBalanced = true)
    (a : Asset) :
    (values.map a.lost).sum + (values.map fun v => (a.redistributed v).units).sum =
      (values.map fun v => (a.entire v.entire).units).sum := by
  rw [← List.sum_map_add]
  refine congrArg List.sum (List.map_congr_left fun v hmem => ?_)
  exact LiquidationValues.lost_add_redistributed (hbalanced v hmem) a

theorem commitsExactly {outflow settlements : Nat} (hfits : plan.Fits s.ledger)
    (hsound : (s.ledger.books .debt).Sound s.ledger.minted.units outflow 0 settlements)
    (hburned : outflow = s.ledger.burned.units) : CommitsExactly s plan := by
  have hminted := s.ledger.minted.units_lt
  have hall := sound_closeAll (closable_of_fits hfits) hsound hminted
  have hheld : (closeAll s.ledger plan.values).pools.activeDebt.units +
      (closeAll s.ledger plan.values).pools.defaultDebt.units +
      (0 + (plan.values.map fun v => v.entire.debt.units).sum) + outflow = s.ledger.minted.units := hall.held_eq
  have hsplit : (plan.values.map fun v => v.offsetDebt.units).sum +
      (plan.values.map fun v => v.redistributedDebt.units).sum = (plan.values.map fun v => v.entire.debt.units).sum :=
    sum_lost_add_redistributed hfits.balanced .debt
  constructor
  · intro before v after hvalues
    -- A trove is closed on the ledger that the ones before it leave, and that ledger is sound too.
    have hclosable := closable_of_fits hfits
    rw [hvalues] at hclosable
    obtain ⟨hbefore, t, hfound, hentire⟩ := hclosable.split
    have hpart := sound_closeAll hbefore hsound hminted
    exact ⟨Ledger.settlesExactly hpart hminted hfound hentire,
      Ledger.entire_le_active_settle hpart hminted hfound hentire⟩
  · intro stakes d hd
    have hgiven := congrArg Amount.units (Rewards.redistribution_eq_ok hd).2.1
    have htotal := hfits.totals.redistributedDebt
    omega
  · intro o ho
    have hloss := offsetFor_eq_ok ho
    have htotal := hfits.totals.offsetDebt
    simp only [Option.elim_some] at hloss
    omega

/-- The stakes of a batch are among those of the ledger, and leave those of the troves that are not in it. -/
theorem minus_stakes (hfits : plan.Fits s.ledger) (hregular : s.ledger.Regular) :
    s.ledger.rewards.totalStakes.minus plan.totals.stakes =
      .ok (closeAll s.ledger plan.values).rewards.totalStakes := by
  have hleft := stakes_closeAll (closable_of_fits hfits) hregular
  rw [Amount.minus_eq_ok_iff, hfits.totals.stakes, ← hleft, Nat.add_comm]

/-- The redistribution that was prepared is the one of the ledger with the troves closed. -/
theorem Committed.redistribution_closeAll (h : Committed s s' plan outcome) (hfits : plan.Fits s.ledger)
    (hregular : s.ledger.Regular) :
    (closeAll s.ledger plan.values).rewards.redistribution plan.totals.redistributedCollateral
      plan.totals.redistributedDebt (closeAll s.ledger plan.values).rewards.totalStakes =
        .ok outcome.redistribution := by
  obtain ⟨stakes, hstakes, hredistribution⟩ := h.redistribution
  have hsame : stakes = (closeAll s.ledger plan.values).rewards.totalStakes :=
    Except.ok.inj (hstakes.symm.trans (minus_stakes hfits hregular))
  rw [← hsame, closeAll_rewards]
  exact hredistribution

/-- A ledger after the redistribution of a batch, if there was one. -/
def redistributed (l : Ledger) (redistribution : Option Redistribution) : Ledger :=
  match redistribution with
  | some d => l.addToDefault d
  | none => l

theorem carryOut_ledger (s : Liquidator) (plan : LiquidationPlan) (redistribution : Option Redistribution)
    (offset : Option Offset) :
    (s.carryOut plan redistribution offset).ledger =
      let l := redistributed (closeAll s.ledger plan.values) redistribution
      (match offset with
        | some o => l.burn o.debtLoss
        | none => l).rebase := by
  cases offset <;> cases redistribution <;> rfl

theorem books_carryOut (s : Liquidator) (plan : LiquidationPlan) (redistribution : Option Redistribution)
    (offset : Option Offset) (a : Asset) :
    (s.carryOut plan redistribution offset).ledger.books a =
      (redistributed (closeAll s.ledger plan.values) redistribution).books a := by
  rw [carryOut_ledger]
  cases offset <;> cases a <;> rfl

theorem Committed.regular (h : Committed s s' plan outcome) (hfits : plan.Fits s.ledger)
    (hregular : s.ledger.Regular) : s'.ledger.Regular := by
  have hclosed := regular_closeAll (closable_of_fits hfits) hregular
  have hprepared := h.redistribution_closeAll hfits hregular
  have hafter : (redistributed (closeAll s.ledger plan.values) outcome.redistribution).Regular := by
    cases hd : outcome.redistribution with
    | none => exact hclosed
    | some d =>
        rw [hd] at hprepared
        exact Ledger.Regular.addToDefault hprepared hclosed
  rw [h.state, carryOut_ledger]
  cases outcome.offset <;> exact ⟨hafter.stakes, hafter.snapshots⟩

/-- After the closures a batch leaves the records and the row alone. -/
theorem Committed.records (h : Committed s s' plan outcome) :
    s'.ledger.troves = (closeAll s.ledger plan.values).troves ∧
      s'.ledger.owners = (closeAll s.ledger plan.values).owners := by
  rw [h.state, carryOut_ledger]
  cases outcome.redistribution <;> cases outcome.offset <;> exact ⟨rfl, rfl⟩

/-- What a batch leaves of each part: the redistribution, the offset and the new basis come in this order. -/
theorem Committed.parts (h : Committed s s' plan outcome) :
    s'.ledger = (outcome.offset.elim (redistributed (closeAll s.ledger plan.values) outcome.redistribution) fun o =>
      (redistributed (closeAll s.ledger plan.values) outcome.redistribution).burn o.debtLoss).rebase ∧
    s'.pool = outcome.offset.elim s.pool (fun o => s.pool.applyOffset o) ∧
    s'.surplus = creditAll s.surplus plan.values := by
  rw [h.state]
  cases outcome.redistribution <;> cases outcome.offset <;> exact ⟨rfl, rfl, rfl⟩

theorem Committed.inOrder (h : Committed s s' plan outcome) (hfits : plan.Fits s.ledger) (hs : s.ledger.InOrder) :
    s'.ledger.InOrder :=
  (inOrder_closeAll (closable_of_fits hfits) hs).of_eq h.records.1 h.records.2

theorem Committed.activeCount_add (h : Committed s s' plan outcome) (hfits : plan.Fits s.ledger)
    (hs : s.ledger.InOrder) : s'.ledger.activeCount + plan.values.length = s.ledger.activeCount := by
  have hclosed := activeCount_closeAll (closable_of_fits hfits) hs
  rw [Ledger.activeCount, h.records.2]
  exact hclosed

/-- If nothing of one kind is given by a batch, none of its troves gives it, nor what goes only together with it. -/
theorem sum_eq_zero_of_backed {values : List LiquidationValues} {given backed : LiquidationValues → Nat}
    (hnone : (values.map given).sum = 0) (h : ∀ v ∈ values, given v = 0 → backed v = 0) :
    (values.map backed).sum = 0 := by
  refine List.sum_eq_zero fun x hx => ?_
  obtain ⟨v, hmem, rfl⟩ := List.mem_map.1 hx
  have hle := List.le_sum_of_mem (List.mem_map_of_mem (f := given) hmem)
  exact h v hmem (by omega)

/-- What a batch redistributes is what its troves give to the others, also if that is nothing. -/
theorem Committed.given_eq (h : Committed s s' plan outcome) (hfits : plan.Fits s.ledger) (a : Asset) :
    (outcome.redistribution.elim 0 fun d => (a.given d).units) =
      (plan.values.map fun v => (a.redistributed v).units).sum := by
  obtain ⟨stakes, -, hredistribution⟩ := h.redistribution
  have hdebt := (redistributed_debt hredistribution).trans hfits.totals.redistributedDebt
  cases a with
  | debt => exact hdebt
  | collateral =>
      cases hd : outcome.redistribution with
      | some d =>
          rw [hd] at hredistribution
          have hgiven := (Rewards.redistribution_eq_ok hredistribution).1
          exact (congrArg Amount.units hgiven).trans hfits.totals.redistributedCollateral
      | none =>
          -- Without debt to redistribute no trove gives collateral either.
          rw [hd, Option.elim_none] at hdebt
          exact (sum_eq_zero_of_backed hdebt.symm hfits.backed).symm

/-- The collateral that an offset credits to the pool is what the troves give to it, also if that is nothing. -/
theorem Committed.gain_eq (h : Committed s s' plan outcome) (hfits : plan.Fits s.ledger) :
    (outcome.offset.elim 0 fun o => o.collateralGain.units) =
      (plan.values.map fun v => v.poolCollateral.units).sum := by
  have hloss := (offsetFor_eq_ok h.offset).trans hfits.totals.offsetDebt
  cases ho : outcome.offset with
  | some o =>
      have hoffset := h.offset
      rw [ho] at hoffset
      exact (congrArg Amount.units (offsetFor_eq_some hoffset).2).trans hfits.totals.poolCollateral
  | none =>
      rw [ho, Option.elim_none] at hloss
      exact (sum_eq_zero_of_backed hloss.symm hfits.pooled).symm

/-- **The collateral that a batch takes out of the system goes to its caller, to the pool and to former owners.** -/
theorem Committed.lost_collateral (h : Committed s s' plan outcome) (hfits : plan.Fits s.ledger) :
    (plan.values.map Asset.collateral.lost).sum =
      outcome.totals.gasCompensation.units + (outcome.offset.elim 0 fun o => o.collateralGain.units) +
        (outcome.liquidated.map fun v => v.surplus.units).sum := by
  have htotals : outcome.totals = plan.totals := congrArg LiquidationOutcome.totals h.outcome
  have hliquidated : outcome.liquidated = plan.values := congrArg LiquidationOutcome.liquidated h.outcome
  have hsplit : (plan.values.map Asset.collateral.lost).sum =
      (plan.values.map fun v => v.poolCollateral.units).sum + (plan.values.map fun v => v.gasCompensation.units).sum +
        (plan.values.map fun v => v.surplus.units).sum := by
    rw [← List.sum_map_add, ← List.sum_map_add]
    rfl
  rw [htotals, hliquidated, h.gain_eq hfits, hfits.totals.gasCompensation, hsplit]
  omega

/-- **A batch keeps the books sound.** What its troves take out of the system goes out, and the rest is pending again. -/
theorem Committed.sound {a : Asset} {inflow outflow settlements : Nat} (h : Committed s s' plan outcome)
    (hfits : plan.Fits s.ledger) (hregular : s.ledger.Regular)
    (hsound : (s.ledger.books a).Sound inflow outflow 0 settlements) (hinflow : inflow < 2 ^ 128) :
    (s'.ledger.books a).Sound inflow (outflow + (plan.values.map a.lost).sum) 0 (settlements + plan.values.length) := by
  have hclosed := sound_closeAll (closable_of_fits hfits) hsound hinflow
  have hprepared := h.redistribution_closeAll hfits hregular
  have hgiven := h.given_eq hfits a
  rw [← sum_lost_add_redistributed hfits.balanced a, ← hgiven] at hclosed
  rw [h.state, books_carryOut]
  cases hd : outcome.redistribution with
  | none =>
      rw [hd, Option.elim_none, Nat.add_zero] at hclosed
      exact hclosed.goOut
  | some d =>
      -- What is redistributed comes back into the default pool; only the rest of what was taken goes out.
      rw [hd] at hprepared hclosed
      rw [Option.elim_some, Nat.zero_add] at hclosed
      have hback := Ledger.sound_addToDefault hprepared (regular_closeAll (closable_of_fits hfits) hregular) hclosed hinflow
      rw [← Nat.zero_add (plan.values.map a.lost).sum] at hback
      exact hback.goOut

/-- **A batch keeps what was minted in the pools or burned.** -/
theorem Committed.sound_debt {settlements : Nat} (h : Committed s s' plan outcome)
    (hfits : plan.Fits s.ledger) (hregular : s.ledger.Regular)
    (hsound : (s.ledger.books .debt).Sound s.ledger.minted.units s.ledger.burned.units 0 settlements) :
    (s'.ledger.books .debt).Sound s'.ledger.minted.units s'.ledger.burned.units 0
      (settlements + plan.values.length) := by
  have hafter := h.sound hfits hregular hsound s.ledger.minted.units_lt
  have hexact := commitsExactly hfits hsound rfl
  have hloss := (offsetFor_eq_ok h.offset).trans hfits.totals.offsetDebt
  obtain ⟨hminted, hburned⟩ := closeAll_supply s.ledger plan.values
  have hsupply : s'.ledger.minted = s.ledger.minted ∧
      s'.ledger.burned.units = s.ledger.burned.units + outcome.offset.elim 0 fun o => o.debtLoss.units := by
    rw [h.state, carryOut_ledger]
    have hkept : (redistributed (closeAll s.ledger plan.values) outcome.redistribution).minted = s.ledger.minted ∧
        (redistributed (closeAll s.ledger plan.values) outcome.redistribution).burned = s.ledger.burned := by
      rw [← hminted, ← hburned]
      cases outcome.redistribution <;> exact ⟨rfl, rfl⟩
    cases ho : outcome.offset with
    | none => exact ⟨hkept.1, congrArg Amount.units hkept.2⟩
    | some o =>
        refine ⟨hkept.1, ?_⟩
        show (Amount.plusClamped _ o.debtLoss).units = _
        rw [Amount.units_plusClamped, hkept.2]
        exact Nat.min_eq_left (Nat.le_pred_of_lt (hexact.burns o (ho ▸ h.offset)))
  rw [hsupply.1, hsupply.2, hloss]
  exact hafter

end Liquidator

end CollateralDebt
