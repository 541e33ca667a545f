import CollateralDebt.Proofs.Liquidation.Decision
import CollateralDebt.Proofs.Machine.Accounts

/-! The row of owners over a whole run. Every operation leaves it in order: a trove that is opened joins it at the
end, one that is adjusted stays where it is, and those that are closed leave it one by one. An owner cannot close the
last trove and no batch takes all of them, so that a row which ever had an owner has one for good; and the check of a
ledger, which a machine may ask for at any time, finds nothing. -/

open CollateralDebt.Action

namespace CollateralDebt

def Operation.opensTrove : Operation → Bool
  | .openTrove .. => true
  | _ => false

/-- A trove was opened by one of the operations. -/
def Transcript.Opens (t : Transcript) : Prop := ∃ step ∈ t, step.1.opensTrove = true

instance (t : Transcript) : Decidable t.Opens := inferInstanceAs (Decidable (∃ step ∈ t, step.1.opensTrove = true))

/-- A ledger is in order after what a transcript says was done, and has an active trove if there ever was one. -/
structure Ledger.Kept (l : Ledger) (t : Transcript) : Prop where
  inOrder : l.InOrder
  inhabited : t.Opens → 0 < l.activeCount

namespace Ledger

variable {l l' : Ledger} {t : Transcript}

theorem kept_empty : empty.Kept [] := ⟨inOrder_empty, fun ⟨_, hmem, _⟩ => (nomatch hmem)⟩

/-- An operation that opens no trove, and leaves an active one if there was one, keeps the ledger in order. -/
theorem Kept.later {operation : Operation} {result : OperationResult} (h : l.Kept t) (hl : l'.InOrder)
    (hleft : 0 < l.activeCount → 0 < l'.activeCount)
    (hother : operation.opensTrove = false) : l'.Kept ((operation, result) :: t) := by
  refine ⟨hl, fun ⟨step, hmem, hopens⟩ => hleft (h.inhabited ?_)⟩
  rcases List.mem_cons.1 hmem with rfl | hearlier
  · rw [hother] at hopens
    cases hopens
  · exact ⟨step, hearlier, hopens⟩

end Ledger

namespace Liquidator

variable {s s' : Liquidator} {p : Params} {price : Amount} {borrowers : List Address} {outcome : LiquidationOutcome}

theorem kept_liquidateBatch {t : Transcript} {operation : Operation} {result : OperationResult} (h : s.ledger.Kept t)
    (hdone : perform (liquidateBatch p price borrowers) s = (s', .ok outcome))
    (hother : operation.opensTrove = false) : s'.ledger.Kept ((operation, result) :: t) := by
  obtain ⟨plan, hplan, hcommitted⟩ := liquidateBatch_eq_ok hdone
  have hfits := LiquidationPlan.fits_of_make hplan
  have hcount := hcommitted.activeCount_add hfits h.inOrder
  obtain ⟨-, -, hothers⟩ := LiquidationPlan.forecast_of_make hplan
  exact h.later (hcommitted.inOrder hfits h.inOrder) (fun hbefore => by omega) hother

end Liquidator

namespace Machine

variable {p : Params} {m : Machine} {t : Transcript}

/-- **Every operation keeps the ledger in order.** -/
theorem kept_of_effect {feed : PriceFeed} {s s' : Liquidator} {operation : Operation} {result : OperationResult}
    (h : s.ledger.Kept t) (heffect : Effect p feed s operation result s') :
    s'.ledger.Kept ((operation, result) :: t) := by
  cases heffect with
  | @opened owner collateral debt trove ledger hdone =>
      obtain ⟨hopened, -⟩ := Ledger.openTrove_eq_ok hdone
      refine ⟨hopened.inOrder h.inOrder, fun _ => ?_⟩
      show 0 < ledger.owners.length
      rw [hopened.owners, List.length_append]
      exact Nat.succ_pos _
  | adjusted hentire hcollateral hdebt hdone =>
      obtain ⟨old, e, hadjusted, -⟩ := Ledger.adjust_eq_ok hdone
      refine h.later (hadjusted.inOrder h.inOrder) (fun hbefore => ?_) rfl
      rw [Ledger.activeCount, hadjusted.owners]
      exact hbefore
  | closed hdone =>
      obtain ⟨old, e, hrepaid, -⟩ := Ledger.closeByOwner_eq_ok hdone
      have hleft := h.inOrder.leave hrepaid.found e (show TroveStatus.closedByOwner ≠ .active by decide)
      have hlength := h.inOrder.length_leave hrepaid.found e .closedByOwner
      have hothers := hrepaid.others
      refine h.later ?_ (fun _ => ?_) rfl
      · rw [hrepaid.left]
        exact hleft.of_eq rfl rfl
      · rw [hrepaid.left]
        show 0 < (s.ledger.leave _ e .closedByOwner).owners.length
        omega
  | provided hdone => exact h.later h.inOrder id rfl
  | withdrawn hdone => exact h.later h.inOrder id rfl
  | liquidated hprice hdone =>
      obtain ⟨-, -, hbatch⟩ := Liquidator.liquidate_eq_ok hdone
      exact Liquidator.kept_liquidateBatch h hbatch rfl
  | batchLiquidated hprice hdone => exact Liquidator.kept_liquidateBatch h hdone rfl
  | claimed hdone => exact h.later h.inOrder id rfl

theorem Run.kept (h : Run p m t) : m.state.ledger.Kept t :=
  (Run.induct (motive := fun s t => s.ledger.Kept t) Ledger.kept_empty
    (fun _ _ _ _ _ _ hbefore heffect => kept_of_effect hbefore heffect) h).2

/-- The check of the ledger is passed: the row is in order, and what the pools hold of debt is what was minted and not
burned. -/
theorem Run.ledger_check (h : Run p m t) : m.state.ledger.check = .ok () := by
  have hstakes := h.accounted.regular.stakes
  have hminted := m.state.ledger.minted.units_lt
  have hheld : (Asset.debt.active m.state.ledger.pools).units + (Asset.debt.default m.state.ledger.pools).units + 0 +
      m.state.ledger.burned.units = m.state.ledger.minted.units := h.accounted.debt.held_eq
  have hdebt : (Asset.debt.held m.state.ledger.pools).units + m.state.ledger.burned.units =
      m.state.ledger.minted.units := by
    rw [Pools.units_held (by omega)]
    exact hheld
  exact h.kept.inOrder.check hstakes hdebt

/-- **The row of owners and the records agree in every machine.** No owner is in the row twice; each place of it has an
active trove of its owner, with that place on record, and all active troves are there. Nothing is left in a trove that
is not active, and the total of stakes is that of the active ones. Once a trove was opened there is always an active
one. So the check of the ledger is passed, whatever was done. -/
theorem Run.records_agree (h : Run p m t) :
    m.state.ledger.owners.Nodup ∧
    (∀ place owner, m.state.ledger.owners[place]? = some owner → ∃ trove,
      m.state.ledger.troves.get? owner = some trove ∧ trove.status = .active ∧ trove.owner = owner ∧
        trove.slot = place) ∧
    (∀ owner trove, m.state.ledger.troves.get? owner = some trove → trove.status = .active →
      trove.owner = owner ∧ owner ∈ m.state.ledger.owners) ∧
    (∀ owner trove, m.state.ledger.troves.get? owner = some trove → trove.status ≠ .active → trove.IsEmpty) ∧
    m.state.ledger.rewards.totalStakes.units = (m.state.ledger.activeTroves.map fun trove => trove.stake.units).sum ∧
    (t.Opens → 0 < m.state.ledger.activeCount) ∧
    m.state.ledger.check = .ok () := by
  obtain ⟨horder, hinhabited⟩ := h.kept
  have hstakes := h.accounted.regular.stakes
  refine ⟨horder.nodup, fun place owner hplace => ?_, fun owner trove hget hactive => ?_,
    fun owner trove hget hinactive => ?_, hstakes.symm, hinhabited, h.ledger_check⟩
  · obtain ⟨trove, hget, hactive, hslot⟩ := horder.placed place owner hplace
    exact ⟨trove, hget, of_decide_eq_true hactive, horder.owned owner trove hget, hslot⟩
  · exact ⟨horder.owned owner trove hget, horder.listed owner trove hget (decide_eq_true hactive)⟩
  · exact horder.emptied owner trove hget (decide_eq_false hinactive)

/-- Two of four troves were liquidated, and the last of the row stands where the first of them stood. -/
theorem Run.records_agree_sample :
    sampleTranscript.Opens ∧
    sampleReached.state.ledger.owners = [.ofWord 5, .ofWord 2] ∧
    sampleReached.state.ledger.status (.ofWord 1) = .closedByLiquidation ∧
    sampleReached.state.ledger.owners.Nodup ∧
    0 < sampleReached.state.ledger.activeCount ∧
    sampleReached.state.ledger.check = .ok () := by
  obtain ⟨hdistinct, -, -, -, -, hinhabited, hcheck⟩ := Run.records_agree run_sample
  have hopens : sampleTranscript.Opens := by decide +kernel
  exact ⟨hopens, by decide +kernel, by decide +kernel, hdistinct, hinhabited hopens, hcheck⟩

end Machine

end CollateralDebt
