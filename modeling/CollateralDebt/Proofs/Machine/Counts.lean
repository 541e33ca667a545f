import CollateralDebt.Proofs.Machine.Order
import CollateralDebt.Proofs.State.Encoding
import CollateralDebt.Proofs.StabilityPool.Run

/-! How large the counts of a state can be. Each operation raises the places, the epoch, the scale and the number of
records by at most one. Only the balances can become more by several at once, when a batch leaves surplus for all its
owners; but each of them leaves the row of owners then, and it is the row and the balances together that grow by one at
most. So counts are words as long as fewer operations were done than words can count. -/

open CollateralDebt.Action

namespace CollateralDebt

theorem Phase.CountsBelow.mono {phase : Phase} {bound higher : Nat} (h : phase.CountsBelow bound)
    (hle : bound ≤ higher) : phase.CountsBelow higher := ⟨h.1.trans_le hle, h.2.trans_le hle⟩

namespace Ledger

variable {l l' : Ledger} {owner : Address} {t : Trove} {bound : Nat}

theorem CountsBelow.mono {higher : Nat} (h : l.CountsBelow bound) (hle : bound ≤ higher) : l.CountsBelow higher :=
  ⟨h.records.trans_le hle, h.slots.imp fun _ hslot => hslot.trans_le hle, h.owners.trans_le hle⟩

theorem CountsBelow.succ (h : l.CountsBelow bound) : l.CountsBelow (bound + 1) := h.mono (Nat.le_succ bound)

/-- A record that is put in place is at most one more. -/
theorem CountsBelow.put (h : l.CountsBelow bound) (htroves : l'.troves = l.troves.insert owner t)
    (hslot : t.slot < bound + 1) (howners : l'.owners.length < bound + 1) : l'.CountsBelow (bound + 1) := by
  refine ⟨?_, ?_, howners⟩
  · rw [htroves]
    exact Nat.lt_of_le_of_lt (SortedMap.size_insert_le _ _ _) (Nat.succ_lt_succ h.records)
  · rw [htroves]
    exact h.succ.slots.insert owner hslot

theorem Opened.countsBelow (h : Opened l l' owner t) (hl : l.CountsBelow bound) : l'.CountsBelow (bound + 1) := by
  refine hl.put h.troves ?_ ?_
  · rw [h.slot]
    exact hl.succ.owners
  · rw [h.owners, List.length_append]
    exact Nat.succ_lt_succ hl.owners

theorem Adjusted.countsBelow {old new : Trove} {e : EntireTrove} (h : Adjusted l l' owner old e new)
    (hl : l.CountsBelow bound) : l'.CountsBelow (bound + 1) := by
  refine hl.put h.troves ?_ ?_
  · rw [h.slot]
    exact hl.succ.slots.of_get? (get?_of_activeTrove h.found).1
  · rw [h.owners]
    exact hl.succ.owners

theorem size_leave (l : Ledger) (owner : Address) (e : EntireTrove) (status : TroveStatus) :
    (l.leave owner e status).troves.size = l.troves.size := by
  obtain ⟨owners, troves, htroves, hframe⟩ := leave_frame l owner e status
  rw [hframe]
  dsimp only
  rw [SortedMap.size_update]
  rcases htroves with rfl | ⟨moved, slot, rfl⟩
  · rfl
  · rw [SortedMap.size_update]

/-- Whoever stands in the row after a trove left has a place that someone had before. -/
theorem CountsBelow.leave (h : l.CountsBelow bound) (hl : l.InOrder) (hfound : l.activeTrove owner = .ok t)
    (e : EntireTrove) (status : TroveStatus) : (l.leave owner e status).CountsBelow bound := by
  have hslot : t.slot < bound := h.slots.of_get? (get?_of_activeTrove hfound).1
  refine ⟨?_, fun entry hmem => ?_, ?_⟩
  · rw [size_leave]
    exact h.records
  · rcases hl.get?_leave_eq_some hfound (SortedMap.mem_entries_iff.1 hmem) with
      ⟨-, hrecord⟩ | ⟨-, before, hbefore, hrecord⟩
    · rw [hrecord]
      exact Nat.zero_lt_of_lt hslot
    · rw [← hrecord, reslot]
      dsimp only
      split
      · exact hslot
      · exact h.slots.of_get? hbefore
  · have hleft := hl.length_leave hfound e status
    have howners := h.owners
    omega

end Ledger

namespace StabilityPool

variable {s s' : StabilityPool} {bound : Nat}

theorem CountsBelow.mono {higher : Nat} (h : s.CountsBelow bound) (hle : bound ≤ higher) : s.CountsBelow higher where
  phase := h.phase.mono hle
  sums := h.sums.trans_le hle
  phases entry hmem := (h.phases entry hmem).mono hle
  deposits := h.deposits.trans_le hle
  snapshots := h.snapshots.imp fun _ hphase => hphase.mono hle
  offsets := h.offsets.trans_le hle

theorem CountsBelow.succ (h : s.CountsBelow bound) : s.CountsBelow (bound + 1) := h.mono (Nat.le_succ bound)

theorem Settles.countsBelow {paidIn : Nat} {change : DepositChange} (h : Settles s paidIn change s')
    (hs : s.CountsBelow bound) : s'.CountsBelow (bound + 1) := by
  obtain ⟨totalDeposits, collateral, rfl⟩ := h.exists_eq
  obtain ⟨hphase, hsums, hphases, -, hsnapshots, hoffsets⟩ := hs.succ
  unfold setDeposit
  split
  · refine ⟨hphase, hsums, hphases, ?_, hsnapshots.erase _, hoffsets⟩
    exact Nat.lt_succ_of_lt (Nat.lt_of_le_of_lt (SortedMap.size_erase_le _ _) hs.deposits)
  · refine ⟨hphase, hsums, hphases, ?_, hsnapshots.insert _ hphase, hoffsets⟩
    exact Nat.lt_of_le_of_lt (SortedMap.size_insert_le _ _ _) (Nat.succ_lt_succ hs.deposits)

theorem Charges.countsBelow {o : Offset} {perUnit : Nat} (h : s.Charges o perUnit) (hs : s.CountsBelow bound) :
    (s.applyOffset o).CountsBelow (bound + 1) := by
  obtain ⟨hphase, -, hphases, hdeposits, hsnapshots, -⟩ := hs.succ
  refine ⟨?_, ?_, fun entry hmem => ?_, hdeposits, hsnapshots, Nat.succ_lt_succ hs.offsets⟩
  · show o.phase.CountsBelow (bound + 1)
    rcases h.phase_eq with hnow | hnow | hnow
    · rw [hnow]
      exact ⟨Nat.succ_lt_succ hs.phase.1, Nat.succ_pos _⟩
    · rw [hnow]
      exact ⟨hphase.1, Nat.succ_lt_succ hs.phase.2⟩
    · rw [hnow]
      exact hphase
  · exact Nat.lt_of_le_of_lt (SortedMap.size_insert_le _ _ _) (Nat.succ_lt_succ hs.sums)
  · rcases SortedMap.mem_put hmem with rfl | hmem
    · rw [h.sumPhase_eq]
      exact hphase
    · exact hphases entry hmem

end StabilityPool

namespace Surplus

theorem size_credit_le (s : Surplus) (owner : Address) (amount : Amount) :
    (s.credit owner amount).balances.size ≤ s.balances.size + 1 := by
  unfold credit
  split
  · exact Nat.le_succ _
  · exact SortedMap.size_insert_le _ _ _

theorem size_creditAll_le (s : Surplus) (values : List LiquidationValues) :
    (Liquidator.creditAll s values).balances.size ≤ s.balances.size + values.length := by
  unfold Liquidator.creditAll
  induction values generalizing s with
  | nil => exact Nat.le_refl _
  | cons v rest ih =>
      have hfirst := s.size_credit_le v.borrower v.surplus
      have hrest := ih (s.credit v.borrower v.surplus)
      rw [List.foldl_cons, List.length_cons]
      omega

end Surplus

namespace Liquidator

variable {s s' : Liquidator} {plan : LiquidationPlan} {outcome : LiquidationOutcome} {done : Nat}

/-- Counts after so many operations. -/
structure Counted (s : Liquidator) (done : Nat) : Prop where
  ledger : s.ledger.CountsBelow (done + 1)
  pool : s.pool.CountsBelow (done + 1)
  row : s.ledger.owners.length + s.surplus.balances.size ≤ done

theorem countsBelow_closeAll {l : Ledger} {values : List LiquidationValues} {bound : Nat} (h : Closable l values)
    (hl : l.InOrder) (hcounts : l.CountsBelow bound) : (closeAll l values).CountsBelow bound := by
  induction values generalizing l with
  | nil => exact hcounts
  | cons v rest ih =>
      obtain ⟨t, hfound, -⟩ := h.found v List.mem_cons_self
      rw [closeAll_cons]
      exact ih h.tail (hl.leave hfound v.entire (by decide)) (hcounts.leave hl hfound v.entire _)

theorem Committed.counted (h : Committed s s' plan outcome) (hfits : plan.Fits s.ledger) (hl : s.ledger.InOrder)
    (hs : s.Counted done) : s'.Counted (done + 1) := by
  obtain ⟨htroves, howners⟩ := h.records
  obtain ⟨-, hpool, hsurplus⟩ := h.parts
  obtain ⟨hrecords, hslots, hlength⟩ := (countsBelow_closeAll (closable_of_fits hfits) hl hs.ledger).succ
  have hclosed : (closeAll s.ledger plan.values).owners.length + plan.values.length = s.ledger.owners.length :=
    activeCount_closeAll (closable_of_fits hfits) hl
  have hcredited := s.surplus.size_creditAll_le plan.values
  have hrow := hs.row
  refine ⟨⟨htroves ▸ hrecords, htroves ▸ hslots, howners ▸ hlength⟩, ?_, ?_⟩
  · have hoffset := h.offset
    rw [hpool]
    cases ho : outcome.offset with
    | none => exact hs.pool.succ
    | some o =>
        rw [ho] at hoffset
        obtain ⟨-, perUnit, hcharges⟩ := StabilityPool.offsetOf_eq_ok (offsetOf_of_offsetFor hoffset)
        exact hcharges.countsBelow hs.pool
  · rw [howners, hsurplus]
    omega

theorem counted_liquidateBatch {p : Params} {price : Amount} {borrowers : List Address} (hl : s.ledger.InOrder)
    (hs : s.Counted done) (hdone : perform (liquidateBatch p price borrowers) s = (s', .ok outcome)) :
    s'.Counted (done + 1) := by
  obtain ⟨plan, hfits, hcommitted⟩ := exists_committed hdone
  exact hcommitted.counted hfits hl hs

end Liquidator

namespace Machine

variable {p : Params} {m : Machine} {t : Transcript}

/-- **Every operation raises the counts by at most one.** -/
theorem counted_of_effect {feed : PriceFeed} {s s' : Liquidator} {operation : Operation} {result : OperationResult}
    {done : Nat} (hl : s.ledger.InOrder) (h : s.Counted done) (heffect : Effect p feed s operation result s') :
    s'.Counted (done + 1) := by
  obtain ⟨hledger, hpool, hrow⟩ := h
  cases heffect with
  | @opened owner collateral debt trove ledger hdone =>
      obtain ⟨hopened, -⟩ := Ledger.openTrove_eq_ok hdone
      refine ⟨hopened.countsBelow hledger, hpool.succ, ?_⟩
      show ledger.owners.length + s.surplus.balances.size ≤ _
      rw [hopened.owners, List.length_append, List.length_singleton]
      omega
  | @adjusted owner collateral debt entire newCollateral newDebt pending trove ledger _ _ _ hdone =>
      obtain ⟨old, e, hadjusted, -⟩ := Ledger.adjust_eq_ok hdone
      refine ⟨hadjusted.countsBelow hledger, hpool.succ, ?_⟩
      show ledger.owners.length + s.surplus.balances.size ≤ _
      rw [hadjusted.owners]
      omega
  | @closed owner trove ledger hdone =>
      obtain ⟨old, e, hrepaid, -⟩ := Ledger.closeByOwner_eq_ok hdone
      obtain ⟨hrecords, hslots, howners⟩ := (hledger.leave hl hrepaid.found e .closedByOwner).succ
      have hleft := hl.length_leave hrepaid.found e .closedByOwner
      rw [hrepaid.left]
      refine ⟨⟨hrecords, hslots, howners⟩, hpool.succ, ?_⟩
      show (s.ledger.leave owner e .closedByOwner).owners.length + s.surplus.balances.size ≤ _
      omega
  | provided hdone =>
      exact ⟨hledger.succ, (StabilityPool.provide_settles hdone).1.countsBelow hpool, Nat.le_succ_of_le hrow⟩
  | withdrawn hdone =>
      exact ⟨hledger.succ, (StabilityPool.withdraw_settles hdone).1.countsBelow hpool, Nat.le_succ_of_le hrow⟩
  | liquidated _ hdone =>
      obtain ⟨-, -, hbatch⟩ := Liquidator.liquidate_eq_ok hdone
      exact Liquidator.counted_liquidateBatch hl ⟨hledger, hpool, hrow⟩ hbatch
  | batchLiquidated _ hdone => exact Liquidator.counted_liquidateBatch hl ⟨hledger, hpool, hrow⟩ hdone
  | @claimed owner amount surplus hdone =>
      obtain ⟨-, -, rfl⟩ := Surplus.claim_eq_ok hdone
      refine ⟨hledger.succ, hpool.succ, ?_⟩
      show s.ledger.owners.length + (s.surplus.balances.erase owner).size ≤ _
      have hfewer := s.surplus.balances.size_erase_le owner
      omega

theorem Run.counted (h : Run p m t) : m.liquidator.Counted t.length := by
  have hstart : Liquidator.Counted ⟨.empty, .ofParams p, .empty, .new p.historyLimit.toNat⟩ 0 := by
    refine ⟨⟨Nat.one_pos, SortedMap.all_empty _, Nat.one_pos⟩, ?_, Nat.le_refl _⟩
    exact ⟨⟨Nat.one_pos, Nat.one_pos⟩, Nat.one_pos, fun _ hmem => (nomatch hmem), Nat.one_pos, SortedMap.all_empty _,
      Nat.one_pos⟩
  exact (Run.induct (motive := fun s t => s.ledger.Kept t ∧ s.Counted t.length) ⟨Ledger.kept_empty, hstart⟩
    (fun _ _ _ _ _ _ hbefore heffect =>
      ⟨kept_of_effect hbefore.1 heffect, counted_of_effect hbefore.1.inOrder hbefore.2 heffect⟩) h).2.2

/-- Until as many operations were done as words can count, every count is a word. -/
theorem Run.inWords (h : Run p m t) (hfew : t.length < UInt64.size) : m.state.InWords := by
  obtain ⟨hledger, hpool, hrow⟩ := h.counted
  have hbalances : m.state.surplus.balances.size ≤ t.length := (Nat.le_add_left _ _).trans hrow
  exact ⟨hledger.mono hfew, hpool.mono hfew, hbalances.trans_lt hfew⟩

end Machine

end CollateralDebt
