import CollateralDebt.Proofs.Machine.Accounts
import CollateralDebt.Proofs.StabilityPool.Operations
import CollateralDebt.Proofs.Surplus

/-! Conservation of collateral. As long as all collateral ever locked is an amount, what was locked is in the two
pools of the ledger, was given back to owners, paid to the callers of liquidations, or credited to deposits and to
former owners; and of what was credited to former owners, the surplus holds all that they did not claim. The surplus
and the collateral of the stability pool never hold more than was credited to them, which in turn was locked before,
so that no credit is clamped. -/

open CollateralDebt.Action

namespace CollateralDebt

namespace Liquidator

/-- What was credited outside of troves, after what a transcript says was done: the surplus holds what was not claimed,
and the stability pool no more than it gained. -/
structure Stored (s : Liquidator) (t : Transcript) : Prop where
  balanced : s.surplus.Balanced
  surplus_eq : s.surplus.total.units + t.claimed = t.credited
  gained_le : s.pool.collateral.units ≤ t.gained

/-- A liquidation hands out what it takes out of the troves: what the pools of the ledger hold less is paid to its
caller, credited to the deposits, or credited to former owners. -/
structure HandsOut (s s' : Liquidator) (outcome : LiquidationOutcome) : Prop where
  taken_eq : s.ledger.pools.activeCollateral.units + s.ledger.pools.defaultCollateral.units =
    s'.ledger.pools.activeCollateral.units + s'.ledger.pools.defaultCollateral.units +
      outcome.totals.gasCompensation.units + (outcome.offset.elim 0 fun o => o.collateralGain.units) +
      (outcome.liquidated.map fun v => v.surplus.units).sum
  pool_eq : s'.pool.collateral.units =
    s.pool.collateral.units + outcome.offset.elim 0 fun o => o.collateralGain.units
  surplus_eq : s'.surplus.total.units = s.surplus.total.units + (outcome.liquidated.map fun v => v.surplus.units).sum

variable {s s' : Liquidator} {plan : LiquidationPlan} {outcome : LiquidationOutcome} {t : Transcript}

/-- What neither credits nor claims leaves the surplus as it was. -/
theorem Stored.quiet {pool : StabilityPool} {ledger : Ledger} {step : Operation × OperationResult} (h : s.Stored t)
    (hgains : Transcript.gainedBy step = 0) (hcredits : Transcript.creditedBy step = 0)
    (hclaims : Transcript.claimedBy step = 0) (hless : pool.collateral.units ≤ s.pool.collateral.units) :
    Stored { s with pool, ledger } (step :: t) := by
  have hgained : Transcript.gained (step :: t) = Transcript.gainedBy step + t.gained := rfl
  have hcredited : Transcript.credited (step :: t) = Transcript.creditedBy step + t.credited := rfl
  have hclaimed : Transcript.claimed (step :: t) = Transcript.claimedBy step + t.claimed := rfl
  have hsurplus := h.surplus_eq
  have hgain := h.gained_le
  exact ⟨h.balanced, by dsimp only; omega, by dsimp only; omega⟩

theorem Stored.claimed {owner : Address} {amount : Amount} {surplus : Surplus} (h : s.Stored t)
    (hdone : perform (Surplus.claim owner) s.surplus = (surplus, .ok amount)) :
    Stored { s with surplus } ((.claimSurplus owner, .surplus amount) :: t) := by
  obtain ⟨hbalanced, htotal⟩ := h.balanced.claim hdone
  have hsurplus := h.surplus_eq
  have hgained : Transcript.gained ((.claimSurplus owner, .surplus amount) :: t) = t.gained := Nat.zero_add _
  have hcredited : Transcript.credited ((.claimSurplus owner, .surplus amount) :: t) = t.credited := Nat.zero_add _
  have hclaimed : Transcript.claimed ((.claimSurplus owner, .surplus amount) :: t) = amount.units + t.claimed := rfl
  exact ⟨hbalanced, by dsimp only; omega, hgained ▸ h.gained_le⟩

theorem Committed.pool_collateral (h : Committed s s' plan outcome)
    (hfits : s.pool.collateral.units + (outcome.offset.elim 0 fun o => o.collateralGain.units) < 2 ^ 128) :
    s'.pool.collateral.units =
      s.pool.collateral.units + outcome.offset.elim 0 fun o => o.collateralGain.units := by
  rw [h.state]
  cases ho : outcome.offset with
  | none => rfl
  | some o =>
      rw [ho, Option.elim_some] at hfits
      show (s.pool.collateral.plusClamped o.collateralGain).units = _
      rw [Amount.units_plusClamped]
      exact Nat.min_eq_left (by omega)

theorem Committed.surplus_total (h : Committed s s' plan outcome) (hbalanced : s.surplus.Balanced)
    (hfits : s.surplus.total.units + (outcome.liquidated.map fun v => v.surplus.units).sum < 2 ^ 128) :
    s'.surplus.Balanced ∧
      s'.surplus.total.units = s.surplus.total.units + (outcome.liquidated.map fun v => v.surplus.units).sum := by
  have hliquidated : outcome.liquidated = plan.values := congrArg LiquidationOutcome.liquidated h.outcome
  rw [hliquidated] at hfits ⊢
  rw [h.state]
  exact hbalanced.creditAll hfits

/-- Nothing of a batch is clamped if all that was ever credited, by the batch too, is an amount. -/
theorem Committed.handsOut {settlements left : Nat} (h : Committed s s' plan outcome) (hfits : plan.Fits s.ledger)
    (hregular : s.ledger.Regular) (hsound : (s.ledger.books .collateral).Sound left 0 0 settlements)
    (hleft : left < 2 ^ 128) (hstored : s.Stored t)
    (hcredited : t.gained + (outcome.offset.elim 0 fun o => o.collateralGain.units) + t.credited +
      (outcome.liquidated.map fun v => v.surplus.units).sum < 2 ^ 128) : HandsOut s s' outcome := by
  have hbefore := hsound.held_eq
  have hafter := (h.sound hfits hregular hsound hleft).held_eq
  have hlost := h.lost_collateral hfits
  have hgained := hstored.gained_le
  have hsurplus := hstored.surplus_eq
  refine ⟨?_, h.pool_collateral (by omega), (h.surplus_total hstored.balanced (by omega)).2⟩
  show (s.ledger.books .collateral).active + (s.ledger.books .collateral).default =
    (s'.ledger.books .collateral).active + (s'.ledger.books .collateral).default + _ + _ + _
  omega

end Liquidator

namespace Machine

variable {p : Params} {feed : PriceFeed} {s s' : Liquidator} {t : Transcript} {operation : Operation}
  {result : OperationResult}

/-- What was credited to deposits and to former owners was locked before. -/
theorem credited_le_locked {l : Ledger} (h : l.Accounted t) (hlocked : t.locked < 2 ^ 128) :
    t.gained + t.credited ≤ t.locked := by
  have hheld := (h.held (Transcript.inRange_of_locked_lt hlocked).tail).held_eq
  have hreleased := t.released_eq
  omega

theorem handsOut_of_effect {outcome : LiquidationOutcome} (haccounted : s.ledger.Accounted t) (hstored : s.Stored t)
    (hlocked : t.locked < 2 ^ 128) (heffect : Effect p feed s operation (.liquidation outcome) s') :
    s.HandsOut s' outcome := by
  obtain ⟨⟨plan, hfits, hcommitted⟩, hlocks⟩ := heffect.committed
  obtain ⟨left, hleft, -, hsound⟩ := haccounted.net (Transcript.inRange_of_locked_lt hlocked)
  have hsame : Transcript.locked ((operation, .liquidation outcome) :: t) = t.locked := by
    show Transcript.lockedBy _ + t.locked = t.locked
    rw [hlocks, Nat.zero_add]
  have hall := credited_le_locked (accounted_of_effect haccounted heffect) (by rw [hsame]; exact hlocked)
  refine hcommitted.handsOut hfits haccounted.regular hsound hleft hstored ?_
  obtain ⟨hgained, hcredited, -⟩ := Transcript.credits_liquidation operation outcome t
  omega

theorem stored_of_liquidated {outcome : LiquidationOutcome} (haccounted : s.ledger.Accounted t) (hstored : s.Stored t)
    (hlocked : t.locked < 2 ^ 128) (heffect : Effect p feed s operation (.liquidation outcome) s') :
    s'.Stored ((operation, .liquidation outcome) :: t) := by
  obtain ⟨⟨plan, -, hcommitted⟩, -⟩ := heffect.committed
  have hhands := handsOut_of_effect haccounted hstored hlocked heffect
  obtain ⟨hgained, hcredited, hclaimed⟩ := Transcript.credits_liquidation operation outcome t
  have hsurplus := hstored.surplus_eq
  have hgain := hstored.gained_le
  have htotal := hhands.surplus_eq
  have hpool := hhands.pool_eq
  have hrange := s'.surplus.total.units_lt
  exact ⟨(hcommitted.surplus_total hstored.balanced (by omega)).1, by omega, by omega⟩

theorem stored_of_effect (haccounted : s.ledger.Accounted t) (hstored : s.Stored t) (hlocked : t.locked < 2 ^ 128)
    (heffect : Effect p feed s operation result s') : s'.Stored ((operation, result) :: t) := by
  cases heffect with
  | opened hdone => exact hstored.quiet rfl rfl rfl (Nat.le_refl _)
  | adjusted hentire hcollateral hdebt hdone => exact hstored.quiet rfl rfl rfl (Nat.le_refl _)
  | closed hdone => exact hstored.quiet rfl rfl rfl (Nat.le_refl _)
  | provided hdone => exact hstored.quiet rfl rfl rfl (StabilityPool.provide_settles hdone).1.collateral_le
  | withdrawn hdone => exact hstored.quiet rfl rfl rfl (StabilityPool.withdraw_settles hdone).1.collateral_le
  | liquidated hprice hdone => exact stored_of_liquidated haccounted hstored hlocked (.liquidated hprice hdone)
  | batchLiquidated hprice hdone => exact stored_of_liquidated haccounted hstored hlocked (.batchLiquidated hprice hdone)
  | claimed hdone => exact hstored.claimed hdone

variable {m : Machine}

theorem Run.stored (h : Run p m t) (hlocked : t.locked < 2 ^ 128) : m.liquidator.Stored t := by
  have hall := Run.induct (motive := fun s t => s.ledger.Accounted t ∧ (t.locked < 2 ^ 128 → s.Stored t))
    ⟨Ledger.accounted_empty, fun _ => ⟨Surplus.balanced_empty, rfl, Nat.le_refl 0⟩⟩
    (fun s s' t feed operation result hbefore heffect => by
      refine ⟨accounted_of_effect hbefore.1 heffect, fun hlocked => ?_⟩
      have hearlier : Transcript.locked ((operation, result) :: t) =
        Transcript.lockedBy (operation, result) + t.locked := rfl
      exact stored_of_effect hbefore.1 (hbefore.2 (by omega)) (by omega) heffect) h
  exact hall.2.2 hlocked

/-- **Collateral is conserved.** In every machine reached while all collateral ever locked is an amount, the active
pool is the sum of the collateral that active troves have on record. Both pools, what was given back to owners, the gas
compensations, and what was credited to the stability pool and to former owners are together what was locked. The
surplus is the sum of its balances, and what was credited to it and not claimed. Whatever liquidation is done next
hands out exactly what it takes. -/
theorem Run.collateral_conserved (h : Run p m t) (hlocked : t.locked < 2 ^ 128) :
    m.state.ledger.pools.activeCollateral.units =
      (m.state.ledger.activeTroves.map fun trove => trove.collateral.units).sum ∧
    m.state.ledger.pools.activeCollateral.units + m.state.ledger.pools.defaultCollateral.units + t.returned + t.gasPaid +
      t.gained + t.credited = t.locked ∧
    m.state.surplus.total.units = m.state.surplus.held ∧
    m.state.surplus.total.units = t.credited - t.claimed ∧ t.claimed ≤ t.credited ∧
    ∀ operation m' outcome, perform (execute operation) m = (m', .ok (.liquidation outcome)) →
      m.liquidator.HandsOut m'.liquidator outcome := by
  have hsound := h.accounted.held (Transcript.inRange_of_locked_lt hlocked).tail
  have hrecorded : (m.state.ledger.activeTroves.map fun trove => trove.collateral.units).sum =
      m.state.ledger.pools.activeCollateral.units := hsound.recorded_eq
  have hheld : m.state.ledger.pools.activeCollateral.units + m.state.ledger.pools.defaultCollateral.units + 0 +
      t.released = t.locked := hsound.held_eq
  have hreleased := t.released_eq
  have hstored := h.stored hlocked
  have hsurplus : m.state.surplus.total.units + t.claimed = t.credited := hstored.surplus_eq
  refine ⟨hrecorded.symm, by omega, hstored.balanced, by omega, by omega, fun operation m' outcome hdone => ?_⟩
  obtain ⟨heffect, -⟩ := effect_of_execute hdone
  exact handsOut_of_effect h.accounted hstored hlocked heffect

/-- A fall of the price puts the system in Recovery Mode with three troves below its ratio, one of them below the
minimum, and deposits that do for two of them and a part of the third. -/
def fallenRequests : List Request := [
  .operation (.openTrove (.ofWord 1) (.ofWhole 24) (.ofWhole 2000)),
  .operation (.openTrove (.ofWord 2) (.ofWhole 140) (.ofWhole 10000)),
  .operation (.openTrove (.ofWord 3) (.ofWhole 25) (.ofWhole 2000)),
  .operation (.openTrove (.ofWord 4) (.ofWhole 21) (.ofWhole 2000)),
  .operation (.openTrove (.ofWord 5) (.ofWhole 140) (.ofWhole 10000)),
  .operation (.provide (.ofWord 2) (.ofWhole 4500)),
  .price (.ofWhole 100)]

def fallenReached : Machine := (replay sampleStart fallenRequests).1

theorem run_fallen : Run .standard fallenReached (replay sampleStart fallenRequests).2 :=
  run_replay create_sample fallenRequests

def fallenBatch : Operation := .liquidateBatch (.ofWord 9) [.ofWord 1, .ofWord 3, .ofWord 4]

/-- All three are liquidated, one of the former owners claims a surplus, and once the price is back an owner takes out
collateral. -/
def recoveredRequests : List Request := fallenRequests ++ [
  .operation fallenBatch,
  .operation (.claimSurplus (.ofWord 1)),
  .price (.ofWhole 200),
  .operation (.adjustTrove (.ofWord 2) (.decrease (.ofWhole 10)) .unchanged)]

def recoveredReached : Machine := (replay sampleStart recoveredRequests).1

def recoveredTranscript : Transcript := (replay sampleStart recoveredRequests).2

theorem run_recovered : Run .standard recoveredReached recoveredTranscript := run_replay create_sample recoveredRequests

/-- Every unit of the 350 that were locked is in one of six places, and the batch alone handed out more than 54. -/
theorem Run.collateral_conserved_recovered :
    recoveredTranscript.locked = 350 * Amount.scale ∧
    recoveredTranscript.returned = 10 * Amount.scale ∧
    recoveredTranscript.gasPaid = 325000000000000000 ∧
    recoveredTranscript.gained = 49003750000000000000 ∧
    recoveredTranscript.credited = 5 * Amount.scale ∧
    recoveredTranscript.claimed = 2 * Amount.scale ∧
    recoveredReached.state.ledger.pools.activeCollateral.units = 277835625000000000000 ∧
    recoveredReached.state.ledger.pools.activeCollateral.units +
      recoveredReached.state.ledger.pools.defaultCollateral.units + 10 * Amount.scale + 325000000000000000 +
      49003750000000000000 + 5 * Amount.scale = 350 * Amount.scale ∧
    recoveredReached.state.surplus.total.units = 5 * Amount.scale - 2 * Amount.scale ∧
    ∃ m' outcome, perform (execute fallenBatch) fallenReached = (m', .ok (.liquidation outcome)) ∧
      fallenReached.liquidator.HandsOut m'.liquidator outcome := by
  have hlocked : recoveredTranscript.locked = 350 * Amount.scale := by decide +kernel
  have hreturned : recoveredTranscript.returned = 10 * Amount.scale := by decide +kernel
  have hgas : recoveredTranscript.gasPaid = 325000000000000000 := by decide +kernel
  have hgained : recoveredTranscript.gained = 49003750000000000000 := by decide +kernel
  have hcredited : recoveredTranscript.credited = 5 * Amount.scale := by decide +kernel
  have hclaimed : recoveredTranscript.claimed = 2 * Amount.scale := by decide +kernel
  obtain ⟨-, hpools, -, hsurplus, -, -⟩ := Run.collateral_conserved run_recovered (by decide +kernel)
  rw [hlocked, hreturned, hgas, hgained, hcredited] at hpools
  rw [hcredited, hclaimed] at hsurplus
  obtain ⟨-, -, -, -, -, hnext⟩ := Run.collateral_conserved run_fallen (by decide +kernel)
  have hisOk : (perform (execute fallenBatch) fallenReached).2.isOk = true := by decide +kernel
  obtain ⟨result, hresult⟩ := exists_ok_of_isOk hisOk
  have hdone := perform_eq_ok_of_snd hresult
  obtain ⟨outcome, rfl⟩ : ∃ outcome, result = .liquidation outcome := by
    obtain ⟨heffect, -⟩ := effect_of_execute hdone
    cases heffect
    exact ⟨_, rfl⟩
  exact ⟨hlocked, hreturned, hgas, hgained, hcredited, hclaimed, by decide +kernel, hpools, hsurplus, _, outcome, hdone,
    hnext _ _ _ hdone⟩

end Machine

end CollateralDebt
