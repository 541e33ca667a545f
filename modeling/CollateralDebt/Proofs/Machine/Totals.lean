import CollateralDebt.Proofs.Machine.Accounts

/-! When the totals of collateral are exact. A request is checked against what the active pool can hold, while
collateral that was redistributed waits in the default pool and is added to the active one, clamped, when its owner
settles. So both pools together can come to hold more than an amount; they do so exactly when more was locked and not
released than an amount holds. Up to then nothing is clamped, whatever the amounts and the prices. -/

namespace CollateralDebt

/-- The active pool is the sum of the collateral on record, and both pools together hold an amount of it. -/
structure Ledger.ExactCollateral (l : Ledger) : Prop where
  recorded_eq : l.pools.activeCollateral.units = (l.activeTroves.map fun trove => trove.collateral.units).sum
  held_lt : l.pools.activeCollateral.units + l.pools.defaultCollateral.units < 2 ^ 128

namespace Machine

variable {p : Params} {m : Machine} {t : Transcript}

/-- **The totals are exact as long as they can be.** If what was locked and not released was an amount until the last
operation, the pools hold just that, the active one what is on record; and the totals are exact after the last operation
too if and only if what was locked and not released is still an amount. Then the collateral of the system is their exact
sum. -/
theorem Run.collateral_exact_iff (h : Run p m t) (hearlier : Transcript.InRange t.tail) :
    m.state.ledger.pools.activeCollateral.units =
      (m.state.ledger.activeTroves.map fun trove => trove.collateral.units).sum ∧
    m.state.ledger.pools.activeCollateral.units + m.state.ledger.pools.defaultCollateral.units + t.released = t.locked ∧
    (m.state.ledger.ExactCollateral ↔ t.InRange) ∧
    (t.InRange → m.state.ledger.pools.collateral.units =
      m.state.ledger.pools.activeCollateral.units + m.state.ledger.pools.defaultCollateral.units) := by
  have hsound := h.accounted.held hearlier
  have hrecorded : m.state.ledger.pools.activeCollateral.units =
      (m.state.ledger.activeTroves.map fun trove => trove.collateral.units).sum := hsound.recorded_eq.symm
  have hheld : m.state.ledger.pools.activeCollateral.units + m.state.ledger.pools.defaultCollateral.units + 0 +
      t.released = t.locked := hsound.held_eq
  have hrange : m.state.ledger.pools.activeCollateral.units + m.state.ledger.pools.defaultCollateral.units < 2 ^ 128 ↔
      t.InRange := by
    rw [Transcript.inRange_iff]
    constructor
    · exact fun hlt => ⟨by omega, hearlier⟩
    · exact fun ⟨hlocked, _⟩ => by omega
  refine ⟨hrecorded, by omega, ⟨fun hexact => hrange.1 hexact.held_lt, fun hin => ⟨hrecorded, hrange.2 hin⟩⟩,
    fun hin => ?_⟩
  have hlt := hrange.2 hin
  rw [Pools.collateral, Amount.units_plusClamped]
  exact Nat.min_eq_left (by omega)

/-- After a redistribution a trove is opened with all the collateral that the active pool has room for. Then the owner
to whom the redistributed collateral is due repays a part of the debt, and so settles. -/
def overfullRequests : List Request := [
  .operation (.openTrove (.ofWord 1) (.ofWhole 20) (.ofWhole 2000)),
  .operation (.openTrove (.ofWord 2) (.ofWhole 1000) (.ofWhole 20000)),
  .price (.ofWhole 105),
  .operation (.liquidate (.ofWord 4) (.ofWord 1)),
  .operation (.openTrove (.ofWord 3) (Amount.max.minusClamped (.ofWhole 1000)) (.ofWhole 2000)),
  .operation (.adjustTrove (.ofWord 2) .unchanged (.decrease (.ofWhole 100)))]

def overfull (requests : Nat) : Machine × Transcript := replay sampleStart (overfullRequests.take requests)

theorem run_overfull (requests : Nat) : Run .standard (overfull requests).1 (overfull requests).2 :=
  run_replay create_sample _

/-- The totals were exact up to the redistribution, and are not after the large trove is opened. -/
theorem Run.collateral_exact_iff_overfull :
    (overfull 4).2.InRange ∧ (overfull 4).1.state.ledger.pools.defaultCollateral.units = 19900000000000000000 ∧
    (overfull 4).1.state.ledger.ExactCollateral ∧
    Transcript.InRange (overfull 5).2.tail ∧ ¬(overfull 5).2.InRange ∧
    ¬(overfull 5).1.state.ledger.ExactCollateral := by
  have hbefore : (overfull 4).2.InRange := by decide +kernel
  have hlarge : ¬(overfull 5).2.InRange := by decide +kernel
  have hearlier : Transcript.InRange (overfull 5).2.tail := by decide +kernel
  obtain ⟨-, -, hexact, -⟩ := Run.collateral_exact_iff (run_overfull 4) hbefore.tail
  obtain ⟨-, -, hinexact, -⟩ := Run.collateral_exact_iff (run_overfull 5) hearlier
  exact ⟨hbefore, by decide +kernel, hexact.2 hbefore, hearlier, hlarge, fun h => hlarge (hinexact.1 h)⟩

/-- The large trove is not refused, with more than an amount in both pools, and the settlement clamps the active pool
19.9 below what is on record. -/
theorem not_exact_overfull : ¬∀ p m t, Run p m t →
    m.state.ledger.pools.activeCollateral.units =
      (m.state.ledger.activeTroves.map fun trove => trove.collateral.units).sum ∧
    m.state.ledger.pools.activeCollateral.units + m.state.ledger.pools.defaultCollateral.units < 2 ^ 128 := by
  intro hclaim
  obtain ⟨hrecorded, -⟩ := hclaim _ _ _ (run_overfull 6)
  have hclamped : (overfull 6).1.state.ledger.pools.activeCollateral.units + 19900000000000000000 =
      ((overfull 6).1.state.ledger.activeTroves.map fun trove => trove.collateral.units).sum := by decide +kernel
  rw [← hrecorded] at hclamped
  exact absurd (Nat.add_eq_left.1 hclamped) (by decide)

end Machine

end CollateralDebt
