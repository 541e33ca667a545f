import CollateralDebt.Proofs.Machine.Accounts

/-! Conservation of debt. In every machine that is reached, the active pool is the sum of the debt on record, what
was minted and not burned is in the pools, and whatever is asked next is reckoned exactly: no debt is clamped, be
the operation done or refused in the end. -/

namespace CollateralDebt

namespace Machine

/-- An operation clamps no debt on its way: not the settlement that an owner's request makes, and nothing in carrying
out a batch at the price now. -/
def ReckonsExactly (m : Machine) : Operation → Prop
  | .adjustTrove owner _ _ | .closeTrove owner =>
      ∀ entire, m.state.ledger.entire owner = .ok entire → m.state.ledger.SettlesExactly entire
  | .liquidate _ borrower => ∀ price plan, m.feed.fetch = .ok price →
      LiquidationPlan.make m.state.ledger m.state.pool m.state.params price [borrower] = .ok plan →
        m.liquidator.CommitsExactly plan
  | .liquidateBatch _ borrowers => ∀ price plan, m.feed.fetch = .ok price →
      LiquidationPlan.make m.state.ledger m.state.pool m.state.params price borrowers = .ok plan →
        m.liquidator.CommitsExactly plan
  | _ => True

variable {p : Params} {m : Machine} {t : Transcript}

theorem Run.settlesExactly (h : Run p m t) {owner : Address} {e : EntireTrove}
    (hentire : m.state.ledger.entire owner = .ok e) : m.state.ledger.SettlesExactly e := by
  unfold Ledger.entire at hentire
  obtain ⟨trove, hfound, hentire⟩ := Action.except_bind_eq_ok.1 hentire
  exact Ledger.settlesExactly h.accounted.debt m.state.ledger.minted.units_lt hfound hentire

theorem Run.commitsExactly (h : Run p m t) {price : Amount} {borrowers : List Address} {plan : LiquidationPlan}
    (hplan : LiquidationPlan.make m.state.ledger m.state.pool m.state.params price borrowers = .ok plan) :
    m.liquidator.CommitsExactly plan :=
  Liquidator.commitsExactly (s := m.liquidator) (LiquidationPlan.fits_of_make hplan) h.accounted.debt rfl

/-- **Debt is conserved.** In every machine reached the active pool is the sum of the debt that active troves have on
record, and both pools together are what was minted and not burned. The debt of the system is their exact sum, and
no operation that may be asked next clamps a debt on its way. -/
theorem Run.debt_conserved (h : Run p m t) :
    m.state.ledger.pools.activeDebt.units = (m.state.ledger.activeTroves.map fun trove => trove.debt.units).sum ∧
    m.state.ledger.burned.units ≤ m.state.ledger.minted.units ∧
    m.state.ledger.pools.activeDebt.units + m.state.ledger.pools.defaultDebt.units =
      m.state.ledger.minted.units - m.state.ledger.burned.units ∧
    m.state.ledger.pools.debt.units =
      m.state.ledger.pools.activeDebt.units + m.state.ledger.pools.defaultDebt.units ∧
    ∀ operation, m.ReckonsExactly operation := by
  have hsound := h.accounted.debt
  have hrecorded : (m.state.ledger.activeTroves.map fun trove => trove.debt.units).sum =
      m.state.ledger.pools.activeDebt.units := hsound.recorded_eq
  have hheld : m.state.ledger.pools.activeDebt.units + m.state.ledger.pools.defaultDebt.units + 0 +
      m.state.ledger.burned.units = m.state.ledger.minted.units := hsound.held_eq
  have hminted := m.state.ledger.minted.units_lt
  refine ⟨hrecorded.symm, by omega, by omega, ?_, fun operation => ?_⟩
  · rw [Pools.debt, Amount.units_plusClamped]
    exact Nat.min_eq_left (by omega)
  · cases operation with
    | adjustTrove owner collateral debt => exact fun entire hentire => h.settlesExactly hentire
    | closeTrove owner => exact fun entire hentire => h.settlesExactly hentire
    | liquidate caller borrower => exact fun price plan _ hplan => h.commitsExactly hplan
    | liquidateBatch caller borrowers => exact fun price plan _ hplan => h.commitsExactly hplan
    | openTrove owner collateral debt => trivial
    | provide depositor amount => trivial
    | withdraw depositor amount => trivial
    | claimSurplus owner => trivial

/-- After two liquidations most of the debt is on record, some is pending, and some is burned. -/
theorem Run.debt_conserved_sample :
    sampleReached.state.ledger.pools.defaultDebt.units = 4019230769230769231000 ∧
    sampleReached.state.ledger.burned.units = 1600 * Amount.scale ∧
    sampleReached.state.ledger.pools.activeDebt.units + sampleReached.state.ledger.pools.defaultDebt.units =
      46000 * Amount.scale - 1600 * Amount.scale ∧
    sampleReached.ReckonsExactly (.liquidate (.ofWord 4) (.ofWord 5)) := by
  obtain ⟨-, -, hpools, -, hexact⟩ := Run.debt_conserved run_sample
  have hminted : sampleReached.state.ledger.minted.units = 46000 * Amount.scale := by decide +kernel
  have hburned : sampleReached.state.ledger.burned.units = 1600 * Amount.scale := by decide +kernel
  rw [hminted, hburned] at hpools
  exact ⟨by decide +kernel, hburned, hpools, hexact _⟩

end Machine

end CollateralDebt
