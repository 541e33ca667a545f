import CollateralDebt.Trove

/-!
Redistribution of debt and collateral over all active troves, without touching any of them. Each redistribution
raises a level by what every unit staked receives; what a trove has pending is its stake times the rise of the
level since its snapshot. What a division leaves over is carried into the next one, so it is late and not lost.
-/

namespace CollateralDebt

/-- What redistributions have added to a trove since its snapshot. -/
structure Pending where
  collateral : Amount
  debt : Amount
  deriving DecidableEq, Repr

namespace Pending

def zero : Pending := ⟨.zero, .zero⟩

def isZero (p : Pending) : Bool := p.collateral.isZero && p.debt.isZero

end Pending

/-- The entire amounts of a trove: settled and pending together. -/
structure EntireTrove where
  debt : Amount
  collateral : Amount
  pending : Pending
  stake : Amount
  deriving DecidableEq, Repr

/-- A redistribution that is computed and not yet carried out. -/
structure Redistribution where
  collateral : Amount
  debt : Amount
  /-- What each unit staked receives. -/
  rise : Level
  level : Level
  /-- What the division of collateral leaves over. -/
  carriedCollateral : Amount
  carriedDebt : Amount
  deriving DecidableEq, Repr

/-- The level of redistributions, what their divisions left over, and the stakes. -/
structure Rewards where
  level : Level
  /-- What the last division of collateral left over. -/
  carriedCollateral : Amount
  carriedDebt : Amount
  /-- The stakes of all active troves together. -/
  totalStakes : Amount
  /-- The stakes together after the last liquidation. -/
  stakesBasis : Amount
  /-- The collateral of the whole system after the last liquidation. -/
  collateralBasis : Amount
  deriving DecidableEq, Repr

namespace Rewards

def empty : Rewards := ⟨.zero, .zero, .zero, .zero, .zero, .zero⟩

instance : Inhabited Rewards := ⟨empty⟩

/-- Whether the level of an active trove's snapshot is behind. -/
def hasPending (r : Rewards) (t : Trove) : Bool :=
  t.isActive && (t.snapshot.collateral < r.level.collateral || t.snapshot.debt < r.level.debt)

/-- What is pending for a trove, rounded down. -/
def pending (r : Rewards) (t : Trove) : Except Error Pending :=
  if !r.hasPending t || t.stake.isZero then .ok .zero
  else do
    let collateralRise ← r.level.collateral.minus t.snapshot.collateral
    let debtRise ← r.level.debt.minus t.snapshot.debt
    let collateral ← t.stake.times collateralRise .down
    let debt ← t.stake.times debtRise .down
    return { collateral, debt }

def entire (r : Rewards) (t : Trove) : Except Error EntireTrove := do
  let pending ← r.pending t
  let debt ← t.debt.plus pending.debt
  let collateral ← t.collateral.plus pending.collateral
  return { debt, collateral, pending, stake := t.stake }

/-- The stake of a trove with so much collateral. After a liquidation it is smaller than the collateral, in the
proportion of all stakes to all collateral, so that a new trove has no share in what was credited before. -/
def newStake (r : Rewards) (collateral : Amount) : Except Error Amount :=
  if r.collateralBasis.isZero || r.stakesBasis.isZero then .ok collateral
  else collateral.mulDiv r.stakesBasis r.collateralBasis .down

def replaceStake (r : Rewards) (old new : Amount) : Except Error Rewards := do
  let totalStakes ← (r.totalStakes.minusClamped old).plus new
  return { r with totalStakes }

def removeStake (r : Rewards) (stake : Amount) : Rewards :=
  { r with totalStakes := r.totalStakes.minusClamped stake }

/-- The basis of new stakes, taken from the stakes now and the collateral of the whole system. -/
def rebase (r : Rewards) (systemCollateral : Amount) : Rewards :=
  { r with stakesBasis := r.totalStakes, collateralBasis := systemCollateral }

/-- What each unit staked receives of an amount and of what was carried over, and what is left over now. -/
def share (amount carried stakes : Amount) : Except Error (Amount × Amount) := do
  let numerator := amount.units * Amount.scale + carried.units
  let perStake ← Amount.narrow (numerator / stakes.units) (.perStake amount stakes)
  return (perStake, Amount.clamp (numerator % stakes.units))

/-- The redistribution of collateral and debt over stakes; none if there is no debt. -/
def redistribution (r : Rewards) (collateral debt stakes : Amount) : Except Error (Option Redistribution) :=
  if debt.isZero then .ok none
  else if stakes.isZero then .error (.degenerateDivision .redistribution)
  else do
    let (collateralShare, carriedCollateral) ← share collateral r.carriedCollateral stakes
    let (debtShare, carriedDebt) ← share debt r.carriedDebt stakes
    let collateralLevel ← r.level.collateral.plus collateralShare
    let debtLevel ← r.level.debt.plus debtShare
    return some {
      collateral, debt, carriedCollateral, carriedDebt
      rise := ⟨collateralShare, debtShare⟩
      level := ⟨collateralLevel, debtLevel⟩ }

def redistribute (r : Rewards) (d : Redistribution) : Rewards :=
  { r with level := d.level, carriedCollateral := d.carriedCollateral, carriedDebt := d.carriedDebt }

end Rewards

end CollateralDebt
