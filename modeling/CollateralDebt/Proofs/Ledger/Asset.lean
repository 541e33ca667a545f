import CollateralDebt.Ledger
import CollateralDebt.Proofs.Action.Outcome
import Mathlib.Algebra.Ring.Nat

/-! Debt and collateral, side by side. Redistributions, pools and troves treat the two alike, so what holds of one
holds of the other, and is said here of an asset. A trove's claim on an asset is its stake times the rise of the
level since its snapshot: what is pending is the claim in whole units, and the rest of the claim is dropped when
the trove settles. -/

open CollateralDebt.Action

namespace CollateralDebt

/-- What a trove holds of, and owes. -/
inductive Asset where
  | collateral
  | debt
  deriving DecidableEq, Repr

namespace Asset

def settled : Asset → Trove → Amount
  | collateral, t => t.collateral
  | debt, t => t.debt

def level : Asset → Level → Amount
  | collateral, v => v.collateral
  | debt, v => v.debt

def pending : Asset → Pending → Amount
  | collateral, p => p.collateral
  | debt, p => p.debt

def entire : Asset → EntireTrove → Amount
  | collateral, e => e.collateral
  | debt, e => e.debt

def active : Asset → Pools → Amount
  | collateral, p => p.activeCollateral
  | debt, p => p.activeDebt

def default : Asset → Pools → Amount
  | collateral, p => p.defaultCollateral
  | debt, p => p.defaultDebt

/-- What the whole system has of an asset. -/
def held : Asset → Pools → Amount
  | collateral, p => p.collateral
  | debt, p => p.debt

def carried : Asset → Rewards → Amount
  | collateral, r => r.carriedCollateral
  | debt, r => r.carriedDebt

def given : Asset → Redistribution → Amount
  | collateral, d => d.collateral
  | debt, d => d.debt

/-- The stake of a trove times the rise of the level since its snapshot. -/
def claim (a : Asset) (level : Level) (t : Trove) : Nat :=
  t.stake.units * ((a.level level).units - (a.level t.snapshot).units)

/-- The claim of a trove in whole units. -/
def due (a : Asset) (level : Level) (t : Trove) : Nat := a.claim level t / Amount.scale

theorem claim_of_snapshot {a : Asset} {level : Level} {t : Trove} (h : t.snapshot = level) :
    a.claim level t = 0 := by
  rw [claim, h, Nat.sub_self, Nat.mul_zero]

/-- When the level rises, the claim of a trove grows by what its stake receives. -/
theorem claim_rise {a : Asset} {level later : Level} {t : Trove}
    (hsnapshot : (a.level t.snapshot).units ≤ (a.level level).units)
    (hrise : (a.level level).units ≤ (a.level later).units) :
    a.claim later t = a.claim level t + t.stake.units * ((a.level later).units - (a.level level).units) := by
  have hsplit : (a.level later).units - (a.level t.snapshot).units =
      (a.level level).units - (a.level t.snapshot).units + ((a.level later).units - (a.level level).units) := by omega
  rw [claim, claim, hsplit, Nat.mul_add]

theorem due_mul_scale (a : Asset) (level : Level) (t : Trove) :
    a.due level t * Amount.scale + a.claim level t % Amount.scale = a.claim level t := by
  rw [due, Nat.mul_comm]
  exact Nat.div_add_mod _ _

end Asset

namespace Rewards

theorem times_down_eq_ok {a b c : Amount} :
    a.times b .down = .ok c ↔ c.units = a.units * b.units / Amount.scale := by
  rw [Amount.times, Amount.mulDiv_eq_ok_iff, and_iff_right (show Amount.one ≠ Amount.zero by decide)]
  rfl

/-- What is pending for a trove is what is due to it. -/
theorem pending_units {r : Rewards} {t : Trove} {p : Pending} (h : r.pending t = .ok p) (hactive : t.isActive = true)
    (a : Asset) : (a.pending p).units = a.due r.level t := by
  unfold pending at h
  split at h
  · next hnone =>
      cases h
      have hclaim : a.claim r.level t = 0 := by
        rw [Bool.or_eq_true, Bool.not_eq_true', hasPending, hactive, Bool.true_and] at hnone
        rcases hnone with hlevel | hstake
        · rw [Bool.or_eq_false_iff, decide_eq_false_iff_not, decide_eq_false_iff_not] at hlevel
          have hcollateral : r.level.collateral.units ≤ t.snapshot.collateral.units := Nat.le_of_not_lt hlevel.1
          have hdebt : r.level.debt.units ≤ t.snapshot.debt.units := Nat.le_of_not_lt hlevel.2
          cases a with
          | collateral => rw [Asset.claim, Asset.level, Asset.level, Nat.sub_eq_zero_of_le hcollateral, Nat.mul_zero]
          | debt => rw [Asset.claim, Asset.level, Asset.level, Nat.sub_eq_zero_of_le hdebt, Nat.mul_zero]
        · rw [Asset.claim, Amount.isZero_iff.1 hstake]
          exact Nat.zero_mul _
      rw [Asset.due, hclaim]
      cases a <;> rfl
  · obtain ⟨collateralRise, hcollateralRise, h⟩ := except_bind_eq_ok.1 h
    obtain ⟨debtRise, hdebtRise, h⟩ := except_bind_eq_ok.1 h
    obtain ⟨collateral, hcollateral, h⟩ := except_bind_eq_ok.1 h
    obtain ⟨debt, hdebt, h⟩ := except_bind_eq_ok.1 h
    cases h
    rw [Amount.minus_eq_ok_iff] at hcollateralRise hdebtRise
    rw [times_down_eq_ok] at hcollateral hdebt
    cases a with
    | collateral =>
        have hrise : r.level.collateral.units - t.snapshot.collateral.units = collateralRise.units := by omega
        rw [Asset.due, Asset.claim, Asset.level, Asset.level, hrise]
        exact hcollateral
    | debt =>
        have hrise : r.level.debt.units - t.snapshot.debt.units = debtRise.units := by omega
        rw [Asset.due, Asset.claim, Asset.level, Asset.level, hrise]
        exact hdebt

/-- What is pending for a trove exists if no snapshot is ahead of the level and what is due is in range. -/
theorem exists_pending {r : Rewards} {t : Trove}
    (hsnapshot : ∀ a : Asset, (a.level t.snapshot).units ≤ (a.level r.level).units)
    (hdue : ∀ a : Asset, a.due r.level t < 2 ^ 128) : ∃ p, r.pending t = .ok p := by
  unfold pending
  split
  · exact ⟨_, rfl⟩
  · have hcollateral : t.snapshot.collateral ≤ r.level.collateral := hsnapshot .collateral
    have hdebt : t.snapshot.debt ≤ r.level.debt := hsnapshot .debt
    refine ⟨⟨⟨_, hdue .collateral⟩, ⟨_, hdue .debt⟩⟩, ?_⟩
    rw [Amount.minus, if_pos hcollateral, Amount.minus, if_pos hdebt]
    refine except_bind_eq_ok.2 ⟨_, rfl, except_bind_eq_ok.2 ⟨_, rfl, ?_⟩⟩
    refine except_bind_eq_ok.2 ⟨⟨_, hdue .collateral⟩, times_down_eq_ok.2 rfl, ?_⟩
    exact except_bind_eq_ok.2 ⟨⟨_, hdue .debt⟩, times_down_eq_ok.2 rfl, rfl⟩

theorem entire_eq_ok {r : Rewards} {t : Trove} {e : EntireTrove} (h : r.entire t = .ok e) :
    r.pending t = .ok e.pending ∧ e.stake = t.stake ∧
      ∀ a : Asset, (a.entire e).units = (a.settled t).units + (a.pending e.pending).units := by
  unfold entire at h
  obtain ⟨p, hp, h⟩ := except_bind_eq_ok.1 h
  obtain ⟨debt, hdebt, h⟩ := except_bind_eq_ok.1 h
  obtain ⟨collateral, hcollateral, h⟩ := except_bind_eq_ok.1 h
  cases h
  refine ⟨hp, rfl, fun a => ?_⟩
  rw [Amount.plus_eq_ok_iff] at hdebt hcollateral
  cases a with
  | collateral => exact hcollateral
  | debt => exact hdebt

/-- A trove has its entire amounts if no snapshot is ahead of the level and their sums are in range. -/
theorem exists_entire {r : Rewards} {t : Trove} (hactive : t.isActive = true)
    (hsnapshot : ∀ a : Asset, (a.level t.snapshot).units ≤ (a.level r.level).units)
    (hsum : ∀ a : Asset, (a.settled t).units + a.due r.level t < 2 ^ 128) : ∃ e, r.entire t = .ok e := by
  obtain ⟨pending, hpending⟩ := exists_pending hsnapshot fun a => Nat.lt_of_le_of_lt (Nat.le_add_left _ _) (hsum a)
  have hplus : ∀ a : Asset, ∃ sum, (a.settled t).plus (a.pending pending) = .ok sum := by
    intro a
    refine ⟨⟨_, ?_⟩, Amount.plus_eq_ok_iff.2 rfl⟩
    rw [pending_units hpending hactive a]
    exact hsum a
  obtain ⟨collateral, hcollateral⟩ := hplus .collateral
  obtain ⟨debt, hdebt⟩ := hplus .debt
  unfold entire
  exact ⟨_, except_bind_eq_ok.2 ⟨pending, hpending, except_bind_eq_ok.2 ⟨debt, hdebt,
    except_bind_eq_ok.2 ⟨collateral, hcollateral, rfl⟩⟩⟩⟩

/-- Nothing is pending for a trove whose snapshot is the level. -/
theorem entire_of_snapshot {r : Rewards} {t : Trove} (h : t.snapshot = r.level) :
    r.entire t = .ok ⟨t.debt, t.collateral, .zero, t.stake⟩ := by
  have hlevel : ∀ a : Amount, decide (a < a) = false := fun a => decide_eq_false (Nat.lt_irrefl _)
  have hnone : r.pending t = .ok .zero := by
    unfold pending
    rw [hasPending, h, hlevel, hlevel, Bool.or_self, Bool.and_false]
    rfl
  have hplus : ∀ a : Amount, a.plus .zero = .ok a := fun a => Amount.plus_eq_ok_iff.2 rfl
  rw [entire, hnone]
  exact except_bind_eq_ok.2 ⟨_, rfl, except_bind_eq_ok.2 ⟨_, hplus _, except_bind_eq_ok.2 ⟨_, hplus _, rfl⟩⟩⟩

theorem share_eq_ok {amount carried stakes perStake left : Amount} (hstakes : stakes.isZero = false)
    (h : share amount carried stakes = .ok (perStake, left)) :
    stakes.units * perStake.units + left.units = amount.units * Amount.scale + carried.units := by
  unfold share at h
  obtain ⟨quotient, hquotient, h⟩ := except_bind_eq_ok.1 h
  cases h
  rw [Amount.narrow_eq_ok_iff] at hquotient
  have hpos : 0 < stakes.units := Nat.pos_of_ne_zero fun hzero => by rw [Amount.isZero, hzero] at hstakes; cases hstakes
  have hsmall := Nat.mod_lt (amount.units * Amount.scale + carried.units) hpos
  have hrange := stakes.units_lt
  rw [hquotient, Amount.units_clamp, Nat.min_eq_left (by omega)]
  exact Nat.div_add_mod _ _

theorem share_eq_error {amount carried stakes : Amount} {e : Error} (h : share amount carried stakes = .error e) :
    e = .overflow (.perStake amount stakes) := by
  unfold share at h
  rcases except_bind_eq_error.1 h with h | ⟨_, -, h⟩
  · exact Amount.eq_of_narrow_eq_error h
  · cases h

/-- A redistribution fails if there is debt and nothing is staked, or if a number is out of range. -/
theorem redistribution_eq_error {r : Rewards} {collateral debt stakes : Amount} {e : Error}
    (h : r.redistribution collateral debt stakes = .error e) :
    e = .degenerateDivision .redistribution ∧ 0 < debt.units ∧ stakes.units = 0 ∨
      ∃ calculation, e = .overflow calculation := by
  unfold redistribution at h
  split at h
  · cases h
  next hdebt =>
  split at h
  · next hstakes =>
      exact .inl ⟨(Except.error.inj h).symm, Amount.units_pos_iff.2 hdebt, Amount.units_of_isZero hstakes⟩
  rcases except_bind_eq_error.1 h with h | ⟨_, -, h⟩
  · exact .inr ⟨_, share_eq_error h⟩
  rcases except_bind_eq_error.1 h with h | ⟨_, -, h⟩
  · exact .inr ⟨_, share_eq_error h⟩
  rcases except_bind_eq_error.1 h with h | ⟨_, -, h⟩
  · exact .inr ⟨_, Amount.eq_of_narrow_eq_error h⟩
  rcases except_bind_eq_error.1 h with h | ⟨_, -, h⟩
  · exact .inr ⟨_, Amount.eq_of_narrow_eq_error h⟩
  · cases h

/-- A redistribution gives every unit staked the same, and what it gives and carries over is the amount and what
was carried before. -/
theorem redistribution_eq_ok {r : Rewards} {collateral debt stakes : Amount} {d : Redistribution}
    (h : r.redistribution collateral debt stakes = .ok (some d)) :
    d.collateral = collateral ∧ d.debt = debt ∧ ∀ a : Asset, ∃ rise : Nat,
      (a.level d.level).units = (a.level r.level).units + rise ∧
        stakes.units * rise + (a.carried (r.redistribute d)).units =
          (a.given d).units * Amount.scale + (a.carried r).units := by
  unfold redistribution at h
  split at h
  · cases h
  · split at h
    · cases h
    · next hstakes =>
        rw [Bool.not_eq_true] at hstakes
        obtain ⟨⟨collateralShare, carriedCollateral⟩, hcollateral, h⟩ := except_bind_eq_ok.1 h
        obtain ⟨⟨debtShare, carriedDebt⟩, hdebt, h⟩ := except_bind_eq_ok.1 h
        obtain ⟨collateralLevel, hcollateralLevel, h⟩ := except_bind_eq_ok.1 h
        obtain ⟨debtLevel, hdebtLevel, h⟩ := except_bind_eq_ok.1 h
        cases h
        rw [Amount.plus_eq_ok_iff] at hcollateralLevel hdebtLevel
        refine ⟨rfl, rfl, fun a => ?_⟩
        cases a with
        | collateral => exact ⟨collateralShare.units, hcollateralLevel, share_eq_ok hstakes hcollateral⟩
        | debt => exact ⟨debtShare.units, hdebtLevel, share_eq_ok hstakes hdebt⟩

end Rewards

namespace Pools

@[simp] theorem default_settle (a : Asset) (p : Pools) (q : Pending) :
    (a.default (p.settle q)).units = (a.default p).units - (a.pending q).units := by cases a <;> rfl

theorem active_settle {a : Asset} {p : Pools} {q : Pending}
    (h : (a.active p).units + (a.pending q).units < 2 ^ 128) :
    (a.active (p.settle q)).units = (a.active p).units + (a.pending q).units := by
  have hclamp : a.active (p.settle q) = (a.active p).plusClamped (a.pending q) := by cases a <;> rfl
  rw [hclamp, Amount.units_plusClamped]
  exact Nat.min_eq_left (by omega)

theorem units_held {a : Asset} {p : Pools} (h : (a.active p).units + (a.default p).units < 2 ^ 128) :
    (a.held p).units = (a.active p).units + (a.default p).units := by
  have hclamp : a.held p = (a.active p).plusClamped (a.default p) := by cases a <;> rfl
  rw [hclamp, Amount.units_plusClamped]
  exact Nat.min_eq_left (by omega)

end Pools

end CollateralDebt
