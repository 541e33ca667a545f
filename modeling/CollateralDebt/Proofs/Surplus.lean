import CollateralDebt.Liquidation.Commit
import CollateralDebt.Proofs.Action.Outcome
import CollateralDebt.Proofs.SortedMap.Total

/-! Surplus collateral is kept in full. The total is what all balances are together, and stays so: a credit raises
both by its amount, as long as the new total is an amount, and a claim lowers both by what is paid. -/

open CollateralDebt.Action

namespace CollateralDebt

namespace Surplus

variable {s s' : Surplus} {owner : Address} {amount : Amount}

/-- What all accounts hold together. -/
def held (s : Surplus) : Nat := s.balances.total Amount.units

/-- The total is the exact sum of the balances. -/
def Balanced (s : Surplus) : Prop := s.total.units = s.held

theorem balanced_empty : empty.Balanced := rfl

theorem units_balance (s : Surplus) (owner : Address) :
    (s.balance owner).units = (s.balances.get? owner).elim 0 Amount.units := by
  unfold balance
  cases s.balances.get? owner <;> rfl

theorem Balanced.balance_le (h : s.Balanced) (owner : Address) : (s.balance owner).units ≤ s.total.units := by
  have herase := s.balances.total_erase owner Amount.units
  rw [units_balance, h, held, ← herase]
  exact Nat.le_add_left _ _

/-- A credit loses nothing while the total is an amount: the balance is then no more than the total. -/
theorem Balanced.credit (h : s.Balanced) (owner : Address) (hfits : s.total.units + amount.units < 2 ^ 128) :
    (s.credit owner amount).Balanced ∧ (s.credit owner amount).total.units = s.total.units + amount.units := by
  unfold Surplus.credit
  split
  · next hzero =>
      rw [Amount.units_of_isZero hzero]
      exact ⟨h, rfl⟩
  · have hbalance := h.balance_le owner
    have htotal : (s.total.plusClamped amount).units = s.total.units + amount.units := by
      rw [Amount.units_plusClamped]
      exact Nat.min_eq_left (by omega)
    have hraised : ((s.balance owner).plusClamped amount).units = (s.balance owner).units + amount.units := by
      rw [Amount.units_plusClamped]
      exact Nat.min_eq_left (by omega)
    have hinsert := s.balances.total_insert owner ((s.balance owner).plusClamped amount) Amount.units
    rw [← units_balance, hraised] at hinsert
    have hheld : s.total.units = s.balances.total Amount.units := h
    refine ⟨?_, htotal⟩
    show (s.total.plusClamped amount).units = (s.balances.insert owner _).total Amount.units
    omega

/-- A credit goes to one account, and no other account sees it. -/
theorem Balanced.balance_credit (h : s.Balanced) (owner : Address) (hfits : s.total.units + amount.units < 2 ^ 128)
    (other : Address) : ((s.credit owner amount).balance other).units =
      (s.balance other).units + if owner = other then amount.units else 0 := by
  have hbalance := h.balance_le owner
  unfold Surplus.credit
  split
  · next hzero => rw [Amount.units_of_isZero hzero, ite_self, Nat.add_zero]
  · rw [balance, SortedMap.get?_insert]
    by_cases hsame : other = owner
    · rw [if_pos hsame, if_pos hsame.symm, Option.getD_some, Amount.units_plusClamped, hsame]
      exact Nat.min_eq_left (by omega)
    · rw [if_neg hsame, if_neg fun howner => hsame howner.symm]
      rfl

theorem Balanced.creditAll {values : List LiquidationValues} (h : s.Balanced)
    (hfits : s.total.units + (values.map fun v => v.surplus.units).sum < 2 ^ 128) :
    (Liquidator.creditAll s values).Balanced ∧
      (Liquidator.creditAll s values).total.units = s.total.units + (values.map fun v => v.surplus.units).sum := by
  unfold Liquidator.creditAll
  induction values generalizing s with
  | nil => exact ⟨h, rfl⟩
  | cons v rest ih =>
      rw [List.map_cons, List.sum_cons, ← Nat.add_assoc] at hfits ⊢
      obtain ⟨hfirst, htotal⟩ := h.credit v.borrower (show s.total.units + v.surplus.units < 2 ^ 128 by omega)
      rw [← htotal] at hfits ⊢
      exact ih hfirst hfits

/-- A claim pays the whole balance, which is something, and takes the account off the books. -/
theorem claim_eq_ok (h : perform (claim owner) s = (s', .ok amount)) :
    amount = s.balance owner ∧ 0 < amount.units ∧
      s' = { s with balances := s.balances.erase owner, total := s.total.minusClamped amount } := by
  unfold claim at h
  rw [perform_get_bind] at h
  obtain ⟨hpositive, h⟩ := perform_guard_eq_ok.1 h
  rw [perform_set_bind] at h
  cases h
  exact ⟨rfl, Amount.units_pos_iff.2 (by simpa using hpositive), rfl⟩

/-- A claim empties one account, and no other account sees it. -/
theorem balance_claim (h : perform (claim owner) s = (s', .ok amount)) (other : Address) :
    (s'.balance other).units + (if owner = other then amount.units else 0) = (s.balance other).units := by
  obtain ⟨rfl, -, rfl⟩ := claim_eq_ok h
  rw [balance]
  dsimp only
  rw [SortedMap.get?_erase]
  by_cases hsame : other = owner
  · rw [if_pos hsame, if_pos hsame.symm, hsame]
    exact Nat.zero_add _
  · rw [if_neg hsame, if_neg fun howner => hsame howner.symm]
    rfl

theorem Balanced.claim (h : s.Balanced) (hdone : perform (claim owner) s = (s', .ok amount)) :
    s'.Balanced ∧ s'.total.units + amount.units = s.total.units := by
  obtain ⟨rfl, -, rfl⟩ := claim_eq_ok hdone
  have hbalance := h.balance_le owner
  have herase := s.balances.total_erase owner Amount.units
  rw [← units_balance] at herase
  have hheld : s.total.units = s.balances.total Amount.units := h
  constructor
  · show s.total.units - (s.balance owner).units = (s.balances.erase owner).total Amount.units
    omega
  · exact Nat.sub_add_cancel hbalance

end Surplus

end CollateralDebt
