import CollateralDebt.Proofs.Ledger.Row

/-! Stakes and the collateral behind them. No active trove stakes more than it has on record, and the basis of new
stakes is a proportion of at most one. So a new stake is never more than the collateral it is for, and where the active
pool has room for the collateral, the total of stakes has room for the stake. Operations of owners keep it so, whatever
they do to the collateral, and leave all other stakes alone. A new stake is rounded down, and is nothing where the basis
asks for more collateral than there is for one unit of it. -/

open CollateralDebt.Action

namespace CollateralDebt

namespace Rewards

variable {r : Rewards} {collateral stake : Amount}

/-- A new stake is the collateral, or in the proportion of the basis to it. -/
theorem newStake_eq_ok (h : r.newStake collateral = .ok stake) :
    (r.collateralBasis.units = 0 ∨ r.stakesBasis.units = 0) ∧ stake = collateral ∨
      0 < r.collateralBasis.units ∧ 0 < r.stakesBasis.units ∧
        stake.units = collateral.units * r.stakesBasis.units / r.collateralBasis.units := by
  unfold newStake at h
  split at h
  · next hnone =>
      cases h
      rw [Bool.or_eq_true] at hnone
      exact .inl ⟨hnone.imp Amount.units_of_isZero Amount.units_of_isZero, rfl⟩
  · next hsome =>
      rw [Bool.or_eq_true, not_or, ← Amount.units_pos_iff, ← Amount.units_pos_iff] at hsome
      exact .inr ⟨hsome.1, hsome.2, (Amount.mulDiv_eq_ok_iff.1 h).2⟩

/-- Collateral has no stake where the basis asks for more of it for one unit. -/
theorem newStake_eq_zero_iff (hcollateral : 0 < collateral.units) (h : r.newStake collateral = .ok stake) :
    stake = .zero ↔ 0 < r.stakesBasis.units ∧ collateral.units * r.stakesBasis.units < r.collateralBasis.units := by
  rcases newStake_eq_ok h with ⟨hnone, rfl⟩ | ⟨hbasis, hstakes, hunits⟩
  · refine iff_of_false (fun hzero => ?_) fun ⟨hstakes, hless⟩ => ?_
    · rw [hzero] at hcollateral
      exact Nat.lt_irrefl 0 hcollateral
    · rcases hnone with hnone | hnone <;> omega
  · rw [Amount.ext_iff, hunits, and_iff_right hstakes]
    exact Nat.div_eq_zero_iff_lt hbasis

theorem newStake_le (hbasis : r.stakesBasis ≤ r.collateralBasis) (h : r.newStake collateral = .ok stake) :
    stake ≤ collateral := by
  rcases newStake_eq_ok h with ⟨-, rfl⟩ | ⟨hpos, -, hunits⟩
  · exact Nat.le_refl _
  · rw [Amount.le_iff, hunits]
    refine Nat.div_le_of_le_mul ?_
    rw [Nat.mul_comm]
    exact Nat.mul_le_mul_right _ hbasis

theorem exists_newStake (hbasis : r.stakesBasis ≤ r.collateralBasis) (collateral : Amount) :
    ∃ stake, r.newStake collateral = .ok stake ∧ stake ≤ collateral := by
  obtain ⟨stake, hstake⟩ : ∃ stake, r.newStake collateral = .ok stake := by
    unfold newStake
    split
    · exact ⟨_, rfl⟩
    · next hsome =>
        rw [Bool.or_eq_true, not_or, ← Amount.units_pos_iff] at hsome
        refine (Amount.exists_mulDiv_eq_ok_iff hsome.1).2 (Nat.div_le_of_le_mul ?_)
        rw [Nat.mul_comm]
        exact Nat.mul_le_mul hbasis collateral.le_max
  exact ⟨stake, hstake, newStake_le hbasis hstake⟩

theorem exists_replaceStake (r : Rewards) (old new : Amount)
    (hfits : r.totalStakes.units - old.units + new.units < 2 ^ 128) : ∃ r', r.replaceStake old new = .ok r' :=
  ⟨_, except_bind_eq_ok.2 ⟨⟨_, hfits⟩, Amount.plus_eq_ok_iff.2 rfl, rfl⟩⟩

end Rewards

namespace Ledger

/-- No active trove stakes more than the collateral it has on record. -/
def StakesBacked (l : Ledger) : Prop := l.troves.All fun t => t.isActive = true → t.stake ≤ t.collateral

/-- Stakes are covered by collateral, those of the active troves and those of the basis. -/
structure StakesCovered (l : Ledger) : Prop where
  backed : l.StakesBacked
  basis : l.rewards.stakesBasis ≤ l.rewards.collateralBasis

theorem stakesCovered_empty : empty.StakesCovered := ⟨SortedMap.all_empty _, Nat.le_refl 0⟩

variable {l l' : Ledger} {owner other : Address} {old t r : Trove} {e : EntireTrove} {collateral : Amount}

/-! ## What is staked in all -/

/-- What the active troves do not stake of their collateral is left of what they have together. -/
theorem StakesBacked.total_add_unstaked (h : l.StakesBacked) :
    l.activeTotal (fun t => t.stake.units) + l.activeTotal (fun t => t.collateral.units - t.stake.units) =
      l.activeTotal fun t => t.collateral.units := by
  rw [activeTotal_eq_total, activeTotal_eq_total, activeTotal_eq_total, ← SortedMap.total_add]
  apply SortedMap.total_congr
  intro entry hmem
  unfold Trove.weigh
  split
  · next hactive => exact Nat.add_sub_cancel' (h entry hmem hactive)
  · rfl

theorem StakesBacked.totalStakes_le (h : l.StakesBacked) (hregular : l.Regular)
    (hrecorded : (l.books .collateral).recorded = (l.books .collateral).active) :
    l.rewards.totalStakes ≤ l.pools.activeCollateral := by
  have hunstaked := h.total_add_unstaked
  have hstakes := hregular.stakes
  have hactive : l.activeTotal (fun t => t.collateral.units) = l.pools.activeCollateral.units := hrecorded
  rw [Amount.le_iff]
  omega

/-- The stakes of all other troves are covered by what those have. -/
theorem StakesBacked.totalStakes_without_le (h : l.StakesBacked) (hregular : l.Regular)
    (hrecorded : (l.books .collateral).recorded = (l.books .collateral).active) (hfound : l.activeTrove owner = .ok t) :
    l.rewards.totalStakes.units - t.stake.units ≤ l.pools.activeCollateral.units - t.collateral.units := by
  have hunstaked := h.total_add_unstaked
  have hstakes := hregular.stakes
  have hactive : l.activeTotal (fun t => t.collateral.units) = l.pools.activeCollateral.units := hrecorded
  have howner := le_activeTotal hfound fun t => t.collateral.units - t.stake.units
  omega

/-- Nothing is staked in all exactly if no active trove stakes anything. -/
theorem Regular.totalStakes_eq_zero_iff (h : l.Regular) :
    l.rewards.totalStakes.units = 0 ↔ ∀ owner t, l.activeTrove owner = .ok t → t.stake = .zero := by
  rw [← h.stakes]
  constructor
  · intro hzero owner t hfound
    have hle := le_activeTotal hfound fun t => t.stake.units
    exact Amount.ext (Nat.eq_zero_of_le_zero (hle.trans_eq hzero))
  · intro hnone
    refine List.sum_eq_zero fun x hx => ?_
    obtain ⟨t, hmem, rfl⟩ := List.mem_map.1 hx
    obtain ⟨⟨owner, hentry⟩, hactive⟩ := mem_activeTroves hmem
    exact congrArg Amount.units (hnone owner t (activeTrove_of_get? (SortedMap.mem_entries_iff.1 hentry) hactive))

/-! ## Operations of owners -/

/-- A trove is put in place with a new stake. -/
theorem StakesCovered.put {oldStake : Amount} (h : l.StakesCovered)
    (hstake : l.rewards.newStake t.collateral = .ok t.stake) (htroves : l'.troves = l.troves.insert owner t)
    (hrewards : l.rewards.replaceStake oldStake t.stake = .ok l'.rewards) : l'.StakesCovered := by
  have hle := Rewards.newStake_le h.basis hstake
  constructor
  · unfold StakesBacked
    rw [htroves]
    exact h.backed.insert owner fun _ => hle
  · rw [(Rewards.replaceStake_eq_ok hrewards).1]
    exact h.basis

theorem Opened.stakesCovered (hopened : Opened l l' owner t) (h : l.StakesCovered) : l'.StakesCovered :=
  h.put hopened.stake hopened.troves hopened.rewards

theorem Adjusted.stakesCovered (hadjusted : Adjusted l l' owner old e t) (h : l.StakesCovered) : l'.StakesCovered :=
  h.put hadjusted.stake hadjusted.troves hadjusted.rewards

theorem StakesCovered.leave {status : TroveStatus} (h : l.StakesCovered) (owner : Address) (e : EntireTrove)
    (hstatus : status ≠ .active) : (l.leave owner e status).StakesCovered := by
  obtain ⟨owners, troves, htroves, hframe⟩ := leave_frame l owner e status
  have hkept : troves.All fun t => t.isActive = true → t.stake ≤ t.collateral := htroves.all (fun _ _ ht => ht) h.backed
  rw [hframe]
  refine ⟨hkept.update owner fun t _ hactive => ?_, h.basis⟩
  rw [isActive_closed t hstatus] at hactive
  cases hactive

theorem Repaid.stakesCovered (hrepaid : Repaid l l' owner old e) (h : l.StakesCovered) : l'.StakesCovered := by
  obtain ⟨hbacked, hbasis⟩ := h.leave owner e (show TroveStatus.closedByOwner ≠ .active by decide)
  rw [hrepaid.left]
  exact ⟨hbacked, hbasis⟩

/-- The basis taken now is covered if what is staked is backed. -/
theorem StakesBacked.rebase (h : l.StakesBacked) (hregular : l.Regular)
    (hrecorded : (l.books .collateral).recorded = (l.books .collateral).active) : l.rebase.StakesCovered := by
  refine ⟨h, Nat.le_trans (h.totalStakes_le hregular hrecorded) ?_⟩
  show _ ≤ (l.pools.activeCollateral.plusClamped l.pools.defaultCollateral).units
  rw [Amount.units_plusClamped]
  exact Nat.le_min.2 ⟨Nat.le_add_right _ _, l.pools.activeCollateral.le_max⟩

/-! ## Stakes that operations ask for -/

/-- The total of stakes has room for a new stake, in place of an old one, if it has room for the collateral. -/
theorem StakesCovered.exists_replaced (h : l.StakesCovered) (oldStake collateral : Amount)
    (hfits : l.rewards.totalStakes.units - oldStake.units + collateral.units < 2 ^ 128) :
    ∃ stake rewards, l.rewards.newStake collateral = .ok stake ∧
      l.rewards.replaceStake oldStake stake = .ok rewards := by
  obtain ⟨stake, hstake, hle⟩ := Rewards.exists_newStake h.basis collateral
  rw [Amount.le_iff] at hle
  obtain ⟨rewards, hrewards⟩ := l.rewards.exists_replaceStake oldStake stake (by omega)
  exact ⟨stake, rewards, hstake, hrewards⟩

/-- A new trove gets its stake if the active pool has room for its collateral. -/
theorem StakesCovered.exists_stake (h : l.StakesCovered) (hregular : l.Regular)
    (hrecorded : (l.books .collateral).recorded = (l.books .collateral).active)
    (hfits : l.pools.activeCollateral.units + collateral.units < 2 ^ 128) :
    ∃ stake rewards, l.rewards.newStake collateral = .ok stake ∧ l.rewards.replaceStake .zero stake = .ok rewards := by
  have htotal := h.backed.totalStakes_le hregular hrecorded
  rw [Amount.le_iff] at htotal
  exact h.exists_replaced .zero collateral (by omega)

/-- An active trove gets another stake if the active pool has room for the collateral in place of what it has. -/
theorem StakesCovered.exists_restake (h : l.StakesCovered) (hregular : l.Regular)
    (hrecorded : (l.books .collateral).recorded = (l.books .collateral).active) (hfound : l.activeTrove owner = .ok t)
    (collateral : Amount)
    (hfits : l.pools.activeCollateral.units - t.collateral.units + collateral.units < 2 ^ 128) :
    ∃ stake rewards, l.rewards.newStake collateral = .ok stake ∧
      l.rewards.replaceStake t.stake stake = .ok rewards := by
  have hothers := h.backed.totalStakes_without_le hregular hrecorded hfound
  exact h.exists_replaced t.stake collateral (by omega)

/-- The check of the active pool in an adjustment makes room for the new stake. -/
theorem StakesCovered.exists_adjusted {inflow outflow settlements : Nat} {active : Amount} (h : l.StakesCovered)
    (hregular : l.Regular) (hsound : (l.books .collateral).Sound inflow outflow 0 settlements)
    (hinflow : inflow < 2 ^ 128) (hentire : l.entire owner = .ok e)
    (hadmitted : (l.pools.settle e.pending).activeCollateral.follow e.collateral collateral = .ok active) :
    ∃ stake rewards, l.rewards.newStake collateral = .ok stake ∧ l.rewards.replaceStake e.stake stake = .ok rewards := by
  obtain ⟨t, hfound, hentire⟩ := except_bind_eq_ok.1 hentire
  obtain ⟨-, hstake, hsum⟩ := Rewards.entire_eq_ok hentire
  have hcollateral : e.collateral.units = t.collateral.units + e.pending.collateral.units := hsum .collateral
  have hsettled : (l.pools.settle e.pending).activeCollateral.units =
      l.pools.activeCollateral.units + Asset.collateral.due l.rewards.level t :=
    active_settle_eq hsound hinflow hfound hentire
  have hpending : e.pending.collateral.units = _ := pending_eq_due (a := .collateral) hfound hentire
  have hrecord : t.collateral.units ≤ l.pools.activeCollateral.units := settled_le_active hsound hfound
  have hfollow := Amount.follow_eq_ok hadmitted
  have hactive := active.units_lt
  rw [hstake]
  exact h.exists_restake hregular hsound.recorded_eq hfound collateral (by omega)

/-! ## Whose trove stays -/

/-- A trove that is put in place is there for its owner, and nobody else notices. -/
theorem activeTrove_of_insert (htroves : l'.troves = l.troves.insert owner t) (hr : l'.activeTrove other = .ok r) :
    owner = other ∧ r = t ∨ owner ≠ other ∧ l.activeTrove other = .ok r := by
  obtain ⟨hget, hactive⟩ := get?_of_activeTrove hr
  rw [htroves, SortedMap.get?_insert_eq_some] at hget
  rcases hget with ⟨hsame, rfl⟩ | ⟨hne, hget⟩
  · exact .inl ⟨hsame.symm, rfl⟩
  · exact .inr ⟨Ne.symm hne, activeTrove_of_get? hget hactive⟩

/-- Whose trove is active after one left had it before, with the same stake. -/
theorem InOrder.activeTrove_of_leave {status : TroveStatus} (h : l.InOrder) (hfound : l.activeTrove owner = .ok t)
    (hstatus : status ≠ .active) (hr : (l.leave owner e status).activeTrove other = .ok r) :
    other ≠ owner ∧ ∃ before, l.activeTrove other = .ok before ∧ before.stake = r.stake := by
  obtain ⟨hget, hactive⟩ := get?_of_activeTrove hr
  rcases h.get?_leave_eq_some hfound hget with ⟨-, rfl⟩ | ⟨hne, before, hbefore, rfl⟩
  · rw [isActive_closed t hstatus] at hactive
    cases hactive
  · exact ⟨hne, before, activeTrove_of_get? hbefore hactive, rfl⟩

end Ledger

end CollateralDebt
