import CollateralDebt.Proofs.Ledger.Asset

/-! What the operations of a ledger do when they succeed, one structure for each: `Opened`, `Adjusted`, and
`leave` for a trove that is closed, by its owner or by a liquidation. Everything else about an operation follows
from these, and no proof takes the operation apart a second time. -/

open CollateralDebt.Action

namespace CollateralDebt

namespace Ledger

theorem activeTrove_of_get? {l : Ledger} {owner : Address} {t : Trove} (hget : l.troves.get? owner = some t)
    (hactive : t.isActive = true) : l.activeTrove owner = .ok t := by
  rw [activeTrove, hget]
  simp only [Trove.requireActive, hactive]
  rfl

/-- The entire amounts of an owner are those of the active trove. -/
theorem entire_of_activeTrove {l : Ledger} {owner : Address} {t : Trove} (hfound : l.activeTrove owner = .ok t) :
    l.entire owner = l.rewards.entire t := by
  rw [entire, hfound]
  rfl

theorem get?_of_activeTrove {l : Ledger} {owner : Address} {t : Trove} (h : l.activeTrove owner = .ok t) :
    l.troves.get? owner = some t ∧ t.isActive = true := by
  rw [activeTrove] at h
  cases hget : l.troves.get? owner with
  | none =>
      rw [hget] at h
      cases h
  | some found =>
      rw [hget] at h
      cases hactive : found.isActive with
      | false =>
          simp only [Trove.requireActive, hactive] at h
          cases h
      | true =>
          simp only [Trove.requireActive, hactive] at h
          cases h
          exact ⟨rfl, hactive⟩

theorem not_active_of_isActive {l : Ledger} {owner : Address} (h : l.isActive owner = false) {t : Trove}
    (hget : l.troves.get? owner = some t) : t.isActive = false := by
  rw [isActive, status, hget] at h
  exact h

theorem exists_activeTrove {l : Ledger} {owner : Address} (h : l.isActive owner = true) :
    ∃ t, l.activeTrove owner = .ok t := by
  rw [isActive, status] at h
  cases hget : l.troves.get? owner with
  | none =>
      rw [hget] at h
      cases h
  | some t =>
      rw [hget] at h
      exact ⟨t, activeTrove_of_get? hget h⟩

/-- A trove was opened. -/
structure Opened (l l' : Ledger) (owner : Address) (t : Trove) : Prop where
  inactive : l.isActive owner = false
  active : t.isActive = true
  owned : t.owner = owner
  slot : t.slot = l.owners.length
  snapshot : t.snapshot = l.rewards.level
  stake : l.rewards.newStake t.collateral = .ok t.stake
  troves : l'.troves = l.troves.insert owner t
  owners : l'.owners = l.owners ++ [owner]
  rewards : l.rewards.replaceStake .zero t.stake = .ok l'.rewards
  pool : ∀ a : Asset, (a.active l.pools).plus (a.settled t) = .ok (a.active l'.pools)
  default : ∀ a : Asset, a.default l'.pools = a.default l.pools
  minted : l.minted.plus t.debt = .ok l'.minted
  burned : l'.burned = l.burned

theorem openTrove_eq_ok {l l' : Ledger} {owner : Address} {collateral debt : Amount} {t : Trove}
    (h : perform (openTrove owner collateral debt) l = (l', .ok t)) :
    Opened l l' owner t ∧ t.collateral = collateral ∧ t.debt = debt := by
  unfold openTrove at h
  rw [perform_get_bind] at h
  obtain ⟨hinactive, h⟩ := perform_guard_eq_ok.1 h
  obtain ⟨-, h⟩ := perform_guard_eq_ok.1 h
  obtain ⟨stake, hstake, h⟩ := perform_liftM_bind_eq_ok.1 h
  obtain ⟨activeCollateral, hcollateral, h⟩ := perform_liftM_bind_eq_ok.1 h
  obtain ⟨activeDebt, hdebt, h⟩ := perform_liftM_bind_eq_ok.1 h
  obtain ⟨minted, hminted, h⟩ := perform_liftM_bind_eq_ok.1 h
  obtain ⟨rewards, hrewards, h⟩ := perform_liftM_bind_eq_ok.1 h
  rw [perform_set_bind, perform_get_bind, perform_liftM] at h
  obtain ⟨rfl, htrove⟩ := Prod.mk.inj h
  have hread := (get?_of_activeTrove htrove).1
  rw [SortedMap.get?_insert, if_pos rfl] at hread
  cases hread
  refine ⟨⟨by simpa using hinactive, rfl, rfl, rfl, rfl, hstake, rfl, rfl, hrewards, fun a => ?_, fun a => ?_,
    hminted, rfl⟩, rfl, rfl⟩
  · cases a with
    | collateral => exact hcollateral
    | debt => exact hdebt
  · cases a <;> rfl

/-- An active trove settled what was pending and had its entire amounts set. -/
structure Adjusted (l l' : Ledger) (owner : Address) (old : Trove) (e : EntireTrove) (new : Trove) : Prop where
  found : l.activeTrove owner = .ok old
  entire : l.rewards.entire old = .ok e
  active : new.isActive = true
  owned : new.owner = old.owner
  slot : new.slot = old.slot
  snapshot : new.snapshot = l.rewards.level
  stake : l.rewards.newStake new.collateral = .ok new.stake
  troves : l'.troves = l.troves.insert owner new
  owners : l'.owners = l.owners
  rewards : l.rewards.replaceStake old.stake new.stake = .ok l'.rewards
  pool : ∀ a : Asset, (a.active (l.pools.settle e.pending)).follow (a.entire e) (a.settled new) =
    .ok (a.active l'.pools)
  default : ∀ a : Asset, a.default l'.pools = a.default (l.pools.settle e.pending)
  supply : l.mintOrBurn e.debt new.debt = .ok (l'.minted, l'.burned)

theorem adjust_eq_ok {l l' : Ledger} {owner : Address} {collateral debt : Amount} {pending : Pending} {t : Trove}
    (h : perform (adjust owner collateral debt) l = (l', .ok (pending, t))) :
    ∃ old entire, Adjusted l l' owner old entire t ∧ pending = entire.pending ∧ t.collateral = collateral ∧
      t.debt = debt := by
  unfold adjust at h
  rw [perform_get_bind] at h
  obtain ⟨-, h⟩ := perform_guard_eq_ok.1 h
  obtain ⟨old, hold, h⟩ := perform_liftM_bind_eq_ok.1 h
  obtain ⟨entire, hentire, h⟩ := perform_liftM_bind_eq_ok.1 h
  obtain ⟨activeCollateral, hcollateral, h⟩ := perform_liftM_bind_eq_ok.1 h
  obtain ⟨activeDebt, hdebt, h⟩ := perform_liftM_bind_eq_ok.1 h
  obtain ⟨⟨minted, burned⟩, hsupply, h⟩ := perform_liftM_bind_eq_ok.1 h
  obtain ⟨stake, hstake, h⟩ := perform_liftM_bind_eq_ok.1 h
  obtain ⟨rewards, hrewards, h⟩ := perform_liftM_bind_eq_ok.1 h
  have hfound := get?_of_activeTrove hold
  rw [perform_set_bind, perform_get_bind] at h
  simp only [hfound.1] at h
  rw [perform_modify_bind, perform_pure] at h
  obtain ⟨rfl, hresult⟩ := Prod.mk.inj h
  obtain ⟨rfl, rfl⟩ := Prod.mk.inj (Except.ok.inj hresult)
  rw [(Rewards.entire_eq_ok hentire).2.1] at hrewards
  refine ⟨old, entire, ⟨hold, hentire, hfound.2, rfl, rfl, rfl, hstake, rfl, rfl, hrewards, fun a => ?_, fun a => ?_,
    hsupply⟩, rfl, rfl, rfl⟩
  · cases a with
    | collateral => exact hcollateral
    | debt => exact hdebt
  · cases a <;> rfl

/-- Records that differ at most in the place of one owner in the row. -/
def Reslotted (troves troves' : SortedMap Address Trove) : Prop :=
  troves' = troves ∨ ∃ moved slot, troves' = troves.update moved fun t => { t with slot }

/-- The row of owners, and the slot of the owner who moved in it, are all that changes. -/
theorem removeOwner_frame (l : Ledger) (owner : Address) :
    ∃ owners troves, Reslotted l.troves troves ∧ l.removeOwner owner = { l with owners, troves } := by
  unfold removeOwner
  split
  · exact ⟨l.owners, l.troves, Or.inl rfl, rfl⟩
  · split
    · dsimp only
      split
      · exact ⟨_, l.troves, Or.inl rfl, rfl⟩
      · exact ⟨_, _, Or.inr ⟨_, _, rfl⟩, rfl⟩
    · exact ⟨l.owners, l.troves, Or.inl rfl, rfl⟩

/-- The ledger with the entire amounts of a trove settled and taken out of the active pool, and its stake dropped. -/
def takeEntire (l : Ledger) (e : EntireTrove) : Ledger :=
  let pools := l.pools.settle e.pending
  { l with
    pools := { pools with
      activeCollateral := pools.activeCollateral.minusClamped e.collateral
      activeDebt := pools.activeDebt.minusClamped e.debt }
    rewards := l.rewards.removeStake e.stake }

/-- The ledger after an active trove leaves it with its entire amounts, for the status that it has then. -/
def leave (l : Ledger) (owner : Address) (e : EntireTrove) (status : TroveStatus) : Ledger :=
  ((l.takeEntire e).removeOwner owner).markClosed owner status

theorem closeLiquidated_eq_leave (l : Ledger) (owner : Address) (e : EntireTrove) :
    l.closeLiquidated owner e = l.leave owner e .closedByLiquidation := rfl

/-- What is left of a ledger when a trove leaves it: all but the trove's own record, up to places in the row. -/
theorem leave_frame (l : Ledger) (owner : Address) (e : EntireTrove) (status : TroveStatus) :
    ∃ owners troves, Reslotted l.troves troves ∧ l.leave owner e status =
      { l.takeEntire e with owners, troves := troves.update owner fun t => t.closed status } := by
  obtain ⟨owners, troves, htroves, hframe⟩ := removeOwner_frame (l.takeEntire e) owner
  refine ⟨owners, troves, htroves, ?_⟩
  rw [leave, hframe]
  rfl

/-- An owner who closes a trove repays what is in it: the trove leaves, and what was repaid is burned. -/
structure Repaid (l l' : Ledger) (owner : Address) (old : Trove) (e : EntireTrove) : Prop where
  found : l.activeTrove owner = .ok old
  entire : l.rewards.entire old = .ok e
  others : 1 < l.owners.length
  enough : ∀ a : Asset, a.entire e ≤ a.active (l.pools.settle e.pending)
  burned : l.burned.plus e.debt = .ok l'.burned
  left : l' = { l.leave owner e .closedByOwner with burned := l'.burned }

/-- Only the row and the records matter to who is taken out, and only they change. -/
theorem removeOwner_congr (l l' : Ledger) (htroves : l'.troves = l.troves) (howners : l'.owners = l.owners)
    (owner : Address) : l'.removeOwner owner =
      { l' with troves := (l.removeOwner owner).troves, owners := (l.removeOwner owner).owners } := by
  unfold removeOwner
  rw [htroves, howners]
  split
  · rw [← htroves, ← howners]
  · split
    · dsimp only
      split <;> rfl
    · rw [← htroves, ← howners]

theorem minus_eq_minusClamped {a b c : Amount} (h : a.minus b = .ok c) : c = a.minusClamped b ∧ b ≤ a := by
  unfold Amount.minus at h
  split at h
  · next hle => exact ⟨(Except.ok.inj h).symm, hle⟩
  · cases h

theorem closeByOwner_eq_ok {l l' : Ledger} {owner : Address} {t : Trove}
    (h : perform (closeByOwner owner) l = (l', .ok t)) :
    ∃ old entire, Repaid l l' owner old entire ∧ t = { old with collateral := entire.collateral, debt := entire.debt } := by
  unfold closeByOwner at h
  rw [perform_get_bind] at h
  obtain ⟨old, hold, h⟩ := perform_liftM_bind_eq_ok.1 h
  obtain ⟨hothers, h⟩ := perform_guard_eq_ok.1 h
  obtain ⟨entire, hentire, h⟩ := perform_liftM_bind_eq_ok.1 h
  obtain ⟨activeCollateral, hcollateral, h⟩ := perform_liftM_bind_eq_ok.1 h
  obtain ⟨activeDebt, hdebt, h⟩ := perform_liftM_bind_eq_ok.1 h
  obtain ⟨burned, hburned, h⟩ := perform_liftM_bind_eq_ok.1 h
  rw [perform_set_bind, perform_pure] at h
  obtain ⟨hleft, hresult⟩ := Prod.mk.inj h
  obtain ⟨rfl, hcollateralLe⟩ := minus_eq_minusClamped hcollateral
  obtain ⟨rfl, hdebtLe⟩ := minus_eq_minusClamped hdebt
  cases hresult
  have hleave : l' = { l.leave owner entire .closedByOwner with burned } := by
    have hpaid := removeOwner_congr (l.takeEntire entire) { l.takeEntire entire with burned } rfl rfl owner
    have htaken := removeOwner_congr (l.takeEntire entire) _ rfl rfl owner
    refine hleft.symm.trans ((congrArg (fun taken => taken.markClosed owner .closedByOwner) hpaid).trans ?_)
    rw [leave, htaken]
    rfl
  have hcount : l'.burned = burned := by rw [hleave]
  refine ⟨old, entire, ⟨hold, hentire, Nat.lt_of_not_le hothers, fun a => ?_, hcount ▸ hburned, hcount ▸ hleave⟩, rfl⟩
  cases a with
  | collateral => exact hcollateralLe
  | debt => exact hdebtLe

end Ledger

end CollateralDebt
