import CollateralDebt.Proofs.Ledger.Settlement

/-! Redistributions that a trove settles one by one, against redistributions that it settles together at the end. What a
trove has and is due, before anything is rounded, grows with the level alone, by what its stake receives. A settlement
rounds it down to whole units and drops less than one; so to settle often loses to settling once, and no more than a unit
for each time but the last (`redistributeSettling_fallsShort`). The level follows the stakes, which no settlement touches,
and so does what all other troves have. -/

open CollateralDebt.Action

namespace CollateralDebt

namespace Asset

/-- What a trove has and is due at a level, with nothing rounded, in parts of which a unit has `Amount.scale`. -/
def unrounded (a : Asset) (level : Level) (t : Trove) : Nat := (a.settled t).units * Amount.scale + a.claim level t

variable {a : Asset} {level later : Level} {t : Trove}

theorem unrounded_div_scale (a : Asset) (level : Level) (t : Trove) :
    a.unrounded level t / Amount.scale = (a.settled t).units + a.due level t := by
  rw [unrounded, Nat.add_comm, Nat.add_mul_div_right _ _ (by decide), Nat.add_comm, due]

theorem unrounded_of_snapshot (h : t.snapshot = level) :
    a.unrounded level t = (a.settled t).units * Amount.scale := by
  rw [unrounded, claim_of_snapshot h, Nat.add_zero]

/-- When the level rises, the stake receives its part of the rise. -/
theorem unrounded_rise (hsnapshot : (a.level t.snapshot).units ≤ (a.level level).units)
    (hrise : (a.level level).units ≤ (a.level later).units) :
    a.unrounded later t = a.unrounded level t + t.stake.units * ((a.level later).units - (a.level level).units) := by
  rw [unrounded, unrounded, claim_rise hsnapshot hrise, Nat.add_assoc]

/-- A settlement drops what is due in parts of a unit. -/
theorem unrounded_settle {r : Rewards} {e : EntireTrove} (h : r.entire t = .ok e) (hactive : t.isActive = true)
    (a : Asset) : a.unrounded r.level (t.settle e r.level) + a.claim r.level t % Amount.scale = a.unrounded r.level t := by
  obtain ⟨hpending, -, hsum⟩ := Rewards.entire_eq_ok h
  have hsettled : a.settled (t.settle e r.level) = a.entire e := by cases a <;> rfl
  have hsnapshot : (t.settle e r.level).snapshot = r.level := rfl
  rw [unrounded_of_snapshot hsnapshot, hsettled, hsum a, Rewards.pending_units hpending hactive a, Nat.add_mul, unrounded,
    Nat.add_assoc, due_mul_scale]

end Asset

theorem Pools.active_le_settle (a : Asset) (p : Pools) (q : Pending) : a.active p ≤ a.active (p.settle q) := by
  have hclamp : a.active (p.settle q) = (a.active p).plusClamped (a.pending q) := by cases a <;> rfl
  rw [hclamp, Amount.le_iff, Amount.units_plusClamped]
  exact Nat.le_min.2 ⟨Nat.le_add_right _ _, (a.active p).le_max⟩

/-- From a larger amount the same can be taken, and more is left. -/
theorem Amount.exists_minus_of_le {a b c larger : Amount} (h : a.minus b = .ok c) (hle : a ≤ larger) :
    ∃ left, larger.minus b = .ok left ∧ c ≤ left := by
  have hunits := Amount.minus_eq_ok_iff.1 h
  rw [Amount.le_iff] at hle
  refine ⟨larger.minusClamped b, Amount.minus_eq_ok_iff.2 ?_, ?_⟩
  · rw [Amount.units_minusClamped]
    omega
  · rw [Amount.le_iff, Amount.units_minusClamped]
    omega

namespace Ledger

/-- Amounts of collateral and debt are redistributed one after the other. -/
def redistributeAll : List (Amount × Amount) → Action Ledger Unit
  | [] => pure ()
  | (collateral, debt) :: rest => do
      redistribute collateral debt
      redistributeAll rest

/-- Amounts of collateral and debt are redistributed, and the trove of an owner settles after each. -/
def redistributeSettling (owner : Address) : List (Amount × Amount) → Action Ledger Unit
  | [] => pure ()
  | (collateral, debt) :: rest => do
      redistribute collateral debt
      let _ ← settlePending owner
      redistributeSettling owner rest

variable {l l' lazy lazy' eager last : Ledger} {owner : Address} {t u : Trove} {collateral debt : Amount}
  {pending : Pending} {settlements : Nat} {gifts : List (Amount × Amount)}

/-! ## Redistributions -/

theorem redistribute_eq_ok (h : perform (redistribute collateral debt) l = (l', .ok ())) :
    l'.troves = l.troves ∧ ∀ a : Asset, (a.level l.rewards.level).units ≤ (a.level l'.rewards.level).units := by
  unfold redistribute at h
  rw [perform_get_bind] at h
  obtain ⟨computed, hcomputed, h⟩ := perform_liftM_bind_eq_ok.1 h
  cases computed with
  | none =>
      cases h
      exact ⟨rfl, fun _ => Nat.le_refl _⟩
  | some d =>
      obtain ⟨activeCollateral, -, h⟩ := perform_liftM_bind_eq_ok.1 h
      obtain ⟨activeDebt, -, h⟩ := perform_liftM_bind_eq_ok.1 h
      cases h
      refine ⟨rfl, fun a => ?_⟩
      obtain ⟨rise, hrise, -⟩ := (Rewards.redistribution_eq_ok hcomputed).2.2 a
      exact (Nat.le_add_right _ rise).trans_eq hrise.symm

theorem redistributeAll_eq_ok (h : perform (redistributeAll gifts) l = (l', .ok ())) :
    l'.troves = l.troves ∧ ∀ a : Asset, (a.level l.rewards.level).units ≤ (a.level l'.rewards.level).units := by
  induction gifts generalizing l with
  | nil =>
      cases h
      exact ⟨rfl, fun _ => Nat.le_refl _⟩
  | cons gift rest ih =>
      obtain ⟨_, l₁, hfirst, hrest⟩ := perform_bind_eq_ok.1 h
      obtain ⟨htroves, hrise⟩ := redistribute_eq_ok hfirst
      obtain ⟨htroves', hrise'⟩ := ih hrest
      exact ⟨htroves'.trans htroves, fun a => (hrise a).trans (hrise' a)⟩

theorem settlePending_eq_ok (h : perform (settlePending owner) l = (l', .ok pending)) :
    ∃ t e, l.activeTrove owner = .ok t ∧ l.rewards.entire t = .ok e ∧ l' = l.settle owner e := by
  unfold settlePending at h
  rw [perform_get_bind] at h
  obtain ⟨t, hfound, h⟩ := perform_liftM_bind_eq_ok.1 h
  obtain ⟨computed, hpending, h⟩ := perform_liftM_bind_eq_ok.1 h
  obtain ⟨collateral, hcollateral, h⟩ := perform_liftM_bind_eq_ok.1 h
  obtain ⟨debt, hdebt, h⟩ := perform_liftM_bind_eq_ok.1 h
  cases h
  refine ⟨t, ⟨debt, collateral, pending, t.stake⟩, hfound, ?_, rfl⟩
  exact except_bind_eq_ok.2 ⟨_, hpending, except_bind_eq_ok.2 ⟨_, hdebt, except_bind_eq_ok.2 ⟨_, hcollateral, rfl⟩⟩⟩

/-! ## A ledger in which a trove settles more often -/

/-- A trove has settled so many times in one of two ledgers, and not in the other; they do not differ otherwise but in
the pools that its amounts are in. -/
structure KeepsUp (owner : Address) (settlements : Nat) (lazy : Ledger) (t : Trove) (eager : Ledger) (u : Trove) :
    Prop where
  rewards_eq : eager.rewards = lazy.rewards
  active_le : ∀ a : Asset, a.active lazy.pools ≤ a.active eager.pools
  get?_of_ne : ∀ other, other ≠ owner → eager.troves.get? other = lazy.troves.get? other
  found_lazy : lazy.activeTrove owner = .ok t
  found_eager : eager.activeTrove owner = .ok u
  stake_eq : u.stake = t.stake
  snapshot_le_lazy : ∀ a : Asset, (a.level t.snapshot).units ≤ (a.level lazy.rewards.level).units
  snapshot_le_eager : ∀ a : Asset, (a.level u.snapshot).units ≤ (a.level lazy.rewards.level).units
  unrounded_le : ∀ a : Asset, a.unrounded lazy.rewards.level u ≤ a.unrounded lazy.rewards.level t
  le_unrounded : ∀ a : Asset, a.unrounded lazy.rewards.level t ≤
    a.unrounded lazy.rewards.level u + settlements * (Amount.scale - 1)

theorem keepsUp_refl (hregular : l.Regular) (hfound : l.activeTrove owner = .ok t) : KeepsUp owner 0 l t l t := by
  obtain ⟨hget, hactive⟩ := get?_of_activeTrove hfound
  have hsnapshot := hregular.snapshots.of_get? hget hactive
  exact ⟨rfl, fun _ => Nat.le_refl _, fun _ _ => rfl, hfound, hfound, rfl, hsnapshot, hsnapshot, fun _ => Nat.le_refl _,
    fun _ => Nat.le_add_right _ _⟩

/-- What can be redistributed where the active pool has less can be redistributed where it has more. -/
theorem KeepsUp.exists_redistribute (h : KeepsUp owner settlements lazy t eager u)
    (hlazy : perform (redistribute collateral debt) lazy = (lazy', .ok ())) :
    ∃ eager', perform (redistribute collateral debt) eager = (eager', .ok ()) ∧ eager'.troves = eager.troves ∧
      eager'.rewards = lazy'.rewards ∧ ∀ a : Asset, a.active lazy'.pools ≤ a.active eager'.pools := by
  unfold redistribute at hlazy ⊢
  rw [perform_get_bind] at hlazy
  obtain ⟨computed, hcomputed, hlazy⟩ := perform_liftM_bind_eq_ok.1 hlazy
  rw [perform_get_bind, h.rewards_eq, perform_liftM_bind hcomputed]
  cases computed with
  | none =>
      cases hlazy
      exact ⟨eager, rfl, rfl, h.rewards_eq, h.active_le⟩
  | some d =>
      obtain ⟨activeCollateral, hcollateral, hlazy⟩ := perform_liftM_bind_eq_ok.1 hlazy
      obtain ⟨activeDebt, hdebt, hlazy⟩ := perform_liftM_bind_eq_ok.1 hlazy
      cases hlazy
      obtain ⟨leftCollateral, (hleftCollateral : eager.pools.activeCollateral.minus collateral = _), hmoreCollateral⟩ :=
        Amount.exists_minus_of_le hcollateral (h.active_le .collateral)
      obtain ⟨leftDebt, (hleftDebt : eager.pools.activeDebt.minus debt = _), hmoreDebt⟩ :=
        Amount.exists_minus_of_le hdebt (h.active_le .debt)
      dsimp only
      rw [perform_liftM_bind hleftCollateral, perform_liftM_bind hleftDebt]
      refine ⟨_, rfl, rfl, rfl, fun a => ?_⟩
      cases a with
      | collateral => exact hmoreCollateral
      | debt => exact hmoreDebt

/-- **A redistribution adds the same to both.** -/
theorem KeepsUp.redistributed (h : KeepsUp owner settlements lazy t eager u)
    (hlazy : perform (redistribute collateral debt) lazy = (lazy', .ok ())) :
    ∃ eager', perform (redistribute collateral debt) eager = (eager', .ok ()) ∧
      KeepsUp owner settlements lazy' t eager' u := by
  obtain ⟨eager', heager, htroves, hrewards, hactive⟩ := h.exists_redistribute hlazy
  obtain ⟨htrovesLazy, hrise⟩ := redistribute_eq_ok hlazy
  have hgrown : ∀ a : Asset, a.unrounded lazy'.rewards.level t = a.unrounded lazy.rewards.level t +
      t.stake.units * ((a.level lazy'.rewards.level).units - (a.level lazy.rewards.level).units) :=
    fun a => Asset.unrounded_rise (h.snapshot_le_lazy a) (hrise a)
  have hgrown' : ∀ a : Asset, a.unrounded lazy'.rewards.level u = a.unrounded lazy.rewards.level u +
      t.stake.units * ((a.level lazy'.rewards.level).units - (a.level lazy.rewards.level).units) :=
    fun a => h.stake_eq ▸ Asset.unrounded_rise (h.snapshot_le_eager a) (hrise a)
  refine ⟨eager', heager, hrewards, hactive, fun other hne => ?_, ?_, ?_, h.stake_eq,
    fun a => (h.snapshot_le_lazy a).trans (hrise a), fun a => (h.snapshot_le_eager a).trans (hrise a),
    fun a => ?_, fun a => ?_⟩
  · rw [htroves, htrovesLazy]
    exact h.get?_of_ne other hne
  · rw [activeTrove, htrovesLazy]
    exact h.found_lazy
  · rw [activeTrove, htroves]
    exact h.found_eager
  · rw [hgrown, hgrown']
    exact Nat.add_le_add_right (h.unrounded_le a) _
  · have hbefore := h.le_unrounded a
    rw [hgrown, hgrown']
    omega

/-- **A settlement drops less than a unit.** -/
theorem KeepsUp.settled (h : KeepsUp owner settlements lazy t eager u)
    (hfits : ∀ a : Asset, (a.settled t).units + a.due lazy.rewards.level t < 2 ^ 128) :
    ∃ eager' u' pending, perform (settlePending owner) eager = (eager', .ok pending) ∧
      KeepsUp owner (settlements + 1) lazy t eager' u' ∧ u'.snapshot = lazy.rewards.level := by
  obtain ⟨-, hactive⟩ := get?_of_activeTrove h.found_eager
  have hsum : ∀ a : Asset, (a.settled u).units + a.due lazy.rewards.level u < 2 ^ 128 := by
    intro a
    have hless := Nat.div_le_div_right (c := Amount.scale) (h.unrounded_le a)
    rw [Asset.unrounded_div_scale, Asset.unrounded_div_scale] at hless
    exact hless.trans_lt (hfits a)
  obtain ⟨e, hentire⟩ := Rewards.exists_entire hactive h.snapshot_le_eager hsum
  have hentire' : eager.rewards.entire u = .ok e := by
    rw [h.rewards_eq]
    exact hentire
  have hdropped := fun a => Asset.unrounded_settle hentire hactive a
  have hfound := activeTrove_settle_self h.found_eager e
  rw [h.rewards_eq] at hfound
  refine ⟨_, _, _, settlePending_eq h.found_eager hentire', ⟨h.rewards_eq, fun a => ?_, fun other hne => ?_, h.found_lazy,
    hfound, h.stake_eq, h.snapshot_le_lazy, fun _ => Nat.le_refl _, fun a => ?_, fun a => ?_⟩, rfl⟩
  · exact Nat.le_trans (h.active_le a) (Pools.active_le_settle a _ _)
  · rw [get?_settle_of_ne hne]
    exact h.get?_of_ne other hne
  · have hbefore := h.unrounded_le a
    have hrest := hdropped a
    omega
  · have hbefore := h.le_unrounded a
    have hrest := hdropped a
    have hsmall : a.claim lazy.rewards.level u % Amount.scale < Amount.scale := Nat.mod_lt _ (by decide)
    rw [Nat.succ_mul]
    omega

/-- To settle after each redistribution succeeds if it does to settle after the last. -/
theorem KeepsUp.exists_settling (h : KeepsUp owner settlements lazy t eager u)
    (hlazy : perform (redistributeAll gifts) lazy = (last, .ok ()))
    (hfits : ∀ a : Asset, (a.settled t).units + a.due last.rewards.level t < 2 ^ 128)
    (hnow : 0 < settlements → u.snapshot = lazy.rewards.level) :
    ∃ each v, perform (redistributeSettling owner gifts) eager = (each, .ok ()) ∧
      KeepsUp owner (settlements + gifts.length) last t each v ∧
      (0 < settlements + gifts.length → v.snapshot = last.rewards.level) := by
  induction gifts generalizing lazy eager u settlements with
  | nil =>
      cases hlazy
      exact ⟨eager, u, rfl, h, hnow⟩
  | cons gift rest ih =>
      obtain ⟨_, lazy', hfirst, hrest⟩ := perform_bind_eq_ok.1 hlazy
      obtain ⟨eager', heager, hkeeps⟩ := h.redistributed hfirst
      -- The level only rises, so what fits in the end fits now.
      have hfitsNow : ∀ a : Asset, (a.settled t).units + a.due lazy'.rewards.level t < 2 ^ 128 := by
        intro a
        have hrise := (redistributeAll_eq_ok hrest).2 a
        have hdue : a.due lazy'.rewards.level t ≤ a.due last.rewards.level t :=
          Nat.div_le_div_right (Nat.mul_le_mul_left _ (Nat.sub_le_sub_right hrise _))
        exact (Nat.add_le_add_left hdue _).trans_lt (hfits a)
      obtain ⟨eager'', u', pending, hsettle, hsettled, hsnapshot⟩ := hkeeps.settled hfitsNow
      obtain ⟨each, v, hsettling, hends, hlast⟩ := ih hsettled hrest fun _ => hsnapshot
      have hlength : settlements + 1 + rest.length = settlements + (gift :: rest).length := by
        rw [List.length_cons, Nat.add_assoc, Nat.add_comm 1]
      rw [hlength] at hends hlast
      refine ⟨each, v, ?_, hends, hlast⟩
      exact perform_bind_eq_ok.2 ⟨_, eager', heager, perform_bind_eq_ok.2 ⟨pending, eager'', hsettle, hsettling⟩⟩

/-- One trove has no more of an asset in the first of two ledgers than in the second, and less by no more than so many
units; everything else that can be read of troves is the same. -/
structure FallsShort (owner : Address) (units : Nat) (eager lazy : Ledger) : Prop where
  rewards_eq : eager.rewards = lazy.rewards
  records : ∃ u t, eager.activeTrove owner = .ok u ∧ lazy.activeTrove owner = .ok t ∧
    ∀ a : Asset, a.settled u ≤ a.settled t ∧ (a.settled t).units ≤ (a.settled u).units + units
  entire_of_ne : ∀ other, other ≠ owner → eager.entire other = lazy.entire other

/-- **A trove that settles after each redistribution falls short of one that settles after the last** by no more than a
unit for each redistribution but one. -/
theorem redistributeSettling_fallsShort (hregular : l.Regular) (hsome : gifts ≠ [])
    (hlazy : perform (do redistributeAll gifts; settlePending owner) l = (last, .ok pending)) :
    ∃ each, perform (redistributeSettling owner gifts) l = (each, .ok ()) ∧
      FallsShort owner (gifts.length - 1) each last := by
  obtain ⟨_, lazy, hall, hsettle⟩ := perform_bind_eq_ok.1 hlazy
  obtain ⟨t, e, hfound, hentire, rfl⟩ := settlePending_eq_ok hsettle
  have hfoundBefore : l.activeTrove owner = .ok t := by
    rw [activeTrove, ← (redistributeAll_eq_ok hall).1]
    exact hfound
  obtain ⟨-, hactive⟩ := get?_of_activeTrove hfound
  obtain ⟨hpending, -, hsum⟩ := Rewards.entire_eq_ok hentire
  have hentireUnits : ∀ a : Asset, (a.entire e).units = a.unrounded lazy.rewards.level t / Amount.scale := by
    intro a
    rw [hsum a, Rewards.pending_units hpending hactive a, Asset.unrounded_div_scale]
  have hfits : ∀ a : Asset, (a.settled t).units + a.due lazy.rewards.level t < 2 ^ 128 := by
    intro a
    rw [← Asset.unrounded_div_scale, ← hentireUnits a]
    exact (a.entire e).units_lt
  obtain ⟨each, u, hsettling, hkeeps, hnow⟩ := (keepsUp_refl hregular hfoundBefore).exists_settling hall hfits
    fun hnone => absurd hnone (Nat.lt_irrefl 0)
  rw [Nat.zero_add] at hkeeps hnow
  have hlength : 0 < gifts.length := List.length_pos_iff.2 hsome
  refine ⟨each, hsettling, hkeeps.rewards_eq, ⟨u, t.settle e lazy.rewards.level, hkeeps.found_eager,
    activeTrove_settle_self hfound e, fun a => ?_⟩, fun other hne => ?_⟩
  · have hsettled : a.settled (t.settle e lazy.rewards.level) = a.entire e := by cases a <;> rfl
    have hle := hkeeps.unrounded_le a
    have hge := hkeeps.le_unrounded a
    rw [Asset.unrounded_of_snapshot (hnow hlength)] at hle hge
    rw [hsettled, Amount.le_iff, hentireUnits a]
    have hdropped : gifts.length * (Amount.scale - 1) < gifts.length * Amount.scale :=
      Nat.mul_lt_mul_of_pos_left (by decide) hlength
    have hlt : a.unrounded lazy.rewards.level t < ((a.settled u).units + gifts.length) * Amount.scale := by
      rw [Nat.add_mul]
      omega
    have hquotient := (Nat.div_lt_iff_lt_mul (by decide)).2 hlt
    exact ⟨(Nat.le_div_iff_mul_le (by decide)).2 hle, by omega⟩
  · unfold entire activeTrove
    rw [hkeeps.get?_of_ne other hne, get?_settle_of_ne hne, hkeeps.rewards_eq]
    rfl

end Ledger

end CollateralDebt
