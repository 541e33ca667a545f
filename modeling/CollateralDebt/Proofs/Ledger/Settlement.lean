import CollateralDebt.Proofs.Action.Parallel
import CollateralDebt.Proofs.Ledger.Soundness
import CollateralDebt.Proofs.SortedMap.Update

/-! A trove that settles what is pending, without anything else being asked for. Its amounts move from one pool to the
other and into its record, in full as long as the books are sound, so that nobody's entire amounts change and nothing
is left to settle (`SameWorth`). Operations of its owner settle on their own: they end in the same ledger, whether the
trove has settled before or not, and a closure of another trove can be made before or after the settlement. -/

open CollateralDebt.Action

namespace CollateralDebt

/-- The entire amounts of a trove after it has settled: the same, with nothing pending. -/
def EntireTrove.settled (e : EntireTrove) : EntireTrove := { e with pending := .zero }

/-- The record of a trove with its entire amounts settled up to a level. -/
def Trove.settle (t : Trove) (e : EntireTrove) (level : Level) : Trove :=
  { t with collateral := e.collateral, debt := e.debt, snapshot := level }

namespace Pools

variable {p q : Pools}

theorem ext_asset (hactive : ∀ a : Asset, (a.active p).units = (a.active q).units)
    (hdefault : ∀ a : Asset, (a.default p).units = (a.default q).units) : p = q := by
  have hcollateral : p.activeCollateral = q.activeCollateral := Amount.ext (hactive .collateral)
  have hdebt : p.activeDebt = q.activeDebt := Amount.ext (hactive .debt)
  have hdefaultCollateral : p.defaultCollateral = q.defaultCollateral := Amount.ext (hdefault .collateral)
  have hdefaultDebt : p.defaultDebt = q.defaultDebt := Amount.ext (hdefault .debt)
  cases p
  cases q
  simp only at hcollateral hdebt hdefaultCollateral hdefaultDebt
  rw [hcollateral, hdebt, hdefaultCollateral, hdefaultDebt]

@[simp] theorem settle_zero (p : Pools) : p.settle .zero = p := by
  unfold settle
  simp only [Pending.zero, Amount.plusClamped_zero]
  rfl

/-- What the whole system has does not change when a part of it moves from one pool to the other. -/
theorem held_settle {a : Asset} {pending : Pending} (hpending : (a.pending pending).units ≤ (a.default p).units)
    (hheld : (a.active p).units + (a.default p).units < 2 ^ 128) : a.held (p.settle pending) = a.held p := by
  have hactive := active_settle (a := a) (p := p) (q := pending) (by omega)
  have hdefault := default_settle a p pending
  refine Amount.ext ?_
  rw [units_held (by omega), units_held hheld]
  omega

end Pools

namespace Ledger

/-- The ledger with the record of an owner changed. -/
def changeTrove (l : Ledger) (owner : Address) (g : Trove → Trove) : Ledger :=
  { l with troves := l.troves.update owner g }

/-- The ledger after a trove with these entire amounts has settled. -/
def settle (l : Ledger) (owner : Address) (e : EntireTrove) : Ledger :=
  { l.changeTrove owner fun t => t.settle e l.rewards.level with pools := l.pools.settle e.pending }

/-- The stakes and snapshots of a ledger are as they should be, and the books of both assets are sound, with an amount
that came in. -/
structure Sound (l : Ledger) : Prop where
  regular : l.Regular
  books : ∀ a : Asset, ∃ inflow outflow taken settlements, inflow < 2 ^ 128 ∧
    (l.books a).Sound inflow outflow taken settlements

/-- Nobody's entire amounts differ, nor anything else but how much of them is settled. -/
structure SameWorth (l l' : Ledger) : Prop where
  debt : ∀ owner, (l'.entire owner).map EntireTrove.debt = (l.entire owner).map EntireTrove.debt
  collateral : ∀ owner, (l'.entire owner).map EntireTrove.collateral = (l.entire owner).map EntireTrove.collateral
  stake : ∀ owner, (l'.entire owner).map EntireTrove.stake = (l.entire owner).map EntireTrove.stake
  systemDebt : l'.pools.debt = l.pools.debt
  systemCollateral : l'.pools.collateral = l.pools.collateral
  rewards : l'.rewards = l.rewards
  owners : l'.owners = l.owners
  minted : l'.minted = l.minted
  burned : l'.burned = l.burned

variable {l : Ledger} {owner other : Address} {t : Trove} {e : EntireTrove}

theorem Sound.held_lt (h : l.Sound) (a : Asset) : (a.active l.pools).units + (a.default l.pools).units < 2 ^ 128 := by
  obtain ⟨inflow, outflow, taken, settlements, hinflow, hsound⟩ := h.books a
  have hheld : (a.active l.pools).units + (a.default l.pools).units + taken + outflow = inflow := hsound.held_eq
  omega

theorem Sound.pending_le (h : l.Sound) (hfound : l.activeTrove owner = .ok t) (hentire : l.rewards.entire t = .ok e)
    (a : Asset) : (a.pending e.pending).units ≤ (a.default l.pools).units := by
  obtain ⟨_, _, _, _, -, hsound⟩ := h.books a
  rw [pending_eq_due hfound hentire]
  exact due_le_default hsound hfound

theorem Sound.active_settle (h : l.Sound) (hfound : l.activeTrove owner = .ok t) (hentire : l.rewards.entire t = .ok e)
    (a : Asset) : (a.active (l.pools.settle e.pending)).units = (a.active l.pools).units + (a.pending e.pending).units := by
  have hheld := h.held_lt a
  have hpending := h.pending_le hfound hentire a
  exact Pools.active_settle (by omega)

theorem Sound.entire_le (h : l.Sound) (hfound : l.activeTrove owner = .ok t) (hentire : l.rewards.entire t = .ok e)
    (a : Asset) : (a.entire e).units ≤ (a.active (l.pools.settle e.pending)).units := by
  obtain ⟨_, _, _, _, hinflow, hsound⟩ := h.books a
  exact entire_le_active_settle hsound hinflow hfound hentire

/-- With sound books every active trove has its entire amounts. -/
theorem Sound.exists_entire (h : l.Sound) (hfound : l.activeTrove owner = .ok t) : ∃ e, l.rewards.entire t = .ok e := by
  obtain ⟨hget, hactive⟩ := get?_of_activeTrove hfound
  refine Rewards.exists_entire hactive (h.regular.snapshots.of_get? hget hactive) fun a => ?_
  obtain ⟨_, _, _, _, -, hsound⟩ := h.books a
  have hheld := h.held_lt a
  have hdue := due_le_default hsound hfound
  have hrecord := settled_le_active hsound hfound
  omega

theorem Sound.leave {status : TroveStatus} (h : l.Sound) (hfound : l.activeTrove owner = .ok t)
    (hentire : l.rewards.entire t = .ok e) (hstatus : status ≠ .active) : (l.leave owner e status).Sound := by
  refine ⟨h.regular.leave hfound hentire hstatus, fun a => ?_⟩
  obtain ⟨inflow, outflow, taken, settlements, hinflow, hsound⟩ := h.books a
  have hsum := (Rewards.entire_eq_ok hentire).2.2 a
  have hpending := pending_eq_due (a := a) hfound hentire
  refine ⟨inflow, outflow, taken + (a.entire e).units, settlements + 1, hinflow, ?_⟩
  refine (leave_turnover hfound hentire hstatus hsound hinflow).sound hsound ?_ (Nat.le_refl _)
  simp only [Option.elim_some, Option.elim_none]
  omega

/-! ## What a settlement leaves as it is -/

theorem activeTrove_settle_self (hfound : l.activeTrove owner = .ok t) (e : EntireTrove) :
    (l.settle owner e).activeTrove owner = .ok (t.settle e l.rewards.level) := by
  obtain ⟨hget, hactive⟩ := get?_of_activeTrove hfound
  refine activeTrove_of_get? ?_ hactive
  exact (SortedMap.get?_update_self _ _ _).trans (congrArg _ hget)

theorem get?_settle_of_ne (hne : other ≠ owner) (e : EntireTrove) :
    (l.settle owner e).troves.get? other = l.troves.get? other := SortedMap.get?_update_of_ne _ hne _

theorem isActive_settle (l : Ledger) (owner : Address) (e : EntireTrove) (other : Address) :
    (l.settle owner e).isActive other = l.isActive other := by
  have hget : (l.settle owner e).troves.get? other = _ := SortedMap.get?_update _ owner other _
  unfold isActive status
  rw [hget]
  by_cases hsame : other = owner
  · rw [if_pos hsame]
    cases l.troves.get? other <;> rfl
  · rw [if_neg hsame]

theorem entire_settle_self (hentire : l.rewards.entire t = .ok e) (owner : Address) :
    (l.settle owner e).rewards.entire (t.settle e l.rewards.level) = .ok e.settled := by
  rw [Rewards.entire_of_snapshot (show (t.settle e l.rewards.level).snapshot = (l.settle owner e).rewards.level from rfl)]
  exact congrArg Except.ok (congrArg (EntireTrove.mk e.debt e.collateral .zero) (Rewards.entire_eq_ok hentire).2.1.symm)

theorem entire_settle (hfound : l.activeTrove owner = .ok t) (hentire : l.rewards.entire t = .ok e) (other : Address) :
    (l.settle owner e).entire other = (l.entire other).map fun now => if other = owner then now.settled else now := by
  by_cases hsame : other = owner
  · rw [hsame, entire_of_activeTrove (activeTrove_settle_self hfound e), entire_of_activeTrove hfound,
      entire_settle_self hentire, hentire]
    simp only [Except.map, if_true]
  · unfold entire activeTrove
    rw [get?_settle_of_ne hsame]
    simp only [if_neg hsame]
    exact (congrFun Except.map_id _).symm

/-- **A settlement can not be seen from outside.** -/
theorem Sound.sameWorth_settle (h : l.Sound) (hfound : l.activeTrove owner = .ok t)
    (hentire : l.rewards.entire t = .ok e) : SameWorth l (l.settle owner e) := by
  have hread : ∀ {quantity : EntireTrove → Amount}, (∀ now : EntireTrove, quantity now.settled = quantity now) →
      ∀ other, ((l.settle owner e).entire other).map quantity = (l.entire other).map quantity := by
    intro quantity hquantity other
    rw [entire_settle hfound hentire]
    cases l.entire other with
    | error error => rfl
    | ok now =>
        refine congrArg Except.ok ?_
        split
        · exact hquantity now
        · rfl
  have hheld : ∀ a : Asset, a.held (l.pools.settle e.pending) = a.held l.pools := fun a =>
    Pools.held_settle (h.pending_le hfound hentire a) (h.held_lt a)
  exact ⟨hread fun _ => rfl, hread fun _ => rfl, hread fun _ => rfl, hheld .debt, hheld .collateral, rfl, rfl, rfl, rfl⟩

theorem settlePending_eq (hfound : l.activeTrove owner = .ok t) (hentire : l.rewards.entire t = .ok e) :
    perform (settlePending owner) l = (l.settle owner e, .ok e.pending) := by
  have hpending := (Rewards.entire_eq_ok hentire).1
  have hsum := (Rewards.entire_eq_ok hentire).2.2
  have hcollateral : t.collateral.plus e.pending.collateral = .ok e.collateral :=
    Amount.plus_eq_ok_iff.2 (hsum .collateral)
  have hdebt : t.debt.plus e.pending.debt = .ok e.debt := Amount.plus_eq_ok_iff.2 (hsum .debt)
  unfold settlePending
  rw [perform_get_bind]
  refine perform_liftM_bind_eq_ok.2 ⟨t, hfound, perform_liftM_bind_eq_ok.2 ⟨_, hpending, ?_⟩⟩
  exact perform_liftM_bind_eq_ok.2 ⟨_, hcollateral, perform_liftM_bind_eq_ok.2 ⟨_, hdebt, rfl⟩⟩

/-- Nothing is left to settle after a settlement. -/
theorem settle_settle (l : Ledger) (owner : Address) (e : EntireTrove) :
    (l.settle owner e).settle owner e.settled = l.settle owner e := by
  have htroves : (l.troves.update owner fun t => t.settle e l.rewards.level).update owner
      (fun t => t.settle e.settled l.rewards.level) = l.troves.update owner fun t => t.settle e l.rewards.level :=
    SortedMap.update_update _ _ _ _
  have hpools : (l.pools.settle e.pending).settle e.settled.pending = l.pools.settle e.pending := Pools.settle_zero _
  unfold settle changeTrove
  dsimp only
  rw [htroves, hpools]

/-! ## What its owner asks for after a settlement -/

/-- Nothing moves between the pools for a trove that has settled. -/
theorem pools_settle_settled (l : Ledger) (owner : Address) (e : EntireTrove) :
    (l.settle owner e).pools.settle e.settled.pending = l.pools.settle e.pending := Pools.settle_zero _

/-- **To adjust a trove that has settled is to adjust the trove.** -/
theorem parallel_adjust_settle (hfound : l.activeTrove owner = .ok t) (hentire : l.rewards.entire t = .ok e)
    (collateral debt : Amount) :
    Parallel (fun l₁ (r₁ : Pending × Trove) l₂ (r₂ : Pending × Trove) => l₂ = l₁ ∧ r₂.2 = r₁.2)
      (perform (adjust owner collateral debt) l) (perform (adjust owner collateral debt) (l.settle owner e)) := by
  have hrecord := activeTrove_settle_self hfound e
  unfold adjust
  refine parallel_get_bind (parallel_guard fun _ => ?_)
  rw [perform_liftM_bind hfound, perform_liftM_bind hrecord, perform_liftM_bind hentire,
    perform_liftM_bind (entire_settle_self hentire owner)]
  dsimp only
  rw [pools_settle_settled]
  refine parallel_liftM_bind fun activeCollateral _ => parallel_liftM_bind fun activeDebt _ => ?_
  refine parallel_liftM_bind fun supply _ => ?_
  refine parallel_liftM_bind fun stake _ => parallel_liftM_bind fun rewards _ => ?_
  rw [perform_set_bind, perform_set_bind, perform_get_bind, perform_get_bind]
  simp only [(get?_of_activeTrove hfound).1, (get?_of_activeTrove hrecord).1]
  rw [perform_modify_bind, perform_modify_bind, perform_pure, perform_pure]
  refine .done ⟨?_, rfl⟩
  have htroves := SortedMap.insert_update l.troves owner (fun t => t.settle e l.rewards.level)
    { t with collateral, debt, stake, snapshot := l.rewards.level }
  exact congrArg (fun troves => Ledger.mk troves _ _ _ _ _) htroves

/-! ## Troves that leave after a settlement -/

/-- A change that does not look at places in the row does not matter to the row. -/
theorem removeOwner_changeTrove (l : Ledger) (leaving owner : Address) {g : Trove → Trove}
    (hg : ∀ t slot, g { t with slot } = { g t with slot }) :
    (l.changeTrove owner g).removeOwner leaving = (l.removeOwner leaving).changeTrove owner g := by
  have hslot : ∀ t, (g t).slot = t.slot := fun t => by
    have hkept := congrArg Trove.slot (hg t t.slot)
    exact hkept
  have hread : (l.changeTrove owner g).troves.get? leaving = (l.troves.get? leaving).map
      fun t => if leaving = owner then g t else t := by
    refine (SortedMap.get?_update _ _ _ _).trans ?_
    split
    · rfl
    · exact (congrFun Option.map_id _).symm
  have hplace : ∀ t, (if leaving = owner then g t else t).slot = t.slot := by
    intro t
    split
    · exact hslot t
    · rfl
  unfold removeOwner
  rw [hread]
  cases l.troves.get? leaving with
  | none => rfl
  | some t =>
      simp only [Option.map_some, hplace]
      unfold changeTrove
      dsimp only
      split
      · split
        · rfl
        · refine congrArg (fun troves => Ledger.mk troves _ _ _ _ _) ?_
          exact SortedMap.update_comm _ fun _ t => hg t _
      · rfl

/-- A trove that is closed is closed, whatever was settled in it. -/
theorem removeOwner_markClosed_changeTrove (l : Ledger) (owner : Address) (status : TroveStatus) (e : EntireTrove)
    (level : Level) :
    (((l.changeTrove owner fun t => t.settle e level).removeOwner owner).markClosed owner status) =
      (l.removeOwner owner).markClosed owner status := by
  rw [removeOwner_changeTrove l owner owner (g := fun t => t.settle e level) fun _ _ => rfl]
  refine congrArg (fun troves => Ledger.mk troves _ _ _ _ _) ?_
  exact SortedMap.update_update _ _ _ _

/-- **To close a trove that has settled is to close the trove.** -/
theorem leave_settle_self (l : Ledger) (owner : Address) (e : EntireTrove) (status : TroveStatus) :
    (l.settle owner e).leave owner e.settled status = l.leave owner e status := by
  have htaken : (l.settle owner e).takeEntire e.settled =
      (l.takeEntire e).changeTrove owner fun t => t.settle e l.rewards.level := by
    unfold takeEntire
    dsimp only
    rw [pools_settle_settled]
    rfl
  unfold leave
  rw [htaken, removeOwner_markClosed_changeTrove]

/-- **To close a trove is to close it after it has settled**, by its owner too. What is returned is the record of before,
with its entire amounts. -/
theorem parallel_closeByOwner_settle (hfound : l.activeTrove owner = .ok t) (hentire : l.rewards.entire t = .ok e) :
    Parallel (fun l₁ (closed₁ : Trove) l₂ (closed₂ : Trove) =>
        l₂ = l₁ ∧ closed₂ = { closed₁ with snapshot := l.rewards.level })
      (perform (closeByOwner owner) l) (perform (closeByOwner owner) (l.settle owner e)) := by
  have hrecord := activeTrove_settle_self hfound e
  unfold closeByOwner
  refine parallel_get_bind ?_
  rw [perform_liftM_bind hfound, perform_liftM_bind hrecord]
  refine parallel_guard fun _ => ?_
  rw [perform_liftM_bind hentire, perform_liftM_bind (entire_settle_self hentire owner)]
  dsimp only
  rw [pools_settle_settled]
  refine parallel_liftM_bind fun activeCollateral _ => parallel_liftM_bind fun activeDebt _ => ?_
  refine parallel_liftM_bind fun burned _ => ?_
  rw [perform_set_bind, perform_set_bind, perform_pure, perform_pure]
  refine .done ⟨?_, rfl⟩
  exact removeOwner_markClosed_changeTrove { l with
    burned
    pools := { l.pools.settle e.pending with activeCollateral, activeDebt }
    rewards := l.rewards.removeStake e.stake } owner .closedByOwner e l.rewards.level

theorem removeOwner_settle (l : Ledger) (leaving owner : Address) (e : EntireTrove) :
    (l.settle owner e).removeOwner leaving = (l.removeOwner leaving).settle owner e := by
  have hchanged := removeOwner_changeTrove { l with pools := l.pools.settle e.pending } leaving owner
    (g := fun t => t.settle e l.rewards.level) fun _ _ => rfl
  have hpools := removeOwner_congr l { l with pools := l.pools.settle e.pending } rfl rfl leaving
  have hremoved := removeOwner_congr l l rfl rfl leaving
  rw [hpools] at hchanged
  rw [hremoved]
  exact hchanged

/-- What two troves have pending is in the default pool together. -/
theorem Sound.pending_add_le (h : l.Sound) (hfound : l.activeTrove owner = .ok t) (hentire : l.rewards.entire t = .ok e)
    {r : Trove} {e' : EntireTrove} (hother : l.activeTrove other = .ok r) (hentire' : l.rewards.entire r = .ok e')
    (hne : owner ≠ other) (a : Asset) :
    (a.pending e.pending).units + (a.pending e'.pending).units ≤ (a.default l.pools).units := by
  have hclosed : TroveStatus.closedByOwner ≠ .active := by decide
  obtain ⟨slot, hfound', hkept⟩ := found_leave hfound hentire hne e' .closedByOwner
  have hrest := (h.leave hother hentire' hclosed).pending_le hfound' hkept a
  have hfirst := h.pending_le hother hentire' a
  have hleft : (a.default (l.leave other e' .closedByOwner).pools).units =
      (a.default l.pools).units - (a.pending e'.pending).units := by
    obtain ⟨owners, troves, -, hframe⟩ := leave_frame l other e' .closedByOwner
    rw [hframe, ← Pools.default_settle]
    cases a <;> rfl
  omega

/-- What two troves have pending leaves the default pool in either order, and what is in one of them leaves the active
pool before or after the other one settles. -/
theorem Sound.takeEntire_settle (h : l.Sound) (hfound : l.activeTrove owner = .ok t) (hentire : l.rewards.entire t = .ok e)
    {r : Trove} {e' : EntireTrove} (hother : l.activeTrove other = .ok r) (hentire' : l.rewards.entire r = .ok e')
    (hne : owner ≠ other) : (l.settle owner e).takeEntire e' = (l.takeEntire e').settle owner e := by
  have hactive : ∀ (a : Asset) (l : Ledger), (a.active (l.takeEntire e').pools).units =
      (a.active (l.pools.settle e'.pending)).units - (a.entire e').units := fun a l => by cases a <;> rfl
  have hdefault : ∀ (a : Asset) (l : Ledger), (a.default (l.takeEntire e').pools).units =
      (a.default l.pools).units - (a.pending e'.pending).units := fun a l => by cases a <;> rfl
  have hpools : ((l.settle owner e).takeEntire e').pools = ((l.takeEntire e').settle owner e).pools := by
    refine Pools.ext_asset (fun a => ?_) fun a => ?_
    · have hheld := h.held_lt a
      have htogether := h.pending_add_le hfound hentire hother hentire' hne a
      have hthis := h.active_settle hfound hentire a
      have hthat := h.active_settle hother hentire' a
      have hall := h.entire_le hother hentire' a
      have htaken := hactive a l
      show (a.active ((l.settle owner e).takeEntire e').pools).units =
        (a.active ((l.takeEntire e').pools.settle e.pending)).units
      rw [Pools.active_settle (by omega), hactive a, hactive a]
      show (a.active ((l.pools.settle e.pending).settle e'.pending)).units - _ = _
      rw [Pools.active_settle (by omega)]
      omega
    · show (a.default ((l.settle owner e).takeEntire e').pools).units =
        (a.default ((l.takeEntire e').pools.settle e.pending)).units
      rw [Pools.default_settle, hdefault a, hdefault a]
      show (a.default (l.pools.settle e.pending)).units - _ = _
      rw [Pools.default_settle]
      omega
  exact congrArg (fun pools => { (l.settle owner e).takeEntire e' with pools }) hpools

/-- **A trove can settle before or after another one leaves.** -/
theorem Sound.leave_settle_of_ne (h : l.Sound) (hfound : l.activeTrove owner = .ok t) (hentire : l.rewards.entire t = .ok e)
    {r : Trove} {e' : EntireTrove} (hother : l.activeTrove other = .ok r) (hentire' : l.rewards.entire r = .ok e')
    (hne : owner ≠ other) (status : TroveStatus) :
    (l.settle owner e).leave other e' status = (l.leave other e' status).settle owner e := by
  unfold Ledger.leave
  rw [h.takeEntire_settle hfound hentire hother hentire' hne, removeOwner_settle]
  refine congrArg (fun troves => Ledger.mk troves _ _ _ _ _) ?_
  exact SortedMap.update_comm _ fun hsame => absurd hsame hne

end Ledger

end CollateralDebt
