import CollateralDebt.Proofs.Ledger.Books

/-! The operations of a ledger keep the books sound. Sound books also say that no amount is clamped on the way: what
is pending for a trove is in the default pool, the active pool has room for it, and it then holds the trove's
entire amounts. A redistribution turns an amount that left the active pool into claims of all stakes, and what is
carried over makes up the difference. -/

open CollateralDebt.Action

namespace CollateralDebt

theorem Amount.follow_eq_ok {total before after now : Amount} (h : total.follow before after = .ok now) :
    now.units + before.units = total.units + after.units := by
  unfold follow at h
  split at h
  · obtain ⟨growth, hgrowth, h⟩ := except_bind_eq_ok.1 h
    rw [minus_eq_ok_iff] at hgrowth
    rw [plus_eq_ok_iff] at h
    omega
  · obtain ⟨loss, hloss, h⟩ := except_bind_eq_ok.1 h
    rw [minus_eq_ok_iff] at hloss h
    omega

theorem Rewards.replaceStake_eq_ok {r r' : Rewards} {old new : Amount} (h : r.replaceStake old new = .ok r') :
    r' = { r with totalStakes := r'.totalStakes } ∧
      r'.totalStakes.units = r.totalStakes.units - old.units + new.units := by
  unfold replaceStake at h
  obtain ⟨stakes, hstakes, h⟩ := except_bind_eq_ok.1 h
  cases h
  rw [Amount.plus_eq_ok_iff] at hstakes
  exact ⟨rfl, hstakes⟩

namespace Ledger

theorem mintOrBurn_eq_ok {l : Ledger} {before after minted burned : Amount}
    (h : l.mintOrBurn before after = .ok (minted, burned)) :
    minted.units = l.minted.units + (after.units - before.units) ∧
      burned.units = l.burned.units + (before.units - after.units) := by
  unfold mintOrBurn at h
  split at h
  · next hle =>
      obtain ⟨drawn, hdrawn, h⟩ := except_bind_eq_ok.1 h
      obtain ⟨minted', hminted, h⟩ := except_bind_eq_ok.1 h
      cases h
      rw [Amount.minus_eq_ok_iff] at hdrawn
      rw [Amount.plus_eq_ok_iff] at hminted
      omega
  · obtain ⟨repaid, hrepaid, h⟩ := except_bind_eq_ok.1 h
    obtain ⟨burned', hburned, h⟩ := except_bind_eq_ok.1 h
    cases h
    rw [Amount.minus_eq_ok_iff] at hrepaid
    rw [Amount.plus_eq_ok_iff] at hburned
    omega

section Settlement

variable {a : Asset} {l : Ledger} {owner : Address} {t : Trove} {e : EntireTrove} {inflow outflow taken settlements : Nat}
  (hsound : (l.books a).Sound inflow outflow taken settlements) (hinflow : inflow < 2 ^ 128)
  (hfound : l.activeTrove owner = .ok t) (hentire : l.rewards.entire t = .ok e)

include hfound hentire in
theorem pending_eq_due : (a.pending e.pending).units = a.due l.rewards.level t :=
  Rewards.pending_units (Rewards.entire_eq_ok hentire).1 (get?_of_activeTrove hfound).2 a

include hsound hfound in
theorem due_le_default : a.due l.rewards.level t ≤ (a.default l.pools).units := by
  have hclaim : a.claim l.rewards.level t ≤ (l.books a).claims := le_activeTotal hfound (a.claim l.rewards.level)
  have hcovered := hsound.claims_le
  have hdue := a.due_mul_scale l.rewards.level t
  exact Nat.le_of_mul_le_mul_right (c := Amount.scale) (show _ ≤ (l.books a).default * _ by omega) (by decide)

include hsound hfound in
theorem settled_le_active : (a.settled t).units ≤ (a.active l.pools).units := by
  have hrecord : (a.settled t).units ≤ (l.books a).recorded := le_activeTotal hfound fun t => (a.settled t).units
  rw [hsound.recorded_eq] at hrecord
  exact hrecord

include hsound hinflow hfound hentire in
/-- A settlement moves what is pending from one pool to the other, in full. -/
theorem active_settle_eq :
    (a.active (l.pools.settle e.pending)).units = (a.active l.pools).units + a.due l.rewards.level t := by
  have hpending := pending_eq_due (a := a) hfound hentire
  have hdue := due_le_default hsound hfound
  have hheld : (a.active l.pools).units + (a.default l.pools).units + taken + outflow = inflow := hsound.held_eq
  rw [Pools.active_settle (by omega), hpending]

include hsound hinflow hfound hentire in
/-- The active pool holds the entire amounts of a trove that has settled. -/
theorem entire_le_active_settle : (a.entire e).units ≤ (a.active (l.pools.settle e.pending)).units := by
  have hrecord := settled_le_active hsound hfound
  rw [active_settle_eq hsound hinflow hfound hentire, (Rewards.entire_eq_ok hentire).2.2 a,
    pending_eq_due hfound hentire]
  omega

include hsound hinflow hfound hentire in
theorem entire_le_held : (a.entire e).units ≤ (a.held l.pools).units := by
  have hrecord := settled_le_active hsound hfound
  have hdue := due_le_default hsound hfound
  have hheld : (a.active l.pools).units + (a.default l.pools).units + taken + outflow = inflow := hsound.held_eq
  rw [Pools.units_held (by omega), (Rewards.entire_eq_ok hentire).2.2 a, pending_eq_due hfound hentire]
  omega

end Settlement

section Operations

variable {a : Asset} {l l' : Ledger} {owner : Address} {old new : Trove} {e : EntireTrove}
  {inflow outflow taken settlements : Nat}

theorem Opened.turnover (h : Opened l l' owner new) (a : Asset) : Turnover a l l' none (some new) where
  exchange := h.exchange
  level := by rw [(Rewards.replaceStake_eq_ok h.rewards).1]
  carried := by rw [(Rewards.replaceStake_eq_ok h.rewards).1]; cases a <;> rfl
  snapshot t ht := by cases ht; exact h.snapshot
  active := Amount.plus_eq_ok_iff.1 (h.pool a)
  default := congrArg Amount.units (h.default a)

theorem Adjusted.turnover (h : Adjusted l l' owner old e new) (hsound : (l.books a).Sound inflow outflow taken settlements)
    (hinflow : inflow < 2 ^ 128) : Turnover a l l' (some old) (some new) where
  exchange := h.exchange
  level := by rw [(Rewards.replaceStake_eq_ok h.rewards).1]
  carried := by rw [(Rewards.replaceStake_eq_ok h.rewards).1]; cases a <;> rfl
  snapshot t ht := by cases ht; exact h.snapshot
  active := by
    have hfollow := Amount.follow_eq_ok (h.pool a)
    have hsettle := active_settle_eq hsound hinflow h.found h.entire
    have hentire := (Rewards.entire_eq_ok h.entire).2.2 a
    have hpending := pending_eq_due (a := a) h.found h.entire
    simp only [Option.elim_some]
    omega
  default := by
    rw [h.default a, Pools.default_settle, pending_eq_due h.found h.entire]
    rfl

theorem leave_turnover {status : TroveStatus} (hfound : l.activeTrove owner = .ok old)
    (hentire : l.rewards.entire old = .ok e) (hstatus : status ≠ .active)
    (hsound : (l.books a).Sound inflow outflow taken settlements) (hinflow : inflow < 2 ^ 128) :
    Turnover a l (l.leave owner e status) (some old) none := by
  have hsettle := active_settle_eq hsound hinflow hfound hentire
  have hrecord := settled_le_active hsound hfound
  have hsum := (Rewards.entire_eq_ok hentire).2.2 a
  have hpending := pending_eq_due (a := a) hfound hentire
  have hexchange := leave_exchange (e := e) hfound hstatus
  obtain ⟨owners, troves, -, hframe⟩ := leave_frame l owner e status
  rw [hframe] at hexchange ⊢
  refine ⟨hexchange, rfl, by cases a <;> rfl, fun t ht => (nomatch ht), ?_, ?_⟩
  · have htaken : (a.active (l.takeEntire e).pools).units =
        (a.active (l.pools.settle e.pending)).units - (a.entire e).units := by cases a <;> rfl
    simp only [Option.elim_some, Option.elim_none]
    omega
  · have hkept : (a.default (l.takeEntire e).pools).units = (a.default (l.pools.settle e.pending)).units := by
      cases a <;> rfl
    rw [hkept, Pools.default_settle, hpending]
    rfl

theorem Repaid.turnover (h : Repaid l l' owner old e) (hsound : (l.books a).Sound inflow outflow taken settlements)
    (hinflow : inflow < 2 ^ 128) : Turnover a l l' (some old) none := by
  have hleft := leave_turnover h.found h.entire (show TroveStatus.closedByOwner ≠ .active by decide) hsound hinflow
  rw [h.left]
  exact ⟨hleft.exchange, hleft.level, hleft.carried, hleft.snapshot, hleft.active, hleft.default⟩

theorem Adjusted.entire_before (h : Adjusted l l' owner old e new) : l.entire owner = .ok e :=
  (entire_of_activeTrove h.found).trans h.entire

theorem Repaid.entire_before (h : Repaid l l' owner old e) : l.entire owner = .ok e :=
  (entire_of_activeTrove h.found).trans h.entire

section Put

variable {oldStake : Amount} (hactive : new.isActive = true) (hsnapshot : new.snapshot = l.rewards.level)
  (htroves : l'.troves = l.troves.insert owner new) (hrewards : l.rewards.replaceStake oldStake new.stake = .ok l'.rewards)

include hactive hsnapshot htroves hrewards in
/-- A trove that is put in place with the level for its snapshot has its settled amounts for entire ones. -/
theorem entire_of_insert : l'.entire owner = .ok ⟨new.debt, new.collateral, .zero, new.stake⟩ := by
  have hget : l'.troves.get? owner = some new := by
    rw [htroves, SortedMap.get?_insert, if_pos rfl]
  have hlevel : new.snapshot = l'.rewards.level := by
    rw [hsnapshot, (Rewards.replaceStake_eq_ok hrewards).1]
  rw [entire_of_activeTrove (activeTrove_of_get? hget hactive), Rewards.entire_of_snapshot hlevel]

include hsnapshot htroves hrewards in
/-- A stake that takes the place of one among the total, or comes to it, keeps the total the sum of stakes. -/
theorem Regular.put {before : Option Trove} (hregular : l.Regular) (hexchange : Exchange l l' before (some new))
    (hstake : before.elim 0 (fun t => t.stake.units) = oldStake.units)
    (hle : oldStake.units ≤ l.rewards.totalStakes.units) : l'.Regular := by
  obtain ⟨hlevel, htotal⟩ := Rewards.replaceStake_eq_ok hrewards
  constructor
  · have hstakes := hexchange (fun t => t.stake.units) fun _ _ => rfl
    have hbefore := hregular.stakes
    rw [hstake, Option.elim_some] at hstakes
    omega
  · rw [htroves, hlevel]
    refine hregular.snapshots.insert owner fun _ a => ?_
    rw [hsnapshot]

end Put

theorem Opened.entire_after (h : Opened l l' owner new) :
    l'.entire owner = .ok ⟨new.debt, new.collateral, .zero, new.stake⟩ :=
  entire_of_insert h.active h.snapshot h.troves h.rewards

theorem Adjusted.entire_after (h : Adjusted l l' owner old e new) :
    l'.entire owner = .ok ⟨new.debt, new.collateral, .zero, new.stake⟩ :=
  entire_of_insert h.active h.snapshot h.troves h.rewards

theorem Opened.regular (h : Opened l l' owner new) (hregular : l.Regular) : l'.Regular :=
  hregular.put h.snapshot h.troves h.rewards h.exchange rfl (Nat.zero_le _)

theorem Adjusted.regular (h : Adjusted l l' owner old e new) (hregular : l.Regular) : l'.Regular := by
  refine hregular.put h.snapshot h.troves h.rewards h.exchange rfl ?_
  rw [← hregular.stakes]
  exact le_activeTotal h.found fun t => t.stake.units

theorem Regular.leave {status : TroveStatus} (hregular : l.Regular) (hfound : l.activeTrove owner = .ok old)
    (hentire : l.rewards.entire old = .ok e) (hstatus : status ≠ .active) : (l.leave owner e status).Regular := by
  have hexchange := leave_exchange (e := e) hfound hstatus fun t => t.stake.units
  obtain ⟨owners, troves, htroves, hframe⟩ := leave_frame l owner e status
  rw [hframe] at hexchange ⊢
  constructor
  · have hstakes := hexchange fun _ _ => rfl
    have hbefore := hregular.stakes
    have hstake := congrArg Amount.units (Rewards.entire_eq_ok hentire).2.1
    have hdropped : (l.takeEntire e).rewards.totalStakes.units = l.rewards.totalStakes.units - e.stake.units := rfl
    simp only [Option.elim_some, Option.elim_none] at hstakes
    rw [hdropped]
    apply Nat.eq_sub_of_add_eq
    rw [hstake, ← hbefore]
    exact hstakes
  · have hall := htroves.all (P := fun t => t.isActive = true →
      ∀ a : Asset, (a.level t.snapshot).units ≤ (a.level l.rewards.level).units) (fun t slot ht => ht) hregular.snapshots
    refine hall.update owner fun t _ hactive => ?_
    rw [isActive_closed t hstatus] at hactive
    cases hactive

end Operations

section Redistribution

variable {l : Ledger} {collateral debt : Amount} {d : Redistribution}
  (hd : l.rewards.redistribution collateral debt l.rewards.totalStakes = .ok (some d))

include hd in
theorem Regular.addToDefault (hregular : l.Regular) : (l.addToDefault d).Regular := by
  refine ⟨hregular.stakes, fun entry hmem hactive a => ?_⟩
  obtain ⟨rise, hrise, -⟩ := (Rewards.redistribution_eq_ok hd).2.2 a
  have hbefore := hregular.snapshots entry hmem hactive a
  show _ ≤ (a.level d.level).units
  omega

include hd in
/-- Every claim grows by what the stake receives, so that all of them together take what is not carried over. -/
theorem claims_addToDefault (hregular : l.Regular) (a : Asset) :
    ((l.addToDefault d).books a).claims + ((l.addToDefault d).books a).carried =
      (l.books a).claims + (a.given d).units * Amount.scale + (l.books a).carried := by
  obtain ⟨rise, hrise, hshares⟩ := (Rewards.redistribution_eq_ok hd).2.2 a
  have hgrown : l.troves.total (Trove.weigh (a.claim d.level)) =
      l.troves.total fun t => Trove.weigh (a.claim l.rewards.level) t + Trove.weigh (fun t => t.stake.units) t * rise := by
    apply SortedMap.total_congr
    intro entry hmem
    unfold Trove.weigh
    split
    · next hactive =>
        have hbefore := hregular.snapshots entry hmem hactive a
        rw [Asset.claim, Asset.claim, ← Nat.mul_add, hrise, Nat.sub_add_comm hbefore]
    · rw [Nat.zero_mul]
  rw [SortedMap.total_add, SortedMap.total_mul (R := Nat), ← activeTotal_eq_total, ← activeTotal_eq_total,
    ← activeTotal_eq_total, hregular.stakes] at hgrown
  have hclaims : ((l.addToDefault d).books a).claims = (l.books a).claims + l.rewards.totalStakes.units * rise := hgrown
  have hcarried : ((l.addToDefault d).books a).carried = (a.carried (l.rewards.redistribute d)).units := rfl
  have hbefore : (l.books a).carried = (a.carried l.rewards).units := rfl
  omega

/-- An amount that left the active pool fits in the default pool. -/
theorem default_addToDefault {a : Asset} {inflow outflow taken settlements : Nat}
    (hsound : (l.books a).Sound inflow outflow (taken + (a.given d).units) settlements) (hinflow : inflow < 2 ^ 128) :
    (a.default (l.addToDefault d).pools).units = (a.default l.pools).units + (a.given d).units := by
  have hheld : (a.active l.pools).units + (a.default l.pools).units + (taken + (a.given d).units) + outflow = inflow :=
    hsound.held_eq
  have hclamp : a.default (l.addToDefault d).pools = (a.default l.pools).plusClamped (a.given d) := by cases a <;> rfl
  rw [hclamp, Amount.units_plusClamped]
  exact Nat.min_eq_left (by omega)

include hd in
/-- **A redistribution keeps the books sound.** What was taken out of the active pool comes back as pending. -/
theorem sound_addToDefault {a : Asset} {inflow outflow taken settlements : Nat} (hregular : l.Regular)
    (hsound : (l.books a).Sound inflow outflow (taken + (a.given d).units) settlements) (hinflow : inflow < 2 ^ 128) :
    ((l.addToDefault d).books a).Sound inflow outflow taken settlements := by
  have hclaims := claims_addToDefault hd hregular a
  have hdefault : ((l.addToDefault d).books a).default = (l.books a).default + (a.given d).units :=
    default_addToDefault hsound hinflow
  have hactive : ((l.addToDefault d).books a).active = (l.books a).active := by cases a <;> rfl
  have hrecorded : ((l.addToDefault d).books a).recorded = (l.books a).recorded := rfl
  have hproduct := Nat.add_mul (l.books a).default (a.given d).units Amount.scale
  obtain ⟨hrecordedEq, hheld, hcovered, hdust⟩ := hsound
  refine ⟨by omega, by omega, ?_, ?_⟩
  · rw [hdefault]
    omega
  · rw [hdefault]
    omega

end Redistribution

end Ledger

end CollateralDebt
