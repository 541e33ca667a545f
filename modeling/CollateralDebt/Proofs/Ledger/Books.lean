import CollateralDebt.Proofs.Ledger.Operations
import CollateralDebt.Proofs.SortedMap.Total

/-! The books of an asset: what active troves have on record and claim, what the two pools hold, and what the last
division carried over. The books are sound when the active pool is the sum of the records, and the default pool
covers all claims and what is carried over. It holds no more than that and the fractions dropped so far, of which
every settlement drops less than one unit. A trove that comes, goes or changes is a turnover of the ledger, and
sound books stay sound through it. -/

namespace CollateralDebt

namespace Ledger

/-- The records of active troves. -/
def activeTroves (l : Ledger) : List Trove := (l.troves.entries.map Prod.snd).filter Trove.isActive

/-- What all active troves count for together. -/
def activeTotal (l : Ledger) (f : Trove → Nat) : Nat := (l.activeTroves.map f).sum

end Ledger

/-- What a trove counts for among the active ones. -/
def Trove.weigh (f : Trove → Nat) (t : Trove) : Nat := if t.isActive then f t else 0

namespace Ledger

theorem activeTotal_eq_total (l : Ledger) (f : Trove → Nat) : l.activeTotal f = l.troves.total (Trove.weigh f) := by
  unfold activeTotal activeTroves SortedMap.total
  induction l.troves.entries with
  | nil => rfl
  | cons first rest ih =>
      rw [List.map_cons, List.map_cons, List.sum_cons, ← ih, List.filter_cons, Trove.weigh]
      split
      · rw [List.map_cons, List.sum_cons]
      · rw [Nat.zero_add]

theorem mem_activeTroves {l : Ledger} {t : Trove} (hmem : t ∈ l.activeTroves) :
    (∃ owner, (owner, t) ∈ l.troves.entries) ∧ t.isActive = true := by
  obtain ⟨hrecord, hactive⟩ := List.mem_filter.1 hmem
  obtain ⟨⟨owner, _⟩, hentry, rfl⟩ := List.mem_map.1 hrecord
  exact ⟨⟨owner, hentry⟩, hactive⟩

theorem le_activeTotal {l : Ledger} {owner : Address} {t : Trove} (h : l.activeTrove owner = .ok t) (f : Trove → Nat) :
    f t ≤ l.activeTotal f := by
  obtain ⟨hget, hactive⟩ := get?_of_activeTrove h
  have hle := SortedMap.le_total hget (Trove.weigh f)
  rw [Trove.weigh, if_pos hactive] at hle
  rw [activeTotal_eq_total]
  exact hle

/-- Some troves count for others: what all count for together changes accordingly, for every count that does not
look at places in the row of owners. -/
def Exchange (l l' : Ledger) (old new : Option Trove) : Prop :=
  ∀ f : Trove → Nat, (∀ t slot, f { t with slot } = f t) →
    l'.activeTotal f + old.elim 0 f = l.activeTotal f + new.elim 0 f

theorem activeTotal_insert {l l' : Ledger} {owner : Address} {t : Trove} (hactive : t.isActive = true)
    (h : l'.troves = l.troves.insert owner t) (f : Trove → Nat) :
    l'.activeTotal f + (l.troves.get? owner).elim 0 (Trove.weigh f) = l.activeTotal f + f t := by
  have hinsert := l.troves.total_insert owner t (Trove.weigh f)
  rw [activeTotal_eq_total, activeTotal_eq_total, h, hinsert, Trove.weigh, if_pos hactive]

theorem Opened.exchange {l l' : Ledger} {owner : Address} {t : Trove} (h : Opened l l' owner t) :
    Exchange l l' none (some t) := by
  intro f _
  have hinsert := activeTotal_insert h.active h.troves f
  cases hget : l.troves.get? owner with
  | none =>
      rw [hget] at hinsert
      exact hinsert
  | some before =>
      rw [hget, Option.elim_some, Trove.weigh, not_active_of_isActive h.inactive hget] at hinsert
      exact hinsert

theorem Adjusted.exchange {l l' : Ledger} {owner : Address} {old new : Trove} {e : EntireTrove}
    (h : Adjusted l l' owner old e new) : Exchange l l' (some old) (some new) := by
  intro f _
  have hinsert := activeTotal_insert h.active h.troves f
  obtain ⟨hget, hold⟩ := get?_of_activeTrove h.found
  rw [hget, Option.elim_some, Trove.weigh, if_pos hold] at hinsert
  exact hinsert

theorem isActive_closed (t : Trove) {status : TroveStatus} (hstatus : status ≠ .active) :
    (t.closed status).isActive = false := decide_eq_false hstatus

theorem weigh_slot {f : Trove → Nat} (hf : ∀ t slot, f { t with slot } = f t) (t : Trove) (slot : Nat) :
    Trove.weigh f { t with slot } = Trove.weigh f t := by
  unfold Trove.weigh
  rw [hf]
  rfl

theorem Reslotted.get? {troves troves' : SortedMap Address Trove} (h : Reslotted troves troves') {owner : Address}
    {t : Trove} (hget : troves.get? owner = some t) : ∃ slot, troves'.get? owner = some { t with slot } := by
  rcases h with rfl | ⟨moved, slot, rfl⟩
  · exact ⟨t.slot, hget⟩
  · by_cases hmoved : owner = moved
    · rw [hmoved, SortedMap.get?_update_self, ← hmoved, hget]
      exact ⟨slot, rfl⟩
    · rw [SortedMap.get?_update_of_ne _ hmoved]
      exact ⟨t.slot, hget⟩

theorem Reslotted.total_weigh {troves troves' : SortedMap Address Trove} (h : Reslotted troves troves')
    {f : Trove → Nat} (hf : ∀ t slot, f { t with slot } = f t) :
    troves'.total (Trove.weigh f) = troves.total (Trove.weigh f) := by
  rcases h with rfl | ⟨moved, slot, rfl⟩
  · rfl
  · exact SortedMap.total_update_same _ _ fun t => weigh_slot hf t slot

theorem Reslotted.all {troves troves' : SortedMap Address Trove} (h : Reslotted troves troves') {P : Trove → Prop}
    (hP : ∀ t slot, P t → P { t with slot }) (hall : troves.All P) : troves'.All P := by
  rcases h with rfl | ⟨moved, slot, rfl⟩
  · exact hall
  · exact hall.update moved fun t => hP t slot

/-- A record is found again when another trove leaves, up to its place in the row. -/
theorem get?_leave {l : Ledger} {owner other : Address} {t : Trove} (hne : other ≠ owner)
    (hget : l.troves.get? other = some t) (e : EntireTrove) (status : TroveStatus) :
    ∃ slot, (l.leave owner e status).troves.get? other = some { t with slot } := by
  obtain ⟨owners, troves, htroves, hframe⟩ := leave_frame l owner e status
  rw [hframe]
  dsimp only
  rw [SortedMap.get?_update_of_ne _ hne]
  exact htroves.get? hget

/-- An active trove is found with the same entire amounts after another one leaves. -/
theorem found_leave {l : Ledger} {owner other : Address} {t : Trove} {e : EntireTrove} (hfound : l.activeTrove owner = .ok t)
    (hentire : l.rewards.entire t = .ok e) (hne : owner ≠ other) (e' : EntireTrove) (status : TroveStatus) :
    ∃ slot, (l.leave other e' status).activeTrove owner = .ok { t with slot } ∧
      (l.leave other e' status).rewards.entire { t with slot } = .ok e := by
  obtain ⟨hget, hactive⟩ := get?_of_activeTrove hfound
  obtain ⟨slot, hkept⟩ := get?_leave hne hget e' status
  obtain ⟨owners, troves, -, hframe⟩ := leave_frame l other e' status
  refine ⟨slot, activeTrove_of_get? hkept hactive, ?_⟩
  rw [hframe]
  exact hentire

theorem leave_exchange {l : Ledger} {owner : Address} {old : Trove} {e : EntireTrove} {status : TroveStatus}
    (hfound : l.activeTrove owner = .ok old) (hstatus : status ≠ .active) :
    Exchange l (l.leave owner e status) (some old) none := by
  intro f hf
  obtain ⟨hget, hactive⟩ := get?_of_activeTrove hfound
  obtain ⟨owners, troves, htroves, hframe⟩ := leave_frame l owner e status
  obtain ⟨slot, hrecord⟩ := htroves.get? hget
  have hclosed := SortedMap.total_update hrecord (fun t => t.closed status) (Trove.weigh f)
  have hweight : Trove.weigh f { old with slot } = f old := (weigh_slot hf old slot).trans (if_pos hactive)
  have hgone : Trove.weigh f (Trove.closed { old with slot } status) = 0 :=
    if_neg (by rw [isActive_closed _ hstatus]; exact Bool.false_ne_true)
  rw [hweight, hgone, htroves.total_weigh hf, ← activeTotal_eq_total] at hclosed
  rw [activeTotal_eq_total, hframe]
  exact hclosed

/-- The total of stakes is their sum, and no active trove has a snapshot ahead of the level. -/
structure Regular (l : Ledger) : Prop where
  stakes : l.activeTotal (fun t => t.stake.units) = l.rewards.totalStakes.units
  snapshots : l.troves.All fun t => t.isActive = true →
    ∀ a : Asset, (a.level t.snapshot).units ≤ (a.level l.rewards.level).units

/-- An active trove `old` goes, if there is one, and `new` comes, if there is one, with a snapshot of the level now.
What was pending for `old` leaves the default pool; the active pool follows the records. -/
structure Turnover (a : Asset) (l l' : Ledger) (old new : Option Trove) : Prop where
  exchange : Exchange l l' old new
  level : l'.rewards.level = l.rewards.level
  carried : a.carried l'.rewards = a.carried l.rewards
  snapshot : ∀ t, new = some t → t.snapshot = l.rewards.level
  active : (a.active l'.pools).units + old.elim 0 (fun t => (a.settled t).units) =
    (a.active l.pools).units + new.elim 0 fun t => (a.settled t).units
  default : (a.default l'.pools).units = (a.default l.pools).units - old.elim 0 (a.due l.rewards.level)

end Ledger

/-- What the books of an asset say: what active troves have on record and claim, what the pools hold, and what is
carried over. Claims and what is carried count in units of the eighteenth place of a unit. -/
structure Books where
  recorded : Nat
  claims : Nat
  active : Nat
  default : Nat
  carried : Nat

def Ledger.books (l : Ledger) (a : Asset) : Books where
  recorded := l.activeTotal fun t => (a.settled t).units
  claims := l.activeTotal (a.claim l.rewards.level)
  active := (a.active l.pools).units
  default := (a.default l.pools).units
  carried := (a.carried l.rewards).units

namespace Books

/-- The books are sound, after so much came in and so much went out in all, with so much taken out of the active
pool that may still come back, and after so many settlements. -/
structure Sound (b : Books) (inflow outflow taken settlements : Nat) : Prop where
  recorded_eq : b.recorded = b.active
  held_eq : b.active + b.default + taken + outflow = inflow
  claims_le : b.claims + b.carried ≤ b.default * Amount.scale
  default_le : b.default * Amount.scale ≤ b.claims + b.carried + settlements * (Amount.scale - 1)

variable {b : Books} {inflow outflow taken settlements : Nat}

/-- Only what is left of what came in matters, not how much of it went out. -/
theorem Sound.net (h : b.Sound inflow outflow taken settlements) :
    b.Sound (b.active + b.default + taken) 0 taken settlements :=
  ⟨h.recorded_eq, rfl, h.claims_le, h.default_le⟩

theorem Sound.gross (h : b.Sound inflow outflow taken settlements) (more : Nat) :
    b.Sound (inflow + more) (outflow + more) taken settlements := by
  have hheld := h.held_eq
  exact ⟨h.recorded_eq, by omega, h.claims_le, h.default_le⟩

end Books

namespace Ledger

theorem Turnover.recorded {a : Asset} {l l' : Ledger} {old new : Option Trove} (h : Turnover a l l' old new) :
    (l'.books a).recorded + old.elim 0 (fun t => (a.settled t).units) =
      (l.books a).recorded + new.elim 0 fun t => (a.settled t).units :=
  h.exchange (fun t => (a.settled t).units) fun t slot => by cases a <;> rfl

/-- The claim of the trove that goes is dropped, and the one that comes has none yet. -/
theorem Turnover.claims {a : Asset} {l l' : Ledger} {old new : Option Trove} (h : Turnover a l l' old new) :
    (l'.books a).claims + old.elim 0 (a.claim l.rewards.level) = (l.books a).claims := by
  have hexchange := h.exchange (a.claim l.rewards.level) fun t slot => rfl
  have hnew : new.elim 0 (a.claim l.rewards.level) = 0 := by
    cases hcomes : new with
    | none => rfl
    | some t => exact Asset.claim_of_snapshot (h.snapshot t hcomes)
  rw [hnew, Nat.add_zero] at hexchange
  show l'.activeTotal (a.claim l'.rewards.level) + _ = l.activeTotal (a.claim l.rewards.level)
  rw [h.level]
  exact hexchange

theorem Turnover.due_le_default {a : Asset} {l l' : Ledger} {old : Trove} {new : Option Trove}
    {inflow outflow taken settlements : Nat} (h : Turnover a l l' (some old) new)
    (hsound : (l.books a).Sound inflow outflow taken settlements) :
    a.due l.rewards.level old ≤ (l.books a).default := by
  have hclaims : (l'.books a).claims + a.claim l.rewards.level old = (l.books a).claims := h.claims
  have hcovered := hsound.claims_le
  have hdue := a.due_mul_scale l.rewards.level old
  exact Nat.le_of_mul_le_mul_right (c := Amount.scale) (by omega) (by decide)

/-- **A turnover keeps the books sound.** What the new trove has and the old one had not must have come in, and
what the old one had and the new one has not must have gone out or been taken. If a trove goes or changes, that is
one more settlement, and the fraction of its claim is dropped. -/
theorem Turnover.sound {a : Asset} {l l' : Ledger} {old new : Option Trove}
    {inflow inflow' outflow outflow' taken taken' settlements settlements' : Nat} (h : Turnover a l l' old new)
    (hsound : (l.books a).Sound inflow outflow taken settlements)
    (hflow : new.elim 0 (fun t => (a.settled t).units) + taken' + outflow' + inflow =
      old.elim 0 (fun t => (a.settled t).units + a.due l.rewards.level t) + taken + outflow + inflow')
    (hcount : settlements + old.elim 0 (fun _ => 1) ≤ settlements') :
    (l'.books a).Sound inflow' outflow' taken' settlements' := by
  have hrecorded := h.recorded
  have hclaims := h.claims
  have hactive : (l'.books a).active + _ = (l.books a).active + _ := h.active
  have hdefault : (l'.books a).default = (l.books a).default - _ := h.default
  have hcarried : (l'.books a).carried = (l.books a).carried := congrArg Amount.units h.carried
  obtain ⟨hrecordedEq, hheld, hcovered, hdust⟩ := hsound
  -- Without an old trove nothing is settled. With one, its claim leaves the default pool in whole units, and the
  -- fraction that stays behind is the dust of one settlement.
  cases old with
  | none =>
      simp only [Option.elim_none, Nat.add_zero, Nat.sub_zero] at *
      have hdropped := Nat.mul_le_mul_right (Amount.scale - 1) hcount
      refine ⟨by omega, by omega, ?_, ?_⟩
      · rw [hclaims, hcarried, hdefault]
        exact hcovered
      · rw [hclaims, hcarried, hdefault]
        omega
  | some t =>
      simp only [Option.elim_some] at *
      have hdue := a.due_mul_scale l.rewards.level t
      have hfraction := Nat.mod_lt (a.claim l.rewards.level t) (show 0 < Amount.scale by decide)
      have hdueLe := h.due_le_default ⟨hrecordedEq, hheld, hcovered, hdust⟩
      have hproduct : (l'.books a).default * Amount.scale + a.due l.rewards.level t * Amount.scale =
          (l.books a).default * Amount.scale := by
        rw [← Nat.add_mul, hdefault, Nat.sub_add_cancel hdueLe]
      have hdropped : settlements * (Amount.scale - 1) + (Amount.scale - 1) ≤ settlements' * (Amount.scale - 1) := by
        rw [← Nat.succ_mul]
        exact Nat.mul_le_mul_right _ hcount
      exact ⟨by omega, by omega, by omega, by omega⟩

/-- A turnover changes what the whole system holds by what the troves hold, if that is an amount before and after. -/
theorem Turnover.held_eq {a : Asset} {l l' : Ledger} {old new : Option Trove}
    {inflow inflow' outflow outflow' taken taken' settlements settlements' : Nat} (h : Turnover a l l' old new)
    (hsound : (l.books a).Sound inflow outflow taken settlements) (hinflow : inflow < 2 ^ 128)
    (hsound' : (l'.books a).Sound inflow' outflow' taken' settlements') (hinflow' : inflow' < 2 ^ 128) :
    (a.held l'.pools).units + old.elim 0 (fun t => (a.settled t).units + a.due l.rewards.level t) =
      (a.held l.pools).units + new.elim 0 fun t => (a.settled t).units := by
  have hbefore : (a.active l.pools).units + (a.default l.pools).units + taken + outflow = inflow := hsound.held_eq
  have hafter : (a.active l'.pools).units + (a.default l'.pools).units + taken' + outflow' = inflow' := hsound'.held_eq
  have hactive := h.active
  have hdefault := h.default
  rw [Pools.units_held (by omega), Pools.units_held (by omega)]
  cases old with
  | none =>
      simp only [Option.elim_none, Nat.add_zero, Nat.sub_zero] at *
      omega
  | some t =>
      have hdue : a.due l.rewards.level t ≤ (a.default l.pools).units := h.due_le_default hsound
      simp only [Option.elim_some] at *
      omega

end Ledger

end CollateralDebt
