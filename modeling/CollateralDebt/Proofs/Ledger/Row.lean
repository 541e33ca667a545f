import CollateralDebt.Proofs.Ledger.Soundness

/-! The row of owners and the records. Each owner in the row has an active trove with the owner's place on record,
so no owner is there twice, and every active trove has its owner there. When a trove leaves, the last owner of the
row takes the place that is free, and the record of that owner follows; so the row stays in order through any
number of closures, and `check` finds nothing wrong with it. -/

open CollateralDebt.Action

namespace CollateralDebt

/-- Nothing is left in a trove. -/
def Trove.IsEmpty (t : Trove) : Prop := t.debt = .zero ∧ t.collateral = .zero ∧ t.stake = .zero

namespace Ledger

/-- The row of owners and the records agree, and a trove that is not active has nothing in it. -/
structure InOrder (l : Ledger) : Prop where
  placed : ∀ place owner, l.owners[place]? = some owner →
    ∃ t, l.troves.get? owner = some t ∧ t.isActive = true ∧ t.slot = place
  listed : ∀ owner t, l.troves.get? owner = some t → t.isActive = true → owner ∈ l.owners
  owned : ∀ owner t, l.troves.get? owner = some t → t.owner = owner
  emptied : ∀ owner t, l.troves.get? owner = some t → t.isActive = false → t.IsEmpty

variable {l l' : Ledger} {owner other : Address} {t : Trove} {e : EntireTrove}

theorem inOrder_empty : empty.InOrder :=
  ⟨fun _ _ h => (nomatch h), fun _ _ h => (nomatch h), fun _ _ h => (nomatch h), fun _ _ h => (nomatch h)⟩

/-- Only the row and the records matter. -/
theorem InOrder.of_eq (h : l.InOrder) (htroves : l'.troves = l.troves) (howners : l'.owners = l.owners) : l'.InOrder := by
  constructor
  · rw [htroves, howners]
    exact h.placed
  · rw [htroves, howners]
    exact h.listed
  · rw [htroves]
    exact h.owned
  · rw [htroves]
    exact h.emptied

/-- Two places of one owner are the place that the record has. -/
theorem InOrder.nodup (h : l.InOrder) : l.owners.Nodup := by
  refine List.pairwise_iff_getElem.2 fun i j hi hj hlt hsame => ?_
  obtain ⟨t, hget, -, hslot⟩ := h.placed i l.owners[i] (List.getElem?_eq_getElem hi)
  obtain ⟨t', hget', -, hslot'⟩ := h.placed j l.owners[j] (List.getElem?_eq_getElem hj)
  rw [hsame, hget'] at hget
  cases hget
  omega

/-- The owner of an active trove stands at the place on record. -/
theorem InOrder.getElem?_slot (h : l.InOrder) (hfound : l.activeTrove owner = .ok t) :
    l.owners[t.slot]? = some owner := by
  obtain ⟨hget, hactive⟩ := get?_of_activeTrove hfound
  obtain ⟨place, hplace⟩ := List.mem_iff_getElem?.1 (h.listed owner t hget hactive)
  obtain ⟨t', hget', -, hslot⟩ := h.placed place owner hplace
  rw [hget] at hget'
  cases hget'
  rw [hslot]
  exact hplace

/-! ## Troves that come or change -/

/-- An active record is put in place, and the row has its owner at the place on record, and all others as before. -/
theorem InOrder.put (h : l.InOrder) (hactive : t.isActive = true) (howned : t.owner = owner)
    (htroves : l'.troves = l.troves.insert owner t)
    (howners : ∀ place other, l'.owners[place]? = some other ↔
      other = owner ∧ place = t.slot ∨ other ≠ owner ∧ l.owners[place]? = some other) : l'.InOrder := by
  constructor
  · intro place other hplace
    rw [htroves, SortedMap.get?_insert]
    rcases (howners place other).1 hplace with ⟨hsame, hslot⟩ | ⟨hne, hplace⟩
    · rw [if_pos hsame]
      exact ⟨t, rfl, hactive, hslot.symm⟩
    · rw [if_neg hne]
      exact h.placed place other hplace
  · intro other r hget hstill
    rw [htroves, SortedMap.get?_insert_eq_some] at hget
    rw [List.mem_iff_getElem?]
    rcases hget with ⟨hsame, -⟩ | ⟨hne, hget⟩
    · exact ⟨t.slot, (howners _ _).2 (.inl ⟨hsame, rfl⟩)⟩
    · obtain ⟨place, hplace⟩ := List.mem_iff_getElem?.1 (h.listed other r hget hstill)
      exact ⟨place, (howners _ _).2 (.inr ⟨hne, hplace⟩)⟩
  · intro other r hget
    rw [htroves, SortedMap.get?_insert_eq_some] at hget
    rcases hget with ⟨hsame, rfl⟩ | ⟨-, hget⟩
    · exact howned.trans hsame.symm
    · exact h.owned other r hget
  · intro other r hget hinactive
    rw [htroves, SortedMap.get?_insert_eq_some] at hget
    rcases hget with ⟨-, rfl⟩ | ⟨-, hget⟩
    · rw [hactive] at hinactive
      cases hinactive
    · exact h.emptied other r hget hinactive

/-- An owner without an active trove is not in the row. -/
theorem InOrder.not_mem (h : l.InOrder) (hinactive : l.isActive owner = false) : owner ∉ l.owners := by
  intro hmem
  obtain ⟨place, hplace⟩ := List.mem_iff_getElem?.1 hmem
  obtain ⟨t, hget, hactive, -⟩ := h.placed place owner hplace
  rw [not_active_of_isActive hinactive hget] at hactive
  cases hactive

theorem Opened.inOrder (h : Opened l l' owner t) (hl : l.InOrder) : l'.InOrder := by
  refine hl.put h.active h.owned h.troves fun place other => ?_
  have hnew := hl.not_mem h.inactive
  rw [h.owners, h.slot, List.getElem?_append, List.getElem?_singleton]
  by_cases hbefore : place < l.owners.length
  · rw [if_pos hbefore]
    constructor
    · intro hplace
      exact .inr ⟨fun hsame => hnew (hsame ▸ List.mem_of_getElem? hplace), hplace⟩
    · rintro (⟨-, hlast⟩ | ⟨-, hplace⟩)
      · omega
      · exact hplace
  · rw [if_neg hbefore, List.getElem?_eq_none (Nat.le_of_not_lt hbefore)]
    constructor
    · intro hplace
      split at hplace
      · exact .inl ⟨(Option.some.inj hplace).symm, by omega⟩
      · cases hplace
    · rintro (⟨rfl, rfl⟩ | ⟨-, hplace⟩)
      · rw [if_pos (Nat.sub_self _)]
      · cases hplace

theorem Adjusted.inOrder {old new : Trove} (h : Adjusted l l' owner old e new) (hl : l.InOrder) : l'.InOrder := by
  have hget := (get?_of_activeTrove h.found).1
  refine hl.put h.active (h.owned.trans (hl.owned owner old hget)) h.troves fun place other => ?_
  rw [h.owners, h.slot]
  constructor
  · intro hplace
    by_cases hsame : other = owner
    · obtain ⟨r, hr, -, hslot⟩ := hl.placed place other hplace
      rw [hsame, hget] at hr
      cases hr
      exact .inl ⟨hsame, hslot.symm⟩
    · exact .inr ⟨hsame, hplace⟩
  · rintro (⟨rfl, rfl⟩ | ⟨-, hplace⟩)
    · exact hl.getElem?_slot h.found
    · exact hplace

/-! ## Troves that leave -/

/-- The last owner stands where one was taken out, and the row is shorter by one. -/
theorem getElem?_takeOut {owners : List Address} {slot : Nat} (h : slot < owners.length) (place : Nat) :
    (takeOut owners slot)[place]? =
      if place + 1 < owners.length then if place = slot then owners.getLast? else owners[place]? else none := by
  unfold takeOut
  cases hlast : owners.getLast? with
  | none =>
      rw [List.getLast?_eq_none_iff.1 hlast] at h
      cases h
  | some last =>
      rw [List.getElem?_dropLast, List.length_set, List.getElem?_set]
      grind

theorem length_takeOut {owners : List Address} {slot : Nat} (h : slot < owners.length) :
    (takeOut owners slot).length + 1 = owners.length := by
  unfold takeOut
  cases hlast : owners.getLast? with
  | none =>
      rw [List.getLast?_eq_none_iff.1 hlast] at h
      cases h
  | some last =>
      rw [List.length_dropLast, List.length_set]
      omega

/-- The record of an owner after another one left the row: the last one of the row has the place that became free. -/
def reslot (owners : List Address) (free : Nat) (owner : Address) (t : Trove) : Trove :=
  { t with slot := if owners.getLast? = some owner then free else t.slot }

theorem reslot_of_ne {owners : List Address} (h : owners.getLast? ≠ some owner) (free : Nat) (t : Trove) :
    reslot owners free owner t = t := by
  rw [reslot, if_neg h]

theorem InOrder.removeOwner_eq (h : l.InOrder) (hfound : l.activeTrove owner = .ok t) :
    (l.removeOwner owner).owners = takeOut l.owners t.slot ∧
      ∀ other, other ≠ owner → (l.removeOwner owner).troves.get? other =
        (l.troves.get? other).map (reslot l.owners t.slot other) := by
  have hplace := h.getElem?_slot hfound
  have hinside := (List.getElem?_eq_some_iff.1 hplace).1
  have hmoved := getElem?_takeOut hinside t.slot
  rw [if_pos (rfl : t.slot = t.slot)] at hmoved
  unfold removeOwner
  rw [(get?_of_activeTrove hfound).1]
  dsimp only
  rw [if_pos hplace]
  by_cases hlast : t.slot + 1 < l.owners.length
  · rw [if_pos hlast] at hmoved
    rw [hmoved]
    cases hmover : l.owners.getLast? with
    | none =>
        rw [List.getLast?_eq_none_iff.1 hmover] at hinside
        cases hinside
    | some mover =>
        refine ⟨rfl, fun other hne => ?_⟩
        by_cases hsame : other = mover
        · rw [hsame, SortedMap.get?_update_self]
          congr 1
          funext r
          rw [reslot, if_pos hmover]
        · rw [SortedMap.get?_update_of_ne _ hsame]
          have hstays : l.owners.getLast? ≠ some other := by
            rw [hmover]
            exact fun hmover => hsame (Option.some.inj hmover).symm
          cases l.troves.get? other with
          | none => rfl
          | some r => rw [Option.map_some, reslot_of_ne hstays]
  · -- The owner who leaves is the last one, and nobody moves.
    rw [if_neg hlast] at hmoved
    rw [hmoved]
    refine ⟨rfl, fun other hne => ?_⟩
    have hstays : l.owners.getLast? ≠ some other := by
      rw [List.getLast?_eq_getElem?, show l.owners.length - 1 = t.slot by omega, hplace]
      exact fun hsame => hne (Option.some.inj hsame).symm
    cases l.troves.get? other with
    | none => rfl
    | some r => rw [Option.map_some, reslot_of_ne hstays]

theorem InOrder.takeEntire (h : l.InOrder) (e : EntireTrove) : (l.takeEntire e).InOrder := h.of_eq rfl rfl

theorem InOrder.owners_leave (h : l.InOrder) (hfound : l.activeTrove owner = .ok t) (e : EntireTrove)
    (status : TroveStatus) : (l.leave owner e status).owners = takeOut l.owners t.slot :=
  ((h.takeEntire e).removeOwner_eq hfound).1

theorem InOrder.get?_leave_of_ne (h : l.InOrder) (hfound : l.activeTrove owner = .ok t) (hne : other ≠ owner)
    (e : EntireTrove) (status : TroveStatus) :
    (l.leave owner e status).troves.get? other = (l.troves.get? other).map (reslot l.owners t.slot other) := by
  have hremoved := ((h.takeEntire e).removeOwner_eq hfound).2 other hne
  exact (SortedMap.get?_update_of_ne _ hne _).trans hremoved

theorem get?_leave_self (hget : l.troves.get? owner = some t) (e : EntireTrove) (status : TroveStatus) :
    (l.leave owner e status).troves.get? owner = some (t.closed status) := by
  obtain ⟨owners, troves, htroves, hframe⟩ := leave_frame l owner e status
  obtain ⟨slot, hrecord⟩ := htroves.get? hget
  rw [hframe]
  dsimp only
  rw [SortedMap.get?_update_self, hrecord]
  rfl

/-- A record after a trove left is the one of the trove that left, or another one with its place brought up to date. -/
theorem InOrder.get?_leave_eq_some (h : l.InOrder) (hfound : l.activeTrove owner = .ok t) {status : TroveStatus}
    {r : Trove} (hr : (l.leave owner e status).troves.get? other = some r) :
    other = owner ∧ r = t.closed status ∨
      other ≠ owner ∧ ∃ before, l.troves.get? other = some before ∧ reslot l.owners t.slot other before = r := by
  by_cases hsame : other = owner
  · rw [hsame, get?_leave_self (get?_of_activeTrove hfound).1] at hr
    exact .inl ⟨hsame, (Option.some.inj hr).symm⟩
  · rw [h.get?_leave_of_ne hfound hsame] at hr
    exact .inr ⟨hsame, Option.map_eq_some_iff.1 hr⟩

/-- Only the owner at the end of the row is the last one. -/
theorem InOrder.getLast?_eq_iff (h : l.InOrder) {r : Trove} (hfound : l.activeTrove other = .ok r) :
    l.owners.getLast? = some other ↔ r.slot + 1 = l.owners.length := by
  have hplace := h.getElem?_slot hfound
  have hinside := (List.getElem?_eq_some_iff.1 hplace).1
  rw [List.getLast?_eq_getElem?]
  constructor
  · intro hlast
    obtain ⟨r', hr', -, hslot⟩ := h.placed _ other hlast
    rw [(get?_of_activeTrove hfound).1] at hr'
    cases hr'
    omega
  · intro hlast
    rw [show l.owners.length - 1 = r.slot by omega]
    exact hplace

theorem InOrder.slot_ne (h : l.InOrder) (hfound : l.activeTrove owner = .ok t) {r : Trove}
    (hother : l.activeTrove other = .ok r) (hne : other ≠ owner) : r.slot ≠ t.slot := by
  intro hsame
  have hplace := h.getElem?_slot hother
  rw [hsame, h.getElem?_slot hfound] at hplace
  exact hne (Option.some.inj hplace).symm

/-- Who stands in the row after a trove left has an active trove with the place on record. -/
theorem InOrder.placed_leave (h : l.InOrder) (hfound : l.activeTrove owner = .ok t) (e : EntireTrove)
    (status : TroveStatus) {place : Nat} (hother : (l.leave owner e status).owners[place]? = some other) :
    ∃ r, (l.leave owner e status).troves.get? other = some r ∧ r.isActive = true ∧ r.slot = place := by
  have hinside := (List.getElem?_eq_some_iff.1 (h.getElem?_slot hfound)).1
  rw [h.owners_leave hfound, getElem?_takeOut hinside] at hother
  split at hother
  · next hkept =>
      -- The owner at a place is the one who moved there, if it became free, and else the one of before.
      obtain ⟨r, hr, hactive, hslots, hnow⟩ : ∃ r, l.troves.get? other = some r ∧ r.isActive = true ∧
          r.slot ≠ t.slot ∧ (reslot l.owners t.slot other r).slot = place := by
        split at hother
        · next hfree =>
            have hlast := hother
            rw [List.getLast?_eq_getElem?] at hlast
            obtain ⟨r, hr, hactive, hslot⟩ := h.placed _ other hlast
            exact ⟨r, hr, hactive, by omega, by rw [reslot, if_pos hother, hfree]⟩
        · next hfree =>
            obtain ⟨r, hr, hactive, hslot⟩ := h.placed place other hother
            have hstays : l.owners.getLast? ≠ some other := fun hlast => by
              have := (h.getLast?_eq_iff (activeTrove_of_get? hr hactive)).1 hlast
              omega
            exact ⟨r, hr, hactive, by omega, by rw [reslot_of_ne hstays, hslot]⟩
      have hne : other ≠ owner := by
        rintro rfl
        rw [(get?_of_activeTrove hfound).1] at hr
        cases hr
        exact hslots rfl
      refine ⟨reslot l.owners t.slot other r, ?_, hactive, hnow⟩
      rw [h.get?_leave_of_ne hfound hne, hr, Option.map_some]
  · cases hother

/-- Whose trove is still active after another one left is still in the row. -/
theorem InOrder.listed_leave (h : l.InOrder) (hfound : l.activeTrove owner = .ok t) (e : EntireTrove)
    (status : TroveStatus) {r : Trove} (hr : l.activeTrove other = .ok r) (hne : other ≠ owner) :
    other ∈ (l.leave owner e status).owners := by
  have hinside := (List.getElem?_eq_some_iff.1 (h.getElem?_slot hfound)).1
  have hplace := h.getElem?_slot hr
  have hwithin := (List.getElem?_eq_some_iff.1 hplace).1
  have hslots := h.slot_ne hfound hr hne
  have hlast := h.getLast?_eq_iff hr
  rw [h.owners_leave hfound, List.mem_iff_getElem?]
  by_cases hend : r.slot + 1 = l.owners.length
  · refine ⟨t.slot, ?_⟩
    rw [getElem?_takeOut hinside, if_pos (by omega), if_pos rfl, hlast.2 hend]
  · refine ⟨r.slot, ?_⟩
    rw [getElem?_takeOut hinside, if_pos (by omega), if_neg hslots, hplace]

/-- **A trove that leaves leaves the row in order.** -/
theorem InOrder.leave (h : l.InOrder) (hfound : l.activeTrove owner = .ok t) (e : EntireTrove) {status : TroveStatus}
    (hstatus : status ≠ .active) : (l.leave owner e status).InOrder := by
  constructor
  · exact fun place other hother => h.placed_leave hfound e status hother
  · intro other r hr hactive
    rcases h.get?_leave_eq_some hfound hr with ⟨-, rfl⟩ | ⟨hne, before, hbefore, rfl⟩
    · rw [isActive_closed t hstatus] at hactive
      cases hactive
    · exact h.listed_leave hfound e status (activeTrove_of_get? hbefore hactive) hne
  · intro other r hr
    rcases h.get?_leave_eq_some hfound hr with ⟨rfl, rfl⟩ | ⟨-, before, hbefore, rfl⟩
    · exact h.owned other t (get?_of_activeTrove hfound).1
    · exact h.owned other before hbefore
  · intro other r hr hinactive
    rcases h.get?_leave_eq_some hfound hr with ⟨-, rfl⟩ | ⟨-, before, hbefore, rfl⟩
    · exact ⟨rfl, rfl, rfl⟩
    · exact h.emptied other before hbefore hinactive

theorem InOrder.length_leave (h : l.InOrder) (hfound : l.activeTrove owner = .ok t) (e : EntireTrove)
    (status : TroveStatus) : (l.leave owner e status).owners.length + 1 = l.owners.length := by
  rw [h.owners_leave hfound]
  exact length_takeOut (List.getElem?_eq_some_iff.1 (h.getElem?_slot hfound)).1

/-! ## The check of a ledger -/

/-- A sum over the row of owners is the sum over the active troves. -/
theorem InOrder.sum_owners (h : l.InOrder) (f : Trove → Nat) :
    (l.owners.map fun owner => (l.troves.get? owner).elim 0 f).sum = l.activeTotal f := by
  have hsame : l.owners.Perm ((l.troves.entries.filter (Trove.isActive ∘ Prod.snd)).map Prod.fst) := by
    have hdistinct : ((l.troves.entries.filter (Trove.isActive ∘ Prod.snd)).map Prod.fst).Nodup :=
      List.Nodup.sublist (List.filter_sublist.map Prod.fst) l.troves.nodup_keys
    refine (List.perm_ext_iff_of_nodup h.nodup hdistinct).2 fun owner => ?_
    constructor
    · intro hmem
      obtain ⟨place, hplace⟩ := List.mem_iff_getElem?.1 hmem
      obtain ⟨t, hget, hactive, -⟩ := h.placed place owner hplace
      exact List.mem_map.2 ⟨(owner, t), List.mem_filter.2 ⟨SortedMap.mem_entries_iff.2 hget, hactive⟩, rfl⟩
    · intro hmem
      obtain ⟨⟨_, t⟩, hentry, rfl⟩ := List.mem_map.1 hmem
      obtain ⟨hentry, hactive⟩ := List.mem_filter.1 hentry
      exact h.listed _ t (SortedMap.mem_entries_iff.1 hentry) hactive
  rw [(hsame.map _).sum_eq, List.map_map, activeTotal, activeTroves, List.filter_map, List.map_map]
  refine congrArg List.sum (List.map_congr_left fun entry hentry => ?_)
  have hget := SortedMap.mem_entries_iff.1 (List.mem_filter.1 hentry).1
  show (l.troves.get? entry.1).elim 0 f = f entry.2
  rw [hget, Option.elim_some]

theorem checkSlots_eq_ok {place : Nat} {row : List Address}
    (h : ∀ i owner, row[i]? = some owner → ∃ t, l.activeTrove owner = .ok t ∧ t.slot = place + i) :
    l.checkSlots place row = .ok () := by
  induction row generalizing place with
  | nil => rfl
  | cons first rest ih =>
      obtain ⟨t, hfound, hslot⟩ := h 0 first rfl
      rw [checkSlots]
      refine except_bind_eq_ok.2 ⟨t, hfound, ?_⟩
      rw [if_pos (hslot.trans (Nat.add_zero _))]
      refine ih fun i owner howner => ?_
      obtain ⟨t', hfound', hslot'⟩ := h (i + 1) owner howner
      exact ⟨t', hfound', by omega⟩

/-- Quantities of owners add up to an amount if their sum is in range. -/
theorem foldlM_plus_eq_ok {quantity : Address → Except Error Amount} {f : Address → Nat} {row : List Address}
    (sofar : Amount) (hquantity : ∀ owner ∈ row, ∃ a, quantity owner = .ok a ∧ a.units = f owner)
    (hfits : sofar.units + (row.map f).sum < 2 ^ 128) :
    ∃ sum, row.foldlM (fun sum owner => do let more ← quantity owner; sum.plus more) sofar = .ok sum ∧
      sum.units = sofar.units + (row.map f).sum := by
  induction row generalizing sofar with
  | nil => exact ⟨sofar, rfl, rfl⟩
  | cons first rest ih =>
      obtain ⟨a, ha, hunits⟩ := hquantity first List.mem_cons_self
      rw [List.map_cons, List.sum_cons] at hfits ⊢
      have hplus : sofar.plus a = .ok ⟨sofar.units + a.units, by omega⟩ := Amount.plus_eq_ok_iff.2 rfl
      obtain ⟨sum, hsum, htotal⟩ := ih ⟨sofar.units + a.units, by omega⟩
        (fun owner hmem => hquantity owner (List.mem_cons_of_mem _ hmem)) (by dsimp only; omega)
      refine ⟨sum, ?_, by dsimp only at htotal; omega⟩
      rw [List.foldlM_cons, ha]
      exact except_bind_eq_ok.2 ⟨_, hplus, hsum⟩

/-- The stakes of the owners in the row add up to what all active troves stake. -/
theorem InOrder.sumStakes_eq_ok (h : l.InOrder) (hfits : l.activeTotal (fun t => t.stake.units) < 2 ^ 128) :
    ∃ stakes, l.sumStakes = .ok stakes ∧ stakes.units = l.activeTotal fun t => t.stake.units := by
  rw [← h.sum_owners] at hfits ⊢
  have hstake : ∀ owner ∈ l.owners, ∃ a, (l.activeTrove owner).map Trove.stake = .ok a ∧
      a.units = (l.troves.get? owner).elim 0 fun t => t.stake.units := by
    intro owner hmem
    obtain ⟨place, hplace⟩ := List.mem_iff_getElem?.1 hmem
    obtain ⟨t, hget, hactive, -⟩ := h.placed place owner hplace
    rw [activeTrove_of_get? hget hactive, hget]
    exact ⟨t.stake, rfl, rfl⟩
  obtain ⟨stakes, hsum, hunits⟩ := foldlM_plus_eq_ok .zero hstake ((Nat.zero_add _).trans_lt hfits)
  exact ⟨stakes, hsum, hunits.trans (Nat.zero_add _)⟩

/-- A ledger whose row is in order passes its check if its debt and its stakes add up. -/
theorem InOrder.check (h : l.InOrder) (hstakes : l.activeTotal (fun t => t.stake.units) = l.rewards.totalStakes.units)
    (hdebt : l.pools.debt.units + l.burned.units = l.minted.units) : l.check = .ok () := by
  have houtstanding : l.minted.minus l.burned = .ok l.pools.debt := Amount.minus_eq_ok_iff.2 (by omega)
  have hslots : l.checkSlots 0 l.owners = .ok () := checkSlots_eq_ok fun place owner hplace => by
    obtain ⟨t, hget, hactive, hslot⟩ := h.placed place owner hplace
    exact ⟨t, activeTrove_of_get? hget hactive, hslot.trans (Nat.zero_add _).symm⟩
  obtain ⟨stakes, hsum, hunits⟩ := h.sumStakes_eq_ok (by rw [hstakes]; exact l.rewards.totalStakes.units_lt)
  have hsame : stakes = l.rewards.totalStakes := Amount.ext (hunits.trans hstakes)
  unfold Ledger.check
  refine except_bind_eq_ok.2 ⟨_, houtstanding, except_guard_eq_ok.2 ⟨fun hne => hne rfl, ?_⟩⟩
  refine except_bind_eq_ok.2 ⟨_, hslots, except_bind_eq_ok.2 ⟨_, hsum, ?_⟩⟩
  rw [if_neg fun hne => hne hsame]
  rfl

end Ledger

end CollateralDebt
