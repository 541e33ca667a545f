import CollateralDebt.Proofs.Ledger.Row
import CollateralDebt.Proofs.Ledger.Settlement
import Mathlib.Algebra.BigOperators.Ring.List

/-! What an account sees of the operations of others. A record has its place in the row of owners, and that is all of it
that others can change; the entire amounts follow from the rest of the record and from the level of redistributions. So
what an owner does to a trove is not seen by anyone else (`AlikeFor`). When the level rises, what is pending for a trove
grows by what its stake receives of the rise, in whole units, or by a unit more where the parts of a unit that this leaves
make up one with the parts that were due before (`GrowsBy`). -/

open CollateralDebt.Action

namespace CollateralDebt

/-- The record of a trove without its place in the row. -/
def Trove.unplaced (t : Trove) : Trove := { t with slot := 0 }

namespace Asset

/-- What a stake receives of a rise of the level, in parts of which a unit has `Amount.scale`. -/
def received (a : Asset) (level later : Level) (stake : Nat) : Nat :=
  stake * ((a.level later).units - (a.level level).units)

/-- **What is due grows by what the stake receives, rounded down, or by one unit more.** -/
theorem due_rise {a : Asset} {level later : Level} {t : Trove}
    (hsnapshot : (a.level t.snapshot).units ≤ (a.level level).units)
    (hrise : (a.level level).units ≤ (a.level later).units) :
    ∃ growth, a.due later t = a.due level t + growth ∧
      (growth = a.received level later t.stake.units / Amount.scale ∨
        growth = a.received level later t.stake.units / Amount.scale + 1) := by
  have hclaim : a.claim later t = a.claim level t + a.received level later t.stake.units := claim_rise hsnapshot hrise
  rw [due, due, hclaim, Nat.add_div (by decide)]
  split
  · exact ⟨_, Nat.add_assoc _ _ _, .inr rfl⟩
  · exact ⟨_, rfl, .inl rfl⟩

end Asset

namespace Ledger

/-- An account can not tell two ledgers apart: its record has the same in it, but for its place in the row, and its
entire amounts are the same, or missing for the same reason. -/
structure AlikeFor (l l' : Ledger) (owner : Address) : Prop where
  record : (l'.troves.get? owner).map Trove.unplaced = (l.troves.get? owner).map Trove.unplaced
  entire : l'.entire owner = l.entire owner

variable {l l' : Ledger} {owner other : Address} {old t : Trove} {e : EntireTrove} {status : TroveStatus}

/-- Entire amounts are read from the record, but for its place, at the level of redistributions. -/
theorem entire_eq_unplaced (l : Ledger) (owner : Address) : l.entire owner =
    ((l.troves.get? owner).map Trove.unplaced).elim (.error (.troveNotFound owner.text)) fun t =>
      t.requireActive >>= fun _ => l.rewards.entire t := by
  unfold entire activeTrove
  cases l.troves.get? owner with
  | none => rfl
  | some t =>
      show (t.requireActive.map fun _ => t) >>= l.rewards.entire = t.requireActive >>= fun _ => l.rewards.entire t
      cases t.requireActive <;> rfl

theorem alikeFor_of_record (hrecord : (l'.troves.get? owner).map Trove.unplaced = (l.troves.get? owner).map Trove.unplaced)
    (hlevel : l'.rewards.level = l.rewards.level) : AlikeFor l l' owner := by
  have hentire : l'.rewards.entire = l.rewards.entire := by
    unfold Rewards.entire Rewards.pending Rewards.hasPending
    rw [hlevel]
  refine ⟨hrecord, ?_⟩
  rw [entire_eq_unplaced, entire_eq_unplaced, hrecord, hentire]

/-! ## Operations of owners -/

theorem get?_of_insert {troves : SortedMap Address Trove} (htroves : l'.troves = troves.insert owner t)
    (hne : other ≠ owner) : l'.troves.get? other = troves.get? other := by
  rw [htroves, SortedMap.get?_insert, if_neg hne]

theorem Opened.alikeFor (h : Opened l l' owner t) (hne : other ≠ owner) : AlikeFor l l' other := by
  refine alikeFor_of_record (by rw [get?_of_insert h.troves hne]) ?_
  rw [(Rewards.replaceStake_eq_ok h.rewards).1]

theorem Adjusted.alikeFor (h : Adjusted l l' owner old e t) (hne : other ≠ owner) : AlikeFor l l' other := by
  refine alikeFor_of_record (by rw [get?_of_insert h.troves hne]) ?_
  rw [(Rewards.replaceStake_eq_ok h.rewards).1]

theorem Reslotted.unplaced {troves troves' : SortedMap Address Trove} (h : Reslotted troves troves') (owner : Address) :
    (troves'.get? owner).map Trove.unplaced = (troves.get? owner).map Trove.unplaced := by
  rcases h with rfl | ⟨moved, slot, rfl⟩
  · rfl
  · rw [SortedMap.get?_update]
    split
    · rw [Option.map_map]
      rfl
    · rfl

/-- A trove that leaves takes nothing from the records of others but a place in the row. -/
theorem unplaced_leave (l : Ledger) (e : EntireTrove) (status : TroveStatus) (hne : other ≠ owner) :
    ((l.leave owner e status).troves.get? other).map Trove.unplaced = (l.troves.get? other).map Trove.unplaced := by
  obtain ⟨owners, troves, htroves, hframe⟩ := leave_frame l owner e status
  rw [hframe]
  show ((troves.update owner _).get? other).map _ = _
  rw [SortedMap.get?_update_of_ne troves hne]
  exact htroves.unplaced other

theorem level_leave (l : Ledger) (owner : Address) (e : EntireTrove) (status : TroveStatus) :
    (l.leave owner e status).rewards.level = l.rewards.level := by
  obtain ⟨owners, troves, -, hframe⟩ := leave_frame l owner e status
  rw [hframe]
  rfl

theorem Repaid.alikeFor (h : Repaid l l' owner old e) (hne : other ≠ owner) : AlikeFor l l' other := by
  rw [h.left]
  exact alikeFor_of_record (unplaced_leave l e .closedByOwner hne) (level_leave l owner e .closedByOwner)

/-! ## What a rise of the level adds -/

/-- So much more is pending for an active trove in the second of two ledgers: of each asset what its stake receives of
the rise of the level, rounded down, or a unit more. -/
def GrowsBy (l l' : Ledger) (owner : Address) (growth : Asset → Nat) : Prop :=
  ∃ t before after, l.activeTrove owner = .ok t ∧ l.pending owner = .ok before ∧ l'.pending owner = .ok after ∧
    ∀ a : Asset, (a.pending after).units = (a.pending before).units + growth a ∧
      (growth a = a.received l.rewards.level l'.rewards.level t.stake.units / Amount.scale ∨
        growth a = a.received l.rewards.level l'.rewards.level t.stake.units / Amount.scale + 1)

theorem activeTrove_of_unplaced
    (hrecord : (l'.troves.get? owner).map Trove.unplaced = (l.troves.get? owner).map Trove.unplaced)
    (hfound : l.activeTrove owner = .ok t) : ∃ slot, l'.activeTrove owner = .ok { t with slot } := by
  obtain ⟨hget, hactive⟩ := get?_of_activeTrove hfound
  rw [hget, Option.map_some] at hrecord
  obtain ⟨t', hget', hsame⟩ := Option.map_eq_some_iff.1 hrecord
  have hkept : { t with slot := t'.slot } = t' := congrArg (fun r : Trove => { r with slot := t'.slot }) hsame.symm
  exact ⟨t'.slot, activeTrove_of_get? (hkept ▸ hget') hactive⟩

/-- With sound books what is pending for a trove is what is due to it. -/
theorem Sound.exists_pending (h : l.Sound) (hfound : l.activeTrove owner = .ok t) :
    ∃ p, l.pending owner = .ok p ∧ ∀ a : Asset, (a.pending p).units = a.due l.rewards.level t := by
  obtain ⟨e, hentire⟩ := h.exists_entire hfound
  have hpending := (Rewards.entire_eq_ok hentire).1
  exact ⟨e.pending, except_bind_eq_ok.2 ⟨t, hfound, hpending⟩, Rewards.pending_units hpending (get?_of_activeTrove hfound).2⟩

/-- **Whoever keeps a trove while the level rises has more pending by what the stake receives.** -/
theorem Sound.exists_growsBy (h : l.Sound) (h' : l'.Sound) (hfound : l.activeTrove owner = .ok t)
    (hrecord : (l'.troves.get? owner).map Trove.unplaced = (l.troves.get? owner).map Trove.unplaced)
    (hrise : ∀ a : Asset, (a.level l.rewards.level).units ≤ (a.level l'.rewards.level).units) :
    ∃ growth, GrowsBy l l' owner growth := by
  obtain ⟨hget, hactive⟩ := get?_of_activeTrove hfound
  obtain ⟨slot, hfound'⟩ := activeTrove_of_unplaced hrecord hfound
  obtain ⟨before, hbefore, hdue⟩ := h.exists_pending hfound
  obtain ⟨after, hafter, hdue'⟩ := h'.exists_pending hfound'
  choose growth hsum hgrowth using fun a => Asset.due_rise (h.regular.snapshots.of_get? hget hactive a) (hrise a)
  refine ⟨growth, t, before, after, hfound, hbefore, hafter, fun a => ⟨?_, hgrowth a⟩⟩
  rw [hdue', hdue]
  exact hsum a

theorem InOrder.mem_owners_iff (h : l.InOrder) : owner ∈ l.owners ↔ ∃ t, l.activeTrove owner = .ok t := by
  constructor
  · intro hmem
    obtain ⟨place, hplace⟩ := List.mem_iff_getElem?.1 hmem
    obtain ⟨t, hget, hactive, -⟩ := h.placed place owner hplace
    exact ⟨t, activeTrove_of_get? hget hactive⟩
  · rintro ⟨t, hfound⟩
    obtain ⟨hget, hactive⟩ := get?_of_activeTrove hfound
    exact h.listed owner t hget hactive

/-- Numbers that are quotients, or one more, add up to no more than the quotient of the sum and one for each. -/
theorem sum_le_div_add_length {α : Type} {row : List α} {f g : α → Nat} {d : Nat}
    (h : ∀ x ∈ row, f x = g x / d ∨ f x = g x / d + 1) :
    (row.map f).sum ≤ (row.map g).sum / d + row.length := by
  induction row with
  | nil => exact Nat.zero_le _
  | cons x rest ih =>
      have hrest := ih fun y hmem => h y (List.mem_cons_of_mem _ hmem)
      have hsplit : g x / d + (rest.map g).sum / d ≤ (g x + (rest.map g).sum) / d := Nat.div_add_div_le_add_div
      rw [List.map_cons, List.sum_cons, List.map_cons, List.sum_cons, List.length_cons]
      rcases h x List.mem_cons_self with hx | hx <;> omega

/-- What an owner stakes, nothing without a record. -/
def stakedBy (l : Ledger) (owner : Address) : Nat := (l.troves.get? owner).elim 0 fun t => t.stake.units

/-- What the owners in the row receive is what all that is staked receives. -/
theorem InOrder.sum_received (h : l.InOrder) (hregular : l.Regular) (a : Asset) (level later : Level) :
    (l.owners.map fun owner => a.received level later (l.stakedBy owner)).sum =
      a.received level later l.rewards.totalStakes.units := by
  have hstakes : (l.owners.map l.stakedBy).sum = l.rewards.totalStakes.units :=
    (h.sum_owners fun t => t.stake.units).trans hregular.stakes
  unfold Asset.received
  rw [List.sum_map_mul_right, hstakes]

/-- **Together the troves of a row receive no more than all that is staked**, and a unit for each of them. -/
theorem InOrder.sum_growth_le (h : l'.InOrder) (hregular : l'.Regular) {growth : Address → Asset → Nat}
    (hgrows : ∀ owner ∈ l'.owners, GrowsBy l l' owner (growth owner))
    (hrecords : ∀ owner ∈ l'.owners,
      (l'.troves.get? owner).map Trove.unplaced = (l.troves.get? owner).map Trove.unplaced) (a : Asset) :
    (l'.owners.map fun owner => growth owner a).sum ≤
      a.received l.rewards.level l'.rewards.level l'.rewards.totalStakes.units / Amount.scale + l'.owners.length := by
  rw [← h.sum_received hregular]
  refine sum_le_div_add_length fun owner hmem => ?_
  obtain ⟨t, _, _, hfound, -, -, hgrowth⟩ := hgrows owner hmem
  obtain ⟨slot, hkept⟩ := activeTrove_of_unplaced (hrecords owner hmem) hfound
  have hstaked : l'.stakedBy owner = t.stake.units := by
    rw [stakedBy, (get?_of_activeTrove hkept).1]
    rfl
  rw [hstaked]
  exact (hgrowth a).2

end Ledger

end CollateralDebt
