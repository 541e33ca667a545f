import CollateralDebt.SortedMap
import Mathlib.Algebra.BigOperators.Group.List.Basic
import Mathlib.Algebra.BigOperators.Ring.List
import Mathlib.Algebra.Order.BigOperators.Group.List
import Mathlib.Algebra.Ring.Nat

/-! Totals over the values of a map, and properties that hold of all of them. One value put in place of another
moves a total by the difference of what the two count for, whatever the map holds besides; a value that is not
there counts for nothing. Values may count for naturals, as the amounts of troves do, or for rationals, as the
worth of deposits does. -/

namespace CollateralDebt.SortedMap

variable {κ α M : Type} [Key κ] [AddCommMonoid M]

/-- What all values count for together. -/
def total (m : SortedMap κ α) (f : α → M) : M := (m.entries.map fun entry => f entry.2).sum

/-- Every value has a property. -/
def All (m : SortedMap κ α) (P : α → Prop) : Prop := ∀ entry ∈ m.entries, P entry.2

theorem total_put (k : κ) (v : α) (f : α → M) (entries : List (κ × α)) :
    ((put k v entries).map fun entry => f entry.2).sum + (find k entries).elim 0 f =
      (entries.map fun entry => f entry.2).sum + f v := by
  induction entries with
  | nil => simp [put, find]
  | cons first rest ih =>
      rw [put, find]
      split
      · simp only [List.map_cons, List.sum_cons, Option.elim_none, add_zero]
        rw [add_comm]
      · split
        · simp only [List.map_cons, List.sum_cons]
          rw [add_assoc, ih, add_assoc]
        · simp only [List.map_cons, List.sum_cons, Option.elim_some]
          rw [add_comm (f v), add_comm (f first.2), add_right_comm]

theorem total_drop (k : κ) (f : α → M) (entries : List (κ × α)) :
    ((drop k entries).map fun entry => f entry.2).sum + (find k entries).elim 0 f =
      (entries.map fun entry => f entry.2).sum := by
  induction entries with
  | nil => simp [drop, find]
  | cons first rest ih =>
      rw [drop, find]
      split
      · rw [Option.elim_none, add_zero]
      · split
        · simp only [List.map_cons, List.sum_cons]
          rw [add_assoc, ih]
        · simp only [List.map_cons, List.sum_cons, Option.elim_some]
          rw [add_comm]

/-- A value put at a key counts in place of the one that was there. -/
theorem total_insert (m : SortedMap κ α) (k : κ) (v : α) (f : α → M) :
    (m.insert k v).total f + (m.get? k).elim 0 f = m.total f + f v := total_put k v f m.entries

theorem total_erase (m : SortedMap κ α) (k : κ) (f : α → M) :
    (m.erase k).total f + (m.get? k).elim 0 f = m.total f := total_drop k f m.entries

theorem total_update {m : SortedMap κ α} {k : κ} {v : α} (hget : m.get? k = some v) (g : α → α) (f : α → M) :
    (m.update k g).total f + f v = m.total f + f (g v) := by
  have hinsert := m.total_insert k (g v) f
  rw [hget] at hinsert
  rw [update, hget]
  exact hinsert

/-- A change of one value that does not change what it counts for. -/
theorem total_update_same (m : SortedMap κ α) (k : κ) {g : α → α} {f : α → M} (h : ∀ v, f (g v) = f v)
    [IsRightCancelAdd M] : (m.update k g).total f = m.total f := by
  cases hget : m.get? k with
  | none => rw [update, hget]
  | some v =>
      apply add_right_cancel (b := f v)
      rw [total_update hget, h]

theorem size_eq_total (m : SortedMap κ α) : m.size = m.total fun _ => 1 := by
  rw [size, total, List.map_const', List.sum_replicate]
  exact (Nat.mul_one _).symm

theorem size_insert_le (m : SortedMap κ α) (k : κ) (v : α) : (m.insert k v).size ≤ m.size + 1 :=
  length_put k v m.entries

theorem size_erase_le (m : SortedMap κ α) (k : κ) : (m.erase k).size ≤ m.size := by
  rw [size_eq_total, size_eq_total, ← m.total_erase k fun _ => 1]
  exact Nat.le_add_right _ _

theorem size_update (m : SortedMap κ α) (k : κ) (g : α → α) : (m.update k g).size = m.size := by
  rw [size_eq_total, size_eq_total]
  exact m.total_update_same k fun _ => rfl

theorem le_total {m : SortedMap κ α} {k : κ} {v : α} (hget : m.get? k = some v) (f : α → Nat) :
    f v ≤ m.total f := by
  have herase := m.total_erase k f
  rw [hget] at herase
  rw [← herase]
  exact Nat.le_add_left _ _

theorem total_congr {m : SortedMap κ α} {f g : α → M} (h : m.All fun v => f v = g v) : m.total f = m.total g :=
  congrArg List.sum (List.map_congr_left h)

theorem total_add (m : SortedMap κ α) (f g : α → M) : (m.total fun v => f v + g v) = m.total f + m.total g :=
  List.sum_map_add

theorem total_mul {R : Type} [NonUnitalNonAssocSemiring R] (m : SortedMap κ α) (f : α → R) (c : R) :
    (m.total fun v => f v * c) = m.total f * c := List.sum_map_mul_right _ _ _

theorem total_map {N : Type} [AddCommMonoid N] (m : SortedMap κ α) (f : α → M) (g : M →+ N) :
    (m.total fun v => g (f v)) = g (m.total f) := List.sum_map_hom m.entries _ g

theorem total_le_total [PartialOrder M] [IsOrderedAddMonoid M] {m : SortedMap κ α} {f g : α → M}
    (h : m.All fun v => f v ≤ g v) : m.total f ≤ m.total g := List.sum_le_sum h

theorem total_nonneg [PartialOrder M] [IsOrderedAddMonoid M] {m : SortedMap κ α} {f : α → M}
    (h : m.All fun v => 0 ≤ f v) : 0 ≤ m.total f := by
  refine List.sum_nonneg fun x hx => ?_
  obtain ⟨entry, hmem, rfl⟩ := List.mem_map.1 hx
  exact h entry hmem

theorem mem_of_find {k : κ} {v : α} {entries : List (κ × α)} (h : find k entries = some v) : (k, v) ∈ entries := by
  induction entries with
  | nil => cases h
  | cons first rest ih =>
      rw [find] at h
      split at h
      · cases h
      · split at h
        · exact List.mem_cons_of_mem _ (ih h)
        · next hnotBefore hnotAfter =>
            have hkey : k = first.1 := Key.eq_of_not_lt hnotBefore hnotAfter
            cases h
            rw [hkey]
            exact List.mem_cons_self

theorem find_of_mem {k : κ} {v : α} {entries : List (κ × α)} (h : entries.Pairwise fun a b => a.1 < b.1)
    (hmem : (k, v) ∈ entries) : find k entries = some v := by
  induction entries with
  | nil => cases hmem
  | cons first rest ih =>
      obtain ⟨habove, htail⟩ := List.pairwise_cons.1 h
      rcases List.mem_cons.1 hmem with rfl | hmem
      · exact find_cons_self (k, v) rest
      · have hbelow := habove _ hmem
        rw [find, if_neg fun hbefore => Key.irrefl _ (Key.trans hbefore hbelow), if_pos hbelow]
        exact ih htail hmem

/-- The entries of a map are what is read at its keys. -/
theorem mem_entries_iff {m : SortedMap κ α} {k : κ} {v : α} : (k, v) ∈ m.entries ↔ m.get? k = some v :=
  ⟨find_of_mem m.sorted, mem_of_find⟩

theorem nodup_keys (m : SortedMap κ α) : (m.entries.map Prod.fst).Nodup := by
  refine List.pairwise_map.2 (m.sorted.imp fun {a b} hbefore (hsame : a.1 = b.1) => ?_)
  rw [hsame] at hbefore
  exact Key.irrefl _ hbefore

theorem get?_insert_eq_some [DecidableEq κ] {m : SortedMap κ α} {k j : κ} {v w : α} :
    (m.insert k v).get? j = some w ↔ j = k ∧ v = w ∨ j ≠ k ∧ m.get? j = some w := by
  rw [get?_insert]
  by_cases hkey : j = k <;> simp [hkey]

instance (m : SortedMap κ α) (P : α → Prop) [DecidablePred P] : Decidable (m.All P) :=
  inferInstanceAs (Decidable (∀ entry ∈ m.entries, P entry.2))

theorem All.of_get? {m : SortedMap κ α} {P : α → Prop} (h : m.All P) {k : κ} {v : α} (hget : m.get? k = some v) :
    P v := h _ (mem_of_find hget)

theorem all_empty (P : α → Prop) : (empty : SortedMap κ α).All P := fun _ hmem => nomatch hmem

theorem All.insert {m : SortedMap κ α} {P : α → Prop} (h : m.All P) (k : κ) {v : α} (hv : P v) :
    (m.insert k v).All P := by
  intro entry hmem
  rcases mem_put hmem with rfl | hmem
  · exact hv
  · exact h entry hmem

theorem All.erase {m : SortedMap κ α} {P : α → Prop} (h : m.All P) (k : κ) : (m.erase k).All P :=
  fun entry hmem => h entry (mem_of_mem_drop hmem)

theorem All.update {m : SortedMap κ α} {P : α → Prop} (h : m.All P) (k : κ) {g : α → α} (hg : ∀ v, P v → P (g v)) :
    (m.update k g).All P := by
  unfold SortedMap.update
  split
  · exact h
  · next v hget => exact h.insert k (hg v (h.of_get? hget))

theorem All.imp {m : SortedMap κ α} {P Q : α → Prop} (h : m.All P) (himp : ∀ v, P v → Q v) : m.All Q :=
  fun entry hmem => himp entry.2 (h entry hmem)

theorem get?_update_of_ne [DecidableEq κ] (m : SortedMap κ α) {k j : κ} (hne : j ≠ k) (g : α → α) :
    (m.update k g).get? j = m.get? j := by
  unfold SortedMap.update
  split
  · rfl
  · rw [get?_insert, if_neg hne]

theorem get?_update_self [DecidableEq κ] (m : SortedMap κ α) (k : κ) (g : α → α) :
    (m.update k g).get? k = (m.get? k).map g := by
  unfold SortedMap.update
  cases hget : m.get? k with
  | none => exact hget
  | some v =>
      dsimp only
      rw [get?_insert, if_pos rfl, Option.map_some]

end CollateralDebt.SortedMap
