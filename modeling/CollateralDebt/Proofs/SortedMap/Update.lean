import CollateralDebt.Proofs.SortedMap.Total
import Mathlib.Data.List.Sort

/-! Changes of values in place. Two maps that read the same at every key are one map, so that a law about changes
is one about what is read: changes at one key are one change, changes at two keys can be made in either order, and
what is put at a key forgets what was changed there. -/

namespace CollateralDebt.SortedMap

variable {κ α : Type} [Key κ]

/-- A map is what is read at its keys. -/
theorem ext_get? {m n : SortedMap κ α} (h : ∀ k, m.get? k = n.get? k) : m = n := by
  have : Std.Irrefl fun a b : κ × α => a.1 < b.1 := ⟨fun a => Key.irrefl a.1⟩
  have : Std.Antisymm fun a b : κ × α => a.1 < b.1 :=
    ⟨fun _ _ hbefore hafter => absurd (Key.trans hbefore hafter) (Key.irrefl _)⟩
  refine ext (m.sorted.eq_of_mem_iff n.sorted fun entry => ?_)
  rw [mem_entries_iff, mem_entries_iff, h]

variable [DecidableEq κ] {k j : κ} {f g : α → α}

theorem get?_update (m : SortedMap κ α) (k j : κ) (g : α → α) :
    (m.update k g).get? j = if j = k then (m.get? j).map g else m.get? j := by
  split
  · next hsame => rw [hsame, get?_update_self]
  · next hne => exact get?_update_of_ne m hne g

theorem update_update (m : SortedMap κ α) (k : κ) (f g : α → α) :
    (m.update k f).update k g = m.update k fun v => g (f v) := by
  refine ext_get? fun j => ?_
  rw [get?_update, get?_update, get?_update]
  split
  · rw [Option.map_map]
    rfl
  · rfl

/-- Two changes can be made in either order, unless they are at one key and the order matters there. -/
theorem update_comm (m : SortedMap κ α) (h : k = j → ∀ v, f (g v) = g (f v)) :
    (m.update k f).update j g = (m.update j g).update k f := by
  refine ext_get? fun i => ?_
  rw [get?_update, get?_update, get?_update, get?_update]
  by_cases hk : i = k
  · by_cases hj : i = j
    · rw [if_pos hj, if_pos hk, if_pos hk, if_pos hj, Option.map_map, Option.map_map]
      congr 1
      funext v
      exact (h (hk.symm.trans hj) v).symm
    · rw [if_neg hj, if_pos hk, if_pos hk, if_neg hj]
  · rw [if_neg hk, if_neg hk]

theorem insert_update (m : SortedMap κ α) (k : κ) (g : α → α) (v : α) : (m.update k g).insert k v = m.insert k v := by
  refine ext_get? fun j => ?_
  rw [get?_insert, get?_insert]
  split
  · rfl
  · next hne => exact get?_update_of_ne m hne g

end CollateralDebt.SortedMap
