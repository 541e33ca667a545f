/-!
Finite maps kept as a list of entries in strictly increasing order of their keys. A map is determined by its
entries, so equal maps are equal lists, and a sum over a map is a sum over a list. The main statements say what
`insert` and `erase` do to `get?`.
-/

namespace CollateralDebt

/-- Keys with a strict total order that can be decided. -/
class Key (κ : Type) extends LT κ where
  decidableLT : DecidableLT κ
  irrefl : ∀ a : κ, ¬a < a
  trans : ∀ {a b c : κ}, a < b → b < c → a < c
  /-- Two keys of which neither comes first are equal. -/
  eq_of_not_lt : ∀ {a b : κ}, ¬a < b → ¬b < a → a = b

instance Key.instDecidableLT {κ : Type} [Key κ] : DecidableLT κ := Key.decidableLT

/-- A map from keys to values. -/
structure SortedMap (κ α : Type) [Key κ] where
  entries : List (κ × α)
  /-- Keys increase from each entry to all that follow it. -/
  sorted : entries.Pairwise fun a b => a.1 < b.1

namespace SortedMap

variable {κ α : Type} [Key κ]

instance [DecidableEq κ] [DecidableEq α] : DecidableEq (SortedMap κ α) := fun m n =>
  decidable_of_iff (m.entries = n.entries) (by cases m; cases n; simp)

def empty : SortedMap κ α := ⟨[], List.Pairwise.nil⟩

instance : Inhabited (SortedMap κ α) := ⟨empty⟩

/-- The value at a key in a list of entries in order. -/
def find (k : κ) : List (κ × α) → Option α
  | [] => none
  | entry :: rest => if k < entry.1 then none else if entry.1 < k then find k rest else some entry.2

/-- A list of entries in order with a value put at a key. -/
def put (k : κ) (v : α) : List (κ × α) → List (κ × α)
  | [] => [(k, v)]
  | entry :: rest =>
      if k < entry.1 then (k, v) :: entry :: rest
      else if entry.1 < k then entry :: put k v rest
      else (k, v) :: rest

/-- A list of entries in order without the one at a key. -/
def drop (k : κ) : List (κ × α) → List (κ × α)
  | [] => []
  | entry :: rest =>
      if k < entry.1 then entry :: rest else if entry.1 < k then entry :: drop k rest else rest

theorem mem_put {k : κ} {v : α} {entry : κ × α} {entries : List (κ × α)} (h : entry ∈ put k v entries) :
    entry = (k, v) ∨ entry ∈ entries := by
  induction entries with
  | nil => simpa [put] using h
  | cons first rest ih =>
      rw [put] at h
      split at h
      · simpa using h
      · split at h
        · rcases List.mem_cons.1 h with h | h
          · exact Or.inr (List.mem_cons.2 (Or.inl h))
          · exact (ih h).imp id (List.mem_cons_of_mem _)
        · rcases List.mem_cons.1 h with h | h
          · exact Or.inl h
          · exact Or.inr (List.mem_cons_of_mem _ h)

theorem mem_of_mem_drop {k : κ} {entry : κ × α} {entries : List (κ × α)} (h : entry ∈ drop k entries) :
    entry ∈ entries := by
  induction entries with
  | nil => simp [drop] at h
  | cons first rest ih =>
      rw [drop] at h
      split at h
      · exact h
      · split at h
        · rcases List.mem_cons.1 h with h | h
          · exact List.mem_cons.2 (Or.inl h)
          · exact List.mem_cons_of_mem _ (ih h)
        · exact List.mem_cons_of_mem _ h

theorem sorted_put (k : κ) (v : α) {entries : List (κ × α)} (h : entries.Pairwise fun a b => a.1 < b.1) :
    (put k v entries).Pairwise fun a b => a.1 < b.1 := by
  induction entries with
  | nil => simp [put]
  | cons first rest ih =>
      obtain ⟨habove, htail⟩ := List.pairwise_cons.1 h
      rw [put]
      split
      · next hbefore =>
          refine List.pairwise_cons.2 ⟨fun entry hmem => ?_, h⟩
          rcases List.mem_cons.1 hmem with rfl | hmem
          · exact hbefore
          · exact Key.trans hbefore (habove entry hmem)
      · split
        · next hafter =>
            refine List.pairwise_cons.2 ⟨fun entry hmem => ?_, ih htail⟩
            rcases mem_put hmem with rfl | hmem
            · exact hafter
            · exact habove entry hmem
        · next hnotBefore hnotAfter =>
            have hsame : k = first.1 := Key.eq_of_not_lt hnotBefore hnotAfter
            exact List.pairwise_cons.2 ⟨fun entry hmem => hsame ▸ habove entry hmem, htail⟩

theorem sorted_drop (k : κ) {entries : List (κ × α)} (h : entries.Pairwise fun a b => a.1 < b.1) :
    (drop k entries).Pairwise fun a b => a.1 < b.1 := by
  induction entries with
  | nil => simp [drop]
  | cons first rest ih =>
      obtain ⟨habove, htail⟩ := List.pairwise_cons.1 h
      rw [drop]
      split
      · exact h
      · split
        · exact List.pairwise_cons.2 ⟨fun entry hmem => habove entry (mem_of_mem_drop hmem), ih htail⟩
        · exact htail

def get? (m : SortedMap κ α) (k : κ) : Option α := find k m.entries

def contains (m : SortedMap κ α) (k : κ) : Bool := (m.get? k).isSome

/-- The map with a value put at a key, in place of the one that may be there. -/
def insert (m : SortedMap κ α) (k : κ) (v : α) : SortedMap κ α := ⟨put k v m.entries, sorted_put k v m.sorted⟩

def erase (m : SortedMap κ α) (k : κ) : SortedMap κ α := ⟨drop k m.entries, sorted_drop k m.sorted⟩

/-- The map with the value at a key changed, if there is one. -/
def update (m : SortedMap κ α) (k : κ) (f : α → α) : SortedMap κ α :=
  match m.get? k with
  | none => m
  | some v => m.insert k (f v)

def size (m : SortedMap κ α) : Nat := m.entries.length

/-- The map of a list of entries in any order; the last of those with one key counts. -/
def ofList (entries : List (κ × α)) : SortedMap κ α :=
  entries.foldl (fun m entry => m.insert entry.1 entry.2) empty

@[ext] theorem ext {m n : SortedMap κ α} (h : m.entries = n.entries) : m = n := by
  cases m; cases n; simpa using h

theorem find_cons_self (entry : κ × α) (rest : List (κ × α)) : find entry.1 (entry :: rest) = some entry.2 := by
  rw [find, if_neg (Key.irrefl _), if_neg (Key.irrefl _)]

theorem find_cons_of_ne {k : κ} (entry : κ × α) (rest : List (κ × α)) (hne : k ≠ entry.1) :
    find k (entry :: rest) = if k < entry.1 then none else find k rest := by
  rw [find]
  split
  · rfl
  · next hnotBefore =>
      split
      · rfl
      · next hnotAfter => exact absurd (Key.eq_of_not_lt hnotBefore hnotAfter) hne

theorem find_put (k j : κ) (v : α) (entries : List (κ × α)) [DecidableEq κ] :
    find j (put k v entries) = if j = k then some v else find j entries := by
  induction entries with
  | nil =>
      rw [put]
      by_cases hsame : j = k
      · rw [if_pos hsame, hsame]
        exact find_cons_self (k, v) []
      · rw [if_neg hsame, find_cons_of_ne (k, v) [] hsame, find, ite_self]
  | cons first rest ih =>
      rw [put]
      split
      · next hbefore =>
          by_cases hsame : j = k
          · rw [if_pos hsame, hsame]
            exact find_cons_self (k, v) (first :: rest)
          · rw [if_neg hsame, find_cons_of_ne (k, v) (first :: rest) hsame]
            split
            · next hbelow => rw [find, if_pos (Key.trans hbelow hbefore)]
            · rfl
      · split
        · next hnotBefore hafter =>
            by_cases hsame : j = k
            · subst hsame
              rw [find, ih, if_pos rfl, if_pos rfl, if_neg hnotBefore, if_pos hafter]
            · rw [find, ih, if_neg hsame, if_neg hsame, find]
        · next hnotBefore hnotAfter =>
            have hfirst : k = first.1 := Key.eq_of_not_lt hnotBefore hnotAfter
            by_cases hsame : j = k
            · rw [if_pos hsame, hsame]
              exact find_cons_self (k, v) rest
            · rw [if_neg hsame, find_cons_of_ne (k, v) rest hsame, find_cons_of_ne first rest (hfirst ▸ hsame), hfirst]

/-- A value put at a key is read there, and all other keys read as before. -/
theorem get?_insert [DecidableEq κ] (m : SortedMap κ α) (k j : κ) (v : α) :
    (m.insert k v).get? j = if j = k then some v else m.get? j :=
  find_put k j v m.entries

theorem find_eq_none_of_above {k : κ} {entries : List (κ × α)} (h : ∀ entry ∈ entries, k < entry.1) :
    find k entries = none := by
  cases entries with
  | nil => rfl
  | cons first rest => rw [find, if_pos (h first List.mem_cons_self)]

theorem find_drop (k j : κ) (entries : List (κ × α)) (h : entries.Pairwise fun a b => a.1 < b.1)
    [DecidableEq κ] : find j (drop k entries) = if j = k then none else find j entries := by
  induction entries with
  | nil => simp [drop, find]
  | cons first rest ih =>
      obtain ⟨habove, htail⟩ := List.pairwise_cons.1 h
      rw [drop]
      split
      · next hbefore =>
          by_cases hsame : j = k
          · rw [if_pos hsame, hsame, find, if_pos hbefore]
          · rw [if_neg hsame]
      · split
        · next hnotBefore hafter =>
            by_cases hsame : j = k
            · subst hsame
              rw [find, if_neg hnotBefore, if_pos hafter, ih htail, if_pos rfl, if_pos rfl]
            · rw [find, ih htail, if_neg hsame, if_neg hsame, find]
        · next hnotBefore hnotAfter =>
            have hfirst : k = first.1 := Key.eq_of_not_lt hnotBefore hnotAfter
            by_cases hsame : j = k
            · rw [if_pos hsame, hsame, hfirst]
              exact find_eq_none_of_above habove
            · rw [if_neg hsame, find_cons_of_ne first rest (hfirst ▸ hsame)]
              split
              · next hbelow => exact find_eq_none_of_above fun entry hmem => Key.trans hbelow (habove entry hmem)
              · rfl

/-- A key that is erased has no value, and all other keys read as before. -/
theorem get?_erase [DecidableEq κ] (m : SortedMap κ α) (k j : κ) :
    (m.erase k).get? j = if j = k then none else m.get? j :=
  find_drop k j m.entries m.sorted

theorem length_put (k : κ) (v : α) (entries : List (κ × α)) :
    (put k v entries).length ≤ entries.length + 1 := by
  induction entries with
  | nil => simp [put]
  | cons first rest ih =>
      rw [put]
      split
      · simp
      · split
        · simpa using ih
        · simp

theorem entries_foldl_insert (entries : List (κ × α)) (m : SortedMap κ α) :
    let all := (entries.foldl (fun m entry => m.insert entry.1 entry.2) m).entries
    all.length ≤ m.entries.length + entries.length ∧ ∀ entry ∈ all, entry ∈ m.entries ∨ entry ∈ entries := by
  induction entries generalizing m with
  | nil => simp
  | cons first rest ih =>
      obtain ⟨hlength, hall⟩ := ih (m.insert first.1 first.2)
      have hput := length_put first.1 first.2 m.entries
      simp only [insert, List.foldl_cons, List.length_cons] at hlength hall hput ⊢
      refine ⟨by omega, fun entry hmem => ?_⟩
      rcases hall entry hmem with hmem | hmem
      · rcases mem_put hmem with rfl | hmem
        · exact Or.inr List.mem_cons_self
        · exact Or.inl hmem
      · exact Or.inr (List.mem_cons_of_mem _ hmem)

theorem put_eq_append {k : κ} (v : α) {entries : List (κ × α)} (h : ∀ entry ∈ entries, entry.1 < k) :
    put k v entries = entries ++ [(k, v)] := by
  induction entries with
  | nil => rfl
  | cons first rest ih =>
      have hfirst := h first List.mem_cons_self
      rw [put, if_neg fun hbefore => Key.irrefl _ (Key.trans hfirst hbefore), if_pos hfirst,
        ih fun entry hmem => h entry (List.mem_cons_of_mem _ hmem), List.cons_append]

theorem foldl_insert_sorted (entries : List (κ × α)) (m : SortedMap κ α)
    (hsorted : (m.entries ++ entries).Pairwise fun a b => a.1 < b.1) :
    (entries.foldl (fun m entry => m.insert entry.1 entry.2) m).entries = m.entries ++ entries := by
  induction entries generalizing m with
  | nil => simp
  | cons first rest ih =>
      have hbelow : ∀ entry ∈ m.entries, entry.1 < first.1 := fun entry hmem =>
        (List.pairwise_append.1 hsorted).2.2 entry hmem first List.mem_cons_self
      have hinsert : (m.insert first.1 first.2).entries = m.entries ++ [first] := put_eq_append first.2 hbelow
      rw [List.foldl_cons, ih, hinsert, List.append_assoc, List.singleton_append]
      rw [hinsert, List.append_assoc, List.singleton_append]
      exact hsorted

/-- A map is the map of its entries. -/
theorem ofList_entries (m : SortedMap κ α) : ofList m.entries = m :=
  SortedMap.ext (by
    rw [ofList, foldl_insert_sorted _ _ (by simpa [empty] using m.sorted)]
    simp [empty])

end SortedMap

end CollateralDebt
