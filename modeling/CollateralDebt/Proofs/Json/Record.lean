import CollateralDebt.Json.Basic
import CollateralDebt.Proofs.Amount.Text
import Mathlib.Data.List.Nodup

/-! Reading single values and records. An address, an amount and a count of 64 bits are read back from their JSON. The
fields of an object are found by their names, wherever they stand and whatever else the object holds, as long as no name
that is asked for occurs twice; what is found is what `List.lookup` finds. -/

namespace CollateralDebt

theorem Address.address?_toJson (a : Address) : a.toJson.address? = some a := by
  show (Address.parse a.text).toOption = _
  rw [a.parse_text]
  rfl

theorem Amount.amount?_toJson (a : Amount) : a.toJson.amount? = some a := by
  show (Amount.parse a.text).toOption = _
  rw [a.parse_text]
  rfl

namespace Json

theorem word?_ofNat (n : UInt64) : (ofNat n.toNat).word? = some n := by
  have hcount : (ofNat n.toNat).count? = some n.toNat := by
    rw [ofNat, count?, Digits.text, String.toList_ofList, if_pos (Digits.all_isDigit_ofNat _), Digits.toNat_ofNat]
  rw [word?, hcount]
  dsimp only
  rw [if_pos n.toNat_lt, UInt64.ofNat_toNat]

/-! ## Records -/

variable {name : String} {names : List String} {fields : List (String × Json)}

theorem valuesOf_cons (name : String) (field : String × Json) (fields : List (String × Json)) :
    valuesOf name ((field :: fields).map fun field => (some field.1, field.2)) =
      if field.1 = name then field.2 :: valuesOf name (fields.map fun field => (some field.1, field.2))
      else valuesOf name (fields.map fun field => (some field.1, field.2)) := by
  have hname : (some field.1 == some name) = decide (field.1 = name) := by
    rw [Bool.eq_iff_iff, beq_iff_eq, decide_eq_true_eq, Option.some.injEq]
  unfold valuesOf
  rw [List.map_cons, List.filter_cons, hname]
  split
  · next hsame => rw [if_pos (of_decide_eq_true hsame), List.map_cons]
  · next hother => rw [if_neg (of_decide_eq_false (Bool.eq_false_iff.2 hother))]

theorem valuesOf_eq_nil (h : name ∉ fields.map Prod.fst) :
    valuesOf name (fields.map fun field => (some field.1, field.2)) = [] := by
  induction fields with
  | nil => rfl
  | cons field rest ih =>
      rw [List.map_cons, List.mem_cons, not_or] at h
      rw [valuesOf_cons, if_neg (Ne.symm h.1), ih h.2]

/-- A name that occurs at most once has the value that is found first. -/
theorem valuesOf_eq_lookup (h : (fields.map Prod.fst).count name ≤ 1) :
    valuesOf name (fields.map fun field => (some field.1, field.2)) = (fields.lookup name).toList := by
  induction fields with
  | nil => rfl
  | cons field rest ih =>
      obtain ⟨first, value⟩ := field
      rw [valuesOf_cons, List.lookup_cons]
      rw [List.map_cons, List.count_cons] at h
      by_cases hsame : first = name
      · rw [hsame, beq_self_eq_true, if_pos rfl] at h
        have hnone : name ∉ rest.map Prod.fst := List.count_eq_zero.1 (by omega)
        rw [if_pos hsame, hsame, beq_self_eq_true, valuesOf_eq_nil hnone]
        rfl
      · rw [if_neg hsame, ih (by omega), beq_eq_false_iff_ne.2 (Ne.symm hsame)]

theorem single?_ofFields (h : (fields.map Prod.fst).count name ≤ 1) :
    single? name (fields.map fun field => (some field.1, field.2)) = some (fields.lookup name) := by
  rw [single?, valuesOf_eq_lookup h]
  cases fields.lookup name <;> rfl

/-- **The fields of an object are found by their names**, if none of these occurs twice. -/
theorem record?_ofFields (h : ∀ name ∈ names, (fields.map Prod.fst).count name ≤ 1) :
    record? names (ofFields fields) = some (names.map fun name => fields.lookup name) := by
  have hreadable : (fields.map fun field => (some field.1, field.2)).all (fun field => field.1.isSome) = true := by
    rw [List.all_map, List.all_eq_true]
    exact fun _ _ => rfl
  show (if _ then _ else _) = _
  rw [if_pos hreadable]
  induction names with
  | nil => rfl
  | cons name rest ih =>
      rw [List.mapM_cons, single?_ofFields (h name List.mem_cons_self),
        ih fun name hmem => h name (List.mem_cons_of_mem _ hmem)]
      rfl

theorem map_lookup_self (h : (fields.map Prod.fst).Nodup) :
    (fields.map Prod.fst).map (fun name => fields.lookup name) = fields.map fun field => some field.2 := by
  rw [List.map_map]
  refine List.map_congr_left fun field hmem => ?_
  induction fields with
  | nil => cases hmem
  | cons first rest ih =>
      rw [List.map_cons, List.nodup_cons] at h
      show List.lookup field.1 (first :: rest) = _
      rw [List.lookup_cons]
      rcases List.mem_cons.1 hmem with rfl | hmem
      · rw [beq_self_eq_true]
      · have hne : field.1 ≠ first.1 := fun hsame => h.1 (hsame ▸ List.mem_map_of_mem hmem)
        rw [beq_eq_false_iff_ne.2 hne]
        exact ih h.2 hmem

/-- A record that was written is read with all its fields. -/
theorem record?_own (hnames : fields.map Prod.fst = names) (hdistinct : names.Nodup) :
    record? names (ofFields fields) = some (fields.map fun field => some field.2) := by
  subst hnames
  rw [record?_ofFields fun name _ => List.nodup_iff_count_le_one.1 hdistinct name, map_lookup_self hdistinct]

end Json

end CollateralDebt
