import CollateralDebt.Proofs.Json.Reading

/-! Every JSON text that is written is read back, on one line or on several. The two ways of writing differ in white space
only: items and fields are written one by one with commas between them (`intercalate`), and each of them is a part that is
read in front of whatever comes next. Numbers are the counts that this library writes. -/

namespace CollateralDebt.Json

/-- A value whose numbers are counts. -/
inductive Plain : Json → Prop where
  | null : Plain null
  | bool (b : Bool) : Plain (bool b)
  | count (n : Nat) : Plain (ofNat n)
  | text (text : Option String) : Plain (string text)
  | array {items : List Json} (h : ∀ item ∈ items, Plain item) : Plain (array items)
  | object {fields : List (Option String × Json)} (h : ∀ field ∈ fields, Plain field.2) : Plain (object fields)

theorem plain_ofText (s : String) : Plain (ofText s) := .text (some s)

theorem plain_ofFields {fields : List (String × Json)} (h : ∀ field ∈ fields, Plain field.2) : Plain (ofFields fields) := by
  refine .object fun field hmem => ?_
  obtain ⟨named, hnamed, rfl⟩ := List.mem_map.1 hmem
  exact h named hnamed

variable {j : Json} {items : List Json} {fields : List (Option String × Json)}

/-! ## Lists with commas between their parts -/

/-- If one part is read with the close after it, and one more with a comma after it, then parts are read with commas
between them. -/
theorem reads_intercalate {α : Type} {readsPart : List Char → α → Prop} {readsRest : List Char → List α → Prop}
    {part : α → List Char} {close : List Char} (hlast : ∀ text x, readsPart text x → readsRest (text ++ close) [x])
    (hmore : ∀ text x more rest, readsPart text x → readsRest more rest → readsRest (text ++ ',' :: more) (x :: rest))
    {parts : List α} (h : ∀ x ∈ parts, readsPart (part x) x) (hsome : parts ≠ []) :
    readsRest ([','].intercalate (parts.map part) ++ close) parts := by
  induction parts with
  | nil => exact absurd rfl hsome
  | cons x rest ih =>
      have hfirst := h x List.mem_cons_self
      cases rest with
      | nil =>
          rw [List.map_singleton, List.intercalate_singleton]
          exact hlast _ _ hfirst
      | cons next rest =>
          have hthen := ih (fun y hmem => h y (List.mem_cons_of_mem _ hmem)) (List.cons_ne_nil _ _)
          rw [List.map_cons, List.map_cons, List.intercalate_cons_cons, List.append_assoc, List.append_assoc,
            List.singleton_append]
          exact hmore _ _ _ _ hfirst hthen

theorem readsItems_intercalate {part : Json → List Char} {spaces : List Char} (hspaces : spaces.all isSpace = true)
    (h : ∀ item ∈ items, Reads (part item) item) (hsome : items ≠ []) :
    ReadsItems ([','].intercalate (items.map part) ++ (spaces ++ [']'])) items :=
  reads_intercalate (fun _ _ hitem => readsItems_last hitem hspaces) (fun _ _ _ _ => readsItems_cons) h hsome

theorem readsFields_intercalate {part : Option String × Json → List Char} {spaces : List Char}
    (hspaces : spaces.all isSpace = true) (h : ∀ field ∈ fields, ReadsField (part field) field) (hsome : fields ≠ []) :
    ReadsFields ([','].intercalate (fields.map part) ++ (spaces ++ ['\x7d'])) fields :=
  reads_intercalate (fun _ _ hfield => readsFields_last hfield hspaces) (fun _ _ _ _ => readsFields_cons) h hsome

/-- What is written part by part, with a comma before each but the first, is the parts with commas between them. -/
theorem eq_intercalate {α : Type} {join : List α → List Char} {part : α → List Char} (hnone : join [] = [])
    (hone : ∀ x, join [x] = part x) (hmore : ∀ x next rest, join (x :: next :: rest) = part x ++ ',' :: join (next :: rest))
    (parts : List α) : join parts = [','].intercalate (parts.map part) := by
  induction parts with
  | nil => exact hnone
  | cons x rest ih =>
      cases rest with
      | nil => rw [hone, List.map_singleton, List.intercalate_singleton]
      | cons next rest =>
          rw [hmore, ih, List.map_cons, List.map_cons, List.map_cons, List.intercalate_cons_cons, List.append_assoc,
            List.singleton_append]

/-! ## On one line -/

theorem writeItems_eq (items : List Json) : write.writeItems items = [','].intercalate (items.map write) := by
  refine eq_intercalate ?_ (fun item => ?_) (fun item next rest => ?_) items <;> rw [write.writeItems]

/-- A field on one line. -/
def writeField (field : Option String × Json) : List Char := writeText field.1 ++ ':' :: write field.2

theorem writeFields_eq (fields : List (Option String × Json)) :
    write.writeFields fields = [','].intercalate (fields.map writeField) := by
  refine eq_intercalate ?_ (fun field => ?_) (fun field next rest => ?_) fields <;> rw [write.writeFields]
  · rfl
  · rw [List.append_assoc, writeField, List.append_assoc]

theorem Plain.reads_write (h : j.Plain) : Reads j.write j := by
  have hnone : [].all isSpace = true := rfl
  induction h with
  | null => exact reads_null
  | bool b => exact reads_bool b
  | count n =>
      rw [ofNat, write, Digits.text, String.toList_ofList]
      exact reads_ofNat n
  | text text =>
      rw [write]
      exact reads_text text
  | @array items _ ih =>
      rw [write, writeItems_eq]
      by_cases hempty : items = []
      · rw [hempty]
        exact reads_array_nil
      · exact reads_array (readsItems_intercalate hnone ih hempty)
  | @object fields _ ih =>
      rw [write, writeFields_eq]
      by_cases hempty : fields = []
      · rw [hempty]
        exact reads_object_nil
      · exact reads_object (readsFields_intercalate hnone (fun field hmem => ⟨[], _, rfl, ih field hmem, rfl⟩) hempty)

/-! ## On several lines -/

theorem newLine_isSpace (depth : Nat) : (newLine depth).all isSpace = true := by
  have hspace : isSpace ' ' = true := rfl
  rw [newLine, List.all_cons, List.all_replicate, hspace, ite_self]
  rfl

/-- An item on a line of its own. -/
def spreadItem (depth : Nat) (item : Json) : List Char := newLine (depth + 1) ++ spread (depth + 1) item

theorem spreadItems_eq (depth : Nat) (items : List Json) :
    spread.spreadItems depth items = [','].intercalate (items.map (spreadItem depth)) := by
  refine eq_intercalate ?_ (fun item => ?_) (fun item next rest => ?_) items <;> rw [spread.spreadItems] <;> rfl

/-- A field on a line of its own. -/
def spreadField (depth : Nat) (field : Option String × Json) : List Char :=
  newLine (depth + 1) ++ (writeText field.1 ++ ':' :: ' ' :: spread (depth + 1) field.2)

theorem spreadFields_eq (depth : Nat) (fields : List (Option String × Json)) :
    spread.spreadFields depth fields = [','].intercalate (fields.map (spreadField depth)) := by
  refine eq_intercalate ?_ (fun field => ?_) (fun field next rest => ?_) fields <;> rw [spread.spreadFields]
  · rw [List.append_assoc]
    rfl
  · rw [List.append_assoc, List.append_assoc, spreadField, List.append_assoc, List.append_assoc]

theorem Plain.reads_spread (h : j.Plain) (depth : Nat) : Reads (j.spread depth) j := by
  induction h generalizing depth with
  | null => exact reads_null
  | bool b =>
      cases b with
      | true => exact reads_bool true
      | false => exact reads_bool false
  | count n =>
      rw [ofNat, spread, Digits.text, String.toList_ofList]
      exact reads_ofNat n
  | text text =>
      rw [spread]
      exact reads_text text
  | @array items _ ih =>
      cases items with
      | nil => exact reads_array_nil
      | cons item rest =>
          show Reads ('[' :: (spread.spreadItems depth (item :: rest) ++ newLine depth ++ [']'])) _
          rw [spreadItems_eq, List.append_assoc]
          refine reads_array (readsItems_intercalate (newLine_isSpace depth) (fun item hmem => ?_) (List.cons_ne_nil _ _))
          exact (ih item hmem (depth + 1)).spaced (newLine_isSpace (depth + 1))
  | @object fields _ ih =>
      cases fields with
      | nil => exact reads_object_nil
      | cons field rest =>
          show Reads ('\x7b' :: (spread.spreadFields depth (field :: rest) ++ newLine depth ++ ['\x7d'])) _
          rw [spreadFields_eq, List.append_assoc]
          refine reads_object (readsFields_intercalate (newLine_isSpace depth) (fun field hmem => ?_) (List.cons_ne_nil _ _))
          have hvalue : Reads ([' '] ++ spread (depth + 1) field.2) field.2 := (ih field hmem (depth + 1)).spaced rfl
          exact ⟨newLine (depth + 1), _, newLine_isSpace (depth + 1), hvalue, rfl⟩

/-! ## Whole texts -/

/-- **What is written on one line is read back**, with white space around it. -/
theorem Plain.parse_compact {before after : String} (h : j.Plain) (hbefore : before.toList.all isSpace = true)
    (hafter : after.toList.all isSpace = true) : parse (before ++ j.compact ++ after) = some j := by
  have hparsed := h.reads_write.parse hbefore hafter
  rwa [String.ofList_append, String.ofList_append, String.ofList_toList, String.ofList_toList] at hparsed

/-- **What is written on several lines is read back.** -/
theorem Plain.parse_pretty (h : j.Plain) : parse j.pretty = some j := by
  have hnone : [].all isSpace = true := rfl
  have hparsed := (h.reads_spread 0).parse hnone hnone
  rwa [List.nil_append, List.append_nil] at hparsed

end CollateralDebt.Json
