import CollateralDebt.Json.Parser
import CollateralDebt.Json.Printer
import CollateralDebt.Proofs.Text

/-! Reading the parts of a JSON text. A part is read as a value if it is so in front of anything that a number does not go
on with, as soon as there are two steps for each of its characters (`Reads`); the rest of an array or an object is read
likewise, with its closing bracket (`ReadsItems`, `ReadsFields`). White space in front changes nothing, quoted texts and
counts are read back as they are written, and parts of an array or an object make up a part, so that nothing else about the
reader is needed to see that what is written is read. -/

namespace CollateralDebt

namespace Json

/-! ## White space -/

/-- Nothing follows that a number could go on with. -/
def Stops (rest : List Char) : Prop :=
  ∀ c ∈ rest.head?, c.isDigit = false ∧ c ≠ '.' ∧ c ≠ 'e' ∧ c ≠ 'E'

variable {spaces text rest more : List Char} {j : Json} {items : List Json} {fields : List (Option String × Json)}
  {steps : Nat}

theorem stops_nil : Stops [] := fun _ h => (nomatch h)

theorem stops_cons {c : Char} (h : c.isDigit = false ∧ c ≠ '.' ∧ c ≠ 'e' ∧ c ≠ 'E') : Stops (c :: rest) := by
  intro d hd
  cases hd
  exact h

theorem stops_of_isSpace {c : Char} (h : isSpace c = true) : c.isDigit = false ∧ c ≠ '.' ∧ c ≠ 'e' ∧ c ≠ 'E' := by
  simp only [isSpace, Bool.or_eq_true, decide_eq_true_eq] at h
  rcases h with ((rfl | rfl) | rfl) | rfl <;> decide

theorem stops_append (hspaces : spaces.all isSpace = true) (h : Stops rest) : Stops (spaces ++ rest) := by
  cases spaces with
  | nil => exact h
  | cons c spaces =>
      rw [List.all_cons, Bool.and_eq_true] at hspaces
      exact stops_cons (stops_of_isSpace hspaces.1)

theorem skipSpace_append (hspaces : spaces.all isSpace = true) (rest : List Char) :
    skipSpace (spaces ++ rest) = skipSpace rest :=
  List.dropWhile_append_of_pos fun c hmem => List.all_eq_true.1 hspaces c hmem

theorem skipSpace_cons {c : Char} (h : isSpace c = false) (rest : List Char) : skipSpace (c :: rest) = c :: rest := by
  rw [skipSpace, List.dropWhile_cons, if_neg (by rw [h]; exact Bool.false_ne_true)]

theorem skipSpace_skipSpace (text : List Char) : skipSpace (skipSpace text) = skipSpace text := by
  induction text with
  | nil => rfl
  | cons c text ih =>
      cases h : isSpace c with
      | true =>
          have hskip : skipSpace (c :: text) = skipSpace text := List.dropWhile_cons_of_pos h
          rw [hskip, ih]
      | false => rw [skipSpace_cons h, skipSpace_cons h]

theorem readValue_skipSpace (steps : Nat) (text : List Char) : readValue steps (skipSpace text) = readValue steps text := by
  cases steps with
  | zero => rfl
  | succ steps => rw [readValue, readValue, skipSpace_skipSpace]

theorem readItems_skipSpace (steps : Nat) (text : List Char) : readItems steps (skipSpace text) = readItems steps text := by
  cases steps with
  | zero => rfl
  | succ steps => rw [readItems, readItems, readValue_skipSpace]

theorem readFields_skipSpace (steps : Nat) (text : List Char) :
    readFields steps (skipSpace text) = readFields steps text := by
  cases steps with
  | zero => rfl
  | succ steps => rw [readFields, readFields, skipSpace_skipSpace]

theorem readValue_of_skipSpace_eq {text' : List Char} (h : skipSpace text = skipSpace text') (steps : Nat) :
    readValue steps text = readValue steps text' := by
  rw [← readValue_skipSpace, h, readValue_skipSpace]

/-! ## Parts of a text -/

/-- A part of a text is read as a value, in front of all that a number does not go on with. -/
def Reads (text : List Char) (j : Json) : Prop :=
  ∀ steps rest, 2 * text.length ≤ steps → Stops rest → readValue steps (text ++ rest) = some (j, rest)

/-- A part of a text is read as the rest of an array. -/
def ReadsItems (text : List Char) (items : List Json) : Prop :=
  ∀ steps rest, 2 * text.length ≤ steps → readItems steps (text ++ rest) = some (items, rest)

/-- A part of a text is read as the rest of an object. -/
def ReadsFields (text : List Char) (fields : List (Option String × Json)) : Prop :=
  ∀ steps rest, 2 * text.length ≤ steps → readFields steps (text ++ rest) = some (fields, rest)

theorem Reads.spaced (h : Reads text j) (hspaces : spaces.all isSpace = true) : Reads (spaces ++ text) j := by
  intro steps rest hsteps hstops
  rw [List.length_append] at hsteps
  rw [List.append_assoc, readValue_of_skipSpace_eq (skipSpace_append hspaces _)]
  exact h steps rest (by omega) hstops

/-! ## Quoted texts -/

/-- The piece that a written character is read as: a unit for controls without a short escape. -/
def pieceOf (c : Char) : Piece :=
  if c.toNat < 32 ∧ c ≠ '\x08' ∧ c ≠ '\x0c' ∧ c ≠ '\n' ∧ c ≠ '\r' ∧ c ≠ '\t' then .unit c.toNat else .char c

theorem unitOfDigits_digit {n : Nat} (h : n < 32) :
    unitOfDigits '0' '0' (Hex.digit (n / 16)) (Hex.digit (n % 16)) = some n := by
  have hzero : Hex.value? '0'.toNat = some 0 := by decide
  unfold unitOfDigits
  rw [hzero, Hex.value?_digit (by omega), Hex.value?_digit (by omega)]
  show some (4096 * 0 + 256 * 0 + 16 * (n / 16) + n % 16) = some n
  congr 1
  omega

theorem pieces_of_plain {c : Char} (hquote : c ≠ '\x22') (hescape : c ≠ '\x5c') (hprinted : ¬c.toNat < 32)
    (before : List Piece) (rest : List Char) : pieces before (c :: rest) = pieces (.char c :: before) rest := by
  rw [pieces.eq_def]
  split
  · next h => cases h
  · next h => exact absurd (List.cons.inj h).1 hquote
  · next h => exact absurd (List.cons.inj h).1 hescape
  · next h => exact absurd (List.cons.inj h).1 hescape
  · next h =>
      obtain ⟨rfl, rfl⟩ := List.cons.inj h
      rw [if_neg hprinted]

/-- What a character is written as is read as one piece. -/
theorem pieces_escape (c : Char) (before : List Piece) (rest : List Char) :
    pieces before (escape c ++ rest) = pieces (pieceOf c :: before) rest := by
  unfold escape pieceOf
  split
  · next h => subst h; rfl
  split
  · next h => subst h; rfl
  split
  · next h => subst h; rfl
  split
  · next h => subst h; rfl
  split
  · next h => subst h; rfl
  split
  · next h => subst h; rfl
  split
  · next h => subst h; rfl
  next hquote hescape hb hf hn hr ht =>
  split
  · next hcontrol =>
      rw [if_pos ⟨hcontrol, hb, hf, hn, hr, ht⟩]
      simp only [List.cons_append, List.nil_append, pieces, unitOfDigits_digit hcontrol]
  · next hprinted =>
      rw [if_neg fun h => hprinted h.1]
      exact pieces_of_plain hquote hescape hprinted before rest

theorem pieces_flatMap_escape (text : List Char) (before : List Piece) (rest : List Char) :
    pieces before (text.flatMap escape ++ '\x22' :: rest) = some (before.reverse ++ text.map pieceOf, rest) := by
  induction text generalizing before with
  | nil =>
      rw [List.flatMap_nil, List.nil_append, pieces, List.map_nil, List.append_nil]
  | cons c text ih =>
      rw [List.flatMap_cons, List.append_assoc, pieces_escape, ih, List.reverse_cons, List.append_assoc, List.map_cons]
      rfl

/-- A control given by its number stands for itself. -/
theorem assemble_unit {n : Nat} (h : n < 32) (found : List Piece) :
    assemble (.unit n :: found) = (assemble found).map (Char.ofNat n :: ·) := by
  have hlow : isLowSurrogate n = false := by
    rw [isLowSurrogate, Bool.and_eq_false_iff, decide_eq_false_iff_not]
    exact .inl (by omega)
  have hhigh : isHighSurrogate n = false := by
    rw [isHighSurrogate, Bool.and_eq_false_iff, decide_eq_false_iff_not]
    exact .inl (by omega)
  rw [assemble.eq_def]
  dsimp only
  rw [hlow, hhigh]
  rfl

theorem assemble_map_pieceOf (text : List Char) : assemble (text.map pieceOf) = some text := by
  induction text with
  | nil => rfl
  | cons c text ih =>
      rw [List.map_cons, pieceOf]
      split
      · next hcontrol =>
          rw [assemble_unit hcontrol.1, ih, Char.ofNat_toNat]
          rfl
      · rw [assemble, ih]
        rfl

/-- **A quoted text is read back**, also one that names half of a surrogate pair. -/
theorem readText_writeText (text : Option String) :
    ∃ quoted, writeText text = '\x22' :: quoted ∧ ∀ rest, readText (quoted ++ rest) = some (text, rest) := by
  cases text with
  | none => exact ⟨_, rfl, fun _ => rfl⟩
  | some text =>
      refine ⟨text.toList.flatMap escape ++ ['\x22'], rfl, fun rest => ?_⟩
      rw [List.append_assoc, List.singleton_append, readText, pieces_flatMap_escape]
      dsimp only
      rw [List.reverse_nil, List.nil_append, assemble_map_pieceOf, Option.map_some, String.ofList_toList]

/-! ## Numbers -/

theorem Stops.takeWhile_isDigit (h : Stops rest) : rest.takeWhile Char.isDigit = [] := by
  cases rest with
  | nil => rfl
  | cons c rest => rw [List.takeWhile_cons, (h c rfl).1, if_neg Bool.false_ne_true]

theorem Stops.dropWhile_isDigit (h : Stops rest) : rest.dropWhile Char.isDigit = rest := by
  cases rest with
  | nil => rfl
  | cons c rest => rw [List.dropWhile_cons, (h c rfl).1, if_neg Bool.false_ne_true]

theorem someDigits_append {row : List Char} (hdigits : ∀ c ∈ row, c.isDigit = true) (hsome : row ≠ []) (h : Stops rest) :
    someDigits (row ++ rest) = some (row, rest) := by
  rw [someDigits, List.takeWhile_append_of_pos hdigits, List.dropWhile_append_of_pos hdigits, h.takeWhile_isDigit,
    h.dropWhile_isDigit, List.append_nil, if_neg]
  rwa [List.isEmpty_iff]

theorem wholePart_ofNat (n : Nat) (h : Stops rest) : wholePart (Digits.ofNat n ++ rest) = some (Digits.ofNat n, rest) := by
  by_cases hzero : n = 0
  · have hwritten : Digits.ofNat 0 = ['0'] := by rw [Digits.ofNat]; rfl
    rw [hzero, hwritten]
    rfl
  · have hfront := Digits.head?_ofNat_ne (Nat.pos_of_ne_zero hzero)
    rw [← someDigits_append (fun _ => Digits.isDigit_of_mem_ofNat) (Digits.ofNat_ne_nil n) h, wholePart.eq_def]
    split
    · next hsame =>
        -- A row that starts with a zero would be read as that zero alone.
        rw [← List.head?_append_of_ne_nil _ (Digits.ofNat_ne_nil n), hsame] at hfront
        exact absurd rfl hfront
    · rfl

theorem Stops.placesPart (h : Stops rest) : placesPart rest = some ([], rest) := by
  rw [Json.placesPart.eq_def]
  split
  · exact absurd rfl (h '.' rfl).2.1
  · rfl

theorem Stops.exponentPart (h : Stops rest) : exponentPart rest = some ([], rest) := by
  cases rest with
  | nil => rfl
  | cons c rest =>
      obtain ⟨-, -, hlower, hupper⟩ := h c rfl
      have hmark : ¬(decide (c = 'e') || decide (c = 'E')) = true := by
        rw [Bool.or_eq_true, decide_eq_true_eq, decide_eq_true_eq, not_or]
        exact ⟨hlower, hupper⟩
      rw [Json.exponentPart.eq_def]
      dsimp only
      rw [if_neg hmark]

theorem readNumber_ofNat (n : Nat) (h : Stops rest) : readNumber (Digits.ofNat n ++ rest) = some (ofNat n, rest) := by
  have hunsigned : unsigned (Digits.ofNat n ++ rest) = some (Digits.ofNat n, rest) := by
    rw [unsigned, wholePart_ofNat n h]
    dsimp only
    rw [h.placesPart]
    dsimp only
    rw [h.exponentPart, List.append_nil]
    dsimp only
    rw [List.append_nil]
  rw [readNumber.eq_def]
  split
  · next hsign =>
      -- No digit is a sign.
      have hfront : (Digits.ofNat n).head? = some '-' := by
        rw [← List.head?_append_of_ne_nil _ (Digits.ofNat_ne_nil n), hsign]
        rfl
      have hdigit := Digits.isDigit_of_mem_ofNat (List.mem_of_mem_head? hfront)
      exact absurd hdigit (by decide)
  · rw [hunsigned]
    rfl

/-! ## Values -/

theorem readValue_of_isDigit {c : Char} (h : c.isDigit = true) (steps : Nat) (text : List Char) :
    readValue (steps + 1) (c :: text) = readNumber (c :: text) := by
  have hspace : isSpace c = false := by
    rw [Bool.eq_false_iff]
    intro hspace
    rw [(stops_of_isSpace hspace).1] at h
    cases h
  rw [readValue, skipSpace_cons hspace]
  split
  case h_7 => rfl
  all_goals
    next hsame =>
      rw [(List.cons.inj hsame).1] at h
      exact absurd h (by decide)

theorem reads_ofNat (n : Nat) : Reads (Digits.ofNat n) (ofNat n) := by
  intro steps rest hsteps hstops
  cases hwritten : Digits.ofNat n with
  | nil => exact absurd hwritten (Digits.ofNat_ne_nil n)
  | cons c row =>
      rw [hwritten, List.length_cons] at hsteps
      obtain ⟨steps, rfl⟩ : ∃ left, steps = left + 1 := ⟨steps - 1, by omega⟩
      have hdigit : c.isDigit = true := Digits.isDigit_of_mem_ofNat (hwritten ▸ List.mem_cons_self)
      rw [List.cons_append, readValue_of_isDigit hdigit, ← List.cons_append, ← hwritten]
      exact readNumber_ofNat n hstops

theorem reads_null : Reads ['n', 'u', 'l', 'l'] null := by
  rintro (_ | steps) rest hsteps -
  · cases hsteps
  · rfl

theorem reads_bool (b : Bool) : Reads (write (bool b)) (bool b) := by
  cases b with
  | true =>
      rintro (_ | steps) rest hsteps -
      · cases hsteps
      · rfl
  | false =>
      rintro (_ | steps) rest hsteps -
      · cases hsteps
      · rfl

theorem reads_text (text : Option String) : Reads (writeText text) (string text) := by
  obtain ⟨quoted, hwritten, hread⟩ := readText_writeText text
  rw [hwritten]
  rintro (_ | steps) rest hsteps -
  · cases hsteps
  · show (readText (quoted ++ rest)).map _ = _
    rw [hread]
    rfl

/-! ## Arrays and objects -/

theorem readValue_bracket (steps : Nat) (text : List Char) : readValue (steps + 1) ('[' :: text) =
    match skipSpace text with
    | ']' :: rest => some (array [], rest)
    | rest => (readItems steps rest).map fun (items, rest) => (array items, rest) := rfl

theorem readValue_brace (steps : Nat) (text : List Char) : readValue (steps + 1) ('\x7b' :: text) =
    match skipSpace text with
    | '\x7d' :: rest => some (object [], rest)
    | rest => (readFields steps rest).map fun (fields, rest) => (object fields, rest) := rfl

theorem readItems_bracket (steps : Nat) (rest : List Char) : readItems steps (']' :: rest) = none := by
  match steps with
  | 0 => rfl
  | 1 => rfl
  | _ + 2 => rfl

theorem readFields_brace (steps : Nat) (rest : List Char) : readFields steps ('\x7d' :: rest) = none := by
  cases steps <;> rfl

theorem reads_array_nil : Reads ['[', ']'] (array []) := by
  rintro (_ | steps) rest hsteps -
  · cases hsteps
  · rfl

theorem reads_object_nil : Reads ['\x7b', '\x7d'] (object []) := by
  rintro (_ | steps) rest hsteps -
  · cases hsteps
  · rfl

theorem reads_array (h : ReadsItems text items) : Reads ('[' :: text) (array items) := by
  intro steps rest hsteps _
  rw [List.length_cons] at hsteps
  obtain ⟨steps, rfl⟩ : ∃ left, steps = left + 1 := ⟨steps - 1, by omega⟩
  have hread := h steps rest (by omega)
  rw [← readItems_skipSpace] at hread
  rw [List.cons_append, readValue_bracket]
  split
  · next hclosed =>
      rw [hclosed, readItems_bracket] at hread
      cases hread
  · rw [hread]
    rfl

theorem reads_object (h : ReadsFields text fields) : Reads ('\x7b' :: text) (object fields) := by
  intro steps rest hsteps _
  rw [List.length_cons] at hsteps
  obtain ⟨steps, rfl⟩ : ∃ left, steps = left + 1 := ⟨steps - 1, by omega⟩
  have hread := h steps rest (by omega)
  rw [← readFields_skipSpace] at hread
  rw [List.cons_append, readValue_brace]
  split
  · next hclosed =>
      rw [hclosed, readFields_brace] at hread
      cases hread
  · rw [hread]
    rfl

theorem readsItems_last (h : Reads text j) (hspaces : spaces.all isSpace = true) :
    ReadsItems (text ++ (spaces ++ [']'])) [j] := by
  intro steps rest hsteps
  rw [List.length_append, List.length_append, List.length_singleton] at hsteps
  obtain ⟨steps, rfl⟩ : ∃ left, steps = left + 1 := ⟨steps - 1, by omega⟩
  have hstops : Stops (spaces ++ [']'] ++ rest) := by
    rw [List.append_assoc]
    exact stops_append hspaces (stops_cons (by decide))
  rw [readItems, List.append_assoc, h steps _ (by omega) hstops]
  dsimp only
  rw [List.append_assoc, skipSpace_append hspaces]
  rfl

theorem readsItems_cons (h : Reads text j) (hmore : ReadsItems more items) :
    ReadsItems (text ++ ',' :: more) (j :: items) := by
  intro steps rest hsteps
  rw [List.length_append, List.length_cons] at hsteps
  obtain ⟨steps, rfl⟩ : ∃ left, steps = left + 1 := ⟨steps - 1, by omega⟩
  rw [readItems, List.append_assoc, List.cons_append, h steps _ (by omega) (stops_cons (by decide))]
  dsimp only
  rw [skipSpace_cons (by decide)]
  show (readItems steps (more ++ rest)).map _ = _
  rw [hmore steps rest (by omega)]
  rfl

/-- A part of a text is read as a field: a name with white space in front, a colon and a value. -/
def ReadsField (text : List Char) (field : Option String × Json) : Prop :=
  ∃ spaces value, spaces.all isSpace = true ∧ Reads value field.2 ∧ text = spaces ++ (writeText field.1 ++ ':' :: value)

/-- The rest of an object after a field, from what follows the value of the field. -/
def afterField (steps : Nat) (field : Option String × Json) (rest : List Char) :
    Option (List (Option String × Json) × List Char) :=
  match skipSpace rest with
  | ',' :: rest => (readFields steps rest).map fun (fields, rest) => (field :: fields, rest)
  | '\x7d' :: rest => some ([field], rest)
  | _ => none

/-- A field is read up to what follows its value. -/
theorem ReadsField.readFields {field : Option String × Json} (h : ReadsField text field) (hstops : Stops rest)
    (hsteps : 2 * text.length ≤ steps) : readFields (steps + 1) (text ++ rest) = afterField steps field rest := by
  obtain ⟨spaces, value, hspaces, hvalue, rfl⟩ := h
  obtain ⟨quoted, hwritten, hname⟩ := readText_writeText field.1
  rw [List.length_append, List.length_append, List.length_cons] at hsteps
  have hcolon := skipSpace_cons (c := ':') (by decide) (value ++ rest)
  rw [Json.readFields, List.append_assoc, skipSpace_append hspaces, hwritten, List.append_assoc, List.cons_append,
    skipSpace_cons (by decide)]
  simp only [hname, List.cons_append, hcolon, hvalue steps rest (by omega) hstops]
  rfl

theorem readsFields_last {field : Option String × Json} (h : ReadsField text field) (hspaces : spaces.all isSpace = true) :
    ReadsFields (text ++ (spaces ++ ['\x7d'])) [field] := by
  intro steps rest hsteps
  rw [List.length_append, List.length_append, List.length_singleton] at hsteps
  obtain ⟨steps, rfl⟩ : ∃ left, steps = left + 1 := ⟨steps - 1, by omega⟩
  have hstops : Stops (spaces ++ ['\x7d'] ++ rest) := by
    rw [List.append_assoc]
    exact stops_append hspaces (stops_cons (by decide))
  rw [List.append_assoc, h.readFields hstops (by omega), afterField, List.append_assoc, skipSpace_append hspaces]
  rfl

theorem readsFields_cons {field : Option String × Json} (h : ReadsField text field) (hmore : ReadsFields more fields) :
    ReadsFields (text ++ ',' :: more) (field :: fields) := by
  intro steps rest hsteps
  rw [List.length_append, List.length_cons] at hsteps
  obtain ⟨steps, rfl⟩ : ∃ left, steps = left + 1 := ⟨steps - 1, by omega⟩
  rw [List.append_assoc, List.cons_append, h.readFields (stops_cons (by decide)) (by omega), afterField,
    skipSpace_cons (by decide)]
  show (readFields steps (more ++ rest)).map _ = _
  rw [hmore steps rest (by omega)]
  rfl

/-! ## Whole texts -/

theorem stops_of_all_isSpace (h : spaces.all isSpace = true) : Stops spaces := by
  rw [← List.append_nil spaces]
  exact stops_append h stops_nil

/-- **What is read as a value is parsed as the value**, with white space around it. -/
theorem Reads.parse {before after : List Char} (h : Reads text j) (hbefore : before.all isSpace = true)
    (hafter : after.all isSpace = true) : parse (String.ofList (before ++ text ++ after)) = some j := by
  have hnothing : skipSpace after = [] := by
    rw [← List.append_nil after, skipSpace_append hafter]
    rfl
  have hlength : (before ++ text ++ after).length = (before ++ text).length + after.length := List.length_append
  have hsteps : 2 * (before ++ text).length ≤ 2 * (before ++ text ++ after).length + 2 := by omega
  rw [Json.parse, String.toList_ofList, ofChars?, h.spaced hbefore _ after hsteps (stops_of_all_isSpace hafter)]
  dsimp only
  rw [hnothing]
  rfl

end Json

end CollateralDebt
