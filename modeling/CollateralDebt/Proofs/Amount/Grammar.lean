import CollateralDebt.Proofs.Amount.Text

/-! Which texts are an amount, and which of them is the shortest. A numeral is digits with a point among them or none. A
text is read as an amount exactly when it is a numeral in range with white space around it, or none (`parse_eq_ok_iff`).
What a numeral has before the point is the shortest row of its number with zeros in front, and after it the places that
are written for an amount, with zeros behind. So what is written for an amount is part of every text of the amount that
has a digit before the point (`written_sublist`), and shorter than any other (`decimal_format`). -/

namespace CollateralDebt.Amount

/-! ## Numerals -/

/-- Digits before and after a point. One of the two parts may be empty, and there are no more places after the point
than an amount has. -/
structure Numeral where
  whole : List Char
  places : List Char
  isDigit_whole : ∀ c ∈ whole, c.isDigit = true
  isDigit_places : ∀ c ∈ places, c.isDigit = true
  nonempty : ¬(whole = [] ∧ places = [])
  length_places_le : places.length ≤ 18

namespace Numeral

variable {n m : Numeral} {row : List Char} {text : String}

/-- The number that it stands for, in last places; an empty part counts for nothing. -/
def units (n : Numeral) : Nat :=
  Digits.toNat n.whole * scale + Digits.toNat n.places * Nat.pow 10 (18 - n.places.length)

/-- A row of characters is the numeral. The point is left out or not where no place follows it. -/
def WrittenAs (n : Numeral) (row : List Char) : Prop :=
  n.places = [] ∧ row = n.whole ∨ row = n.whole ++ '.' :: n.places

/-- A text is the numeral with white space around it, or none. -/
def WrittenIn (n : Numeral) (text : String) : Prop :=
  ∃ before row after, text.toList = before ++ row ++ after ∧ (∀ c ∈ before, Blank.isBlank c = true) ∧
    (∀ c ∈ after, Blank.isBlank c = true) ∧ n.WrittenAs row

theorem WrittenAs.ne_nil (h : n.WrittenAs row) : row ≠ [] := by
  rcases h with ⟨hnone, rfl⟩ | rfl
  · exact fun hwhole => n.nonempty ⟨hwhole, hnone⟩
  · exact List.append_ne_nil_of_right_ne_nil _ (List.cons_ne_nil _ _)

theorem WrittenAs.isBlank (h : n.WrittenAs row) : ∀ c ∈ row, Blank.isBlank c = false := by
  have hwhole : ∀ c ∈ n.whole, Blank.isBlank c = false :=
    fun c hmem => Blank.isBlank_of_isDigit (n.isDigit_whole c hmem)
  rcases h with ⟨-, rfl⟩ | rfl
  · exact hwhole
  · intro c hmem
    rw [List.mem_append, List.mem_cons] at hmem
    rcases hmem with hmem | rfl | hmem
    · exact hwhole c hmem
    · decide
    · exact Blank.isBlank_of_isDigit (n.isDigit_places c hmem)

theorem writtenIn_iff : n.WrittenIn text ↔ n.WrittenAs (Blank.trim text.toList) := by
  constructor
  · rintro ⟨before, row, after, htext, hbefore, hafter, hrow⟩
    rw [htext, Blank.trim_append hbefore hafter hrow.ne_nil hrow.isBlank]
    exact hrow
  · intro h
    obtain ⟨before, after, htext, hbefore, hafter⟩ := Blank.exists_trim text.toList
    exact ⟨before, _, after, htext, hbefore, hafter, h⟩

theorem WrittenAs.splitPoint_eq (h : n.WrittenAs row) : splitPoint row = (n.whole, n.places) := by
  rcases h with ⟨hnone, rfl⟩ | rfl
  · rw [hnone]
    exact splitPoint_digits n.isDigit_whole
  · exact splitPoint_append n.isDigit_whole n.places

/-- A text writes one numeral at most. -/
theorem WrittenIn.units_eq (hn : n.WrittenIn text) (hm : m.WrittenIn text) : n.units = m.units := by
  have hsame := (writtenIn_iff.1 hn).splitPoint_eq.symm.trans (writtenIn_iff.1 hm).splitPoint_eq
  obtain ⟨hwhole, hplaces⟩ := Prod.mk.inj hsame
  rw [units, units, hwhole, hplaces]

end Numeral

/-! ## What is read as an amount -/

variable {n : Numeral} {row : List Char} {text : String} {a : Amount}

/-- A row is what stands before and after its first point, or it has none. -/
theorem splitPoint_cases (row : List Char) :
    (splitPoint row).2 = [] ∧ row = (splitPoint row).1 ∨ row = (splitPoint row).1 ++ '.' :: (splitPoint row).2 := by
  have hparts : row = row.takeWhile (· != '.') ++ row.dropWhile (· != '.') :=
    List.takeWhile_append_dropWhile.symm
  unfold splitPoint
  cases hrest : row.dropWhile (· != '.') with
  | nil =>
      rw [hrest, List.append_nil] at hparts
      exact .inl ⟨rfl, hparts⟩
  | cons c rest =>
      have hpoint := List.head_dropWhile_not (· != '.') (hrest ▸ List.cons_ne_nil c rest)
      simp only [hrest, List.head_cons, bne_eq_false_iff_eq] at hpoint
      rw [hrest, hpoint] at hparts
      exact .inr hparts

/-- A row is read as an amount exactly when it is a numeral of that many last places. -/
theorem ofTrimmed_eq_ok_iff : ofTrimmed row = .ok a ↔ ∃ n : Numeral, n.WrittenAs row ∧ n.units = a.units := by
  constructor
  · intro h
    have hrow := splitPoint_cases row
    unfold ofTrimmed at h
    generalize splitPoint row = parts at h hrow
    obtain ⟨whole, places⟩ := parts
    dsimp only at h hrow
    -- Each check that is passed is one condition on a numeral.
    split at h
    · cases h
    next hsome =>
    split at h
    · cases h
    next hdigits =>
    split at h
    · cases h
    next hplaces =>
    split at h
    · cases h
    split at h
    · cases h
    next hunits =>
    cases h
    rw [Bool.and_eq_true, List.isEmpty_iff, List.isEmpty_iff] at hsome
    rw [Bool.not_eq_true', Bool.not_eq_false, List.all_append, Bool.and_eq_true, List.all_eq_true,
      List.all_eq_true] at hdigits
    refine ⟨⟨whole, places, hdigits.1, hdigits.2, hsome, Nat.le_of_not_lt hplaces⟩, hrow, ?_⟩
    unfold ofUnits? at hunits
    split at hunits
    · cases hunits
      rfl
    · cases hunits
  · rintro ⟨n, hrow, hunits⟩
    refine ofTrimmed_eq_ok hrow.splitPoint_eq ?_ ?_ n.length_places_le hunits
    · rw [Bool.and_eq_false_iff, List.isEmpty_eq_false_iff, List.isEmpty_eq_false_iff]
      exact not_and_or.1 n.nonempty
    · rw [List.all_append, List.all_eq_true.2 n.isDigit_whole, List.all_eq_true.2 n.isDigit_places]
      rfl

theorem parse_eq_ok_iff_ofTrimmed : parse text = .ok a ↔ ofTrimmed (Blank.trim text.toList) = .ok a := by
  unfold parse
  cases ofTrimmed (Blank.trim text.toList) with
  | ok b =>
      dsimp only
      rw [Except.ok.injEq, Except.ok.injEq]
  | error fault =>
      constructor
      · intro h
        cases h
      · intro h
        cases h

/-- **A text is read as an amount exactly when it is a numeral of that many last places**, with white space around it or
none. -/
theorem parse_eq_ok_iff : parse text = .ok a ↔ ∃ n : Numeral, n.WrittenIn text ∧ n.units = a.units := by
  rw [parse_eq_ok_iff_ofTrimmed, ofTrimmed_eq_ok_iff]
  simp only [Numeral.writtenIn_iff]

/-- A text is read exactly when it is a numeral in range. -/
theorem exists_parse_eq_ok_iff :
    (∃ a, parse text = .ok a) ↔ ∃ n : Numeral, n.WrittenIn text ∧ n.units ≤ max.units := by
  constructor
  · rintro ⟨a, h⟩
    obtain ⟨n, htext, hunits⟩ := parse_eq_ok_iff.1 h
    exact ⟨n, htext, hunits ▸ a.le_max⟩
  · rintro ⟨n, htext, hrange⟩
    exact ⟨⟨n.units, Nat.lt_of_le_of_lt hrange max.units_lt⟩, parse_eq_ok_iff.2 ⟨n, htext, rfl⟩⟩

/-! ## The shortest text -/

/-- A digit stands in the text before any point. -/
def HasWhole (text : String) : Prop := ∃ c ∈ text.toList.takeWhile (· != '.'), c.isDigit = true

instance (text : String) : Decidable (HasWhole text) :=
  decidable_of_iff ((text.toList.takeWhile (· != '.')).any Char.isDigit = true) List.any_eq_true

namespace Numeral

theorem WrittenIn.whole_ne_nil (h : n.WrittenIn text) (hfirst : HasWhole text) : n.whole ≠ [] := by
  intro hempty
  obtain ⟨before, row, after, htext, hbefore, -, hrow⟩ := h
  -- A numeral without a whole part starts with its point, so that only white space comes before it.
  have hpoint : row = '.' :: n.places := by
    rcases hrow with ⟨hplaces, -⟩ | hrow
    · exact absurd ⟨hempty, hplaces⟩ n.nonempty
    · rw [hrow, hempty, List.nil_append]
  obtain ⟨c, hmem, hdigit⟩ := hfirst
  have hnone : ∀ c ∈ before, (c != '.') = true := by
    intro c hc
    rw [bne_iff_ne]
    rintro rfl
    exact absurd (hbefore _ hc) (by decide)
  rw [htext, hpoint, List.append_assoc, List.takeWhile_append_of_pos hnone, List.cons_append,
    List.takeWhile_cons_of_neg (by decide), List.append_nil] at hmem
  exact absurd (hbefore c hmem) (Bool.eq_false_iff.1 (Blank.isBlank_of_isDigit hdigit))

/-- The places come to less than one whole. -/
theorem places_lt (n : Numeral) : Digits.toNat n.places * Nat.pow 10 (18 - n.places.length) < scale := by
  have hle := n.length_places_le
  calc Digits.toNat n.places * Nat.pow 10 (18 - n.places.length)
      < Nat.pow 10 n.places.length * Nat.pow 10 (18 - n.places.length) :=
        Nat.mul_lt_mul_of_pos_right (Digits.toNat_lt n.isDigit_places) (Nat.pow_pos (by decide))
    _ = scale := by
      have hpower := (Nat.pow_add 10 n.places.length (18 - n.places.length)).symm
      rw [Nat.add_sub_cancel' hle] at hpower
      exact hpower

theorem units_div_mod (n : Numeral) : n.units / scale = Digits.toNat n.whole ∧
    n.units % scale = Digits.toNat n.places * Nat.pow 10 (18 - n.places.length) := by
  have hplaces := n.places_lt
  rw [units, Nat.add_comm]
  refine ⟨?_, ?_⟩
  · rw [Nat.add_mul_div_right _ _ (by decide), Nat.div_eq_of_lt hplaces, Nat.zero_add]
  · rw [Nat.add_mul_mod_self_right, Nat.mod_eq_of_lt hplaces]

theorem ofNat_sublist (h : n.whole ≠ []) : (Digits.ofNat (n.units / scale)).Sublist n.whole := by
  obtain ⟨zeros, hzeros⟩ := Digits.eq_zeros_append h n.isDigit_whole
  rw [n.units_div_mod.1]
  conv => rhs; rw [hzeros]
  exact List.sublist_append_right _ _

/-- The places at full width are those of the numeral and zeros. -/
theorem padded_units (n : Numeral) :
    Digits.padded 18 (n.units % scale) = n.places ++ List.replicate (18 - n.places.length) '0' := by
  have hlength : (n.places ++ List.replicate (18 - n.places.length) '0').length = 18 := by
    rw [List.length_append, List.length_replicate, Nat.add_sub_cancel' n.length_places_le]
  have hdigits : ∀ c ∈ n.places ++ List.replicate (18 - n.places.length) '0', c.isDigit = true := by
    intro c hmem
    rw [List.mem_append, List.mem_replicate] at hmem
    rcases hmem with hmem | ⟨-, rfl⟩
    · exact n.isDigit_places c hmem
    · decide
  have hrow := Digits.padded_toNat hdigits
  rw [hlength, Digits.toNat_append_zeros] at hrow
  rw [n.units_div_mod.2]
  exact hrow

theorem trimZeros_sublist (n : Numeral) : (trimZeros (Digits.padded 18 (n.units % scale))).Sublist n.places := by
  have hzeros : ∀ c ∈ List.replicate (18 - n.places.length) '0', (c == '0') = true := by
    intro c hmem
    rw [List.eq_of_mem_replicate hmem]
    rfl
  rw [padded_units]
  show ((n.places ++ List.replicate (18 - n.places.length) '0').rdropWhile (· == '0')).Sublist n.places
  rw [rdropWhile_append_of_forall n.places hzeros]
  exact (List.rdropWhile_prefix _ _).sublist

/-- What is written for an amount is part of every row of the same value that has digits before the point. -/
theorem WrittenAs.written_sublist (h : n.WrittenAs row) (hwhole : n.whole ≠ []) (hunits : n.units = a.units) :
    a.written.Sublist row := by
  have hfront := ofNat_sublist hwhole
  have hplaces := n.trimZeros_sublist
  rw [hunits] at hfront hplaces
  unfold written
  dsimp only
  split
  · rcases h with ⟨-, rfl⟩ | rfl
    · exact hfront
    · exact hfront.trans (List.sublist_append_left _ _)
  · next hsome =>
      rcases h with ⟨hnone, -⟩ | rfl
      · rw [← hunits, n.units_div_mod.2, hnone] at hsome
        exact absurd (Nat.zero_mul _) hsome
      · exact hfront.append (hplaces.cons_cons '.')

end Numeral

/-- What is written for an amount is part of every text of it with a digit before any point. -/
theorem written_sublist (h : parse text = .ok a) (hfirst : HasWhole text) : a.written.Sublist text.toList := by
  obtain ⟨n, htext, hunits⟩ := parse_eq_ok_iff.1 h
  have hwhole := htext.whole_ne_nil hfirst
  obtain ⟨before, row, after, hparts, -, -, hrow⟩ := htext
  rw [hparts]
  exact ((hrow.written_sublist hwhole hunits).trans (List.sublist_append_right _ _)).trans
    (List.sublist_append_left _ _)

theorem hasWhole_text (a : Amount) : HasWhole a.text := by
  have hdigits : ∀ c ∈ Digits.ofNat (a.units / scale), c.isDigit = true := fun _ => Digits.isDigit_of_mem_ofNat
  obtain ⟨c, whole, hwhole⟩ := List.exists_cons_of_ne_nil (Digits.ofNat_ne_nil (a.units / scale))
  have hc : c ∈ Digits.ofNat (a.units / scale) := hwhole ▸ List.mem_cons_self
  obtain ⟨rest, hwritten⟩ : ∃ rest, a.written = Digits.ofNat (a.units / scale) ++ rest := by
    unfold written
    dsimp only
    split
    · exact ⟨[], (List.append_nil _).symm⟩
    · exact ⟨_, rfl⟩
  refine ⟨c, ?_, hdigits c hc⟩
  rw [text, String.toList_ofList, hwritten,
    List.takeWhile_append_of_pos fun c hmem => ne_point_of_isDigit (hdigits c hmem)]
  exact List.mem_append_left _ hc

/-- **The decimal format of amounts.** A text is read as an amount if and only if it is a numeral in range with white
space around it, or none, and the amount is that of the numeral. What is written for an amount is read back as it, and
of all texts of the amount with a digit before any point it is the shortest. -/
theorem decimal_format :
    (∀ text : String,
      ((∃ a, parse text = .ok a) ↔ ∃ n : Numeral, n.WrittenIn text ∧ n.units ≤ max.units) ∧
      ∀ (a : Amount) (n : Numeral), parse text = .ok a → n.WrittenIn text → a.units = n.units) ∧
    ∀ a : Amount, parse a.text = .ok a ∧ HasWhole a.text ∧
      ∀ text : String, parse text = .ok a → HasWhole text → text ≠ a.text → a.text.length < text.length := by
  refine ⟨fun text => ⟨exists_parse_eq_ok_iff, fun a n hread htext => ?_⟩,
    fun a => ⟨a.parse_text, a.hasWhole_text, fun text hread hfirst hne => ?_⟩⟩
  · obtain ⟨m, hm, hunits⟩ := parse_eq_ok_iff.1 hread
    rw [← hunits, hm.units_eq htext]
  · have hpart := written_sublist hread hfirst
    rw [Amount.text, String.length_ofList, ← String.length_toList]
    refine Nat.lt_of_le_of_ne hpart.length_le fun hlength => hne ?_
    rw [Amount.text, hpart.eq_of_length hlength, String.ofList_toList]

/-- Seven and a half, with zeros in front and behind. -/
def sevenAndHalf : Numeral where
  whole := ['0', '0', '7']
  places := ['5', '0']
  isDigit_whole := List.all_eq_true.1 (by decide)
  isDigit_places := List.all_eq_true.1 (by decide)
  nonempty := by decide
  length_places_le := by decide

/-- An em space in front of it and a line break behind. -/
def spacedText : String := "\u2003007.50\n"

theorem writtenIn_spacedText : sevenAndHalf.WrittenIn spacedText :=
  ⟨['\u2003'], "007.50".toList, ['\n'], by decide +kernel, List.all_eq_true.1 (by decide),
    List.all_eq_true.1 (by decide), .inr (by decide +kernel)⟩

/-- The text of the largest amount, but for the last digit, which is one more. -/
def tooLargeText : String := "340282366920938463463.374607431768211456"

theorem tooLargeText_refused : ¬∃ a, parse tooLargeText = .ok a := by
  rintro ⟨a, h⟩
  have hrefused : ofTrimmed (Blank.trim tooLargeText.toList) = .error .outOfRange := by decide +kernel
  cases hrefused.symm.trans (parse_eq_ok_iff_ofTrimmed.1 h)

/-- White space and needless zeros do not count, and what is written is shorter. Without a digit before the point there is
a shorter text of a half. The largest amount is read, and not one unit of the last place more. -/
theorem decimal_format_sample :
    sevenAndHalf.WrittenIn spacedText ∧ sevenAndHalf.units ≤ max.units ∧
    (∃ a, parse spacedText = .ok a ∧ a.units = 7500000000000000000 ∧ a.text = "7.5" ∧ HasWhole spacedText ∧
      a.text.length < spacedText.length) ∧
    (parse ".5" = .ok ⟨500000000000000000, by decide⟩ ∧ ¬HasWhole ".5" ∧
      (⟨500000000000000000, by decide⟩ : Amount).text = "0.5") ∧
    (parse max.text = .ok max ∧ max.text = "340282366920938463463.374607431768211455") ∧
    ¬∃ n : Numeral, n.WrittenIn tooLargeText ∧ n.units ≤ max.units := by
  obtain ⟨hread, hwritten⟩ := decimal_format
  have hrange : sevenAndHalf.units ≤ max.units := by decide +kernel
  have hfirst : HasWhole spacedText := by decide +kernel
  obtain ⟨a, ha⟩ := (hread spacedText).1.2 ⟨_, writtenIn_spacedText, hrange⟩
  have hunits : a.units = 7500000000000000000 := (hread spacedText).2 a _ ha writtenIn_spacedText
  obtain rfl : a = ⟨7500000000000000000, by decide⟩ := Amount.ext hunits
  have hshorter := (hwritten _).2.2 spacedText ha hfirst (by decide +kernel)
  exact ⟨writtenIn_spacedText, hrange, ⟨_, ha, hunits, by decide +kernel, hfirst, hshorter⟩,
    ⟨by decide +kernel, by decide +kernel, by decide +kernel⟩, ⟨(hwritten max).1, by decide +kernel⟩,
    fun hnumeral => tooLargeText_refused ((hread tooLargeText).1.2 hnumeral)⟩

end CollateralDebt.Amount
