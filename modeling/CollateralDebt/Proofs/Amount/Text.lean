import CollateralDebt.Amount.Parser
import CollateralDebt.Amount.Text
import CollateralDebt.Proofs.Text
import Mathlib.Data.List.TakeWhile

/-! Amounts as text. What is written for an amount is its whole part, and a point with its decimal places where some are
not zero; zeros at the end stand for nothing, so the places are read back at their width whether the zeros are there or
not. No white space and no second point is written, and the text of every amount is read back as the amount. -/

namespace CollateralDebt

namespace Amount

variable {row whole places : List Char} {a : Amount}

theorem ne_point_of_isDigit {c : Char} (h : c.isDigit = true) : (c != '.') = true := by
  rw [bne_iff_ne]
  rintro rfl
  exact absurd h (by decide)

theorem splitPoint_digits (h : ∀ c ∈ whole, c.isDigit = true) : splitPoint whole = (whole, []) := by
  have hnone : ∀ c ∈ whole, (c != '.') = true := fun c hmem => ne_point_of_isDigit (h c hmem)
  rw [splitPoint, List.takeWhile_eq_self_iff.2 hnone, List.dropWhile_eq_nil_iff.2 hnone, List.drop_nil]

theorem splitPoint_append (h : ∀ c ∈ whole, c.isDigit = true) (places : List Char) :
    splitPoint (whole ++ '.' :: places) = (whole, places) := by
  have hnone : ∀ c ∈ whole, (c != '.') = true := fun c hmem => ne_point_of_isDigit (h c hmem)
  rw [splitPoint, List.takeWhile_append_of_pos hnone, List.dropWhile_append_of_pos hnone]
  show (whole ++ [], places) = _
  rw [List.append_nil]

/-- Digits before and after a point are read as their value. -/
theorem ofTrimmed_eq_ok (hsplit : splitPoint row = (whole, places)) (hsome : (whole.isEmpty && places.isEmpty) = false)
    (hdigits : (whole ++ places).all Char.isDigit = true) (hplaces : places.length ≤ 18)
    (hvalue : Digits.toNat whole * scale + Digits.toNat places * Nat.pow 10 (18 - places.length) = a.units) :
    ofTrimmed row = .ok a := by
  have hscale : Digits.toNat whole ≤ Digits.toNat whole * scale := Nat.le_mul_of_pos_right _ (by decide)
  have hrange : ¬1 <<< 128 ≤ Digits.toNat whole := by
    have hunits := a.units_lt
    omega
  unfold ofTrimmed
  rw [hsplit]
  dsimp only
  rw [hsome, hdigits, if_neg Bool.false_ne_true, if_neg (by decide), if_neg (Nat.not_lt.2 hplaces), if_neg hrange, hvalue,
    ofUnits?_units]

/-- The zeros that are left out follow what is kept. -/
theorem exists_zeros (row : List Char) : ∃ zeros, row = trimZeros row ++ List.replicate zeros '0' := by
  have hzeros : row.reverse.takeWhile (· == '0') =
      List.replicate (row.reverse.takeWhile (· == '0')).length '0' := by
    refine List.eq_replicate_iff.2 ⟨rfl, fun c hmem => ?_⟩
    have hzero : (c == '0') = true := List.mem_takeWhile_imp (p := (· == '0')) hmem
    exact eq_of_beq hzero
  have hsplit := congrArg List.reverse (List.takeWhile_append_dropWhile (p := (· == '0')) (l := row.reverse))
  rw [List.reverse_append, List.reverse_reverse, hzeros, List.reverse_replicate] at hsplit
  exact ⟨_, hsplit.symm⟩

/-- What is written for an amount, and the zeros that are left out. -/
theorem written_eq (a : Amount) : ∃ places zeros, places.length + zeros = 18 ∧ (∀ c ∈ places, c.isDigit = true) ∧
    a.units % scale = Digits.toNat places * Nat.pow 10 zeros ∧
      a.written = if a.units % scale = 0 then Digits.ofNat (a.units / scale)
        else Digits.ofNat (a.units / scale) ++ '.' :: places := by
  obtain ⟨zeros, hzeros⟩ := exists_zeros (Digits.padded 18 (a.units % scale))
  have hlength := congrArg List.length hzeros
  have hvalue := congrArg Digits.toNat hzeros
  rw [Digits.length_padded, List.length_append, List.length_replicate] at hlength
  have hscale : Nat.pow 10 18 = scale := by decide
  rw [Digits.toNat_padded, Digits.toNat_append_zeros, hscale, Nat.mod_mod] at hvalue
  refine ⟨_, zeros, hlength.symm, fun c hmem => ?_, hvalue, by rw [written]⟩
  have hinside := List.mem_append_left (List.replicate zeros '0') hmem
  rw [← hzeros] at hinside
  exact Digits.isDigit_of_mem_padded hinside

theorem ofTrimmed_written (a : Amount) : ofTrimmed a.written = .ok a := by
  obtain ⟨places, zeros, hlength, hplaces, hvalue, hwritten⟩ := a.written_eq
  have hwhole : ∀ c ∈ Digits.ofNat (a.units / scale), c.isDigit = true := fun _ => Digits.isDigit_of_mem_ofNat
  have hsome : (Digits.ofNat (a.units / scale)).isEmpty = false := by
    rw [List.isEmpty_eq_false_iff]
    exact Digits.ofNat_ne_nil _
  have hunits := Nat.div_add_mod' a.units scale
  rw [hwritten]
  split
  · next hnone =>
      refine ofTrimmed_eq_ok (splitPoint_digits hwhole) (by rw [hsome]; rfl) ?_ (Nat.zero_le _) ?_
      · rw [List.append_nil, Digits.all_isDigit_ofNat]
      · have hnothing : Digits.toNat [] = 0 := rfl
        rw [Digits.toNat_ofNat, hnothing, Nat.zero_mul]
        omega
  · refine ofTrimmed_eq_ok (splitPoint_append hwhole places) (by rw [hsome]; rfl) ?_ (by omega) ?_
    · rw [List.all_append, Digits.all_isDigit_ofNat, List.all_eq_true.2 hplaces]
      rfl
    · have hleft : 18 - places.length = zeros := by omega
      rw [Digits.toNat_ofNat, hleft, ← hvalue, hunits]

/-- No white space is written for an amount. -/
theorem isBlank_of_mem_written {c : Char} (h : c ∈ a.written) : Blank.isBlank c = false := by
  obtain ⟨places, zeros, -, hplaces, -, hwritten⟩ := a.written_eq
  have hwhole : ∀ c ∈ Digits.ofNat (a.units / scale), Blank.isBlank c = false :=
    fun c hmem => Blank.isBlank_of_isDigit (Digits.isDigit_of_mem_ofNat hmem)
  rw [hwritten] at h
  split at h
  · exact hwhole c h
  · rw [List.mem_append, List.mem_cons] at h
    rcases h with h | rfl | h
    · exact hwhole c h
    · decide
    · exact Blank.isBlank_of_isDigit (hplaces c h)

/-- **The text of an amount is read back as the amount.** -/
theorem parse_text (a : Amount) : parse a.text = .ok a := by
  have htrim : Blank.trim a.written = a.written :=
    Blank.trim_eq_self (fun c hfirst => isBlank_of_mem_written (List.mem_of_mem_head? hfirst))
      fun c hlast => isBlank_of_mem_written (List.mem_of_getLast? hlast)
  unfold parse text
  rw [String.toList_ofList, htrim, ofTrimmed_written]

end Amount

end CollateralDebt
