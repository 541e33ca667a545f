import CollateralDebt.Address
import CollateralDebt.Text.Blank
import CollateralDebt.Text.Digits
import Mathlib.Data.List.DropRight

/-! What is written is read back: counts in decimal digits, bytes in base sixteen, and addresses. A row of digits in front
of zeros stands for as many times its number as the zeros say, and only zero itself is written with a zero in front; every
row of digits is the shortest one of its number with zeros in front of it (`eq_zeros_append`). White space around a text is
taken away, and nothing else. The digits of bytes are single bytes themselves, two for each, so that they are decoded pair
by pair. -/

namespace CollateralDebt

/-! ## Decimal digits -/

namespace Digits

theorem ofNat_ne_nil (n : Nat) : ofNat n ≠ [] := by
  rw [ofNat]
  split
  · exact List.cons_ne_nil _ _
  · exact List.append_ne_nil_of_right_ne_nil _ (List.cons_ne_nil _ _)

theorem isDigit_of_mem_ofNat {n : Nat} {c : Char} (h : c ∈ ofNat n) : c.isDigit = true :=
  List.all_eq_true.1 (all_isDigit_ofNat n) c h

/-- Only zero is written with a zero in front. -/
theorem head?_ofNat_ne {n : Nat} (h : 0 < n) : (ofNat n).head? ≠ some '0' := by
  induction n using Nat.strongRecOn with
  | ind n ih =>
      rw [ofNat]
      split
      · next hsmall =>
          have hdigits : ∀ d : Fin 10, 0 < d.val → digit d.val ≠ '0' := by decide
          exact fun hzero => hdigits ⟨n, hsmall⟩ h (Option.some.inj hzero)
      · next hlarge =>
          rw [List.head?_append_of_ne_nil _ (ofNat_ne_nil _)]
          exact ih (n / 10) (by omega) (by omega)

theorem isDigit_of_mem_padded {width n : Nat} {c : Char} (h : c ∈ padded width n) : c.isDigit = true := by
  induction width generalizing n with
  | zero => cases h
  | succ width ih =>
      rw [padded, List.mem_append, List.mem_singleton] at h
      rcases h with h | rfl
      · exact ih h
      · exact isDigit_digit (Nat.mod_lt _ (by decide))

theorem accumulate_zeros (n zeros : Nat) : accumulate n (List.replicate zeros '0') = n * Nat.pow 10 zeros := by
  induction zeros generalizing n with
  | zero => exact (Nat.mul_one n).symm
  | succ zeros ih =>
      have hstep : accumulate n (List.replicate (zeros + 1) '0') = accumulate (10 * n) (List.replicate zeros '0') := rfl
      rw [hstep, ih, Nat.mul_comm 10 n, Nat.mul_assoc, Nat.mul_comm 10]
      rfl

theorem toNat_append_zeros (row : List Char) (zeros : Nat) :
    toNat (row ++ List.replicate zeros '0') = toNat row * Nat.pow 10 zeros := by
  rw [toNat, accumulate_append, accumulate_zeros]
  rfl

variable {row : List Char}

theorem digit_value {c : Char} (h : c.isDigit = true) : value c < 10 ∧ digit (value c) = c := by
  rw [Char.isDigit, Bool.and_eq_true, decide_eq_true_eq, decide_eq_true_eq] at h
  have hlow : 48 ≤ c.toNat := h.1
  have hhigh : c.toNat ≤ 57 := h.2
  refine ⟨?_, ?_⟩
  · rw [value]
    omega
  · rw [digit, value, Nat.add_sub_cancel' hlow, Char.ofNat_toNat]

theorem toNat_concat (row : List Char) (c : Char) : toNat (row ++ [c]) = 10 * toNat row + value c := by
  rw [toNat, accumulate_append]
  rfl

theorem ofNat_concat {n d : Nat} (hn : 0 < n) (hd : d < 10) : ofNat (10 * n + d) = ofNat n ++ [digit d] := by
  have hquotient : (10 * n + d) / 10 = n := by omega
  have hlast : (10 * n + d) % 10 = d := by omega
  rw [ofNat, if_neg (by omega), hquotient, hlast]

/-- A row of digits is the one row of its number that has its width. -/
theorem padded_toNat (h : ∀ c ∈ row, c.isDigit = true) : padded row.length (toNat row) = row := by
  induction row using List.reverseRecOn with
  | nil => rfl
  | append_singleton row c ih =>
      obtain ⟨hsmall, hc⟩ := digit_value (h c (List.mem_append_right _ List.mem_cons_self))
      have hquotient : (10 * toNat row + value c) / 10 = toNat row := by omega
      have hlast : (10 * toNat row + value c) % 10 = value c := by omega
      rw [List.length_append, List.length_singleton, padded, toNat_concat, hquotient, hlast, hc,
        ih fun d hmem => h d (List.mem_append_left _ hmem)]

theorem toNat_lt (h : ∀ c ∈ row, c.isDigit = true) : toNat row < Nat.pow 10 row.length :=
  calc toNat row = toNat row % Nat.pow 10 row.length := by rw [← toNat_padded, padded_toNat h]
    _ < Nat.pow 10 row.length := Nat.mod_lt _ (Nat.pow_pos (by decide))

/-- A row of digits is the shortest one of its number with zeros in front. -/
theorem eq_zeros_append (hne : row ≠ []) (h : ∀ c ∈ row, c.isDigit = true) :
    ∃ zeros, row = List.replicate zeros '0' ++ ofNat (toNat row) := by
  induction row using List.reverseRecOn with
  | nil => exact absurd rfl hne
  | append_singleton row c ih =>
      obtain ⟨hsmall, hc⟩ := digit_value (h c (List.mem_append_right _ List.mem_cons_self))
      have hsingle : ofNat (value c) = [c] := by rw [ofNat, if_pos hsmall, hc]
      rw [toNat_concat]
      by_cases hrow : row = []
      · refine ⟨0, ?_⟩
        have hnothing : toNat [] = 0 := rfl
        rw [hrow, hnothing, Nat.mul_zero, Nat.zero_add, hsingle]
        rfl
      · obtain ⟨zeros, hzeros⟩ := ih hrow fun d hmem => h d (List.mem_append_left _ hmem)
        rcases Nat.eq_zero_or_pos (toNat row) with hzero | hpositive
        · -- The number so far is zero, so its digit is one more zero in front.
          have hdigit : ofNat 0 = ['0'] := by rw [ofNat]; rfl
          rw [hzero, hdigit] at hzeros
          refine ⟨zeros + 1, ?_⟩
          rw [hzero, Nat.mul_zero, Nat.zero_add, hsingle, List.replicate_succ', ← hzeros]
        · refine ⟨zeros, ?_⟩
          rw [ofNat_concat hpositive hsmall, hc, ← List.append_assoc, ← hzeros]

end Digits

/-! ## White space around a text -/

theorem Blank.isBlank_of_isDigit {c : Char} (h : c.isDigit = true) : isBlank c = false := by
  rw [Char.isDigit, Bool.and_eq_true, decide_eq_true_eq, decide_eq_true_eq] at h
  have hlow : 48 ≤ c.toNat := h.1
  have hhigh : c.toNat ≤ 57 := h.2
  simp only [isBlank, Bool.or_eq_false_iff, Bool.and_eq_false_iff, decide_eq_false_iff_not, beq_eq_false_iff_ne]
  omega

/-- A piece at the end that is dropped as a whole makes no difference. -/
theorem rdropWhile_append_of_forall {α : Type} {p : α → Bool} (row : List α) {rest : List α}
    (h : ∀ x ∈ rest, p x = true) : (row ++ rest).rdropWhile p = row.rdropWhile p := by
  rw [List.rdropWhile, List.reverse_append, List.dropWhile_append_of_pos fun x hmem => h x (List.mem_reverse.1 hmem)]
  rfl

namespace Blank

variable {before row after : List Char}

/-- What has no white space in it is left of a text with white space around it. -/
theorem trim_append (hbefore : ∀ c ∈ before, isBlank c = true) (hafter : ∀ c ∈ after, isBlank c = true)
    (hsome : row ≠ []) (hrow : ∀ c ∈ row, isBlank c = false) : trim (before ++ row ++ after) = row := by
  have hfront : (before ++ row ++ after).dropWhile isBlank = row ++ after := by
    rw [List.append_assoc, List.dropWhile_append_of_pos hbefore]
    cases row with
    | nil => exact absurd rfl hsome
    | cons c row =>
        exact List.dropWhile_cons_of_neg (Bool.eq_false_iff.1 (hrow c List.mem_cons_self))
  have hback : (row ++ after).rdropWhile isBlank = row := by
    rw [rdropWhile_append_of_forall row hafter, List.rdropWhile_eq_self_iff]
    exact fun hl => Bool.eq_false_iff.1 (hrow _ (List.getLast_mem hl))
  show ((before ++ row ++ after).dropWhile isBlank).rdropWhile isBlank = row
  rw [hfront, hback]

/-- Only white space is taken away. -/
theorem exists_trim (text : List Char) : ∃ before after, text = before ++ trim text ++ after ∧
    (∀ c ∈ before, isBlank c = true) ∧ ∀ c ∈ after, isBlank c = true := by
  refine ⟨text.takeWhile isBlank, (text.dropWhile isBlank).rtakeWhile isBlank, ?_, fun c => List.mem_takeWhile_imp,
    fun c => List.mem_rtakeWhile_imp⟩
  show text = text.takeWhile isBlank ++ (text.dropWhile isBlank).rdropWhile isBlank ++ _
  rw [List.append_assoc, List.rdropWhile_append_rtakeWhile, List.takeWhile_append_dropWhile]

end Blank

/-! ## Bytes in base sixteen -/

namespace Hex

/-- The bytes of an array from an index on, after those collected already. -/
theorem toList_loop (bytes : ByteArray) (i : Nat) (found : List UInt8) :
    ByteArray.toList.loop bytes i found = found.reverse ++ bytes.data.toList.drop i := by
  induction i, found using ByteArray.toList.loop.induct bytes with
  | case1 i found hmore ih =>
      have hinside : i < bytes.data.toList.length := hmore
      have hbyte : bytes.get! i = bytes.data.toList[i] := getElem!_pos bytes.data i hmore
      rw [ByteArray.toList.loop, if_pos hmore, ih, List.drop_eq_getElem_cons hinside, List.reverse_cons, List.append_assoc,
        hbyte, List.singleton_append]
  | case2 i found hend =>
      have hnone : bytes.data.toList.length ≤ i := Nat.le_of_not_lt hend
      rw [ByteArray.toList.loop, if_neg hend, List.drop_eq_nil_of_le hnone, List.append_nil]

theorem toList_eq (bytes : ByteArray) : bytes.toList = bytes.data.toList := toList_loop bytes 0 []

/-- Characters below 128 are one byte each. -/
theorem toUTF8_ofList {row : List Char} (h : ∀ c ∈ row, c.toNat < 128) :
    (String.ofList row).toUTF8.toList = row.map fun c => UInt8.ofNat c.toNat := by
  rw [String.toUTF8_eq_toByteArray, String.toByteArray_ofList, toList_eq, List.utf8Encode, List.toList_data_toByteArray]
  induction row with
  | nil => rfl
  | cons c row ih =>
      have hbyte : String.utf8EncodeChar c = [UInt8.ofNat c.toNat] := by
        have hsmall : c.val.toNat ≤ 127 := Nat.le_of_lt_succ (h c List.mem_cons_self)
        rw [String.utf8EncodeChar, if_pos hsmall]
        rfl
      rw [List.flatMap_cons, hbyte, ih fun d hmem => h d (List.mem_cons_of_mem _ hmem)]
      rfl

theorem digit_lt {d : Nat} (h : d < 16) : (digit d).toNat < 128 := by
  have hdigits : ∀ d : Fin 16, (digit d.val).toNat < 128 := by decide
  exact hdigits ⟨d, h⟩

/-- The two digits of a byte, as bytes. -/
def digitBytes (b : UInt8) : List UInt8 :=
  [UInt8.ofNat (digit (b.toNat / 16)).toNat, UInt8.ofNat (digit (b.toNat % 16)).toNat]

theorem toUTF8_encode (bytes : List UInt8) : (encode bytes).toUTF8.toList = bytes.flatMap digitBytes := by
  rw [encode, toUTF8_ofList, digits, List.map_flatMap]
  · rfl
  · intro c hmem
    obtain ⟨b, -, hc⟩ := List.mem_flatMap.1 hmem
    have hb := b.toNat_lt
    rw [List.mem_pair] at hc
    rcases hc with rfl | rfl
    · exact digit_lt (by omega)
    · exact digit_lt (by omega)

theorem length_flatMap_digitBytes (bytes : List UInt8) : (bytes.flatMap digitBytes).length = 2 * bytes.length := by
  induction bytes with
  | nil => rfl
  | cons b bytes ih =>
      have hboth : (digitBytes b).length = 2 := rfl
      rw [List.flatMap_cons, List.length_append, hboth, ih, List.length_cons, Nat.mul_add, Nat.add_comm]

theorem value?_byte {d : Nat} (h : d < 16) : value? (UInt8.ofNat (digit d).toNat).toNat = some d := by
  have hsmall := digit_lt h
  rw [UInt8.toNat_ofNat', Nat.mod_eq_of_lt (by omega)]
  exact value?_digit h

theorem pairs_flatMap_digitBytes (bytes : List UInt8) (position : Nat) :
    pairs position (bytes.flatMap digitBytes) = .ok bytes := by
  induction bytes generalizing position with
  | nil => rfl
  | cons b bytes ih =>
      have hb := b.toNat_lt
      rw [List.flatMap_cons, digitBytes, List.cons_append, List.cons_append, List.nil_append, pairs,
        value?_byte (by omega), value?_byte (by omega), ih]
      show Except.ok (UInt8.ofNat (16 * (b.toNat / 16) + b.toNat % 16) :: bytes) = _
      rw [Nat.div_add_mod, UInt8.ofNat_toNat]

/-- **Bytes written in base sixteen are read back.** -/
theorem decode_encode_bytes (bytes : List UInt8) : decode (encode bytes) = .ok bytes := by
  have heven : ¬(encode bytes).toUTF8.toList.length % 2 = 1 := by
    rw [toUTF8_encode, length_flatMap_digitBytes]
    omega
  rw [decode, if_neg heven, toUTF8_encode, pairs_flatMap_digitBytes]

end Hex

/-! ## Addresses -/

/-- A mark in front is dropped, and nothing else. -/
theorem Identifier.withoutMark_append (text : String) : withoutMark ("0x" ++ text) = text := by
  have htext : ("0x" ++ text).toList = '0' :: 'x' :: text.toList := String.toList_append
  rw [withoutMark, htext]
  exact String.ofList_toList

/-- **The text of an address is read back as the address.** -/
theorem Address.parse_text (a : Address) : parse a.text = .ok a := by
  have hlength : a.bytes.length = 20 := Bytes.length_bigEndian 20 a.value
  have hread := ofBytes?_bytes a
  rw [ofBytes?, dif_pos hlength] at hread
  rw [parse, text, Identifier.bytesOfHex, Identifier.withoutMark_append, Hex.decode_encode_bytes]
  dsimp only
  rw [dif_pos hlength]
  exact congrArg Except.ok (Option.some.inj hread)

end CollateralDebt
