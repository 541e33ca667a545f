import CollateralDebt.Address
import CollateralDebt.Amount.Arithmetic
import CollateralDebt.Digest.Basic

/-!
Binary formats. A format writes a value as a row of bytes and reads one off the front of a row. It carries its
two laws: a value that fits the format is read back whatever follows it (`read_write`), and every value that is
read fits (`fits_of_read`). Numbers have a fixed width and stand with the least significant byte first; a list
stands after its length and a map is written as the list of its entries in order.
-/

namespace CollateralDebt

/-- How values of a type are written as bytes and read back. -/
structure Format (α : Type) where
  write : α → List UInt8
  /-- The value at the front of a row of bytes, and the bytes after it. -/
  read : List UInt8 → Option (α × List UInt8)
  /-- The values that the format can hold. -/
  Fits : α → Prop
  /-- A value that fits is read back whatever follows it. -/
  read_write : ∀ {a : α} (rest : List UInt8), Fits a → read (write a ++ rest) = some (a, rest)
  fits_of_read : ∀ {bytes : List UInt8} {a : α} {rest : List UInt8}, read bytes = some (a, rest) → Fits a

namespace Format

variable {α β : Type}

/-- The first bytes of a row, as many as are asked for, and the bytes after them. -/
def split : Nat → List UInt8 → Option (List UInt8 × List UInt8)
  | 0, bytes => some ([], bytes)
  | _ + 1, [] => none
  | count + 1, b :: bytes => (split count bytes).map fun (first, rest) => (b :: first, rest)

theorem split_append (first rest : List UInt8) : split first.length (first ++ rest) = some (first, rest) := by
  induction first with
  | nil => rfl
  | cons b first ih => simp [split, ih]

theorem length_of_split {count : Nat} {bytes first rest : List UInt8} (h : split count bytes = some (first, rest)) :
    first.length = count := by
  induction count generalizing bytes first rest with
  | zero =>
      simp only [split, Option.some.injEq, Prod.mk.injEq] at h
      simp [← h.1]
  | succ count ih =>
      cases bytes with
      | nil => simp [split] at h
      | cons b bytes =>
          simp only [split, Option.map_eq_some_iff] at h
          obtain ⟨⟨inner, tail⟩, hinner, hsame⟩ := h
          simp only [Prod.mk.injEq] at hsame
          rw [← hsame.1, List.length_cons, ih hinner]

def bytes (width : Nat) : Format (List UInt8) where
  write row := row
  read := split width
  Fits row := row.length = width
  read_write rest hfits := by rw [← hfits]; exact split_append _ rest
  fits_of_read := length_of_split

/-- A value that stands for another one: what cannot be converted is refused. -/
def convert (f : Format α) (pack : α → Option β) (unpack : β → α) (pack_unpack : ∀ b, pack (unpack b) = some b)
    (fits_unpack : ∀ a b, pack a = some b → f.Fits a → f.Fits (unpack b)) : Format β where
  write b := f.write (unpack b)
  read bytes :=
    match f.read bytes with
    | none => none
    | some (a, rest) =>
        match pack a with
        | none => none
        | some b => some (b, rest)
  Fits b := f.Fits (unpack b)
  read_write rest hfits := by simp only [f.read_write rest hfits, pack_unpack]
  fits_of_read h := by
    split at h
    · cases h
    · next a rest' hread =>
        split at h
        · cases h
        · next b hpacked =>
            injection h with h
            injection h with hfirst _
            exact hfirst ▸ fits_unpack a b hpacked (f.fits_of_read hread)

/-- A value that another one determines and is determined by. -/
def record (f : Format α) (pack : α → β) (unpack : β → α) (pack_unpack : ∀ b, pack (unpack b) = b)
    (unpack_pack : ∀ a, unpack (pack a) = a) : Format β :=
  f.convert (fun a => some (pack a)) unpack (fun b => by rw [pack_unpack])
    (fun a b hpacked hfits => by
      injection hpacked with hpacked
      rw [← hpacked, unpack_pack]
      exact hfits)

/-- Two values, one after the other. -/
def pair (f : Format α) (g : Format β) : Format (α × β) where
  write value := f.write value.1 ++ g.write value.2
  read bytes :=
    match f.read bytes with
    | none => none
    | some (a, rest) =>
        match g.read rest with
        | none => none
        | some (b, rest) => some ((a, b), rest)
  Fits value := f.Fits value.1 ∧ g.Fits value.2
  read_write rest hfits := by
    simp only [List.append_assoc, f.read_write _ hfits.1, g.read_write _ hfits.2]
  fits_of_read h := by
    split at h
    · cases h
    · next a rest' hfirst =>
        split at h
        · cases h
        · next b rest'' hsecond =>
            injection h with h
            injection h with hsame _
            rw [← hsame]
            exact ⟨f.fits_of_read hfirst, g.fits_of_read hsecond⟩

def number (width : Nat) : Format Nat where
  write n := Bytes.littleEndian width n
  read bytes := (split width bytes).map fun (first, rest) => (Bytes.ofLittleEndian first, rest)
  Fits n := n < Nat.pow 256 width
  read_write {n} rest hfits := by
    have hfront := split_append (Bytes.littleEndian width n) rest
    rw [Bytes.length_littleEndian] at hfront
    simp only [hfront, Option.map_some, Bytes.ofLittleEndian_littleEndian, Nat.mod_eq_of_lt hfits]
  fits_of_read h := by
    obtain ⟨⟨first, tail⟩, hsplit, hsame⟩ := Option.map_eq_some_iff.1 h
    injection hsame with hsame _
    rw [← hsame, ← length_of_split hsplit]
    exact Bytes.ofLittleEndian_lt first

/-- A count, in eight bytes. -/
def count : Format Nat := number 8

def word : Format UInt64 :=
  count.convert (fun n => some (UInt64.ofNat n)) UInt64.toNat (fun w => by simp)
    (fun _ w _ _ => by show w.toNat < Nat.pow 256 8; exact w.toNat_lt)

/-- An amount, in sixteen bytes. -/
def amount : Format Amount :=
  (number 16).convert Amount.ofUnits? Amount.units Amount.ofUnits?_units
    (fun _ a _ _ => by show a.units < Nat.pow 256 16; exact a.units_lt)

/-- An address, in its twenty bytes. -/
def address : Format Address :=
  (bytes 20).convert Address.ofBytes? Address.bytes Address.ofBytes?_bytes
    (fun _ a _ _ => by show a.bytes.length = 20; simp [Address.bytes])

/-- Values one after the other, as many as are asked for. -/
def readMany (f : Format α) : Nat → List UInt8 → Option (List α × List UInt8)
  | 0, bytes => some ([], bytes)
  | count + 1, bytes =>
      match f.read bytes with
      | none => none
      | some (a, rest) =>
          match readMany f count rest with
          | none => none
          | some (values, rest) => some (a :: values, rest)

theorem readMany_flatMap (f : Format α) (values : List α) (rest : List UInt8) (hfits : ∀ a ∈ values, f.Fits a) :
    readMany f values.length (values.flatMap f.write ++ rest) = some (values, rest) := by
  induction values with
  | nil => rfl
  | cons a values ih =>
      simp only [List.length_cons, readMany, List.flatMap_cons, List.append_assoc,
        f.read_write _ (hfits a List.mem_cons_self), ih fun b hmem => hfits b (List.mem_cons_of_mem _ hmem)]

theorem fits_of_readMany (f : Format α) {count : Nat} {bytes : List UInt8} {values : List α} {rest : List UInt8}
    (h : readMany f count bytes = some (values, rest)) : values.length = count ∧ ∀ a ∈ values, f.Fits a := by
  induction count generalizing bytes values rest with
  | zero =>
      simp only [readMany, Option.some.injEq, Prod.mk.injEq] at h
      simp [← h.1]
  | succ count ih =>
      simp only [readMany] at h
      split at h
      · cases h
      · next a rest' hfirst =>
          split at h
          · cases h
          · next tail rest'' hothers =>
              injection h with h
              injection h with hsame _
              obtain ⟨hlength, hfits⟩ := ih hothers
              subst hsame
              refine ⟨by simp [hlength], fun b hmem => ?_⟩
              rcases List.mem_cons.1 hmem with rfl | hmem
              · exact f.fits_of_read hfirst
              · exact hfits b hmem

/-- A list, after its length. -/
def list (f : Format α) : Format (List α) where
  write values := count.write values.length ++ values.flatMap f.write
  read bytes :=
    match count.read bytes with
    | none => none
    | some (length, rest) => readMany f length rest
  Fits values := values.length < UInt64.size ∧ ∀ a ∈ values, f.Fits a
  read_write rest hfits := by
    simp only [List.append_assoc, count.read_write _ hfits.1, readMany_flatMap f _ rest hfits.2]
  fits_of_read h := by
    split at h
    · cases h
    · next length rest' hcount =>
        obtain ⟨hlength, hfits⟩ := fits_of_readMany f h
        exact ⟨hlength ▸ count.fits_of_read hcount, hfits⟩

/-- A map, as the list of its entries; they are read in any order, and the last one of a key counts. -/
def map {κ : Type} [Key κ] (key : Format κ) (value : Format α) : Format (SortedMap κ α) :=
  (key.pair value).list.convert (fun entries => some (SortedMap.ofList entries)) SortedMap.entries
    (fun m => by rw [SortedMap.ofList_entries])
    (fun entries m hmap hfits => by
      injection hmap with hmap
      obtain ⟨hlength, hall⟩ := SortedMap.entries_foldl_insert entries (SortedMap.empty : SortedMap κ α)
      subst hmap
      refine ⟨Nat.lt_of_le_of_lt hlength (by simpa [SortedMap.empty] using hfits.1), fun entry hmem => ?_⟩
      exact hfits.2 entry ((hall entry hmem).resolve_left (by simp [SortedMap.empty])))

/-- A text of ASCII characters, after its length. -/
def text : Format (List Char) where
  write row := count.write row.length ++ row.map fun c => UInt8.ofNat c.toNat
  read bytes :=
    match count.read bytes with
    | none => none
    | some (length, rest) =>
        match split length rest with
        | none => none
        | some (row, rest) =>
            if row.all fun b => b.toNat < 128 then some (row.map fun b => Char.ofNat b.toNat, rest) else none
  Fits row := row.length < UInt64.size ∧ ∀ c ∈ row, c.toNat < 128
  read_write {row} rest hfits := by
    have hfront := split_append (row.map fun c => UInt8.ofNat c.toNat) rest
    rw [List.length_map] at hfront
    have hsmall : ∀ c ∈ row, (UInt8.ofNat c.toNat).toNat = c.toNat := fun c hmem => by
      rw [UInt8.toNat_ofNat', Nat.mod_eq_of_lt (Nat.lt_of_lt_of_le (hfits.2 c hmem) (by decide))]
    have hascii : (row.map fun c => UInt8.ofNat c.toNat).all (fun b => b.toNat < 128) = true := by
      simp only [List.all_eq_true, List.mem_map, decide_eq_true_eq]
      rintro b ⟨c, hmem, rfl⟩
      rw [hsmall c hmem]
      exact hfits.2 c hmem
    have hback : (row.map fun c => UInt8.ofNat c.toNat).map (fun b => Char.ofNat b.toNat) = row := by
      rw [List.map_map]
      conv => rhs; rw [← List.map_id row]
      refine List.map_congr_left fun c hmem => ?_
      simp [hsmall c hmem]
    simp only [List.append_assoc, count.read_write _ hfits.1, hfront, hascii, hback, if_true]
  fits_of_read {bytes a rest} h := by
    split at h
    · cases h
    · next length rest' hcount =>
        split at h
        · cases h
        · next row rest'' hsplit =>
            split at h
            · next hascii =>
                injection h with h
                injection h with hsame _
                rw [← hsame]
                refine ⟨by
                  rw [List.length_map, length_of_split hsplit]
                  exact count.fits_of_read hcount, fun c hmem => ?_⟩
                obtain ⟨b, hb, rfl⟩ := List.mem_map.1 hmem
                have hsmall : b.toNat < 128 := by simpa using List.all_eq_true.1 hascii b hb
                have hall : ∀ n : Fin 128, (Char.ofNat n.val).toNat < 128 := by decide
                exact hall ⟨b.toNat, hsmall⟩
            · cases h

/-- The value that a row of bytes starts with. -/
def decode? (f : Format α) (bytes : List UInt8) : Option α := (f.read bytes).map Prod.fst

end Format

end CollateralDebt
