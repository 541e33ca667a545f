import CollateralDebt.Proofs.Machine.Collateral

/-! The encoding of states is exact. A state whose counts are words is read back whatever follows its bytes, so two
such states with the same bytes are one state. Rows that no state is written as are read too: the entries of a map may
stand in any order, and a running sum may be written with zeros in front or in capitals. What is read from any of them
has counts that are words, and is written and read back as it is. -/

open CollateralDebt.Action

namespace CollateralDebt

namespace Format

variable {α β : Type}

/-! What the combinators of formats can hold, said by what their parts can hold. -/

@[simp] theorem fits_count {n : Nat} : count.Fits n ↔ n < UInt64.size := Iff.rfl

@[simp] theorem fits_word (w : UInt64) : word.Fits w := w.toNat_lt

@[simp] theorem fits_amount (a : Amount) : amount.Fits a := a.units_lt

@[simp] theorem fits_address (a : Address) : address.Fits a := by
  show a.bytes.length = 20
  simp [Address.bytes]

@[simp] theorem fits_pair {f : Format α} {g : Format β} {a : α} {b : β} :
    (f.pair g).Fits (a, b) ↔ f.Fits a ∧ g.Fits b := Iff.rfl

@[simp] theorem fits_record {f : Format α} {pack : α → β} {unpack : β → α} {pack_unpack : ∀ b, pack (unpack b) = b}
    {unpack_pack : ∀ a, unpack (pack a) = a} {b : β} :
    (f.record pack unpack pack_unpack unpack_pack).Fits b ↔ f.Fits (unpack b) := Iff.rfl

@[simp] theorem fits_list {f : Format α} {values : List α} :
    f.list.Fits values ↔ values.length < UInt64.size ∧ ∀ a ∈ values, f.Fits a := Iff.rfl

@[simp] theorem fits_map {κ : Type} [Key κ] {key : Format κ} {value : Format α} {m : SortedMap κ α} :
    (map key value).Fits m ↔ m.size < UInt64.size ∧ ∀ entry ∈ m.entries, key.Fits entry.1 ∧ value.Fits entry.2 :=
  Iff.rfl

/-- Entries are read in any order, and of those with one key the last one counts. -/
theorem read_map_unordered {κ : Type} [Key κ] {key : Format κ} {value : Format α} {entries : List (κ × α)}
    (hfits : (key.pair value).list.Fits entries) (rest : List UInt8) :
    (map key value).read ((key.pair value).list.write entries ++ rest) = some (SortedMap.ofList entries, rest) := by
  unfold map convert
  dsimp only
  rw [(key.pair value).list.read_write rest hfits]

end Format

@[simp] theorem RunningSum.fits_format (s : RunningSum) : RunningSum.format.Fits s := s.fits_written

/-- A sum is read from any text that stands for it. -/
theorem RunningSum.read_loose {s : RunningSum} {row : List Char} (hfits : Format.text.Fits row)
    (hrow : RunningSum.ofChars? row = some s) (rest : List UInt8) :
    RunningSum.format.read (Format.text.write row ++ rest) = some (s, rest) := by
  unfold RunningSum.format Format.convert
  dsimp only
  rw [Format.text.read_write rest hfits]
  dsimp only
  rw [hrow]

/-- Both numbers of a phase are below a bound. -/
def Phase.CountsBelow (p : Phase) (bound : Nat) : Prop := p.epoch < bound ∧ p.scale < bound

/-- The counts of a ledger are below a bound. -/
structure Ledger.CountsBelow (l : Ledger) (bound : Nat) : Prop where
  records : l.troves.size < bound
  slots : l.troves.All fun t => t.slot < bound
  owners : l.owners.length < bound

/-- The counts of a pool are below a bound. -/
structure StabilityPool.CountsBelow (s : StabilityPool) (bound : Nat) : Prop where
  phase : s.phase.CountsBelow bound
  sums : s.sums.size < bound
  phases : ∀ entry ∈ s.sums.entries, entry.1.CountsBelow bound
  deposits : s.deposits.size < bound
  snapshots : s.deposits.All fun d => d.snapshot.phase.CountsBelow bound
  offsets : s.offsets < bound

/-- The counts of a state are words. -/
structure State.InWords (s : State) : Prop where
  ledger : s.ledger.CountsBelow UInt64.size
  pool : s.pool.CountsBelow UInt64.size
  balances : s.surplus.balances.size < UInt64.size

instance (p : Phase) (bound : Nat) : Decidable (p.CountsBelow bound) :=
  inferInstanceAs (Decidable (p.epoch < bound ∧ p.scale < bound))

instance (l : Ledger) (bound : Nat) : Decidable (l.CountsBelow bound) :=
  decidable_of_iff
    (l.troves.size < bound ∧ (l.troves.All fun t => t.slot < bound) ∧ l.owners.length < bound)
    ⟨fun ⟨records, slots, owners⟩ => ⟨records, slots, owners⟩, fun h => ⟨h.records, h.slots, h.owners⟩⟩

instance (s : StabilityPool) (bound : Nat) : Decidable (s.CountsBelow bound) :=
  decidable_of_iff
    (s.phase.CountsBelow bound ∧ s.sums.size < bound ∧ (∀ entry ∈ s.sums.entries, entry.1.CountsBelow bound) ∧
      s.deposits.size < bound ∧ (s.deposits.All fun d => d.snapshot.phase.CountsBelow bound) ∧ s.offsets < bound)
    ⟨fun ⟨phase, sums, phases, deposits, snapshots, offsets⟩ => ⟨phase, sums, phases, deposits, snapshots, offsets⟩,
      fun h => ⟨h.phase, h.sums, h.phases, h.deposits, h.snapshots, h.offsets⟩⟩

instance (s : State) : Decidable s.InWords :=
  decidable_of_iff
    (s.ledger.CountsBelow UInt64.size ∧ s.pool.CountsBelow UInt64.size ∧ s.surplus.balances.size < UInt64.size)
    ⟨fun ⟨ledger, pool, balances⟩ => ⟨ledger, pool, balances⟩, fun h => ⟨h.ledger, h.pool, h.balances⟩⟩

/-! A part of a state fits its format if its counts are words; amounts, addresses and sums always fit. -/

theorem Params.fits_format (p : Params) : Params.format.Fits p := by simp [Params.format]

theorem Level.fits_format (l : Level) : Level.format.Fits l := by simp [Level.format]

theorem TroveStatus.fits_format (s : TroveStatus) : TroveStatus.format.Fits s := by
  cases s <;> (show _ < Nat.pow 256 4; decide)

theorem Trove.fits_format_iff {t : Trove} : Trove.format.Fits t ↔ t.slot < UInt64.size := by
  simp [Trove.format, TroveStatus.fits_format, Level.fits_format]

theorem Rewards.fits_format (r : Rewards) : Rewards.format.Fits r := by simp [Rewards.format, Level.fits_format]

theorem Pools.fits_format (p : Pools) : Pools.format.Fits p := by simp [Pools.format]

theorem Ledger.fits_format_iff {l : Ledger} : Ledger.format.Fits l ↔ l.CountsBelow UInt64.size := by
  simp only [Ledger.format, Format.fits_record, Format.fits_pair, Format.fits_map, Format.fits_list,
    Format.fits_address, Format.fits_amount, Trove.fits_format_iff, Rewards.fits_format, Pools.fits_format, true_and,
    and_true, implies_true]
  exact ⟨fun ⟨⟨records, slots⟩, owners⟩ => ⟨records, slots, owners⟩, fun h => ⟨⟨h.records, h.slots⟩, h.owners⟩⟩

theorem Phase.fits_format_iff {p : Phase} : Phase.format.Fits p ↔ p.CountsBelow UInt64.size := by
  simp [Phase.format, Phase.CountsBelow]

theorem Deposit.fits_format_iff {d : Deposit} : Deposit.format.Fits d ↔ d.snapshot.phase.CountsBelow UInt64.size := by
  simp [Deposit.format, DepositSnapshot.format, Phase.fits_format_iff]

theorem StabilityPool.fits_format_iff {s : StabilityPool} :
    StabilityPool.format.Fits s ↔ s.CountsBelow UInt64.size := by
  simp only [StabilityPool.format, Format.fits_record, Format.fits_pair, Format.fits_map, Format.fits_count,
    Format.fits_address, Format.fits_amount, Phase.fits_format_iff, Deposit.fits_format_iff, RunningSum.fits_format,
    true_and, and_true]
  exact ⟨fun ⟨scale, epoch, ⟨sums, phases⟩, ⟨deposits, snapshots⟩, offsets⟩ =>
      ⟨⟨epoch, scale⟩, sums, phases, deposits, snapshots, offsets⟩,
    fun h => ⟨h.phase.2, h.phase.1, ⟨h.sums, h.phases⟩, ⟨h.deposits, h.snapshots⟩, h.offsets⟩⟩

theorem Surplus.fits_format_iff {s : Surplus} : Surplus.format.Fits s ↔ s.balances.size < UInt64.size := by
  simp [Surplus.format]

namespace State

/-- A state fits its format if and only if its version does and its counts are words. -/
theorem fits_format_iff {s : State} : format.Fits s ↔ s.version < 2 ^ 32 ∧ s.InWords := by
  simp only [format, Format.fits_record, Format.fits_pair, Params.fits_format, Ledger.fits_format_iff,
    StabilityPool.fits_format_iff, Surplus.fits_format_iff, true_and]
  exact ⟨fun ⟨version, ledger, pool, balances⟩ => ⟨version, ledger, pool, balances⟩,
    fun ⟨version, h⟩ => ⟨version, h.ledger, h.pool, h.balances⟩⟩

theorem decode_eq_ok {bytes : List UInt8} {s : State} (h : decode bytes = .ok s) :
    format.decode? bytes = some s ∧ s.version = currentVersion := by
  unfold decode at h
  split at h
  · cases h
  · next s' hread =>
      split at h
      · next hversion =>
          cases h
          exact ⟨hread, hversion⟩
      · cases h

/-- A state of the version that is read comes back from its bytes, whatever follows them. -/
theorem decode_append_of_inWords {s : State} (hversion : s.version = currentVersion) (hwords : s.InWords)
    (rest : List UInt8) : decode (s.encode ++ rest) = .ok s := by
  have hfits : format.Fits s := fits_format_iff.2 ⟨by rw [hversion]; decide, hwords⟩
  have hread : format.decode? (s.encode ++ rest) = some s := by
    rw [Format.decode?, encode, format.read_write rest hfits, Option.map_some]
  unfold decode
  rw [hread]
  exact if_pos hversion

/-- Whatever bytes a state is read from, its counts are words. -/
theorem inWords_of_decode {bytes : List UInt8} {s : State} (h : decode bytes = .ok s) :
    s.version = currentVersion ∧ s.InWords := by
  obtain ⟨hread, hversion⟩ := decode_eq_ok h
  obtain ⟨⟨_, rest⟩, hfront, rfl⟩ := Option.map_eq_some_iff.1 hread
  exact ⟨hversion, (fits_format_iff.1 (format.fits_of_read hfront)).2⟩

/-- **States survive their encoding.** A state of the version that is read, with counts that are words, is read back
from its bytes whatever follows them; two such states with the same bytes are the same; and a state that was read from
any bytes at all is read back from its own. -/
theorem decode_encode :
    (∀ s : State, s.version = currentVersion → s.InWords → ∀ rest, decode (s.encode ++ rest) = .ok s) ∧
    (∀ s s' : State, s.version = currentVersion → s.InWords → s'.version = currentVersion → s'.InWords →
      s.encode = s'.encode → s = s') ∧
    ∀ bytes s, decode bytes = .ok s → decode s.encode = .ok s := by
  have hback : ∀ s : State, s.version = currentVersion → s.InWords → decode s.encode = .ok s := by
    intro s hversion hwords
    have happend := decode_append_of_inWords hversion hwords []
    rwa [List.append_nil] at happend
  refine ⟨fun s => decode_append_of_inWords, fun s s' hversion hwords hversion' hwords' hsame => ?_, fun bytes s h => ?_⟩
  · have hs := hback s hversion hwords
    rw [hsame, hback s' hversion' hwords'] at hs
    exact (Except.ok.inj hs).symm
  · obtain ⟨hversion, hwords⟩ := inWords_of_decode h
    exact hback s hversion hwords

/-- A state without troves, with two running sums and two balances. -/
def loose : State where
  version := currentVersion
  params := .standard
  ledger := .empty
  pool := { StabilityPool.ofParams .standard with
    sums := (SortedMap.empty.insert ⟨0, 0⟩ ⟨255, by decide⟩).insert ⟨0, 1⟩ ⟨15, by decide⟩ }
  surplus := ⟨(SortedMap.empty.insert (.ofWord 1) (.ofWhole 5)).insert (.ofWord 2) (.ofWhole 9), .ofWhole 14⟩

/-- A row of bytes for it that it is not written as: the later phase and the later account stand first, one balance
stands twice, and the sums are written in capitals, one without its mark and the other with zeros in front. -/
def looseRow : List UInt8 :=
  (Format.number 4).write currentVersion ++ Params.format.write .standard ++ Ledger.format.write .empty ++
    Format.amount.write .zero ++ Format.amount.write .zero ++ Format.amount.write .one ++
    Format.count.write 0 ++ Format.count.write 0 ++
    (Phase.format.pair Format.text).list.write [(⟨0, 1⟩, "F".toList), (⟨0, 0⟩, "0x00fF".toList)] ++
    Format.amount.write .zero ++ Format.amount.write .zero ++
    (Format.map Format.address Deposit.format).write .empty ++
    Format.amount.write loose.pool.floor ++ Format.amount.write loose.pool.factor ++ Format.count.write 0 ++
    Format.amount.write .zero ++
    (Format.address.pair Format.amount).list.write
      [(.ofWord 2, .ofWhole 7), (.ofWord 1, .ofWhole 5), (.ofWord 2, .ofWhole 9)] ++
    Format.amount.write (.ofWhole 14)

/-- A state with troves, a deposit, a running sum and a balance comes back though bytes follow it, and the loose row is
read as a state that is written otherwise and comes back from that. -/
theorem decode_encode_recovered :
    Machine.recoveredReached.state.version = currentVersion ∧ Machine.recoveredReached.state.InWords ∧
    decode (Machine.recoveredReached.state.encode ++ [7, 0, 7]) = .ok Machine.recoveredReached.state ∧
    decode looseRow = .ok loose ∧ loose.encode ≠ looseRow ∧ decode loose.encode = .ok loose := by
  have hversion : Machine.recoveredReached.state.version = currentVersion := by decide +kernel
  have hwords : Machine.recoveredReached.state.InWords := by decide +kernel
  have hloose : decode looseRow = .ok loose := by decide +kernel
  obtain ⟨hback, -, hread⟩ := decode_encode
  exact ⟨hversion, hwords, hback _ hversion hwords [7, 0, 7], hloose, by decide +kernel, hread _ _ hloose⟩

end State

end CollateralDebt
