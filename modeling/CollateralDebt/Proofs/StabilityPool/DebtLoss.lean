import CollateralDebt.Proofs.StabilityPool.Product
import CollateralDebt.Proofs.Word

/-! What an offset of a part of the pool charges to each unit deposited. What is due is the loss, less what was charged
too much before; it is divided by what the pool holds, and the charge is the whole number above the quotient, also where
nothing remains. So the charge is one at most without being held to it, and what it comes to exceeds what is due, but by
no more than the pool holds (`exists_accounts`). No step of the calculation overflows in words of 256 bits
(`lossInWords_eq`). What is carried on accounts for the charge exactly, unless more was charged too much before than the
loss comes to (`debtLoss_exact`). -/

open CollateralDebt.Action

namespace CollateralDebt.StabilityPool

variable {s : StabilityPool} {debtLoss total carried excess : Amount}

/-! ## The charge -/

/-- What is due for a loss, in parts of which a unit of the last place has as many as one has units of the last place,
less what was charged too much before. -/
def dueUnits (debtLoss carried : Amount) : Nat := debtLoss.units * Amount.scale - carried.units

/-- What is charged to each unit deposited. -/
def chargePerUnit (debtLoss total carried : Amount) : Nat := dueUnits debtLoss carried / total.units + 1

theorem dueUnits_lt (hpart : debtLoss < total) : dueUnits debtLoss carried < total.units * Amount.scale :=
  Nat.lt_of_le_of_lt (Nat.sub_le _ _) (Nat.mul_lt_mul_of_pos_right hpart (by decide))

/-- A loss of less than the pool takes one at most off each unit. -/
theorem chargePerUnit_le (hpart : debtLoss < total) : chargePerUnit debtLoss total carried ≤ Amount.scale :=
  Nat.div_lt_of_lt_mul (dueUnits_lt hpart)

/-- The charge comes to the next multiple of what the pool holds after what is due. -/
theorem chargePerUnit_mul (debtLoss carried : Amount) (htotal : 0 < total.units) :
    chargePerUnit debtLoss total carried * total.units =
      dueUnits debtLoss carried + (total.units - dueUnits debtLoss carried % total.units) := by
  have hdivided := Nat.div_add_mod' (dueUnits debtLoss carried) total.units
  have hrest := Nat.mod_lt (dueUnits debtLoss carried) htotal
  rw [chargePerUnit, Nat.succ_mul]
  omega

theorem lossPerUnit_of_lt (hpart : debtLoss < total)
    (hexcess : excess.units = chargePerUnit debtLoss total carried * total.units - dueUnits debtLoss carried) :
    lossPerUnit debtLoss total carried = .ok (chargePerUnit debtLoss total carried, excess) := by
  have hne : debtLoss ≠ total := fun hsame => Nat.lt_irrefl _ (hsame ▸ hpart : total < total)
  have hheld : Nat.min (dueUnits debtLoss carried / total.units + 1) Amount.scale = chargePerUnit debtLoss total carried :=
    Nat.min_eq_left (chargePerUnit_le hpart)
  rw [lossPerUnit, if_neg hne, ← dueUnits]
  dsimp only
  rw [hheld, ← hexcess]
  exact except_bind_eq_ok.2 ⟨excess, Amount.narrow_eq_ok_iff.2 rfl, rfl⟩

/-- So much is charged to each unit deposited, and that is so much too much. -/
structure Accounts (debtLoss total carried : Amount) (perUnit : Nat) (excess : Amount) : Prop where
  lossPerUnit_eq : lossPerUnit debtLoss total carried = .ok (perUnit, excess)
  perUnit_eq : perUnit = dueUnits debtLoss carried / total.units + 1
  perUnit_le : perUnit ≤ Amount.scale
  due_le : dueUnits debtLoss carried ≤ perUnit * total.units
  excess_eq : excess.units = perUnit * total.units - dueUnits debtLoss carried
  excess_pos : 0 < excess.units
  excess_le : excess ≤ total
  /-- No less is charged than the loss, with what was charged too much before taken into account. -/
  covers : debtLoss.units * Amount.scale + excess.units ≤ perUnit * total.units + carried.units
  exact_of_le : carried.units ≤ debtLoss.units * Amount.scale →
    perUnit * total.units + carried.units = debtLoss.units * Amount.scale + excess.units

/-- A loss of less than the pool has a charge that is accounted for. -/
theorem exists_accounts (carried : Amount) (hpart : debtLoss < total) :
    ∃ excess, Accounts debtLoss total carried (chargePerUnit debtLoss total carried) excess := by
  have htotal : 0 < total.units := Nat.zero_lt_of_lt hpart
  have hrest := Nat.mod_lt (dueUnits debtLoss carried) htotal
  have hcharged := chargePerUnit_mul debtLoss carried htotal
  have hsmall : total.units - dueUnits debtLoss carried % total.units < 1 <<< 128 :=
    Nat.lt_of_le_of_lt (Nat.sub_le _ _) total.units_lt
  have hexcess : total.units - dueUnits debtLoss carried % total.units =
      chargePerUnit debtLoss total carried * total.units - dueUnits debtLoss carried := by omega
  have hdue : dueUnits debtLoss carried = debtLoss.units * Amount.scale - carried.units := rfl
  refine ⟨⟨_, hsmall⟩, lossPerUnit_of_lt hpart hexcess, rfl, chargePerUnit_le hpart, ?_, hexcess,
    Nat.sub_pos_of_lt hrest, Nat.sub_le _ _, ?_, fun hcarried => ?_⟩
  · omega
  · dsimp only
    omega
  · dsimp only
    omega

/-! ## In words of 256 bits -/

/-- The charge to each unit deposited, held to one, and what it charges too much, worked out in words. -/
def lossInWords (debtLoss total carried : Amount) : Option (Word × Word) := do
  let scale := Word.ofNat Amount.scale
  let product ← (Word.ofNat debtLoss.units).times scale
  let numerator ← product.minusClamped (Word.ofNat carried.units)
  let quotient ← numerator.dividedBy (Word.ofNat total.units)
  let next ← quotient.plus (Word.ofNat 1)
  let perUnit := next.least scale
  let charged ← perUnit.times (Word.ofNat total.units)
  let excess ← charged.minus numerator
  return (perUnit, excess)

/-- No step overflows, and the words are the numbers. -/
theorem Accounts.lossInWords_eq {perUnit : Nat} (h : Accounts debtLoss total carried perUnit excess)
    (htotal : 0 < total.units) :
    lossInWords debtLoss total carried = some (Word.ofNat perUnit, Word.ofNat excess.units) := by
  have hproduct := Word.units_mul_lt debtLoss (Nat.le_refl _)
  have hdue : dueUnits debtLoss carried < 2 ^ 256 := Nat.lt_of_le_of_lt (Nat.sub_le _ _) hproduct
  have hscale : Amount.scale < 2 ^ 256 := by decide
  have hperUnit : perUnit < 2 ^ 256 := Nat.lt_of_le_of_lt h.perUnit_le hscale
  have hcharged : perUnit * total.units < 2 ^ 256 := Nat.mul_comm perUnit _ ▸ Word.units_mul_lt total h.perUnit_le
  have hnext : dueUnits debtLoss carried / total.units + 1 < 2 ^ 256 := h.perUnit_eq ▸ hperUnit
  have hquotient : (Word.ofNat (dueUnits debtLoss carried / total.units)).plus (Word.ofNat 1) =
      some (Word.ofNat perUnit) := by
    rw [Word.plus_ofNat hnext, h.perUnit_eq]
  have hleast : (Word.ofNat perUnit).least (Word.ofNat Amount.scale) = Word.ofNat perUnit :=
    Word.least_ofNat hscale h.perUnit_le
  have hexcess : (Word.ofNat (perUnit * total.units)).minus (Word.ofNat (dueUnits debtLoss carried)) =
      some (Word.ofNat excess.units) := by
    rw [Word.minus_ofNat hcharged h.due_le, h.excess_eq]
  unfold lossInWords
  refine Option.bind_eq_some_iff.2 ⟨_, Word.times_ofNat (Word.units_lt debtLoss) hscale hproduct, ?_⟩
  refine Option.bind_eq_some_iff.2 ⟨_, Word.minusClamped_ofNat hproduct (Word.units_lt carried), ?_⟩
  refine Option.bind_eq_some_iff.2 ⟨_, Word.dividedBy_ofNat hdue (Word.units_lt total) htotal, ?_⟩
  refine Option.bind_eq_some_iff.2 ⟨_, hquotient, ?_⟩
  dsimp only
  rw [hleast]
  refine Option.bind_eq_some_iff.2 ⟨_, Word.times_ofNat hperUnit (Word.units_lt total) hcharged, ?_⟩
  exact Option.bind_eq_some_iff.2 ⟨_, hexcess, rfl⟩

/-! ## In an offset -/

/-- No offset is refused for what its loss charges too much. -/
theorem offsetOf_ne_carriedLoss (s : StabilityPool) (debtLoss collateralGain : Amount) :
    s.offsetOf debtLoss collateralGain ≠ .error (.overflow .carriedLoss) := by
  intro h
  obtain ⟨perUnit, excess, hloss⟩ := exists_lossPerUnit debtLoss s.totalDeposits s.carriedLoss
  unfold StabilityPool.offsetOf at h
  rcases except_guard_eq_error h with ⟨-, hsame⟩ | ⟨-, h⟩
  · cases hsame
  rcases except_guard_eq_error h with ⟨-, hsame⟩ | ⟨-, h⟩
  · cases hsame
  rcases except_guard_eq_error h with ⟨-, hsame⟩ | ⟨-, h⟩
  · cases hsame
  rcases except_bind_eq_error.1 h with h | ⟨carriedGain, -, h⟩
  · cases Amount.eq_of_narrow_eq_error h
  rcases except_bind_eq_error.1 h with h | ⟨⟨perUnit', excess'⟩, -, h⟩
  · cases hloss.symm.trans h
  rcases except_bind_eq_error.1 h with h | ⟨sum, -, h⟩
  · rcases grownSum_eq_error h with hsame | hsame <;> cases hsame
  rcases except_bind_eq_error.1 h with h | ⟨⟨product, phase⟩, -, h⟩
  · rcases reducedProduct_eq_error h with hsame | hsame <;> cases hsame
  rcases except_guard_eq_error h with ⟨-, hsame⟩ | ⟨-, h⟩
  · cases hsame
  · cases h

theorem Accounts.offset_eq {perUnit : Nat} (h : Accounts debtLoss s.totalDeposits s.carriedLoss perUnit excess)
    {collateralGain : Amount} {o : Offset} (hoffset : s.offsetOf debtLoss collateralGain = .ok o) :
    o.carriedLoss = excess ∧ s.reducedProduct (Amount.scale - perUnit) = .ok (o.product, o.phase) := by
  obtain ⟨rfl, charged, hcharges⟩ := offsetOf_eq_ok hoffset
  obtain ⟨rfl, rfl⟩ := Prod.mk.inj (Except.ok.inj (hcharges.perUnit_eq.symm.trans h.lossPerUnit_eq))
  exact ⟨rfl, hcharges.product_eq⟩

/-- **An offset of a part of the pool accounts for the debt exactly.** Whatever the pool holds and has carried on, the
charge to each unit is one more than the quotient of what is due, and one at most without being held to it. It comes to
more than what is due, but by no more than the pool holds, so that no step overflows, in words of 256 bits either, and no
offset is refused for it. With what was charged too much before it comes to no less than the loss and what is carried on,
and to just that unless more was charged too much before than the loss comes to. -/
theorem debtLoss_exact (s : StabilityPool) {debtLoss : Amount} (hpart : debtLoss < s.totalDeposits) :
    ∃ perUnit excess, Accounts debtLoss s.totalDeposits s.carriedLoss perUnit excess ∧
      debtLoss.units * Amount.scale < 2 ^ 256 ∧ perUnit * s.totalDeposits.units < 2 ^ 256 ∧
      lossInWords debtLoss s.totalDeposits s.carriedLoss = some (Word.ofNat perUnit, Word.ofNat excess.units) ∧
      ∀ collateralGain : Amount, s.offsetOf debtLoss collateralGain ≠ .error (.overflow .carriedLoss) ∧
        ∀ o, s.offsetOf debtLoss collateralGain = .ok o →
          o.carriedLoss = excess ∧ s.reducedProduct (Amount.scale - perUnit) = .ok (o.product, o.phase) := by
  obtain ⟨excess, haccounts⟩ := exists_accounts s.carriedLoss hpart
  have hcharged := Nat.mul_comm s.totalDeposits.units _ ▸ Word.units_mul_lt s.totalDeposits haccounts.perUnit_le
  exact ⟨_, excess, haccounts, Word.units_mul_lt debtLoss (Nat.le_refl _), hcharged,
    haccounts.lossInWords_eq (Nat.zero_lt_of_lt hpart), fun collateralGain =>
      ⟨s.offsetOf_ne_carriedLoss debtLoss collateralGain, fun o => haccounts.offset_eq⟩⟩

/-- A billion deposited, and a loss of which each unit bears exactly one unit of the last place. -/
def overchargedCalls : List Call := [.provide (.ofWord 1) (.ofWhole 1000000000), .offset (.ofWord 1000000000) .zero]

def overchargedPool : StabilityPool := (replay .standard overchargedCalls).1

def leastLoss : Amount := .ofWord 1

/-- As much was charged too much as the pool held. The least loss does not come to it, and a part is forgotten; a loss of
seven comes to more, and its charge is accounted for to the last place. -/
theorem debtLoss_exact_overcharged :
    Run .standard overchargedPool (replay .standard overchargedCalls).2 ∧ overchargedPool.carriedLoss.units = 10 ^ 27 ∧
    leastLoss < overchargedPool.totalDeposits ∧
    (∃ excess, lossPerUnit leastLoss overchargedPool.totalDeposits overchargedPool.carriedLoss = .ok (1, excess) ∧
      excess = overchargedPool.totalDeposits ∧ leastLoss.units * Amount.scale + excess.units <
        1 * overchargedPool.totalDeposits.units + overchargedPool.carriedLoss.units) ∧
    .ofWhole 7 < overchargedPool.totalDeposits ∧
    ∃ o, overchargedPool.offsetOf (.ofWhole 7) (.ofWhole 1) = .ok o ∧
      7000000000 * overchargedPool.totalDeposits.units + overchargedPool.carriedLoss.units =
        7 * Amount.scale * Amount.scale + o.carriedLoss.units := by
  have hleast : leastLoss < overchargedPool.totalDeposits := by decide +kernel
  have hseven : .ofWhole 7 < overchargedPool.totalDeposits := by decide +kernel
  have hcovered : overchargedPool.carriedLoss.units ≤ (Amount.ofWhole 7).units * Amount.scale := by decide +kernel
  have hisOk : (overchargedPool.offsetOf (.ofWhole 7) (.ofWhole 1)).isOk = true := by decide +kernel
  obtain ⟨one, excess, hforgotten, -⟩ := debtLoss_exact overchargedPool hleast
  obtain ⟨perUnit, rest, haccounts, -, -, -, hoffset⟩ := debtLoss_exact overchargedPool hseven
  obtain ⟨o, ho⟩ := exists_ok_of_isOk hisOk
  obtain rfl : one = 1 := hforgotten.perUnit_eq.trans (by decide +kernel)
  obtain rfl : perUnit = 7000000000 := haccounts.perUnit_eq.trans (by decide +kernel)
  obtain rfl : excess = overchargedPool.totalDeposits := Amount.ext (hforgotten.excess_eq.trans (by decide +kernel))
  obtain rfl := (hoffset _).2 o ho |>.1
  exact ⟨run_replay rfl overchargedCalls, by decide +kernel, hleast,
    ⟨_, hforgotten.lossPerUnit_eq, rfl, by decide +kernel⟩, hseven, o, ho, haccounts.exact_of_le hcovered⟩

end CollateralDebt.StabilityPool
