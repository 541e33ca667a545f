import CollateralDebt.Proofs.StabilityPool.Readings
import CollateralDebt.Proofs.StabilityPool.Product
import Mathlib.Algebra.Order.Floor.Semifield
import Mathlib.Data.Rat.Floor

/-! What remains of a deposit after offsets that do not consume the pool. Without any rounding it would be the same
part of it as of the pool. Each offset takes at most two units of the last place of the product more than that
(`Charges.left_div_le`), which for a deposit is that many times its value over the product it saw. A deposit reads as
nothing if it is negligible, or two scales on, and by then the product, scaled back, is below the floor over the
factor (`Run.faded`). So a deposit of which enough remains does not read as nothing; how much is enough depends on the
product at which it was settled, on the number of offsets and on the factor (`Run.reads_remainder`). It cannot be said
without them: deposits of which nearly all remains can be wiped out (`wiped_deposits`). -/

open CollateralDebt.Action

namespace CollateralDebt.StabilityPool

variable {p : Params} {s s' : StabilityPool} {depositor : Address} {paidIn : Nat} {change : DepositChange}
  {o : Offset} {perUnit : Nat} {d : Deposit} {turns later earlier : List Turn} {before : StabilityPool}

theorem div_lt_add_one (a b : Nat) : (a : ℚ) / b < (a / b : Nat) + 1 := by
  have hfloor : ⌊(a : ℚ) / b⌋₊ = a / b := Nat.floor_div_eq_div a b
  rw [← hfloor]
  exact Nat.lt_floor_add_one _

/-! ## One offset -/

/-- Rounding takes less than one unit of the last place off a product, before or after it is scaled up. -/
theorem Charges.keptUnits_div_le (h : s.Charges o perUnit) (hs : s.Regular) :
    (s.keptUnits o.debtLoss : ℚ) / Amount.scale ≤ s.kept o + 1 / s.product.units := by
  have hproduct : (0 : ℚ) < s.product.units := Nat.cast_pos.2 hs.product_pos
  have hfactor : (1 : ℚ) ≤ s.factor.units := Nat.one_le_cast.2 hs.factor_pos
  rw [h.keptUnits_eq]
  rcases h.product_rounded with ⟨hnothing, -, hphase⟩ | ⟨hsame, raised, -, hraised, hunits⟩
  · rw [hnothing, kept_of_nextEpoch hphase, Nat.cast_zero, zero_div, zero_add]
    positivity
  · have hlost := div_lt_add_one (s.product.units * (Amount.scale - perUnit) * s.factor.units ^ raised) Amount.scale
    rw [← hunits, Nat.cast_mul, Nat.cast_mul, Nat.cast_pow] at hlost
    rw [kept, if_pos hsame, hraised, Nat.add_sub_cancel_left]
    have hless : (1 : ℚ) / (s.product.units * s.factor.units ^ raised) ≤ 1 / s.product.units :=
      one_div_le_one_div_of_le hproduct (le_mul_of_one_le_right hproduct.le (one_le_pow₀ hfactor))
    refine le_trans ?_ (add_le_add_right hless _)
    rw [← add_div, le_div_iff₀ (by positivity)]
    calc ((Amount.scale - perUnit : Nat) : ℚ) / Amount.scale * (s.product.units * s.factor.units ^ raised)
        = s.product.units * (Amount.scale - perUnit : Nat) * s.factor.units ^ raised / Amount.scale := by ring
      _ ≤ o.product.units + 1 := hlost.le

/-- The part of the pool that an offset leaves. -/
def leftPart (s : StabilityPool) (o : Offset) : ℚ :=
  (s.totalDeposits.units - o.debtLoss.units) / s.totalDeposits.units

theorem Charges.leftPart_nonneg (h : s.Charges o perUnit) : 0 ≤ s.leftPart o := by
  have hless : (o.debtLoss.units : ℚ) ≤ s.totalDeposits.units := Nat.cast_le.2 h.debtLoss_le
  exact div_nonneg (sub_nonneg.2 hless) (Nat.cast_nonneg _)

theorem Charges.leftPart_le_one (h : s.Charges o perUnit) : s.leftPart o ≤ 1 := by
  have htotal : (0 : ℚ) < s.totalDeposits.units := Nat.cast_pos.2 h.total_pos
  rw [leftPart, div_le_one htotal]
  exact sub_le_self _ (Nat.cast_nonneg _)

/-- **What deposits keep, against what the offset leaves.** It is less by no more than two units of the last place of
the product: one for the loss for each unit, one for the product. -/
theorem Charges.left_div_le (h : s.Charges o perUnit) (hs : s.Consistent) :
    s.leftPart o ≤ s.kept o + 2 / s.product.units := by
  have hscale : (0 : ℚ) < Amount.scale := Nat.cast_pos.2 (by decide)
  have hproduct : (0 : ℚ) < s.product.units := Nat.cast_pos.2 hs.product_pos
  have htotal : (0 : ℚ) < s.totalDeposits.units := Nat.cast_pos.2 h.total_pos
  have hshare : ((s.totalDeposits.units : ℚ) - o.debtLoss.units) * Amount.scale ≤
      (s.keptUnits o.debtLoss + 1) * s.totalDeposits.units := by
    rw [← Nat.cast_sub h.debtLoss_le]
    exact_mod_cast s.left_mul_scale_le o.debtLoss
  have hunit : (1 : ℚ) / Amount.scale ≤ 1 / s.product.units :=
    one_div_le_one_div_of_le hproduct (Nat.cast_le.2 hs.product_le)
  have hkept := h.keptUnits_div_le hs.toRegular
  calc s.leftPart o ≤ (s.keptUnits o.debtLoss + 1) / Amount.scale := by
        rw [leftPart, div_le_div_iff₀ htotal hscale]
        exact hshare
    _ = s.keptUnits o.debtLoss / Amount.scale + 1 / Amount.scale := add_div _ _ _
    _ ≤ s.kept o + 1 / s.product.units + 1 / s.product.units := add_le_add hkept hunit
    _ = s.kept o + 2 / s.product.units := by ring

/-! ## Two scales on -/

/-- Two scales after it was settled, a deposit is worth no more than the floor over the factor makes of it. -/
def Faded (s : StabilityPool) (d : Deposit) : Prop :=
  d.snapshot.phase.scale + 2 ≤ s.phase.scale →
    s.worth d ≤ d.initial.units * s.floor.units / (s.factor.units * d.snapshot.product.units)

theorem Unmoved.worth_eq (h : Unmoved s s') : s'.worth = s.worth := by
  funext d
  rw [worth, worth, h.phase_eq, h.product_eq, h.factor_eq]

theorem Unmoved.faded (h : Unmoved s s') (hd : s.Faded d) : s'.Faded d := by
  unfold Faded
  rw [h.worth_eq, h.phase_eq, h.floor_eq, h.factor_eq]
  exact hd

/-- A product that is scaled up was below the floor, so it stays below the floor times the factor. -/
theorem Charges.product_lt_of_nextScale (h : s.Charges o perUnit) (hs : s.Regular) (hphase : o.phase = s.phase.nextScale) :
    o.product.units < s.floor.units * s.factor.units := by
  have hscale : o.phase.scale = s.phase.scale + 1 := congrArg Phase.scale hphase
  have hepoch : o.phase.epoch = s.phase.epoch := (congrArg Phase.epoch hphase).trans rfl
  rcases reducedProduct_eq_ok h.product_eq with ⟨-, -, hsame⟩ | ⟨hbelow, hunits, -⟩ | ⟨-, hsame⟩
  · have hlater : o.phase.epoch = s.phase.epoch + 1 := congrArg Phase.epoch hsame
    omega
  · have hraised := (Nat.div_lt_iff_lt_mul (by decide)).1 hbelow
    rw [hunits, Nat.div_lt_iff_lt_mul (by decide), Nat.mul_right_comm s.floor.units]
    exact Nat.mul_lt_mul_of_pos_right hraised hs.factor_pos
  · rw [hsame] at hscale
    omega

theorem Charges.kept_le_one (h : s.Charges o perUnit) (hs : s.Consistent) (hphase : o.phase = s.phase) :
    s.kept o ≤ 1 := by
  have hproduct : (0 : ℚ) < s.product.units := Nat.cast_pos.2 hs.product_pos
  rw [kept_of_phase_eq hphase, div_le_one hproduct, Nat.cast_le]
  rcases h.product_cases hs with ⟨-, hsame⟩ | ⟨-, -, hsame⟩ | ⟨hfell, -⟩
  · exact absurd (congrArg Phase.epoch (hphase.symm.trans hsame)) (Nat.ne_of_lt (Nat.lt_succ_self _))
  · exact absurd (congrArg Phase.scale (hphase.symm.trans hsame)) (Nat.ne_of_lt (Nat.lt_succ_self _))
  · exact hfell

theorem Charges.faded (h : s.Charges o perUnit) (hs : s.Consistent) (hdated : Dated s.phase d) (hd : s.Faded d) :
    (s.applyOffset o).Faded d := by
  intro hlater
  have hlater : d.snapshot.phase.scale + 2 ≤ o.phase.scale := hlater
  have hlimit : (0 : ℚ) ≤ d.initial.units * s.floor.units / (s.factor.units * d.snapshot.product.units) := by
    positivity
  show _ ≤ (d.initial.units * s.floor.units / (s.factor.units * d.snapshot.product.units) : ℚ)
  rcases h.phase_eq with hphase | hphase | hphase
  · rw [hphase] at hlater
    exact absurd hlater (Nat.not_succ_le_zero _)
  · -- The factor is divided out at least twice, and once is made up for by the floor.
    have hfactor : (1 : ℚ) ≤ s.factor.units := Nat.one_le_cast.2 hs.factor_pos
    have hseen : (0 : ℚ) < d.snapshot.product.units := Nat.cast_pos.2 hdated.product_pos
    have hproduct : (o.product.units : ℚ) ≤ s.floor.units * s.factor.units := by
      exact_mod_cast (h.product_lt_of_nextScale hs.toRegular hphase).le
    have hscales : 2 ≤ o.phase.scale - d.snapshot.phase.scale := by omega
    have hpower : (s.factor.units : ℚ) ^ 2 ≤ s.factor.units ^ (o.phase.scale - d.snapshot.phase.scale) :=
      pow_le_pow_right₀ hfactor hscales
    show (if d.snapshot.phase.epoch < o.phase.epoch then (0 : ℚ) else d.initial.units * o.product.units /
      (d.snapshot.product.units * s.factor.units ^ (o.phase.scale - d.snapshot.phase.scale))) ≤ _
    split
    · exact hlimit
    · calc (d.initial.units : ℚ) * o.product.units /
            (d.snapshot.product.units * s.factor.units ^ (o.phase.scale - d.snapshot.phase.scale))
          ≤ d.initial.units * (s.floor.units * s.factor.units) / (d.snapshot.product.units * s.factor.units ^ 2) := by
            gcongr
        _ = d.initial.units * s.floor.units / (s.factor.units * d.snapshot.product.units) := by
            field_simp
  · rw [worth_applyOffset h hs.toRegular hdated]
    rw [hphase] at hlater
    exact (mul_le_of_le_one_right (s.worth_nonneg d) (h.kept_le_one hs hphase)).trans (hd hlater)

theorem Settles.all_faded (h : Settles s paidIn change s') (hs : s.deposits.All s.Faded) :
    s'.deposits.All s'.Faded := by
  have hkept : s.deposits.All s'.Faded := hs.imp fun d hd => h.unmoved.faded hd
  rw [h.deposits_eq]
  split
  · exact hkept.erase _
  · refine hkept.insert _ fun hlater => absurd hlater ?_
    rw [h.unmoved.phase_eq]
    exact Nat.not_le.2 (Nat.lt_succ_of_lt (Nat.lt_succ_self _))

/-- Every deposit of every reached pool has faded two scales on. -/
theorem Run.faded (h : Run p s turns) : s.deposits.All s.Faded :=
  h.induct (motive := fun s _ => s.deposits.All s.Faded) (fun _ => SortedMap.all_empty _)
    (fun _ hs hsettles => hsettles.all_faded hs) fun hrun hs hcharges _ entry hmem =>
      hcharges.faded hrun.consistent (hrun.consistent.dated entry hmem) (hs entry hmem)

/-! ## What remains -/

/-- An operation that neither settles the deposit of an account nor consumes the pool. -/
def Turn.Leaves (owner : Address) : Turn → Prop
  | .deposit _ change => change.depositor ≠ owner
  | .offset before o => o.debtLoss ≠ before.totalDeposits

instance (owner : Address) : DecidablePred (Turn.Leaves owner)
  | .deposit _ change => inferInstanceAs (Decidable (change.depositor ≠ owner))
  | .offset before o => inferInstanceAs (Decidable (o.debtLoss ≠ before.totalDeposits))

/-- The part that offsets leave together. -/
def remaining : List Turn → ℚ
  | [] => 1
  | .deposit _ _ :: earlier => remaining earlier
  | .offset before o :: earlier => remaining earlier * before.leftPart o

def offsetCount : List Turn → Nat
  | [] => 0
  | .deposit _ _ :: earlier => offsetCount earlier
  | .offset _ _ :: earlier => offsetCount earlier + 1

/-- A deposit is still there as it was settled, and worth what remains of it but for two units of the last place of
the product in each offset. -/
structure Remains (s : StabilityPool) (d : Deposit) (later : List Turn) : Prop where
  get?_eq : s.deposits.get? d.depositor = some d
  worth_ge : d.initial.units * remaining later ≤
    s.worth d + 2 * offsetCount later * (d.initial.units / d.snapshot.product.units)

theorem Settles.remains_settled (h : Settles s paidIn change s') (hs : s.Regular)
    (hsome : ¬change.deposit.isZero = true) : Remains s' (settledDeposit s change) [] where
  get?_eq := h.get?_self.trans (if_neg hsome)
  worth_ge := by
    have hworth : s.worth (settledDeposit s change) = change.deposit.units :=
      worth_settled hs.product_pos change.depositor change.deposit (s.sumAt s.phase)
    rw [h.unmoved.worth_eq, hworth, remaining, offsetCount, Nat.cast_zero, mul_zero, zero_mul, add_zero, mul_one]
    exact le_rfl

/-- What is paid in or out of other deposits does not matter. -/
theorem Settles.remains (h : Settles s paidIn change s') (hother : change.depositor ≠ d.depositor)
    (hremains : Remains s d turns) : Remains s' d (.deposit s change :: turns) where
  get?_eq := (h.get?_of_ne hother.symm).trans hremains.get?_eq
  worth_ge := by
    rw [h.unmoved.worth_eq]
    exact hremains.worth_ge

/-- What a deposit is worth over the product is no more than its value over the product it saw. -/
theorem worth_div_le (hs : s.Regular) (d : Deposit) :
    s.worth d / s.product.units ≤ d.initial.units / d.snapshot.product.units := by
  have hproduct : (0 : ℚ) < s.product.units := Nat.cast_pos.2 hs.product_pos
  have hpower : (1 : ℚ) ≤ s.factor.units ^ (s.phase.scale - d.snapshot.phase.scale) :=
    one_le_pow₀ (Nat.one_le_cast.2 hs.factor_pos)
  unfold worth
  split
  · rw [zero_div]
    positivity
  · calc (d.initial.units : ℚ) * s.product.units /
          (d.snapshot.product.units * s.factor.units ^ (s.phase.scale - d.snapshot.phase.scale)) / s.product.units
        = d.initial.units / d.snapshot.product.units /
          s.factor.units ^ (s.phase.scale - d.snapshot.phase.scale) := by field_simp
      _ ≤ d.initial.units / d.snapshot.product.units := div_le_self (by positivity) hpower

/-- **An offset leaves of a deposit what it leaves of the pool, but for two units of the last place of the product.** -/
theorem Charges.remains (h : s.Charges o perUnit) (hs : s.Consistent) (hremains : Remains s d turns) :
    Remains (s.applyOffset o) d (.offset s o :: turns) where
  get?_eq := hremains.get?_eq
  worth_ge := by
    have hdated := hs.dated.of_get? hremains.get?_eq
    have hlost : (0 : ℚ) ≤ 2 * offsetCount turns * (d.initial.units / d.snapshot.product.units) := by positivity
    rw [worth_applyOffset h hs.toRegular hdated, remaining, offsetCount, Nat.cast_succ]
    calc d.initial.units * (remaining turns * s.leftPart o) = d.initial.units * remaining turns * s.leftPart o := by ring
      _ ≤ (s.worth d + 2 * offsetCount turns * (d.initial.units / d.snapshot.product.units)) * s.leftPart o :=
        mul_le_mul_of_nonneg_right hremains.worth_ge h.leftPart_nonneg
      _ = s.worth d * s.leftPart o +
          2 * offsetCount turns * (d.initial.units / d.snapshot.product.units) * s.leftPart o := add_mul _ _ _
      _ ≤ s.worth d * (s.kept o + 2 / s.product.units) +
          2 * offsetCount turns * (d.initial.units / d.snapshot.product.units) :=
        add_le_add (mul_le_mul_of_nonneg_left (h.left_div_le hs) (s.worth_nonneg d))
          (mul_le_of_le_one_right hlost h.leftPart_le_one)
      _ = s.worth d * s.kept o + 2 * (s.worth d / s.product.units) +
          2 * offsetCount turns * (d.initial.units / d.snapshot.product.units) := by ring
      _ ≤ s.worth d * s.kept o + 2 * (d.initial.units / d.snapshot.product.units) +
          2 * offsetCount turns * (d.initial.units / d.snapshot.product.units) := by
        linarith [worth_div_le hs.toRegular d]
      _ = s.worth d * s.kept o +
          2 * (offsetCount turns + 1) * (d.initial.units / d.snapshot.product.units) := by ring

/-! ## Reading what remains -/

/-- A deposit that reads as so much is worth less than one unit more, or negligible. -/
theorem worth_lt_of_compounded {left : Amount} (h : s.compounded d.initial d.snapshot = .ok left)
    (hepoch : ¬d.snapshot.phase.epoch < s.phase.epoch) (hscale : s.phase.scale - d.snapshot.phase.scale ≤ 1) :
    s.worth d < left.units + 1 ∨ s.worth d < d.initial.units / negligibleParts := by
  have hwhole := div_lt_add_one (d.initial.units * s.product.units)
    (d.snapshot.product.units * s.factor.units ^ (s.phase.scale - d.snapshot.phase.scale))
  rw [worth, if_neg hepoch]
  rw [Nat.cast_mul, Nat.cast_mul, Nat.cast_pow] at hwhole
  rcases compounded_eq_ok h with ⟨rfl, hnothing | hlater | htwo | hless⟩ | ⟨-, hleft⟩
  · rw [Amount.units_of_isZero hnothing, Nat.cast_zero, zero_mul, zero_div]
    exact .inl (by positivity)
  · exact absurd hlater hepoch
  · exact absurd htwo (Nat.not_le.2 (Nat.lt_succ_of_le hscale))
  · have hnext : ((d.initial.units * s.product.units /
        (d.snapshot.product.units * s.factor.units ^ (s.phase.scale - d.snapshot.phase.scale)) + 1 : Nat) : ℚ) ≤
          (d.initial.units / negligibleParts : Nat) := Nat.cast_le.2 hless
    rw [Nat.cast_succ] at hnext
    exact .inr (hwhole.trans_le (hnext.trans Nat.cast_div_le))
  · rw [← hleft] at hwhole
    exact .inl hwhole

/-- A deposit that is worth so much is neither negligible, nor two scales on. -/
theorem lt_of_compounded {left : Amount} (h : s.compounded d.initial d.snapshot = .ok left) (hfaded : s.Faded d)
    (hworth : d.initial.units / negligibleParts +
      d.initial.units * s.floor.units / (s.factor.units * d.snapshot.product.units) < s.worth d) :
    s.worth d < left.units + 1 := by
  have hparts : (0 : ℚ) ≤ d.initial.units / negligibleParts := by positivity
  have hlimit : (0 : ℚ) ≤ d.initial.units * s.floor.units / (s.factor.units * d.snapshot.product.units) := by
    positivity
  have hepoch : ¬d.snapshot.phase.epoch < s.phase.epoch := fun hbefore => by
    rw [worth, if_pos hbefore] at hworth
    linarith
  have hscale : s.phase.scale - d.snapshot.phase.scale ≤ 1 := by
    by_contra hlater
    have hbound := hfaded (by omega)
    linarith
  rcases worth_lt_of_compounded h hepoch hscale with hless | hless
  · exact hless
  · linarith

/-! ## Runs -/

/-- A deposit remains as long as it is left alone. -/
theorem Run.remains (h : Run p s (later ++ .deposit before change :: earlier))
    (hsome : ¬change.deposit.isZero = true) (hleaves : ∀ turn ∈ later, turn.Leaves change.depositor) :
    Remains s (settledDeposit before change) later := by
  refine h.induct (motive := fun s turns => ∀ later, turns = later ++ .deposit before change :: earlier →
    (∀ turn ∈ later, turn.Leaves change.depositor) → Remains s (settledDeposit before change) later)
    ?_ ?_ ?_ later rfl hleaves
  · intro _ later hturns
    exact absurd hturns.symm (List.append_ne_nil_of_right_ne_nil _ (List.cons_ne_nil _ _))
  · intro s s' turns other paidIn hrun ih hsettles later hturns hleaves
    cases later with
    | nil =>
        -- The operation that settled the deposit.
        obtain ⟨hturn, -⟩ := List.cons.inj hturns
        cases hturn
        exact hsettles.remains_settled hrun.consistent.toRegular hsome
    | cons turn later =>
        obtain ⟨rfl, hearlier⟩ := List.cons.inj hturns
        have hremains := ih later hearlier fun turn hmem => hleaves turn (List.mem_cons_of_mem _ hmem)
        exact hsettles.remains (hleaves _ List.mem_cons_self) hremains
  · intro s turns o perUnit gainPerUnit hrun ih hcharges hcredits later hturns hleaves
    cases later with
    | nil =>
        obtain ⟨hturn, -⟩ := List.cons.inj hturns
        cases hturn
    | cons turn later =>
        obtain ⟨rfl, hearlier⟩ := List.cons.inj hturns
        have hremains := ih later hearlier fun turn hmem => hleaves turn (List.mem_cons_of_mem _ hmem)
        exact hcharges.remains hrun.consistent hremains

/-- As much of a deposit as is read after so many offsets: more than is negligible, more than can remain two scales
on, and more than rounding takes off. -/
def enough (s : StabilityPool) (d : Deposit) (offsets : Nat) : ℚ :=
  d.initial.units / negligibleParts + d.initial.units * s.floor.units / (s.factor.units * d.snapshot.product.units) +
    2 * offsets * (d.initial.units / d.snapshot.product.units) + 2

theorem two_le_enough (s : StabilityPool) (d : Deposit) (offsets : Nat) : 2 ≤ s.enough d offsets := by
  unfold enough
  exact le_add_of_nonneg_left (by positivity)

/-- With a factor that makes nothing more than negligible, and a product at the floor, two scales do not matter. -/
theorem enough_le (hfactor : negligibleParts ≤ s.factor.units) (hfloor : s.floor ≤ d.snapshot.product)
    (hpositive : 0 < s.floor.units) (offsets : Nat) :
    s.enough d offsets ≤ 2 * (d.initial.units / negligibleParts) +
      2 * offsets * (d.initial.units / d.snapshot.product.units) + 2 := by
  have hparts : (0 : ℚ) < negligibleParts := Nat.cast_pos.2 (by decide)
  have hseen : (0 : ℚ) < d.snapshot.product.units := Nat.cast_pos.2 (hpositive.trans_le hfloor)
  have hlarge : (negligibleParts : ℚ) ≤ s.factor.units := Nat.cast_le.2 hfactor
  have hless : (s.floor.units : ℚ) ≤ d.snapshot.product.units := Nat.cast_le.2 hfloor
  have htwice : (d.initial.units : ℚ) * s.floor.units / (s.factor.units * d.snapshot.product.units) ≤
      d.initial.units / negligibleParts :=
    calc (d.initial.units : ℚ) * s.floor.units / (s.factor.units * d.snapshot.product.units)
        ≤ d.initial.units * d.snapshot.product.units / (negligibleParts * d.snapshot.product.units) := by gcongr
      _ = d.initial.units / negligibleParts := mul_div_mul_right _ _ hseen.ne'
  rw [enough]
  linarith

/-- If enough of a deposit remains, it is neither negligible nor two scales on. -/
theorem Remains.le_worth (h : Remains s d later)
    (henough : s.enough d (offsetCount later) ≤ d.initial.units * remaining later) :
    d.initial.units / negligibleParts +
      d.initial.units * s.floor.units / (s.factor.units * d.snapshot.product.units) + 2 ≤ s.worth d := by
  have hworth := henough.trans h.worth_ge
  rw [enough] at hworth
  linarith

/-- What is read if enough of a deposit remains. -/
theorem Run.read_of_enough (h : Run p s (later ++ .deposit before change :: earlier))
    (hleaves : ∀ turn ∈ later, turn.Leaves change.depositor)
    (henough : s.enough (settledDeposit before change) (offsetCount later) ≤ change.deposit.units * remaining later)
    {left : Amount} (hleft : s.compoundedDeposit change.depositor = .ok left) :
    left ≠ .zero ∧ (change.deposit.units * remaining later : ℚ) <
      left.units + 2 * offsetCount later * (change.deposit.units / before.product.units) + 1 := by
  have hsome : ¬change.deposit.isZero = true := fun hzero => by
    have htwo := (two_le_enough _ _ _).trans henough
    rw [Amount.units_of_isZero hzero, Nat.cast_zero, zero_mul] at htwo
    exact absurd htwo (by decide)
  have hremains := h.remains hsome hleaves
  have hget : s.deposits.get? change.depositor = some (settledDeposit before change) := hremains.get?_eq
  have hworth := hremains.le_worth henough
  have hparts : (0 : ℚ) ≤ change.deposit.units / negligibleParts +
      change.deposit.units * s.floor.units / (s.factor.units * before.product.units) := by positivity
  have htwo : 2 ≤ s.worth (settledDeposit before change) := (le_add_of_nonneg_left hparts).trans hworth
  rw [compoundedDeposit_eq hget] at hleft
  have hless := lt_of_compounded hleft (h.faded.of_get? hget) ((lt_add_of_pos_right _ two_pos).trans_le hworth)
  constructor
  · rintro rfl
    rw [show Amount.zero.units = 0 from rfl, Nat.cast_zero, zero_add] at hless
    linarith
  · have hrounded : (change.deposit.units * remaining later : ℚ) ≤ s.worth (settledDeposit before change) +
        2 * offsetCount later * (change.deposit.units / before.product.units) := hremains.worth_ge
    linarith

/-- **A deposit of which enough remains does not read as nothing.** It was settled at a product, and left alone in so
many offsets that did not consume the pool. Enough is what is negligible of it, what the floor over the factor and
the product leaves of it two scales on, twice its value over the product for each offset, and two units. Then what is
read, if it can be, is what remains but for the roundings of the offsets and one unit. If the factor is no less than
the number of parts that are negligible, and the product was at the floor or above, two negligible parts, the
roundings and two units are enough. -/
theorem Run.reads_remainder (h : Run p s (later ++ .deposit before change :: earlier))
    (hleaves : ∀ turn ∈ later, turn.Leaves change.depositor) :
    (s.enough (settledDeposit before change) (offsetCount later) ≤ change.deposit.units * remaining later →
      s.compoundedDeposit change.depositor ≠ .ok .zero ∧
      ∀ left, s.compoundedDeposit change.depositor = .ok left →
        (change.deposit.units * remaining later : ℚ) <
          left.units + 2 * offsetCount later * (change.deposit.units / before.product.units) + 1) ∧
    (negligibleParts ≤ s.factor.units → s.floor ≤ before.product →
      (2 * (change.deposit.units / negligibleParts) +
        2 * offsetCount later * (change.deposit.units / before.product.units) + 2 : ℚ) ≤
          change.deposit.units * remaining later →
      s.compoundedDeposit change.depositor ≠ .ok .zero) := by
  refine ⟨fun henough => ⟨fun hzero => ?_, fun left hleft => (h.read_of_enough hleaves henough hleft).2⟩,
    fun hfactor hfloor henough hzero => ?_⟩
  · exact (h.read_of_enough hleaves henough hzero).1 rfl
  · exact (h.read_of_enough hleaves ((enough_le hfactor hfloor h.floor_pos _).trans henough) hzero).1 rfl

/-- The operation settled a deposit, and this holds of the pool before it and of what it did. -/
def SettledWith (q : StabilityPool → DepositChange → Prop) : Option Turn → Prop
  | some (.deposit before change) => q before change
  | _ => False

instance (q : StabilityPool → DepositChange → Prop) [∀ before change, Decidable (q before change)] :
    DecidablePred (SettledWith q)
  | some (.deposit before change) => inferInstanceAs (Decidable (q before change))
  | some (.offset _ _) => inferInstanceAs (Decidable False)
  | none => inferInstanceAs (Decidable False)

theorem SettledWith.exists_eq {q : StabilityPool → DepositChange → Prop} {n : Nat} (h : SettledWith q turns[n]?) :
    ∃ before change, turns = turns.take n ++ .deposit before change :: turns.drop (n + 1) ∧ q before change := by
  rcases hturn : turns[n]? with _ | ⟨before, change⟩ | _
  · rw [hturn] at h
    exact h.elim
  · rw [hturn] at h
    obtain ⟨hlt, hget⟩ := List.getElem?_eq_some_iff.1 hturn
    refine ⟨before, change, ?_, h⟩
    rw [← hget, List.cons_getElem_drop_succ, List.take_append_drop]
  · rw [hturn] at h
    exact h.elim

/-- A deposit made well above the floor, and two offsets, of which the first scales the product up. -/
def crossedCalls : List Call := [
  .provide (.ofWord 1) (.ofWhole 1000000),
  .offset (.ofWhole 999900) (.ofWhole 3),
  .provide (.ofWord 2) (.ofWhole 999900),
  .offset (.ofWhole 999990) (.ofWhole 3),
  .provide (.ofWord 3) (.ofWhole 1000),
  .offset (.ofWhole 505) .zero]

def crossedPool : StabilityPool := (replay .standard crossedCalls).1

/-- Of the second deposit enough remains in the next scale, so it does not read as nothing. -/
theorem Run.reads_remainder_sample : ∃ later before change earlier,
    Run .standard crossedPool (later ++ .deposit before change :: earlier) ∧
    (∀ turn ∈ later, turn.Leaves change.depositor) ∧ change.depositor = .ofWord 2 ∧ offsetCount later = 2 ∧
    crossedPool.phase = before.phase.nextScale ∧ crossedPool.floor ≤ before.product ∧
    crossedPool.compoundedDeposit change.depositor ≠ .ok .zero ∧
    ∀ left, crossedPool.compoundedDeposit change.depositor = .ok left →
      (change.deposit.units * remaining later : ℚ) <
        left.units + 4 * (change.deposit.units / before.product.units) + 1 := by
  have hseen : SettledWith (fun before change =>
      (∀ turn ∈ (replay .standard crossedCalls).2.take 3, turn.Leaves change.depositor) ∧
      change.depositor = .ofWord 2 ∧ crossedPool.phase = before.phase.nextScale ∧
      crossedPool.floor ≤ before.product ∧
      crossedPool.enough (settledDeposit before change) 2 ≤
        change.deposit.units * remaining ((replay .standard crossedCalls).2.take 3) ∧
      (2 * (change.deposit.units / negligibleParts) + 2 * (2 : Nat) * (change.deposit.units / before.product.units) +
        2 : ℚ) ≤ change.deposit.units * remaining ((replay .standard crossedCalls).2.take 3))
      (replay .standard crossedCalls).2[3]? := by decide +kernel
  obtain ⟨before, change, hturns, hleaves, howner, hphase, hfloor, henough, hmore⟩ := hseen.exists_eq
  have hrun : Run .standard crossedPool (replay .standard crossedCalls).2 := run_replay rfl crossedCalls
  rw [hturns] at hrun
  have hcount : offsetCount ((replay .standard crossedCalls).2.take 3) = 2 := by decide +kernel
  obtain ⟨hread, hstandard⟩ := Run.reads_remainder hrun hleaves
  rw [hcount] at hread hstandard
  refine ⟨_, before, change, _, hrun, hleaves, howner, hcount, hphase, hfloor,
    hstandard (by decide +kernel) hfloor hmore, fun left hleft => ?_⟩
  have hless := (hread henough).2 left hleft
  rw [show (2 : ℚ) * (2 : Nat) = 4 by norm_num] at hless
  exact hless

/-- A deposit reads as nothing, although it was left alone by offsets that did not consume the pool and no less of it
remains than two negligible parts and two units. -/
def Wiped (p : Params) (s : StabilityPool) (turns : List Turn) : Prop :=
  Run p s turns ∧ ∃ later before change earlier, turns = later ++ .deposit before change :: earlier ∧
    (∀ turn ∈ later, turn.Leaves change.depositor) ∧
    (2 * (change.deposit.units / negligibleParts) + 2 : ℚ) ≤ change.deposit.units * remaining later ∧
    s.compoundedDeposit change.depositor = .ok .zero

theorem wiped_replay {calls : List Call} {n : Nat} (hcheck : p.check = .ok ())
    (h : SettledWith (fun _ change => (∀ turn ∈ (replay p calls).2.take n, turn.Leaves change.depositor) ∧
      (2 * (change.deposit.units / negligibleParts) + 2 : ℚ) ≤
        change.deposit.units * remaining ((replay p calls).2.take n) ∧
      (replay p calls).1.compoundedDeposit change.depositor = .ok .zero) (replay p calls).2[n]?) :
    Wiped p (replay p calls).1 (replay p calls).2 := by
  obtain ⟨before, change, hturns, hwiped⟩ := h.exists_eq
  exact ⟨run_replay hcheck calls, _, before, change, _, hturns, hwiped⟩

/-- A product below a tenth is scaled up by ten. -/
def quickParams : Params := { Params.standard with productFloor := 100000000000000000, productFactor := 10 }

/-- Two offsets, each of which scales the product up. -/
def quickCalls : List Call := [
  .provide (.ofWord 1) (.ofWhole 1000),
  .offset (.ofWhole 950) (.ofWhole 5),
  .provide (.ofWord 2) (.ofWhole 950),
  .offset (.ofWhole 900) (.ofWhole 5)]

/-- A deposit made where the product is worn out, and two offsets of a hundredth of the pool, each of which scales the
product up. -/
def thinCalls : List Call := wornCalls ++ [.offset (.ofWhole 10000) .zero, .offset (.ofWhole 9900) .zero]

/-- The product is scaled up only where it would vanish. -/
def lowParams : Params := { Params.standard with productFloor := 1, productFactor := 2 }

/-- A deposit made where the product is two thousand-millionths, an offset that leaves a little more than such a part of
the pool, and three offsets of one unit of debt. -/
def lowCalls : List Call := [
  .provide (.ofWord 1) (.ofWhole 1000000000),
  .offset (.ofWhole 999999998) .zero,
  .provide (.ofWord 2) (.ofWhole 999999998),
  .offset ⟨999999997800000000 * 10 ^ 9, by decide⟩ .zero,
  .offset ⟨1, by decide⟩ .zero,
  .offset ⟨1, by decide⟩ .zero,
  .offset ⟨1, by decide⟩ .zero]

/-- Deposits are wiped out for a small factor, by offsets that leave a two-hundredth; with the standard parameters, at
a product below the floor, by offsets that leave nearly all; and within one scale, by the roundings alone. -/
theorem wiped_deposits :
    Wiped quickParams (replay quickParams quickCalls).1 (replay quickParams quickCalls).2 ∧
    Wiped .standard (replay .standard thinCalls).1 (replay .standard thinCalls).2 ∧
    Wiped lowParams (replay lowParams lowCalls).1 (replay lowParams lowCalls).2 := by
  refine ⟨@wiped_replay _ _ 3 rfl ?_, @wiped_replay _ _ 2 rfl ?_, @wiped_replay _ _ 4 rfl ?_⟩
  · decide +kernel
  · decide +kernel
  · decide +kernel

end CollateralDebt.StabilityPool
