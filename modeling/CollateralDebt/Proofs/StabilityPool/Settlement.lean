import CollateralDebt.Proofs.StabilityPool.Gains

/-! What depositors can read after one of them provides or withdraws. A deposit that is settled now has all of its value
left, since it saw the product and the phase of now, and has gained nothing, since it saw the sum of now and no scale
has a sum before it is reached. All other accounts read the same accumulators and the same deposits as before, so they
read the same, be it an amount or an error (`Run.settles_alone`). -/

open CollateralDebt.Action

namespace CollateralDebt.StabilityPool

variable {p : Params} {s s' : StabilityPool} {paidIn : Nat} {change : DepositChange} {turns : List Turn}

/-! ## A deposit that is settled now -/

/-- An amount is not negligible against itself. -/
theorem unlessBelow_div_self (value : Amount) (parts : Nat) : unlessBelow (value.units / parts) value = value :=
  if_neg (Nat.not_lt.2 (Nat.div_le_self _ _))

theorem compounded_now (h : 0 < s.product.units) (value : Amount) (sum : RunningSum) :
    s.compounded value ⟨s.product, sum, s.phase⟩ = .ok value := by
  rcases s.compounded_cases value ⟨s.product, sum, s.phase⟩ with ⟨hzero, hnothing | hlater | htwo⟩ | ⟨-, -, -, hread⟩
  · rw [hzero, Amount.isZero_iff.1 hnothing]
  · exact absurd hlater (Nat.lt_irrefl _)
  · rw [Nat.sub_self] at htwo
    exact absurd htwo (by decide)
  · have hproduct : s.product ≠ .zero := fun hzero => Amount.units_pos_iff.1 h (Amount.isZero_iff.2 hzero)
    have hquotient : value.mulDiv s.product s.product .down = .ok value :=
      Amount.mulDiv_eq_ok_iff.2 ⟨hproduct, (Nat.mul_div_cancel _ h).symm⟩
    have hwhole : value.dividedBy (s.factor.units ^ 0) = value := Amount.ext (Nat.div_one _)
    rw [hread, hquotient, Nat.sub_self]
    exact congrArg Except.ok ((congrArg _ hwhole).trans (unlessBelow_div_self value _))

theorem Consistent.gained_now (hs : s.Consistent) (value product : Amount) :
    s.gained value ⟨product, s.sumAt s.phase, s.phase⟩ = .ok .zero := by
  unfold gained
  split
  · rfl
  · dsimp only
    rw [if_neg (Nat.lt_irrefl _), hs.sumAt_nextScale, Nat.sub_self, Nat.zero_div, Nat.mul_zero, Nat.zero_div, Nat.zero_div]
    rfl

/-! ## What settling a deposit changes for depositors -/

/-- A reading depends on the accumulators only. -/
theorem Unmoved.compounded_eq (h : Unmoved s s') : s'.compounded = s.compounded := by
  funext initial snapshot
  rw [compounded, compounded, h.product_eq, h.phase_eq, h.factor_eq]

theorem Unmoved.gained_eq (h : Unmoved s s') : s'.gained = s.gained := by
  funext initial snapshot
  rw [gained, gained, sumAt, sumAt, sumAt, sumAt, h.sums_eq, h.factor_eq]

/-- What depositors read after an operation on a deposit, and what they read before it. -/
structure SettlesAlone (s : StabilityPool) (change : DepositChange) (s' : StabilityPool) : Prop where
  left_eq : s'.compoundedDeposit change.depositor = .ok change.deposit
  gain_eq : s'.depositorGain change.depositor = .ok .zero
  absent_iff : s'.deposits.get? change.depositor = none ↔ change.deposit = .zero
  /-- The gain that is reported is the one that could be read. -/
  paid_eq : s.depositorGain change.depositor = .ok change.gain
  left_of_ne : ∀ other, other ≠ change.depositor → s'.compoundedDeposit other = s.compoundedDeposit other
  gain_of_ne : ∀ other, other ≠ change.depositor → s'.depositorGain other = s.depositorGain other
  unmoved : Unmoved s s'

theorem Settles.settlesAlone (h : Settles s paidIn change s') (hs : s.Consistent) : SettlesAlone s change s' where
  left_eq := by
    rw [compoundedDeposit, h.get?_self, h.unmoved.compounded_eq]
    by_cases hnothing : change.deposit.isZero = true
    · rw [if_pos hnothing, Amount.isZero_iff.1 hnothing]
    · rw [if_neg hnothing]
      exact compounded_now hs.product_pos _ _
  gain_eq := by
    rw [depositorGain, h.get?_self, h.unmoved.gained_eq]
    by_cases hnothing : change.deposit.isZero = true
    · rw [if_pos hnothing]
    · rw [if_neg hnothing]
      exact hs.gained_now _ _
  absent_iff := by
    rw [h.get?_self, ← Amount.isZero_iff]
    by_cases hnothing : change.deposit.isZero = true
    · exact iff_of_true (if_pos hnothing) hnothing
    · rw [if_neg hnothing]
      exact iff_of_false (Option.some_ne_none _) hnothing
  paid_eq := h.gain_eq
  left_of_ne other hne := by rw [compoundedDeposit, compoundedDeposit, h.get?_of_ne hne, h.unmoved.compounded_eq]
  gain_of_ne other hne := by rw [depositorGain, depositorGain, h.get?_of_ne hne, h.unmoved.gained_eq]
  unmoved := h.unmoved

/-- **A depositor settles its own deposit and no other.** Whatever operations the pool was reached by, and whenever the
deposit was settled before: after an account has provided or withdrawn, what is left of its deposit is what the operation
reports and its gain is nothing, it has no deposit exactly if that is nothing, and it was paid the gain that it could read
before. What it provides is added to what was left of its deposit, and what it withdraws is taken off that, as far as
there is as much. No other account reads anything else than before, and the accumulators are as they were. -/
theorem Run.settles_alone (h : Run p s turns) (depositor : Address) (amount : Amount) :
    (∀ s' change, perform (provide depositor amount) s = (s', .ok change) →
      change.depositor = depositor ∧ SettlesAlone s change s' ∧ ∃ left, s.compoundedDeposit depositor = .ok left ∧
        change.deposit.units = left.units + amount.units) ∧
    ∀ s' change, perform (withdraw depositor amount) s = (s', .ok change) →
      change.depositor = depositor ∧ SettlesAlone s change s' ∧ ∃ left, s.compoundedDeposit depositor = .ok left ∧
        change.deposit.units = left.units - (min amount left).units := by
  have hs := h.consistent
  constructor
  · intro s' change hdone
    obtain ⟨hsettles, rfl, hnothing⟩ := provide_settles hdone
    obtain ⟨left, hleft, hdeposit⟩ := hsettles.left_add
    rw [hnothing] at hdeposit
    exact ⟨rfl, hsettles.settlesAlone hs, left, hleft, hdeposit⟩
  · intro s' change hdone
    obtain ⟨hsettles, rfl, left, hleft, hwithdrawn⟩ := withdraw_computes hdone
    obtain ⟨left', hleft', hdeposit⟩ := hsettles.left_add
    cases hleft.symm.trans hleft'
    rw [hwithdrawn] at hdeposit
    exact ⟨rfl, hsettles.settlesAlone hs, left, hleft, by omega⟩

/-- A pool that was consumed, and a deposit made after an offset and before another one that scales the product up. -/
def settledCalls : List Call := [
  .provide (.ofWord 1) (.ofWhole 100),
  .offset (.ofWhole 100) (.ofWhole 7),
  .provide (.ofWord 2) (.ofWhole 1000000),
  .offset (.ofWhole 999999) (.ofWhole 10),
  .provide (.ofWord 3) (.ofWhole 999999),
  .offset (.ofWhole 999999) (.ofWhole 20)]

def settledPool : StabilityPool := (replay .standard settledCalls).1

theorem run_settled : Run .standard settledPool (replay .standard settledCalls).2 := run_replay rfl settledCalls

/-- The account whose deposit was consumed provides again and is paid its old gain; the one whose deposit is from the
scale before this one takes all of it out. -/
theorem Run.settles_alone_sample :
    settledPool.phase = ⟨1, 1⟩ ∧
    (∃ s' change, perform (provide (.ofWord 1) (.ofWhole 50)) settledPool = (s', .ok change) ∧
      SettlesAlone settledPool change s' ∧ settledPool.compoundedDeposit (.ofWord 1) = .ok .zero ∧
      change.gain = .ofWhole 7 ∧ change.deposit = .ofWhole 50 ∧
      s'.compoundedDeposit (.ofWord 3) = settledPool.compoundedDeposit (.ofWord 3)) ∧
    ∃ s' change, perform (withdraw (.ofWord 3) (.ofWhole 1)) settledPool = (s', .ok change) ∧
      SettlesAlone settledPool change s' ∧ .zero < change.withdrawn ∧ s'.deposits.get? (.ofWord 3) = none := by
  obtain ⟨hprovided, -⟩ := Run.settles_alone run_settled (.ofWord 1) (.ofWhole 50)
  obtain ⟨-, hwithdrawn⟩ := Run.settles_alone run_settled (.ofWord 3) (.ofWhole 1)
  obtain ⟨-, hprovides, -⟩ := hprovided _ _ rfl
  obtain ⟨-, hwithdraws, -⟩ := hwithdrawn _ _ rfl
  exact ⟨by decide +kernel, ⟨_, _, rfl, hprovides, by decide +kernel, by decide +kernel, by decide +kernel,
    hprovides.left_of_ne _ (by decide +kernel)⟩, _, _, rfl, hwithdraws, by decide +kernel,
    hwithdraws.absent_iff.2 (by decide +kernel)⟩

end CollateralDebt.StabilityPool
