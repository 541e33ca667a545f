import CollateralDebt.Proofs.StabilityPool.Accumulators

/-! What holds of every pool that is reached from valid parameters. A run goes on in two ways only: a deposit is
settled, or an offset is carried out (`Run.induct`). Its pool has the floor and the factor of the parameters, and
accumulators that agree with the snapshots of the deposits. -/

open CollateralDebt.Action

namespace CollateralDebt.StabilityPool

variable {p : Params} {s s' : StabilityPool} {paidIn : Nat} {change : DepositChange} {turns : List Turn}

/-- What settling a deposit leaves alone. -/
structure Unmoved (s s' : StabilityPool) : Prop where
  product_eq : s'.product = s.product
  phase_eq : s'.phase = s.phase
  sums_eq : s'.sums = s.sums
  carriedGain_eq : s'.carriedGain = s.carriedGain
  carriedLoss_eq : s'.carriedLoss = s.carriedLoss
  floor_eq : s'.floor = s.floor
  factor_eq : s'.factor = s.factor

theorem Settles.exists_eq (h : Settles s paidIn change s') : ∃ totalDeposits collateral,
    s' = setDeposit { s with totalDeposits, collateral } change.depositor change.deposit := by
  obtain ⟨totalDeposits, -, hpool⟩ := h.pool_eq
  exact ⟨totalDeposits, _, hpool⟩

theorem Settles.unmoved (h : Settles s paidIn change s') : Unmoved s s' := by
  obtain ⟨totalDeposits, collateral, rfl⟩ := h.exists_eq
  unfold setDeposit
  split
  · exact ⟨rfl, rfl, rfl, rfl, rfl, rfl, rfl⟩
  · exact ⟨rfl, rfl, rfl, rfl, rfl, rfl, rfl⟩

/-- A deposit as an operation on it leaves it. -/
def settledDeposit (s : StabilityPool) (change : DepositChange) : Deposit :=
  ⟨change.depositor, change.deposit, ⟨s.product, s.sumAt s.phase, s.phase⟩⟩

theorem Settles.deposits_eq (h : Settles s paidIn change s') : s'.deposits =
    if change.deposit.isZero then s.deposits.erase change.depositor
    else s.deposits.insert change.depositor (s.settledDeposit change) := by
  obtain ⟨totalDeposits, collateral, rfl⟩ := h.exists_eq
  unfold setDeposit
  split <;> rfl

theorem Settles.get?_self (h : Settles s paidIn change s') : s'.deposits.get? change.depositor =
    if change.deposit.isZero then none else some (s.settledDeposit change) := by
  rw [h.deposits_eq]
  split
  · rw [SortedMap.get?_erase, if_pos rfl]
  · rw [SortedMap.get?_insert, if_pos rfl]

theorem Settles.get?_of_ne (h : Settles s paidIn change s') {other : Address} (hne : other ≠ change.depositor) :
    s'.deposits.get? other = s.deposits.get? other := by
  rw [h.deposits_eq]
  split
  · rw [SortedMap.get?_erase, if_neg hne]
  · rw [SortedMap.get?_insert, if_neg hne]

/-! ## Runs -/

/-- A run goes on by settling a deposit or by an offset. -/
theorem Run.induct {motive : StabilityPool → List Turn → Prop} (hstart : p.check = .ok () → motive (.ofParams p) [])
    (hsettled : ∀ {s s' turns change paidIn}, Run p s turns → motive s turns → Settles s paidIn change s' →
      motive s' (.deposit s change :: turns))
    (hoffset : ∀ {s turns o perUnit gainPerUnit}, Run p s turns → motive s turns → s.Charges o perUnit →
      s.Credits o gainPerUnit → motive (s.applyOffset o) (.offset s o :: turns))
    (h : Run p s turns) : motive s turns := by
  induction h with
  | start hcheck => exact hstart hcheck
  | provided h hdone ih => exact hsettled h ih (provide_settles hdone).1
  | withdrawn h hdone ih => exact hsettled h ih (withdraw_settles hdone).1
  | offset h hdone ih =>
      obtain ⟨rfl, ⟨perUnit, hcharges⟩, gainPerUnit, hcredits⟩ := offset_computes hdone
      exact hoffset h ih hcharges hcredits

theorem Run.check (h : Run p s turns) : p.check = .ok () :=
  h.induct (motive := fun _ _ => p.check = .ok ()) id (fun _ hcheck _ => hcheck) fun _ hcheck _ _ => hcheck

theorem Run.consistent (h : Run p s turns) : s.Consistent :=
  h.induct consistent_ofParams (fun _ hs hsettles => hsettles.resettles.consistent hs)
    fun _ hs hcharges _ => hcharges.consistent_applyOffset hs

/-- The floor and the factor are those of the parameters. -/
structure Scaled (p : Params) (s : StabilityPool) : Prop where
  floor_eq : s.floor = .ofWord p.productFloor
  factor_eq : s.factor = .ofWord p.productFactor

theorem Unmoved.scaled (h : Unmoved s s') (hs : Scaled p s) : Scaled p s' :=
  ⟨h.floor_eq.trans hs.floor_eq, h.factor_eq.trans hs.factor_eq⟩

theorem Run.scaled (h : Run p s turns) : Scaled p s :=
  h.induct (motive := fun s _ => Scaled p s) (fun _ => ⟨rfl, rfl⟩)
    (fun _ hs hsettles => hsettles.unmoved.scaled hs) fun _ hs _ _ => ⟨hs.floor_eq, hs.factor_eq⟩

theorem Run.floor_pos (h : Run p s turns) : 0 < s.floor.units := by
  rw [h.scaled.floor_eq]
  refine Nat.pos_of_ne_zero fun hzero => (Params.sensible_of_check h.check).productFloor_ne ?_
  exact UInt64.toNat.inj hzero

end CollateralDebt.StabilityPool
