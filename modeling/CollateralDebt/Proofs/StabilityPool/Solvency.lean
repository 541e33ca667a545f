import CollateralDebt.Proofs.StabilityPool.Worth

/-! What the pool holds against what is left of all deposits. A pool may hold more than its deposits are worth: what
rounding keeps back when a deposit is settled, and what offsets take off too much. That surplus shrinks with the
deposits in every offset, but what is carried on for having been charged too much does not shrink with it, so that
an offset may take off too little by it. The pool covers its deposits exactly as long as the surplus, with the
fractions that rounding is yet to keep back, is not negative (`Run.solvent_iff`); there are runs after which it is
(`not_solvent_short`). -/

open CollateralDebt.Action

namespace CollateralDebt.StabilityPool

variable {p : Params} {s s' : StabilityPool} {depositor : Address} {paidIn paidOut : Nat}

/-- What is left of all deposits together. -/
def owed (s : StabilityPool) : Nat := s.deposits.total s.left

/-- What all deposits together are worth. -/
def worthOfAll (s : StabilityPool) : ℚ := s.deposits.total s.worth

/-- What rounding keeps back of an account's deposit when it is settled. -/
def fractionOf (s : StabilityPool) (depositor : Address) : ℚ := (s.deposits.get? depositor).elim 0 s.fraction

/-- What rounding keeps back of all deposits together. -/
def fractions (s : StabilityPool) : ℚ := s.deposits.total s.fraction

theorem worthOfAll_eq (s : StabilityPool) : s.worthOfAll = s.owed + s.fractions := by
  have hcast : (s.owed : ℚ) = s.deposits.total fun d => (s.left d : ℚ) :=
    (s.deposits.total_map s.left (Nat.castAddMonoidHom ℚ)).symm
  rw [hcast, fractions, worthOfAll, ← SortedMap.total_add]
  exact SortedMap.total_congr fun _ _ => (add_sub_cancel _ _).symm

theorem fractions_nonneg (s : StabilityPool) : 0 ≤ s.fractions :=
  SortedMap.total_nonneg fun entry _ => s.fraction_nonneg entry.2

theorem fractionOf_nonneg (s : StabilityPool) (depositor : Address) : 0 ≤ s.fractionOf depositor := by
  unfold fractionOf
  cases s.deposits.get? depositor with
  | none => exact le_rfl
  | some d => exact s.fraction_nonneg d

theorem units_of_compoundedDeposit {left : Amount} (h : s.compoundedDeposit depositor = .ok left) :
    left.units = (s.deposits.get? depositor).elim 0 s.left := by
  cases hget : s.deposits.get? depositor with
  | none =>
      rw [compoundedDeposit, hget] at h
      cases h
      rfl
  | some d =>
      rw [compoundedDeposit_eq hget] at h
      rw [Option.elim_some, StabilityPool.left, h]

/-! ## Settling a deposit -/

theorem worth_setDeposit (s : StabilityPool) (depositor : Address) (value : Amount) :
    (s.setDeposit depositor value).worth = s.worth := by
  unfold setDeposit
  split <;> rfl

theorem totalDeposits_setDeposit (s : StabilityPool) (depositor : Address) (value : Amount) :
    (s.setDeposit depositor value).totalDeposits = s.totalDeposits := by
  unfold setDeposit
  split <;> rfl

theorem worthOfAll_setDeposit (h : 0 < s.product.units) (depositor : Address) (value : Amount) :
    (s.setDeposit depositor value).worthOfAll + (s.deposits.get? depositor).elim 0 s.worth =
      s.worthOfAll + value.units := by
  rw [worthOfAll, worth_setDeposit]
  unfold setDeposit
  split
  · next hzero =>
      rw [Amount.units_of_isZero hzero, Nat.cast_zero, add_zero]
      exact s.deposits.total_erase depositor s.worth
  · rw [← worth_settled h depositor value (s.sumAt s.phase)]
    exact s.deposits.total_insert depositor _ s.worth

theorem Regular.setDeposit (h : s.Regular) (depositor : Address) (value : Amount) :
    (s.setDeposit depositor value).Regular := by
  unfold StabilityPool.setDeposit
  split
  · exact ⟨h.product_pos, h.factor_pos, h.dated.erase depositor⟩
  · exact ⟨h.product_pos, h.factor_pos, h.dated.insert depositor ⟨h.product_pos, Key.irrefl _⟩⟩

theorem Resettles.regular (h : Resettles s depositor paidIn paidOut s') (hs : s.Regular) : s'.Regular := by
  cases h with
  | @mk left deposit totalDeposits collateral hleft hdeposit htotal =>
      have hpaid : Regular { s with totalDeposits, collateral } := ⟨hs.product_pos, hs.factor_pos, hs.dated⟩
      exact hpaid.setDeposit depositor deposit

/-- A deposit that is settled loses its fraction, and the rest of its worth moves with the payments. -/
theorem Resettles.worthOfAll_add (h : Resettles s depositor paidIn paidOut s') (hs : s.Regular) :
    s'.worthOfAll + s.fractionOf depositor + paidOut = s.worthOfAll + paidIn := by
  cases h with
  | @mk left deposit totalDeposits collateral hleft hdeposit htotal =>
      have hset := worthOfAll_setDeposit (s := { s with totalDeposits, collateral }) hs.product_pos depositor deposit
      have hworth : (s.deposits.get? depositor).elim 0 s.worth = left.units + s.fractionOf depositor := by
        rw [units_of_compoundedDeposit hleft, fractionOf]
        cases s.deposits.get? depositor with
        | none => simp
        | some d => exact (add_sub_cancel _ _).symm
      have hunits : (deposit.units : ℚ) + paidOut = left.units + paidIn := by exact_mod_cast hdeposit
      change _ + (s.deposits.get? depositor).elim 0 s.worth = s.worthOfAll + _ at hset
      linarith

theorem Resettles.units_totalDeposits (h : Resettles s depositor paidIn paidOut s') :
    s'.totalDeposits.units = s.totalDeposits.units + paidIn - paidOut := by
  cases h with
  | mk hleft hdeposit htotal =>
      rw [totalDeposits_setDeposit]
      exact htotal

/-- No more is paid out than is left of all deposits and paid in. -/
theorem Resettles.paidOut_le (h : Resettles s depositor paidIn paidOut s') : paidOut ≤ s.owed + paidIn := by
  cases h with
  | @mk left deposit totalDeposits collateral hleft hdeposit htotal =>
      have hle : left.units ≤ s.owed := by
        rw [units_of_compoundedDeposit hleft]
        cases hget : s.deposits.get? depositor with
        | none => exact Nat.zero_le _
        | some d => exact SortedMap.le_total hget s.left
      omega

/-- What the pool holds besides the worth of its deposits grows by the fraction that the settled deposit loses, and by
what was paid out and was not there. -/
theorem Resettles.totalDeposits_eq (h : Resettles s depositor paidIn paidOut s') (hs : s.Regular) {surplus : ℚ}
    (htotal : (s.totalDeposits.units : ℚ) = s.worthOfAll + surplus) :
    (s'.totalDeposits.units : ℚ) = s'.worthOfAll +
      (surplus + s.fractionOf depositor + (paidOut - (s.totalDeposits.units + paidIn) : Nat)) := by
  have hworth := h.worthOfAll_add hs
  have hheld := h.units_totalDeposits
  have hpaid : s'.totalDeposits.units + paidOut =
      s.totalDeposits.units + paidIn + (paidOut - (s.totalDeposits.units + paidIn)) := by omega
  have hcast : (s'.totalDeposits.units : ℚ) + paidOut =
      s.totalDeposits.units + paidIn + (paidOut - (s.totalDeposits.units + paidIn) : Nat) := by exact_mod_cast hpaid
  linarith

/-! ## Offsets -/

theorem Charges.regular_applyOffset {o : Offset} {perUnit : Nat} (h : s.Charges o perUnit) (hs : s.Regular) :
    (s.applyOffset o).Regular := by
  refine ⟨h.product_pos, hs.factor_pos, hs.dated.imp fun d hd => ⟨hd.product_pos, ?_⟩⟩
  have hphase := hd.phase_le
  show ¬o.phase < d.snapshot.phase
  rw [Phase.lt_iff] at hphase ⊢
  rcases h.phase_eq with hnext | hnext | hnext
  · simp only [hnext, Phase.nextEpoch]
    omega
  · simp only [hnext, Phase.nextScale]
    omega
  · rw [hnext]
    exact hphase

/-- An offset takes the same part of its worth from every deposit. -/
theorem Charges.worthOfAll_applyOffset {o : Offset} {perUnit : Nat} (h : s.Charges o perUnit) (hs : s.Regular) :
    (s.applyOffset o).worthOfAll = s.worthOfAll * s.kept o := by
  rw [worthOfAll, worthOfAll, ← SortedMap.total_mul]
  exact SortedMap.total_congr (hs.dated.imp fun d hd => worth_applyOffset h hs hd)

/-- What the pool holds besides the worth of its deposits is reduced like them, and the overcharge comes to it. -/
theorem Charges.totalDeposits_applyOffset {o : Offset} {perUnit : Nat} (h : s.Charges o perUnit) (hs : s.Regular)
    {surplus : ℚ} (htotal : (s.totalDeposits.units : ℚ) = s.worthOfAll + surplus) :
    ((s.applyOffset o).totalDeposits.units : ℚ) =
      (s.applyOffset o).worthOfAll + (surplus * s.kept o + s.overcharge o) := by
  have hheld : ((s.applyOffset o).totalDeposits.units : ℚ) = s.totalDeposits.units - o.debtLoss.units :=
    Nat.cast_sub h.debtLoss_le
  calc ((s.applyOffset o).totalDeposits.units : ℚ) = s.totalDeposits.units - o.debtLoss.units := hheld
    _ = s.totalDeposits.units * s.kept o + s.overcharge o := by
      rw [overcharge]
      ring
    _ = (s.worthOfAll + surplus) * s.kept o + s.overcharge o := by rw [htotal]
    _ = (s.applyOffset o).worthOfAll + (surplus * s.kept o + s.overcharge o) := by
      rw [h.worthOfAll_applyOffset hs]
      ring

/-! ## Runs -/

/-- A successful operation, with the pool as it was before. -/
inductive Turn where
  | deposit (before : StabilityPool) (change : DepositChange)
  | offset (before : StabilityPool) (o : Offset)

/-- The surplus of a pool after its operations, the latest first. A deposit that is settled leaves its fraction
behind, and the pool pays no more than it holds. An offset takes the same part of the surplus as of the deposits,
and adds to it what it takes off the deposits too much. -/
def surplus : List Turn → ℚ
  | [] => 0
  | .deposit before change :: earlier =>
      surplus earlier + before.fractionOf change.depositor +
        (change.withdrawn.units - before.totalDeposits.units : Nat)
  | .offset before o :: earlier => surplus earlier * before.kept o + before.overcharge o

/-- An operation that cannot bring the surplus below nothing: an offset that consumes the pool, or that carries on
at least as much as was carried to it. -/
def Turn.Covers : Turn → Prop
  | .deposit _ _ => True
  | .offset before o => o.debtLoss = before.totalDeposits ∨ before.carriedLoss ≤ o.carriedLoss

instance : DecidablePred Turn.Covers
  | .deposit _ _ => inferInstanceAs (Decidable True)
  | .offset before o =>
      inferInstanceAs (Decidable (o.debtLoss = before.totalDeposits ∨ before.carriedLoss ≤ o.carriedLoss))

/-- A pool that was reached from the parameters by successful operations, the latest first. -/
inductive Run (p : Params) : StabilityPool → List Turn → Prop where
  | start (h : p.check = .ok ()) : Run p (.ofParams p) []
  | provided {s s' : StabilityPool} {turns : List Turn} {depositor : Address} {amount : Amount}
      {change : DepositChange} (h : Run p s turns)
      (hdone : perform (provide depositor amount) s = (s', .ok change)) : Run p s' (.deposit s change :: turns)
  | withdrawn {s s' : StabilityPool} {turns : List Turn} {depositor : Address} {amount : Amount}
      {change : DepositChange} (h : Run p s turns)
      (hdone : perform (withdraw depositor amount) s = (s', .ok change)) : Run p s' (.deposit s change :: turns)
  | offset {s s' : StabilityPool} {turns : List Turn} {debtLoss collateralGain : Amount} {o : Offset}
      (h : Run p s turns) (hdone : perform (offset debtLoss collateralGain) s = (s', .ok o)) :
      Run p s' (.offset s o :: turns)

variable {turns : List Turn}

theorem productFactor_pos_of_check (h : p.check = .ok ()) : 0 < p.productFactor.toNat :=
  Nat.lt_of_lt_of_le Nat.two_pos (Params.sensible_of_check h).productFactor_ge

/-- **The pool's books.** What a pool holds is what its deposits are worth, and its surplus. -/
theorem Run.regular_total (h : Run p s turns) :
    s.Regular ∧ (s.totalDeposits.units : ℚ) = s.worthOfAll + surplus turns := by
  -- An equation and not a bound: the surplus may be negative, and every step carries it on exactly.
  induction h with
  | start hcheck =>
      refine ⟨⟨show 0 < Amount.scale by decide, productFactor_pos_of_check hcheck, SortedMap.all_empty _⟩, ?_⟩
      show ((0 : Nat) : ℚ) = 0 + 0
      rw [Nat.cast_zero, add_zero]
  | @provided s s' turns depositor amount change h hdone ih =>
      obtain ⟨hresettled, rfl, hwithdrawn⟩ := provide_eq_ok hdone
      have htotal := hresettled.totalDeposits_eq ih.1 ih.2
      rw [Nat.zero_sub] at htotal
      have hnothing : change.withdrawn.units - s.totalDeposits.units = 0 := by
        rw [hwithdrawn]
        exact Nat.zero_sub _
      rw [surplus, hnothing]
      exact ⟨hresettled.regular ih.1, htotal⟩
  | @withdrawn s s' turns depositor amount change h hdone ih =>
      obtain ⟨hresettled, rfl⟩ := withdraw_eq_ok hdone
      exact ⟨hresettled.regular ih.1, hresettled.totalDeposits_eq ih.1 ih.2⟩
  | @offset s s' turns debtLoss collateralGain o h hdone ih =>
      obtain ⟨rfl, perUnit, hcharges⟩ := offset_eq_ok hdone
      exact ⟨hcharges.regular_applyOffset ih.1, hcharges.totalDeposits_applyOffset ih.1 ih.2⟩

/-- What a pool can be asked. -/
inductive Call where
  | provide (depositor : Address) (amount : Amount)
  | withdraw (depositor : Address) (amount : Amount)
  | offset (debtLoss collateralGain : Amount)

/-- The pool and its operations after a call; a call that is refused changes nothing. -/
def answer (reached : StabilityPool × List Turn) : Call → StabilityPool × List Turn
  | .provide depositor amount =>
      match perform (provide depositor amount) reached.1 with
      | (s, .ok change) => (s, .deposit reached.1 change :: reached.2)
      | (_, .error _) => reached
  | .withdraw depositor amount =>
      match perform (withdraw depositor amount) reached.1 with
      | (s, .ok change) => (s, .deposit reached.1 change :: reached.2)
      | (_, .error _) => reached
  | .offset debtLoss collateralGain =>
      match perform (offset debtLoss collateralGain) reached.1 with
      | (s, .ok o) => (s, .offset reached.1 o :: reached.2)
      | (_, .error _) => reached

/-- The pool and its operations after a list of calls. -/
def replay (p : Params) (calls : List Call) : StabilityPool × List Turn := calls.foldl answer (.ofParams p, [])

theorem run_answer {reached : StabilityPool × List Turn} (h : Run p reached.1 reached.2) (call : Call) :
    Run p (answer reached call).1 (answer reached call).2 := by
  unfold answer
  cases call with
  | provide depositor amount =>
      dsimp only
      split
      · next hdone => exact h.provided hdone
      · exact h
  | withdraw depositor amount =>
      dsimp only
      split
      · next hdone => exact h.withdrawn hdone
      · exact h
  | offset debtLoss collateralGain =>
      dsimp only
      split
      · next hdone => exact h.offset hdone
      · exact h

theorem run_replay (h : p.check = .ok ()) (calls : List Call) : Run p (replay p calls).1 (replay p calls).2 :=
  List.foldlRecOn (motive := fun reached => Run p reached.1 reached.2) calls answer (.start h)
    fun _ hreached call _ => run_answer hreached call

/-- One account adds to its deposit after an offset, and another one takes out of it after the next. -/
def coveredCalls : List Call := [
  .provide (.ofWord 1) (.ofWhole 2000),
  .provide (.ofWord 2) (.ofWhole 700),
  .offset (.ofWhole 100) (.ofWhole 1),
  .provide (.ofWord 2) (.ofWhole 300),
  .offset (.ofWhole 1100) (.ofWhole 5),
  .withdraw (.ofWord 1) (.ofWhole 600)]

/-- The second offset takes off all that the first one took off too much, of which the pool has lost a part. -/
def shortCalls : List Call := [
  .provide (.ofWord 1) (.ofWhole 3000),
  .offset (.ofWhole 18) (.ofWhole 1),
  .offset (.ofWhole 2558) (.ofWhole 1)]

def shortPool : StabilityPool := (replay .standard shortCalls).1

def shortTurns : List Turn := (replay .standard shortCalls).2

theorem run_covered : Run .standard (replay .standard coveredCalls).1 (replay .standard coveredCalls).2 :=
  run_replay rfl coveredCalls

theorem run_short : Run .standard shortPool shortTurns := run_replay rfl shortCalls

/-! ## Solvency -/

theorem Charges.overcharge_nonneg {o : Offset} {perUnit : Nat} (h : s.Charges o perUnit) (hs : s.Regular)
    (hcovers : Turn.Covers (.offset s o)) : 0 ≤ s.overcharge o := by
  rcases h.le_overcharge hs with ⟨-, hzero⟩ | ⟨hpart, hcarried⟩
  · exact hzero.ge
  · have hle : s.carriedLoss.units ≤ o.carriedLoss.units := hcovers.resolve_left hpart
    have hmore : (0 : ℚ) ≤ o.carriedLoss.units - s.carriedLoss.units := sub_nonneg.2 (Nat.cast_le.2 hle)
    exact (div_nonneg hmore (Nat.cast_nonneg _)).trans hcarried

/-- Operations that cover what is carried to them leave a surplus that is not negative. -/
theorem Run.surplus_nonneg (h : Run p s turns) (hcovers : ∀ turn ∈ turns, turn.Covers) : 0 ≤ surplus turns := by
  have hsettled : ∀ (before : StabilityPool) (change : DepositChange) (earlier : List Turn), 0 ≤ surplus earlier →
      0 ≤ surplus (.deposit before change :: earlier) := by
    intro before change earlier hearlier
    have hfraction := before.fractionOf_nonneg change.depositor
    rw [surplus]
    positivity
  induction h with
  | start hcheck => exact le_rfl
  | provided h hdone ih => exact hsettled _ _ _ (ih fun turn hmem => hcovers turn (List.mem_cons_of_mem _ hmem))
  | withdrawn h hdone ih => exact hsettled _ _ _ (ih fun turn hmem => hcovers turn (List.mem_cons_of_mem _ hmem))
  | @offset s s' turns debtLoss collateralGain o h hdone ih =>
      obtain ⟨-, perUnit, hcharges⟩ := offset_eq_ok hdone
      have hearlier := ih fun turn hmem => hcovers turn (List.mem_cons_of_mem _ hmem)
      have hover := hcharges.overcharge_nonneg h.regular_total.1 (hcovers _ List.mem_cons_self)
      exact add_nonneg (mul_nonneg hearlier (s.kept_nonneg o)) hover

/-- A payment out of a pool that covers its deposits is covered. -/
theorem withdraw_total (hcovered : s.owed ≤ s.totalDeposits.units) {amount : Amount} {change : DepositChange}
    (h : perform (withdraw depositor amount) s = (s', .ok change)) :
    s'.totalDeposits.units + change.withdrawn.units = s.totalDeposits.units := by
  obtain ⟨hresettled, -⟩ := withdraw_eq_ok h
  have htotal := hresettled.units_totalDeposits
  have hpaid := hresettled.paidOut_le
  omega

/-- **When the pool covers its deposits.** What the pool holds and what is left of its deposits differ by the surplus
and the fractions, so the pool covers its deposits exactly when those are not negative together. It does if every
offset carried on as much as was carried to it, and then a withdrawal is paid out of what the pool holds. -/
theorem Run.solvent_iff (h : Run p s turns) :
    (s.totalDeposits.units : ℚ) - s.owed = surplus turns + s.fractions ∧
    (s.owed ≤ s.totalDeposits.units ↔ 0 ≤ surplus turns + s.fractions) ∧
    ((∀ turn ∈ turns, turn.Covers) → s.owed ≤ s.totalDeposits.units) ∧
    (s.owed ≤ s.totalDeposits.units → ∀ depositor amount s' change,
      perform (withdraw depositor amount) s = (s', .ok change) →
        s'.totalDeposits.units + change.withdrawn.units = s.totalDeposits.units) := by
  have htotal := h.regular_total.2
  have hdifference : (s.totalDeposits.units : ℚ) - s.owed = surplus turns + s.fractions := by
    calc (s.totalDeposits.units : ℚ) - s.owed = s.owed + s.fractions + surplus turns - s.owed := by
          rw [htotal, worthOfAll_eq]
      _ = surplus turns + s.fractions := by ring
  have hiff : s.owed ≤ s.totalDeposits.units ↔ 0 ≤ surplus turns + s.fractions := by
    rw [← hdifference, sub_nonneg, Nat.cast_le]
  refine ⟨hdifference, hiff, fun hcovers => hiff.2 ?_, fun hcovered _ _ _ _ hdone => withdraw_total hcovered hdone⟩
  exact add_nonneg (h.surplus_nonneg hcovers) s.fractions_nonneg

/-- A run that covers its deposits, and one whose surplus is two thousand units short. -/
theorem Run.solvent_iff_sample :
    (∀ turn ∈ (replay .standard coveredCalls).2, turn.Covers) ∧
    (replay .standard coveredCalls).1.owed ≤ (replay .standard coveredCalls).1.totalDeposits.units ∧
    surplus shortTurns + shortPool.fractions = -2000 := by
  have hcovers : ∀ turn ∈ (replay .standard coveredCalls).2, turn.Covers := by decide +kernel
  have htotal : shortPool.totalDeposits.units = 424 * 10 ^ 18 := by decide +kernel
  have howed : shortPool.owed = 424 * 10 ^ 18 + 2000 := by decide +kernel
  obtain ⟨-, -, hcovered, -⟩ := Run.solvent_iff run_covered
  obtain ⟨hshort, -⟩ := Run.solvent_iff run_short
  refine ⟨hcovers, hcovered hcovers, ?_⟩
  rw [← hshort, htotal, howed, Nat.cast_add, sub_add_cancel_left]
  rfl

/-- The only depositor is left two thousand units more than the pool holds, and is paid them. -/
theorem not_solvent_short :
    Run .standard shortPool shortTurns ∧ shortPool.totalDeposits.units = 424 * Amount.scale ∧
      shortPool.owed = 424 * Amount.scale + 2000 ∧
      ∃ s' change, perform (withdraw (.ofWord 1) (.ofWhole 3000)) shortPool = (s', .ok change) ∧
        change.withdrawn.units = 424 * Amount.scale + 2000 ∧ s'.totalDeposits = .zero :=
  ⟨run_short, by decide +kernel, by decide +kernel, _, _, rfl, by decide +kernel, by decide +kernel⟩

end CollateralDebt.StabilityPool
