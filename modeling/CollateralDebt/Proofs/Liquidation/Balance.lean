import CollateralDebt.Proofs.Liquidation.Plan
import Mathlib.Order.Basic

/-! The values of a trove can always be worked out. Each rule takes a trove apart by subtractions and by one quotient.
None of them can fail: the liquidator is paid no more than there is, the pool takes no more of a debt than all of it,
and what the minimum ratio asks for is no more than a trove at that ratio has. So no trove stops the planning of a batch
(`assess_balances`). A trove of which only a part is taken is worse off than the system, and the system without it is
none the worse. -/

open CollateralDebt.Action

namespace CollateralDebt

namespace Amount

variable {a b : Amount}

theorem exists_plus_eq_ok (h : a.units + b.units ≤ max.units) : ∃ c, a.plus b = .ok c := exists_narrow_eq_ok_iff.2 h

theorem exists_minus_eq_ok (h : b ≤ a) : ∃ c, a.minus b = .ok c := ⟨_, if_pos h⟩

theorem min_le_right (a b : Amount) : min a b ≤ b := by
  show (if a ≤ b then a else b) ≤ b
  split
  · assumption
  · exact Nat.le_refl _

theorem min_eq_left (h : a ≤ b) : min a b = a := if_pos h

end Amount

/-- The liquidator is paid no more than there is. -/
theorem Params.gasCompensation_le (p : Params) (collateral : Amount) : p.gasCompensation collateral ≤ collateral :=
  Amount.min_le_right _ _

/-- Any debt and collateral can be divided, and the pool takes as much of the debt as it holds, with the same part of the
collateral, rounded down. -/
theorem Split.exists_of (debt collateral deposits : Amount) : ∃ s, Split.of debt collateral deposits = .ok s ∧
    s.offsetDebt = min debt deposits ∧
    s.poolCollateral.units = collateral.units * s.offsetDebt.units / debt.units := by
  unfold Split.of
  split
  · next hnothing =>
      have hzero : min debt deposits = .zero := by
        rcases Bool.or_eq_true_iff.1 hnothing with hdeposits | hdebt
        · exact Amount.ext (Nat.le_zero.1 (Amount.units_of_isZero hdeposits ▸ Amount.min_le_right debt deposits))
        · exact Amount.ext (Nat.le_zero.1 (Amount.units_of_isZero hdebt ▸ Amount.min_le_left debt deposits))
      refine ⟨_, rfl, hzero.symm, ?_⟩
      show 0 = collateral.units * 0 / debt.units
      rw [Nat.mul_zero, Nat.zero_div]
  · next hsome =>
      rw [Bool.or_eq_true, not_or] at hsome
      have hshare : collateral.units * (min debt deposits).units / debt.units ≤ collateral.units := by
        refine Nat.div_le_of_le_mul ?_
        rw [Nat.mul_comm debt.units]
        exact Nat.mul_le_mul_left _ (Amount.min_le_left debt deposits)
      obtain ⟨poolCollateral, hpool⟩ :=
        (Amount.exists_mulDiv_eq_ok_iff (Amount.units_pos_iff.2 hsome.2)).2 (hshare.trans collateral.le_max)
      have hunits : poolCollateral.units = collateral.units * (min debt deposits).units / debt.units :=
        (Amount.mulDiv_eq_ok_iff.1 hpool).2
      obtain ⟨restDebt, hdebt⟩ := Amount.exists_minus_eq_ok (Amount.min_le_left debt deposits)
      obtain ⟨restCollateral, hcollateral⟩ := Amount.exists_minus_eq_ok (hunits.trans_le hshare)
      exact ⟨_, except_bind_eq_ok.2 ⟨_, hpool, except_bind_eq_ok.2 ⟨_, hdebt,
        except_bind_eq_ok.2 ⟨_, hcollateral, rfl⟩⟩⟩, rfl, hunits⟩

namespace LiquidationValues

/-- The values of a trove that pays its liquidator, is offset as far as the pool holds deposits, and is redistributed for
the rest. -/
structure Offsets (v : LiquidationValues) (p : Params) (entire : EntireTrove) (deposits : Amount) : Prop where
  entire_eq : v.entire = entire
  balanced : v.isBalanced = true
  offsetDebt_eq : v.offsetDebt = min entire.debt deposits
  offsetDebt_le : v.offsetDebt ≤ deposits
  gasCompensation_eq : v.gasCompensation = p.gasCompensation entire.collateral
  poolCollateral_eq : v.poolCollateral.units =
    (entire.collateral.units - v.gasCompensation.units) * v.offsetDebt.units / entire.debt.units
  surplus_eq : v.surplus = .zero

/-- The values of a trove of which just as much is taken as the minimum ratio asks for, which is no more than there is;
the rest is its owner's surplus, and the pool takes all the debt. -/
structure Caps (v : LiquidationValues) (p : Params) (price : Amount) (entire : EntireTrove) (deposits : Amount) :
    Prop where
  entire_eq : v.entire = entire
  balanced : v.isBalanced = true
  offsetDebt_eq : v.offsetDebt = entire.debt
  offsetDebt_le : v.offsetDebt ≤ deposits
  seized_eq : ∃ seized : Amount, seized.units = entire.debt.units * p.minimumRatio.units / price.units ∧
    seized ≤ entire.collateral ∧ v.gasCompensation = p.gasCompensation seized ∧
    v.gasCompensation.units + v.poolCollateral.units = seized.units ∧
    v.surplus.units = entire.collateral.units - seized.units

end LiquidationValues

/-- The system can be worked out without a trove that it contains. -/
theorem RunningState.exists_advance {s : RunningState} {v : LiquidationValues} (h : v.isBalanced = true)
    (hdebt : v.entire.debt ≤ s.systemDebt) (hcollateral : v.entire.collateral ≤ s.systemCollateral)
    (hdeposits : v.offsetDebt ≤ s.deposits) : ∃ s', s.advance v = .ok s' := by
  obtain ⟨hdebts, hcollaterals⟩ := LiquidationValues.isBalanced_iff.1 h
  have hlargest := v.entire.collateral.le_max
  rw [Amount.le_iff] at hdebt hcollateral hlargest
  obtain ⟨paid, hpaid⟩ : ∃ c, v.poolCollateral.plus v.gasCompensation = .ok c := Amount.exists_plus_eq_ok (by omega)
  have hpaidUnits := Amount.plus_eq_ok_iff.1 hpaid
  obtain ⟨left, hleft⟩ : ∃ c, paid.plus v.surplus = .ok c := Amount.exists_plus_eq_ok (by omega)
  have hleftUnits := Amount.plus_eq_ok_iff.1 hleft
  obtain ⟨systemDebt, hsystemDebt⟩ : ∃ c, s.systemDebt.minus v.offsetDebt = .ok c :=
    Amount.exists_minus_eq_ok (Amount.le_iff.2 (by omega))
  obtain ⟨systemCollateral, hsystemCollateral⟩ : ∃ c, s.systemCollateral.minus left = .ok c :=
    Amount.exists_minus_eq_ok (Amount.le_iff.2 (by omega))
  obtain ⟨deposits, hrest⟩ := Amount.exists_minus_eq_ok hdeposits
  exact ⟨_, except_bind_eq_ok.2 ⟨_, hpaid, except_bind_eq_ok.2 ⟨_, hleft, except_bind_eq_ok.2 ⟨_, hsystemDebt,
    except_bind_eq_ok.2 ⟨_, hsystemCollateral, except_bind_eq_ok.2 ⟨_, hrest, rfl⟩⟩⟩⟩⟩⟩

/-- A system is none the worse, with nothing rounded, without a trove whose ratio is below that of the system. -/
theorem Amount.le_ratio_without {collateral debt price systemCollateral systemDebt : Amount}
    (hbelow : collateralRatio collateral debt price < collateralRatio systemCollateral systemDebt price)
    (hdebt : debt ≤ systemDebt) : systemCollateral.units * (systemDebt.units - debt.units) ≤
      (systemCollateral.units - collateral.units) * systemDebt.units := by
  have hlow := Nat.lt_of_not_le fun hle => not_le.2 hbelow (le_collateralRatio_iff.2 hle)
  have hhigh := le_collateralRatio_iff.1 (Nat.le_refl (collateralRatio systemCollateral systemDebt price).units)
  generalize (collateralRatio systemCollateral systemDebt price).units = bound at hlow hhigh
  have hworth : 0 < systemCollateral.units * price.units :=
    (Nat.zero_lt_of_lt hlow).trans_le ((Nat.mul_le_mul_left _ hdebt).trans hhigh)
  -- The price and the bound are taken out of the comparison of the two exact ratios.
  have hratios : collateral.units * systemDebt.units ≤ systemCollateral.units * debt.units := by
    refine Nat.le_of_mul_le_mul_right ?_ (Nat.pos_of_mul_pos_left hworth)
    calc collateral.units * systemDebt.units * price.units
        = collateral.units * price.units * systemDebt.units := Nat.mul_right_comm _ _ _
      _ ≤ bound * debt.units * systemDebt.units := Nat.mul_le_mul_right _ hlow.le
      _ = bound * systemDebt.units * debt.units := Nat.mul_right_comm _ _ _
      _ ≤ systemCollateral.units * price.units * debt.units := Nat.mul_le_mul_right _ hhigh
      _ = systemCollateral.units * debt.units * price.units := Nat.mul_right_comm _ _ _
  rw [Nat.mul_sub, Nat.sub_mul]
  exact Nat.sub_le_sub_left hratios _

namespace LiquidationPlan

variable {p : Params} {price : Amount} {entire : EntireTrove}

theorem exists_offsetValues (hdebt : 0 < entire.debt.units) (p : Params) (borrower : Address) (ratio : Amount)
    (mode : LiquidationMode) (deposits : Amount) :
    ∃ v, offsetValues p borrower entire ratio mode deposits = .ok v ∧ v.Offsets p entire deposits := by
  obtain ⟨rest, hrest⟩ := Amount.exists_minus_eq_ok (p.gasCompensation_le entire.collateral)
  obtain ⟨split, hsplit, hoffset, hpool⟩ := Split.exists_of entire.debt rest deposits
  have hunits := Amount.minus_eq_ok_iff.1 hrest
  have hvalues : ∃ v, offsetValues p borrower entire ratio mode deposits = .ok v ∧ v.offsetDebt = split.offsetDebt ∧
      v.gasCompensation = p.gasCompensation entire.collateral ∧ v.poolCollateral = split.poolCollateral ∧
      v.surplus = .zero :=
    ⟨_, except_bind_eq_ok.2 ⟨_, hrest, except_bind_eq_ok.2 ⟨_, hsplit, rfl⟩⟩, rfl, rfl, rfl, rfl⟩
  obtain ⟨v, hv, hvOffset, hvGas, hvPool, hvSurplus⟩ := hvalues
  have hsettles := offsetValues_eq_ok hv hdebt
  refine ⟨v, hv, hsettles.entire, hsettles.balanced, hvOffset.trans hoffset, ?_, hvGas, ?_, hvSurplus⟩
  · rw [hvOffset, hoffset]
    exact Amount.min_le_right _ _
  · rw [hvPool, hpool, hvOffset, hvGas, hunits, Nat.add_sub_cancel_left]

theorem exists_underwaterValues (hdebt : 0 < entire.debt.units) (p : Params) (borrower : Address) (ratio : Amount) :
    ∃ v, underwaterValues p borrower entire ratio = .ok v ∧ v.entire = entire ∧ v.isBalanced = true ∧
      v.offsetDebt = .zero ∧ v.poolCollateral = .zero := by
  obtain ⟨rest, hrest⟩ := Amount.exists_minus_eq_ok (p.gasCompensation_le entire.collateral)
  have hvalues : ∃ v, underwaterValues p borrower entire ratio = .ok v ∧ v.offsetDebt = .zero ∧
      v.poolCollateral = .zero := ⟨_, except_bind_eq_ok.2 ⟨_, hrest, rfl⟩, rfl, rfl⟩
  obtain ⟨v, hv, hnone⟩ := hvalues
  have hsettles := underwaterValues_eq_ok hv hdebt
  exact ⟨v, hv, hsettles.entire, hsettles.balanced, hnone⟩

/-- A trove at the minimum ratio or above has what that ratio asks for. -/
theorem exists_cappedValues (hp : p.Sensible) (hdebt : 0 < entire.debt.units)
    (hminimum : p.minimumRatio ≤ Amount.collateralRatio entire.collateral entire.debt price) {deposits : Amount}
    (hdeposits : entire.debt ≤ deposits) (borrower : Address) (ratio : Amount) :
    ∃ v, cappedValues p price borrower entire ratio = .ok v ∧ v.Caps p price entire deposits := by
  have hworth := Amount.le_collateralRatio_iff.1 hminimum
  have hprice : 0 < price.units := by
    have hasked : 0 < p.minimumRatio.units * entire.debt.units :=
      Nat.mul_pos (Nat.zero_lt_of_lt hp.minimumRatio_gt) hdebt
    exact Nat.pos_of_mul_pos_left (hasked.trans_le hworth)
  have henough : entire.debt.units * p.minimumRatio.units / price.units ≤ entire.collateral.units := by
    refine Nat.div_le_of_le_mul ?_
    rw [Nat.mul_comm, Nat.mul_comm price.units]
    exact hworth
  obtain ⟨asked, hasked⟩ := (Amount.exists_mulDiv_eq_ok_iff hprice).2 (henough.trans entire.collateral.le_max)
  have hunits : asked.units = entire.debt.units * p.minimumRatio.units / price.units :=
    (Amount.mulDiv_eq_ok_iff.1 hasked).2
  have hle : asked ≤ entire.collateral := hunits.trans_le henough
  obtain ⟨poolCollateral, hpool⟩ := Amount.exists_minus_eq_ok (p.gasCompensation_le asked)
  obtain ⟨surplus, hsurplus⟩ := Amount.exists_minus_eq_ok hle
  have hpoolUnits := Amount.minus_eq_ok_iff.1 hpool
  have hsurplusUnits := Amount.minus_eq_ok_iff.1 hsurplus
  have hvalues : ∃ v, cappedValues p price borrower entire ratio = .ok v ∧ v.offsetDebt = entire.debt ∧
      v.gasCompensation = p.gasCompensation asked ∧ v.poolCollateral = poolCollateral ∧ v.surplus = surplus := by
    unfold cappedValues
    rw [hasked]
    dsimp only [bind, Except.bind]
    rw [Amount.min_eq_left hle, hpool, hsurplus]
    exact ⟨_, rfl, rfl, rfl, rfl, rfl⟩
  obtain ⟨v, hv, hvOffset, hvGas, hvPool, hvSurplus⟩ := hvalues
  have hsettles := cappedValues_eq_ok hv
  refine ⟨v, hv, hsettles.entire, hsettles.balanced, hvOffset, hvOffset ▸ hdeposits, asked, hunits, hle, hvGas, ?_, ?_⟩
  · rw [hvGas, hvPool, hpoolUnits]
  · rw [hvSurplus, hsurplusUnits, Nat.add_sub_cancel_left]

/-- If a trove is liquidated, each unit of it goes to one place, and no more debt is offset than the pool holds. -/
def Balances (entire : EntireTrove) (deposits : Amount) (decision : Decision) : Prop :=
  ∀ v, decision = .ok v → v.entire = entire ∧ v.isBalanced = true ∧ v.offsetDebt ≤ deposits

theorem balances_of_values {values : Except Error LiquidationValues} {v : LiquidationValues} {deposits : Amount}
    (h : values = .ok v) (hentire : v.entire = entire) (hbalanced : v.isBalanced = true)
    (hle : v.offsetDebt ≤ deposits) :
    ∃ decision : Decision, values.map .ok = .ok decision ∧ Balances entire deposits decision := by
  rw [h]
  refine ⟨.ok v, rfl, ?_⟩
  rintro _ ⟨⟩
  exact ⟨hentire, hbalanced, hle⟩

theorem balances_of_skipped (entire : EntireTrove) (deposits : Amount) (reason : SkipReason) :
    ∃ decision : Decision, (.ok (.error reason) : Except Error Decision) = .ok decision ∧
      Balances entire deposits decision :=
  ⟨.error reason, rfl, fun _ hv => nomatch hv⟩

/-- No trove stops the planning of a batch: it is liquidated or skipped. -/
theorem exists_assess (hp : p.Sensible) (hdebt : 0 < entire.debt.units) (price : Amount) (s : RunningState)
    (borrower : Address) :
    ∃ decision, assess p price s borrower entire = .ok decision ∧ Balances entire s.deposits decision := by
  have hoffset : ∀ ratio mode, ∃ decision : Decision,
      (offsetValues p borrower entire ratio mode s.deposits).map .ok = .ok decision ∧
        Balances entire s.deposits decision := by
    intro ratio mode
    obtain ⟨v, hv, hoffsets⟩ := exists_offsetValues hdebt p borrower ratio mode s.deposits
    exact balances_of_values hv hoffsets.entire_eq hoffsets.balanced hoffsets.offsetDebt_le
  unfold assess
  dsimp only
  split
  · split
    · obtain ⟨v, hv, hentire, hbalanced, hnone, -⟩ := exists_underwaterValues hdebt p borrower
        (Amount.collateralRatio entire.collateral entire.debt price)
      refine balances_of_values hv hentire hbalanced ?_
      rw [hnone]
      exact Nat.zero_le _
    · split
      · exact hoffset _ _
      · next hminimum =>
          split
          · exact balances_of_skipped entire _ _
          · split
            · exact balances_of_skipped entire _ _
            · next hdeposits =>
                obtain ⟨v, hv, hcaps⟩ := exists_cappedValues hp hdebt (Amount.not_lt.1 hminimum)
                  (Amount.not_lt.1 hdeposits) borrower (Amount.collateralRatio entire.collateral entire.debt price)
                exact balances_of_values hv hcaps.entire_eq hcaps.balanced hcaps.offsetDebt_le
  · split
    · exact hoffset _ _
    · exact balances_of_skipped entire _ _

/-- **Every rule balances, and none fails.** For valid parameters and a trove with some debt, at whatever price: the
values of a trove that is offset, of one that is underwater, and of one that is liquidated in part can be worked out,
and give each unit of it to one place. An offset takes no more debt than the pool holds, and gives the pool the same
part of what the liquidator leaves, rounded down. Of a trove from the minimum ratio up to that of the system exactly
what the minimum asks for is taken, rounded down, which is no more than there is; and a system that contains the trove
and has that ratio is none the worse without it. So what happens to a trove can always be decided, and the system
without it can be worked out. -/
theorem assess_balances (hp : p.check = .ok ()) (hdebt : 0 < entire.debt.units) (price : Amount) (borrower : Address) :
    (∀ ratio mode deposits, ∃ v, offsetValues p borrower entire ratio mode deposits = .ok v ∧
      v.Offsets p entire deposits) ∧
    (∀ ratio, ∃ v, underwaterValues p borrower entire ratio = .ok v ∧ v.entire = entire ∧ v.isBalanced = true ∧
      v.offsetDebt = .zero ∧ v.poolCollateral = .zero) ∧
    (∀ systemRatio deposits : Amount,
      let ratio := Amount.collateralRatio entire.collateral entire.debt price
      p.minimumRatio ≤ ratio → ratio < systemRatio → entire.debt ≤ deposits →
      (∃ v, cappedValues p price borrower entire ratio = .ok v ∧ v.Caps p price entire deposits) ∧
      ∀ systemCollateral systemDebt : Amount,
        Amount.collateralRatio systemCollateral systemDebt price = systemRatio →
        entire.collateral ≤ systemCollateral → entire.debt ≤ systemDebt →
        systemCollateral.units * (systemDebt.units - entire.debt.units) ≤
          (systemCollateral.units - entire.collateral.units) * systemDebt.units) ∧
    ∀ s : RunningState, ∃ decision, assess p price s borrower entire = .ok decision ∧
      ∀ v, decision = .ok v → v.entire = entire ∧ v.isBalanced = true ∧ v.offsetDebt ≤ s.deposits ∧
        (entire.collateral ≤ s.systemCollateral → entire.debt ≤ s.systemDebt → ∃ s', s.advance v = .ok s') := by
  have hsensible := Params.sensible_of_check hp
  refine ⟨exists_offsetValues hdebt p borrower, exists_underwaterValues hdebt p borrower, ?_, fun s => ?_⟩
  · intro systemRatio deposits ratio hminimum hbelow hdeposits
    refine ⟨exists_cappedValues hsensible hdebt hminimum hdeposits borrower ratio, ?_⟩
    rintro systemCollateral systemDebt rfl - hcontained
    exact Amount.le_ratio_without hbelow hcontained
  · obtain ⟨decision, hassess, hvalues⟩ := exists_assess hsensible hdebt price s borrower
    refine ⟨decision, hassess, fun v hv => ?_⟩
    obtain ⟨hentire, hbalanced, hle⟩ := hvalues v hv
    refine ⟨hentire, hbalanced, hle, fun hcollateral hdebts => RunningState.exists_advance hbalanced ?_ ?_ hle⟩
    · rw [hentire]
      exact hdebts
    · rw [hentire]
      exact hcollateral

/-- A trove with a ratio of 1.2 at a price of three, of which neither quotient comes out even. -/
def cappedTrove : EntireTrove where
  debt := ⟨2000 * Amount.scale + 7, by decide⟩
  collateral := ⟨800 * Amount.scale + 11, by decide⟩
  pending := .zero
  stake := .ofWhole 800

/-- It is offset in part, taken as underwater, and taken in part in a system with a ratio of 1.46. -/
theorem assess_balances_sample :
    Params.standard.check = .ok () ∧ 0 < cappedTrove.debt.units ∧
    (∃ v, offsetValues .standard (.ofWord 1) cappedTrove .one .normal (.ofWhole 700) = .ok v ∧
      v.Offsets .standard cappedTrove (.ofWhole 700) ∧ v.poolCollateral.units = 278600000000000000002) ∧
    (∃ v, underwaterValues .standard (.ofWord 1) cappedTrove .zero = .ok v ∧ v.entire = cappedTrove ∧
      v.isBalanced = true) ∧
    (∃ v, cappedValues .standard (.ofWhole 3) (.ofWord 1) cappedTrove
        (Amount.collateralRatio cappedTrove.collateral cappedTrove.debt (.ofWhole 3)) = .ok v ∧
      v.Caps .standard (.ofWhole 3) cappedTrove (.ofWhole 2500) ∧ v.surplus.units = 66666666666666666676) ∧
    (3900 * Amount.scale) * (8000 * Amount.scale - cappedTrove.debt.units) ≤
      (3900 * Amount.scale - cappedTrove.collateral.units) * (8000 * Amount.scale) := by
  have hcheck : Params.standard.check = .ok () := rfl
  have hdebt : 0 < cappedTrove.debt.units := by decide
  obtain ⟨hoffset, hunderwater, hcapped, -⟩ := assess_balances hcheck hdebt (.ofWhole 3) (.ofWord 1)
  obtain ⟨v, hv, hoffsets⟩ := hoffset .one .normal (.ofWhole 700)
  obtain ⟨w, hw, hentire, hbalanced, -⟩ := hunderwater .zero
  obtain ⟨⟨u, hu, hcaps⟩, hwithout⟩ := hcapped
    (Amount.collateralRatio (.ofWhole 3900) (.ofWhole 8000) (.ofWhole 3)) (.ofWhole 2500) (by decide +kernel)
    (by decide +kernel) (by decide +kernel)
  have hpool : v.poolCollateral.units = 278600000000000000002 := by
    rw [hoffsets.poolCollateral_eq, hoffsets.offsetDebt_eq, hoffsets.gasCompensation_eq]
    decide +kernel
  obtain ⟨seized, hseized, -, -, -, hsurplus⟩ := hcaps.seized_eq
  rw [hseized] at hsurplus
  exact ⟨hcheck, hdebt, ⟨v, hv, hoffsets, hpool⟩, ⟨w, hw, hentire, hbalanced⟩, ⟨u, hu, hcaps, hsurplus⟩,
    hwithout (.ofWhole 3900) (.ofWhole 8000) rfl (by decide +kernel) (by decide +kernel)⟩

end LiquidationPlan

end CollateralDebt
