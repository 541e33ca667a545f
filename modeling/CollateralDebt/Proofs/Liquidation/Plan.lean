import CollateralDebt.Liquidation.Plan
import CollateralDebt.Proofs.Ledger.Operations
import CollateralDebt.Proofs.Solvency

/-! What a plan says of the ledger it was made for. Every trove in it is active, with the entire amounts that the
plan has for it, and no trove is in it twice; every unit of a trove goes to one place, by each of the rules; and
the totals add up the troves. All of this holds of the draft from the start and is kept with every borrower that
is looked at, whether skipped or not. -/

open CollateralDebt.Action

namespace CollateralDebt

/-- Debt and collateral are divided without a rest. If the pool takes all of a debt, it takes all of the collateral, and
if it takes none of the debt, it takes no collateral. -/
theorem Split.of_eq_ok {debt collateral deposits : Amount} {s : Split} (h : Split.of debt collateral deposits = .ok s) :
    s.offsetDebt.units + s.redistributedDebt.units = debt.units ∧
      s.poolCollateral.units + s.redistributedCollateral.units = collateral.units ∧
      (0 < debt.units → s.redistributedDebt.units = 0 → s.redistributedCollateral.units = 0) ∧
      (s.offsetDebt.units = 0 → s.poolCollateral.units = 0) := by
  unfold Split.of at h
  split at h
  · cases h
    exact ⟨Nat.zero_add _, Nat.zero_add _, fun hpos hzero => absurd hzero (Nat.ne_of_gt hpos), fun _ => rfl⟩
  · obtain ⟨poolCollateral, hpool, h⟩ := except_bind_eq_ok.1 h
    obtain ⟨redistributedDebt, hdebt, h⟩ := except_bind_eq_ok.1 h
    obtain ⟨redistributedCollateral, hcollateral, h⟩ := except_bind_eq_ok.1 h
    cases h
    rw [Amount.minus_eq_ok_iff] at hdebt hcollateral
    have hshare : poolCollateral.units = collateral.units * (min debt deposits).units / debt.units :=
      (Amount.mulDiv_eq_ok_iff.1 hpool).2
    refine ⟨hdebt.symm, hcollateral.symm, fun hpos (hzero : redistributedDebt.units = 0) => ?_,
      fun (hzero : (min debt deposits).units = 0) => ?_⟩
    · have hall : (min debt deposits).units = debt.units := by omega
      rw [hall, Nat.mul_div_cancel _ hpos] at hshare
      show redistributedCollateral.units = 0
      omega
    · rw [hzero, Nat.mul_zero, Nat.zero_div] at hshare
      exact hshare

theorem LiquidationValues.isBalanced_iff {v : LiquidationValues} : v.isBalanced = true ↔
    v.offsetDebt.units + v.redistributedDebt.units = v.entire.debt.units ∧
      v.gasCompensation.units + v.poolCollateral.units + v.redistributedCollateral.units + v.surplus.units =
        v.entire.collateral.units := by
  rw [isBalanced, Bool.and_eq_true, beq_iff_eq, beq_iff_eq]

/-- What a liquidated trove gives to the other troves. -/
def Asset.redistributed : Asset → LiquidationValues → Amount
  | collateral, v => v.redistributedCollateral
  | debt, v => v.redistributedDebt

/-- What a liquidated trove takes out of the system. -/
def Asset.lost : Asset → LiquidationValues → Nat
  | collateral, v => v.poolCollateral.units + v.gasCompensation.units + v.surplus.units
  | debt, v => v.offsetDebt.units

/-- All that a trove has is lost to the system or redistributed. -/
theorem LiquidationValues.lost_add_redistributed {v : LiquidationValues} (h : v.isBalanced = true) (a : Asset) :
    a.lost v + (a.redistributed v).units = (a.entire v.entire).units := by
  obtain ⟨hdebt, hcollateral⟩ := isBalanced_iff.1 h
  cases a with
  | collateral => simp only [Asset.lost, Asset.redistributed, Asset.entire]; omega
  | debt => exact hdebt

/-- What the whole system has of an asset, as it would stand. -/
def Asset.running : Asset → RunningState → Amount
  | collateral, s => s.systemCollateral
  | debt, s => s.systemDebt

/-- From one state to another by what liquidated troves take out of the system, and by the deposits that they use. -/
structure RunningState.Loses (s : RunningState) (values : List LiquidationValues) (s' : RunningState) : Prop where
  system : ∀ a : Asset, (a.running s').units + (values.map a.lost).sum = (a.running s).units
  deposits : s'.deposits.units + (values.map fun v => v.offsetDebt.units).sum = s.deposits.units
  activeTroves : s'.activeTroves = s.activeTroves - values.length

namespace RunningState

variable {s s' s'' : RunningState} {v : LiquidationValues} {values : List LiquidationValues}

theorem advance_eq_ok (h : s.advance v = .ok s') : s.Loses [v] s' := by
  unfold advance at h
  obtain ⟨paid, hpaid, h⟩ := except_bind_eq_ok.1 h
  obtain ⟨left, hleft, h⟩ := except_bind_eq_ok.1 h
  obtain ⟨systemDebt, hdebt, h⟩ := except_bind_eq_ok.1 h
  obtain ⟨systemCollateral, hcollateral, h⟩ := except_bind_eq_ok.1 h
  obtain ⟨deposits, hdeposits, h⟩ := except_bind_eq_ok.1 h
  cases h
  rw [Amount.plus_eq_ok_iff] at hpaid hleft
  rw [Amount.minus_eq_ok_iff] at hdebt hcollateral hdeposits
  refine ⟨fun a => ?_, ?_, rfl⟩
  · rw [List.map_singleton, List.sum_singleton]
    cases a with
    | collateral => simp only [Asset.running, Asset.lost]; omega
    | debt => simp only [Asset.running, Asset.lost]; omega
  · rw [List.map_singleton, List.sum_singleton]
    exact (Nat.add_comm _ _).trans hdeposits.symm

theorem Loses.cons (hfirst : s.Loses [v] s') (h : s'.Loses values s'') : s.Loses (v :: values) s'' := by
  refine ⟨fun a => ?_, ?_, ?_⟩
  · have hlost := hfirst.system a
    rw [List.map_singleton, List.sum_singleton, ← h.system a] at hlost
    rw [List.map_cons, List.sum_cons]
    omega
  · have hused := hfirst.deposits
    rw [List.map_singleton, List.sum_singleton, ← h.deposits] at hused
    rw [List.map_cons, List.sum_cons]
    omega
  · rw [h.activeTroves, hfirst.activeTroves, List.length_singleton, List.length_cons, Nat.add_comm, Nat.sub_add_eq]

/-- What troves take out one after the other is what they take out together. -/
theorem loses_of_foldlM (h : values.foldlM advance s = .ok s') : s.Loses values s' := by
  induction values generalizing s with
  | nil =>
      cases h
      exact ⟨fun _ => rfl, rfl, rfl⟩
  | cons v rest ih =>
      rw [List.foldlM_cons] at h
      obtain ⟨next, hstep, h⟩ := except_bind_eq_ok.1 h
      exact (advance_eq_ok hstep).cons (ih h)

end RunningState

/-- The values of a trove that is liquidated by a rule: all of it goes somewhere, and collateral goes to the other
troves, or to the pool, only together with debt. -/
structure LiquidationValues.Settles (v : LiquidationValues) (borrower : Address) (entire : EntireTrove) (ratio : Amount)
    (mode : LiquidationMode) : Prop where
  borrower : v.borrower = borrower
  entire : v.entire = entire
  ratio : v.ratio = ratio
  mode : v.mode = mode
  balanced : v.isBalanced = true
  backed : v.redistributedDebt.units = 0 → v.redistributedCollateral.units = 0
  pooled : v.offsetDebt.units = 0 → v.poolCollateral.units = 0

/-- The ratio of the system, as it would stand. -/
def RunningState.ratio (s : RunningState) (price : Amount) : Amount :=
  Amount.collateralRatio s.systemCollateral s.systemDebt price

/-- A ratio below any amount is one of a debt. -/
theorem Amount.debt_pos_of_ratio_lt {collateral debt price bound : Amount}
    (h : collateralRatio collateral debt price < bound) : 0 < debt.units := by
  refine Nat.pos_of_ne_zero fun hzero => not_le.2 h (le_collateralRatio_iff.2 ?_)
  rw [hzero, Nat.mul_zero]
  exact Nat.zero_le _

namespace LiquidationPlan

variable {p : Params} {price : Amount} {borrower : Address} {entire : EntireTrove} {ratio : Amount}
  {v : LiquidationValues}

theorem offsetValues_eq_ok {mode : LiquidationMode} {deposits : Amount}
    (h : offsetValues p borrower entire ratio mode deposits = .ok v) (hdebt : 0 < entire.debt.units) :
    v.Settles borrower entire ratio mode := by
  unfold offsetValues at h
  obtain ⟨rest, hrest, h⟩ := except_bind_eq_ok.1 h
  obtain ⟨split, hsplit, h⟩ := except_bind_eq_ok.1 h
  cases h
  obtain ⟨hdebts, hcollaterals, hbacked, hpooled⟩ := Split.of_eq_ok hsplit
  rw [Amount.minus_eq_ok_iff] at hrest
  refine ⟨rfl, rfl, rfl, rfl, LiquidationValues.isBalanced_iff.2 ⟨hdebts, ?_⟩, hbacked hdebt, hpooled⟩
  simp only [Amount.zero]
  omega

theorem underwaterValues_eq_ok (h : underwaterValues p borrower entire ratio = .ok v) (hdebt : 0 < entire.debt.units) :
    v.Settles borrower entire ratio .recoveryUnderwater := by
  unfold underwaterValues at h
  obtain ⟨redistributed, hredistributed, h⟩ := except_bind_eq_ok.1 h
  cases h
  rw [Amount.minus_eq_ok_iff] at hredistributed
  refine ⟨rfl, rfl, rfl, rfl, LiquidationValues.isBalanced_iff.2 ⟨Nat.zero_add _, ?_⟩,
    fun hzero => absurd hzero (Nat.ne_of_gt hdebt), fun _ => rfl⟩
  simp only [Amount.zero]
  omega

theorem cappedValues_eq_ok (h : cappedValues p price borrower entire ratio = .ok v) :
    v.Settles borrower entire ratio .recoveryCapped := by
  unfold cappedValues at h
  obtain ⟨asked, hasked, h⟩ := except_bind_eq_ok.1 h
  obtain ⟨poolCollateral, hpool, h⟩ := except_bind_eq_ok.1 h
  obtain ⟨surplus, hsurplus, h⟩ := except_bind_eq_ok.1 h
  cases h
  rw [Amount.minus_eq_ok_iff] at hpool hsurplus
  refine ⟨rfl, rfl, rfl, rfl, LiquidationValues.isBalanced_iff.2 ⟨Nat.add_zero _, ?_⟩, fun _ => rfl,
    fun (hzero : entire.debt.units = 0) => ?_⟩
  · simp only [Amount.zero]
    omega
  · have hnone : asked.units = entire.debt.units * p.minimumRatio.units / price.units :=
      (Amount.mulDiv_eq_ok_iff.1 hasked).2
    rw [hzero, Nat.zero_mul, Nat.zero_div] at hnone
    have hseized : (min asked entire.collateral).units ≤ asked.units := Amount.min_le_left _ _
    show poolCollateral.units = 0
    omega

/-- The rule by which a trove of a ratio is liquidated, if it is, in a system of a ratio. -/
def modeOf (p : Params) (systemRatio ratio : Amount) : LiquidationMode :=
  if p.criticalRatio ≤ systemRatio then .normal
  else if ratio < Amount.one then .recoveryUnderwater
  else if ratio < p.minimumRatio then .recoveryBelowMinimum
  else .recoveryCapped

/-- What is decided about a place of a list: the values of its trove, or why it is skipped. -/
abbrev Decision := Except SkipReason LiquidationValues

/-- The rules by which an active trove of a ratio is liquidated or skipped, in a system that stands so. -/
inductive Rules (p : Params) (price : Amount) (s : RunningState) (borrower : Address) (entire : EntireTrove)
    (ratio : Amount) : Decision → Prop where
  | underwater {values : LiquidationValues} (hsystem : s.ratio price < p.criticalRatio) (hratio : ratio < Amount.one)
      (h : underwaterValues p borrower entire ratio = .ok values) : Rules p price s borrower entire ratio (.ok values)
  | belowMinimum {values : LiquidationValues} (hsystem : s.ratio price < p.criticalRatio) (hone : Amount.one ≤ ratio)
      (hratio : ratio < p.minimumRatio)
      (h : offsetValues p borrower entire ratio .recoveryBelowMinimum s.deposits = .ok values) :
      Rules p price s borrower entire ratio (.ok values)
  | aboveSystem (hsystem : s.ratio price < p.criticalRatio) (hminimum : p.minimumRatio ≤ ratio)
      (hratio : s.ratio price ≤ ratio) : Rules p price s borrower entire ratio (.error .healthy)
  | notCovered (hsystem : s.ratio price < p.criticalRatio) (hminimum : p.minimumRatio ≤ ratio)
      (hratio : ratio < s.ratio price) (hdeposits : s.deposits < entire.debt) :
      Rules p price s borrower entire ratio (.error .insufficientPool)
  | capped {values : LiquidationValues} (hsystem : s.ratio price < p.criticalRatio) (hone : Amount.one ≤ ratio)
      (hminimum : p.minimumRatio ≤ ratio) (hratio : ratio < s.ratio price) (hdeposits : entire.debt ≤ s.deposits)
      (h : cappedValues p price borrower entire ratio = .ok values) : Rules p price s borrower entire ratio (.ok values)
  | normal {values : LiquidationValues} (hsystem : p.criticalRatio ≤ s.ratio price) (hratio : ratio < p.minimumRatio)
      (h : offsetValues p borrower entire ratio .normal s.deposits = .ok values) :
      Rules p price s borrower entire ratio (.ok values)
  | healthy (hsystem : p.criticalRatio ≤ s.ratio price) (hratio : p.minimumRatio ≤ ratio) :
      Rules p price s borrower entire ratio (.error .healthy)

theorem assess_rules {s : RunningState} {decision : Decision} (h : assess p price s borrower entire = .ok decision) :
    Rules p price s borrower entire (Amount.collateralRatio entire.collateral entire.debt price) decision := by
  unfold assess at h
  dsimp only at h
  split at h
  · next hrecovery =>
      have hsystem : s.ratio price < p.criticalRatio := Params.isRecovery_iff.1 hrecovery
      split at h
      · next hratio =>
          obtain ⟨v, hvalues, rfl⟩ := except_map_eq_ok.1 h
          exact .underwater hsystem hratio hvalues
      · next hone =>
          split at h
          · next hratio =>
              obtain ⟨v, hvalues, rfl⟩ := except_map_eq_ok.1 h
              exact .belowMinimum hsystem (Amount.not_lt.1 hone) hratio hvalues
          · next hminimum =>
              split at h
              · next hratio =>
                  cases h
                  exact .aboveSystem hsystem (Amount.not_lt.1 hminimum) hratio
              · next hratio =>
                  split at h
                  · next hdeposits =>
                      cases h
                      exact .notCovered hsystem (Amount.not_lt.1 hminimum) (Amount.not_le.1 hratio) hdeposits
                  · next hdeposits =>
                      obtain ⟨v, hvalues, rfl⟩ := except_map_eq_ok.1 h
                      exact .capped hsystem (Amount.not_lt.1 hone) (Amount.not_lt.1 hminimum) (Amount.not_le.1 hratio)
                        (Amount.not_lt.1 hdeposits) hvalues
  · next hrecovery =>
      have hsystem : p.criticalRatio ≤ s.ratio price :=
        Amount.not_lt.1 fun hbelow => hrecovery (Params.isRecovery_iff.2 hbelow)
      split at h
      · next hratio =>
          obtain ⟨v, hvalues, rfl⟩ := except_map_eq_ok.1 h
          exact .normal hsystem hratio hvalues
      · next hratio =>
          cases h
          exact .healthy hsystem (Amount.not_lt.1 hratio)

/-- Whatever the rule, a trove that is liquidated gives all it has, and each unit to one place. -/
theorem Rules.settles {s : RunningState} (h : Rules p price s borrower entire
    (Amount.collateralRatio entire.collateral entire.debt price) (.ok v)) :
    v.Settles borrower entire (Amount.collateralRatio entire.collateral entire.debt price)
      (modeOf p (s.ratio price) (Amount.collateralRatio entire.collateral entire.debt price)) := by
  unfold modeOf
  cases h with
  | underwater hsystem hratio h =>
      rw [if_neg (Amount.not_le.2 hsystem), if_pos hratio]
      exact underwaterValues_eq_ok h (Amount.debt_pos_of_ratio_lt hratio)
  | belowMinimum hsystem hone hratio h =>
      rw [if_neg (Amount.not_le.2 hsystem), if_neg (Amount.not_lt.2 hone), if_pos hratio]
      exact offsetValues_eq_ok h (Amount.debt_pos_of_ratio_lt hratio)
  | capped hsystem hone hminimum hratio hdeposits h =>
      rw [if_neg (Amount.not_le.2 hsystem), if_neg (Amount.not_lt.2 hone), if_neg (Amount.not_lt.2 hminimum)]
      exact cappedValues_eq_ok h
  | normal hsystem hratio h =>
      rw [if_pos hsystem]
      exact offsetValues_eq_ok h (Amount.debt_pos_of_ratio_lt hratio)

end LiquidationPlan

/-- Totals are the sums of the values of a batch. -/
structure LiquidationTotals.SumsOf (t : LiquidationTotals) (values : List LiquidationValues) : Prop where
  collateral : t.collateral.units = (values.map fun v => v.entire.collateral.units).sum
  debt : t.debt.units = (values.map fun v => v.entire.debt.units).sum
  gasCompensation : t.gasCompensation.units = (values.map fun v => v.gasCompensation.units).sum
  offsetDebt : t.offsetDebt.units = (values.map fun v => v.offsetDebt.units).sum
  poolCollateral : t.poolCollateral.units = (values.map fun v => v.poolCollateral.units).sum
  redistributedDebt : t.redistributedDebt.units = (values.map fun v => v.redistributedDebt.units).sum
  redistributedCollateral : t.redistributedCollateral.units = (values.map fun v => v.redistributedCollateral.units).sum
  surplus : t.surplus.units = (values.map fun v => v.surplus.units).sum
  stakes : t.stakes.units = (values.map fun v => v.entire.stake.units).sum

namespace LiquidationTotals

theorem zero_sumsOf : zero.SumsOf [] := ⟨rfl, rfl, rfl, rfl, rfl, rfl, rfl, rfl, rfl⟩

theorem sum_append_last (f : LiquidationValues → Nat) (values : List LiquidationValues) (v : LiquidationValues) :
    ((values ++ [v]).map f).sum = (values.map f).sum + f v := by
  rw [List.map_append, List.sum_append, List.map_singleton, List.sum_singleton]

theorem SumsOf.add {t t' : LiquidationTotals} {values : List LiquidationValues} {v : LiquidationValues}
    (hsums : t.SumsOf values) (h : t.add v = .ok t') : t'.SumsOf (values ++ [v]) := by
  unfold LiquidationTotals.add at h
  obtain ⟨collateral, hcollateral, h⟩ := except_bind_eq_ok.1 h
  obtain ⟨debt, hdebt, h⟩ := except_bind_eq_ok.1 h
  obtain ⟨gasCompensation, hgas, h⟩ := except_bind_eq_ok.1 h
  obtain ⟨offsetDebt, hoffset, h⟩ := except_bind_eq_ok.1 h
  obtain ⟨poolCollateral, hpool, h⟩ := except_bind_eq_ok.1 h
  obtain ⟨redistributedDebt, hredistributedDebt, h⟩ := except_bind_eq_ok.1 h
  obtain ⟨redistributedCollateral, hredistributedCollateral, h⟩ := except_bind_eq_ok.1 h
  obtain ⟨surplus, hsurplus, h⟩ := except_bind_eq_ok.1 h
  obtain ⟨stakes, hstakes, h⟩ := except_bind_eq_ok.1 h
  cases h
  rw [Amount.plus_eq_ok_iff] at hcollateral hdebt hgas hoffset hpool
  rw [Amount.plus_eq_ok_iff] at hredistributedDebt hredistributedCollateral hsurplus hstakes
  constructor <;> rw [sum_append_last]
  · rw [hcollateral, hsums.collateral]
  · rw [hdebt, hsums.debt]
  · rw [hgas, hsums.gasCompensation]
  · rw [hoffset, hsums.offsetDebt]
  · rw [hpool, hsums.poolCollateral]
  · rw [hredistributedDebt, hsums.redistributedDebt]
  · rw [hredistributedCollateral, hsums.redistributedCollateral]
  · rw [hsurplus, hsums.surplus]
  · rw [hstakes, hsums.stakes]

end LiquidationTotals

/-- The trove is active in a ledger, with the entire amounts that a plan has for it. -/
def LiquidationValues.Found (l : Ledger) (v : LiquidationValues) : Prop :=
  ∃ t, l.activeTrove v.borrower = .ok t ∧ l.rewards.entire t = .ok v.entire

namespace LiquidationPlan

/-- What is decided about a borrower after others were seen, in a system that stands so by then. -/
inductive Decides (l : Ledger) (p : Params) (price : Amount) (s : RunningState) (seen : List Address)
    (borrower : Address) : Decision → Prop where
  | duplicate (h : borrower ∈ seen) : Decides l p price s seen borrower (.error .duplicate)
  | notActive (hnew : borrower ∉ seen) (h : l.isActive borrower = false) :
      Decides l p price s seen borrower (.error .notActive)
  | lastTrove (hnew : borrower ∉ seen) (hactive : l.isActive borrower = true) (h : s.activeTroves ≤ 1) :
      Decides l p price s seen borrower (.error .lastTrove)
  | assessed {entire : EntireTrove} {decision : Decision} (hnew : borrower ∉ seen)
      (hactive : l.isActive borrower = true) (hothers : 1 < s.activeTroves)
      (hentire : l.entire borrower = .ok entire) (h : assess p price s borrower entire = .ok decision) :
      Decides l p price s seen borrower decision

/-- A decision carried into a draft. -/
def Draft.follow (d : Draft) (borrower : Address) : Decision → Except Error Draft
  | .error reason => .ok (d.skip borrower reason)
  | .ok values => d.liquidate values

/-- To look at a borrower is to decide, and to carry the decision into the draft. -/
theorem Draft.consider_eq_ok {l : Ledger} {p : Params} {d d' : Draft} {borrower : Address}
    (h : d.consider l p borrower = .ok d') :
    ∃ decision, Decides l p d.plan.price d.state d.seen borrower decision ∧ d.follow borrower decision = .ok d' := by
  unfold Draft.consider at h
  split at h
  · next hseen => exact ⟨_, .duplicate (by simpa using hseen), h⟩
  · next hnew =>
      have hnew : borrower ∉ d.seen := by simpa using hnew
      split at h
      · next hget => exact ⟨_, .notActive hnew (by rw [Ledger.isActive, Ledger.status, hget]; rfl), h⟩
      · next t hget =>
          have hstatus : l.isActive borrower = t.isActive := by
            rw [Ledger.isActive, Ledger.status, hget]
            rfl
          cases hactive : t.isActive with
          | false =>
              rw [hactive] at h hstatus
              exact ⟨_, .notActive hnew hstatus, h⟩
          | true =>
              rw [hactive] at h hstatus
              simp only [Bool.not_true, Bool.false_eq_true, if_false] at h
              split at h
              · next hlast => exact ⟨_, .lastTrove hnew hstatus hlast, h⟩
              · next hothers =>
                  obtain ⟨entire, hentire, h⟩ := except_bind_eq_ok.1 h
                  obtain ⟨decision, hdecision, h⟩ := except_bind_eq_ok.1 h
                  have hfound : l.entire borrower = .ok entire :=
                    (Ledger.entire_of_activeTrove (Ledger.activeTrove_of_get? hget hactive)).trans hentire
                  refine ⟨decision, .assessed hnew hstatus (Nat.lt_of_not_le hothers) hfound hdecision, ?_⟩
                  cases decision <;> exact h

/-- A trove that is to be liquidated is one that was not seen before, is found as planned, and gives all it has. -/
theorem Decides.ok {l : Ledger} {p : Params} {price : Amount} {s : RunningState} {seen : List Address}
    {borrower : Address} {v : LiquidationValues} (h : Decides l p price s seen borrower (.ok v)) :
    v.borrower = borrower ∧ borrower ∉ seen ∧ 1 < s.activeTroves ∧ v.Found l ∧ v.isBalanced = true ∧
      (v.redistributedDebt.units = 0 → v.redistributedCollateral.units = 0) ∧
      (v.offsetDebt.units = 0 → v.poolCollateral.units = 0) := by
  cases h with
  | assessed hnew hactive hothers hentire hassess =>
      have hsettles := (assess_rules hassess).settles
      obtain ⟨t, hfound, hentire⟩ := except_bind_eq_ok.1 hentire
      refine ⟨hsettles.borrower, hnew, hothers, ⟨t, ?_, ?_⟩, hsettles.balanced, hsettles.backed,
        hsettles.pooled⟩
      · rw [hsettles.borrower]
        exact hfound
      · rw [hsettles.entire]
        exact hentire

/-- A plan fits the ledger it is for. -/
structure Fits (l : Ledger) (plan : LiquidationPlan) : Prop where
  found : ∀ v ∈ plan.values, v.Found l
  balanced : ∀ v ∈ plan.values, v.isBalanced = true
  backed : ∀ v ∈ plan.values, v.redistributedDebt.units = 0 → v.redistributedCollateral.units = 0
  pooled : ∀ v ∈ plan.values, v.offsetDebt.units = 0 → v.poolCollateral.units = 0
  distinct : (plan.values.map LiquidationValues.borrower).Nodup
  totals : plan.totals.SumsOf plan.values

/-- A draft's plan fits, and all its borrowers were looked at. -/
structure Draft.Fits (l : Ledger) (d : Draft) : Prop where
  plan : d.plan.Fits l
  seen : ∀ v ∈ d.plan.values, v.borrower ∈ d.seen

namespace Draft

variable {l : Ledger} {p : Params} {d d' : Draft} {borrower : Address}

theorem Fits.skip (h : d.Fits l) (borrower : Address) (reason : SkipReason) : (d.skip borrower reason).Fits l where
  plan := ⟨h.plan.found, h.plan.balanced, h.plan.backed, h.plan.pooled, h.plan.distinct, h.plan.totals⟩
  seen v hmem := List.mem_cons_of_mem _ (h.seen v hmem)

theorem Fits.liquidate {v : LiquidationValues} (h : d.Fits l) (hnew : v.borrower ∉ d.seen) (hfound : v.Found l)
    (hbalanced : v.isBalanced = true) (hbacked : v.redistributedDebt.units = 0 → v.redistributedCollateral.units = 0)
    (hpooled : v.offsetDebt.units = 0 → v.poolCollateral.units = 0) (hstep : d.liquidate v = .ok d') :
    d'.Fits l := by
  unfold Draft.liquidate at hstep
  obtain ⟨state, -, hstep⟩ := except_bind_eq_ok.1 hstep
  obtain ⟨totals, htotals, hstep⟩ := except_bind_eq_ok.1 hstep
  cases hstep
  have hall : ∀ {P : LiquidationValues → Prop}, (∀ w ∈ d.plan.values, P w) → P v →
      ∀ w ∈ d.plan.values ++ [v], P w := by
    intro P hbefore hlast w hmem
    rcases List.mem_append.1 hmem with hmem | hmem
    · exact hbefore w hmem
    · rw [List.mem_singleton.1 hmem]
      exact hlast
  refine ⟨⟨hall h.plan.found hfound, hall h.plan.balanced hbalanced, hall h.plan.backed hbacked,
    hall h.plan.pooled hpooled, ?_, h.plan.totals.add htotals⟩, ?_⟩
  · show ((d.plan.values ++ [v]).map LiquidationValues.borrower).Nodup
    rw [List.map_append, List.nodup_append]
    refine ⟨h.plan.distinct, List.pairwise_singleton _ _, ?_⟩
    rintro _ hmem _ hlast rfl
    obtain ⟨w, hw, hsame⟩ := List.mem_map.1 hmem
    rw [List.map_singleton, List.mem_singleton] at hlast
    exact hnew (hlast ▸ hsame ▸ h.seen w hw)
  · exact hall (fun w hmem => List.mem_cons_of_mem _ (h.seen w hmem)) List.mem_cons_self

/-- One more borrower looked at: whatever is decided, the draft fits. -/
theorem Fits.consider (h : d.Fits l) (hstep : d.consider l p borrower = .ok d') : d'.Fits l := by
  obtain ⟨decision, hdecides, hfollow⟩ := consider_eq_ok hstep
  cases decision with
  | error reason =>
      cases hfollow
      exact h.skip borrower reason
  | ok v =>
      obtain ⟨rfl, hnew, -, hfound, hbalanced, hbacked, hpooled⟩ := hdecides.ok
      exact h.liquidate hnew hfound hbalanced hbacked hpooled hfollow

theorem fits_start (l : Ledger) (s : StabilityPool) (p : Params) (price : Amount) : (start l s p price).Fits l where
  plan := ⟨fun _ hmem => (nomatch hmem), fun _ hmem => (nomatch hmem), fun _ hmem => (nomatch hmem),
    fun _ hmem => (nomatch hmem), List.nodup_nil, LiquidationTotals.zero_sumsOf⟩
  seen _ hmem := nomatch hmem

theorem Fits.foldlM {borrowers : List Address} (h : d.Fits l) (hrun : borrowers.foldlM (Draft.consider l p) d = .ok d') :
    d'.Fits l := by
  induction borrowers generalizing d with
  | nil =>
      cases hrun
      exact h
  | cons borrower rest ih =>
      rw [List.foldlM_cons] at hrun
      obtain ⟨next, hstep, hrun⟩ := except_bind_eq_ok.1 hrun
      exact ih (h.consider hstep) hrun

end Draft

/-- **A plan fits the ledger it was made for.** -/
theorem fits_of_make {l : Ledger} {s : StabilityPool} {p : Params} {price : Amount} {borrowers : List Address}
    {plan : LiquidationPlan} (h : make l s p price borrowers = .ok plan) : plan.Fits l := by
  unfold make at h
  obtain ⟨draft, hdraft, h⟩ := except_bind_eq_ok.1 h
  cases h
  exact ((Draft.fits_start l s p price).foldlM hdraft).plan

end LiquidationPlan

end CollateralDebt
