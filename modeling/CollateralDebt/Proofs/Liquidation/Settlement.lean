import CollateralDebt.Proofs.Ledger.Settlement
import CollateralDebt.Proofs.Liquidation.Batch

/-! A batch after one of its troves has settled. Planning looks at entire amounts only, so the plan is the one of
before, with nothing pending for that trove (`make_settle`). A commit settles what is pending as it closes a trove: it
ends with the same ledger, pool, surplus and history if the trove is in the batch, and it is refused for the same
reason if it is refused at all. -/

open CollateralDebt.Action

namespace CollateralDebt

def LiquidationValues.settled (v : LiquidationValues) : LiquidationValues := { v with entire := v.entire.settled }

/-- The values of a trove with nothing pending if it is the one of an owner. -/
def LiquidationValues.settledFor (owner : Address) (v : LiquidationValues) : LiquidationValues :=
  if v.borrower = owner then v.settled else v

def LiquidationPlan.settledFor (owner : Address) (plan : LiquidationPlan) : LiquidationPlan :=
  { plan with values := plan.values.map (LiquidationValues.settledFor owner) }

def LiquidationPlan.Draft.settledFor (owner : Address) (d : Draft) : Draft := { d with plan := d.plan.settledFor owner }

def LiquidationOutcome.settledFor (owner : Address) (o : LiquidationOutcome) : LiquidationOutcome :=
  { o with liquidated := o.liquidated.map (LiquidationValues.settledFor owner) }

/-- What does not look at what is pending does not see that a trove has settled. -/
theorem LiquidationValues.apply_settledFor {β : Type} {f : LiquidationValues → β} (hf : ∀ v, f v.settled = f v)
    (owner : Address) (v : LiquidationValues) : f (v.settledFor owner) = f v := by
  unfold settledFor
  split
  · exact hf v
  · rfl

namespace LiquidationPlan

variable {p : Params} {price : Amount} {borrower owner : Address} {entire e : EntireTrove} {ratio deposits : Amount}
  {l : Ledger} {t : Trove}

/-! ## The plan -/

theorem offsetValues_settled (mode : LiquidationMode) : offsetValues p borrower entire.settled ratio mode deposits =
    (offsetValues p borrower entire ratio mode deposits).map LiquidationValues.settled := by
  unfold offsetValues
  simp only [except_map_bind]
  rfl

theorem underwaterValues_settled : underwaterValues p borrower entire.settled ratio =
    (underwaterValues p borrower entire ratio).map LiquidationValues.settled := by
  unfold underwaterValues
  simp only [except_map_bind]
  rfl

theorem cappedValues_settled : cappedValues p price borrower entire.settled ratio =
    (cappedValues p price borrower entire ratio).map LiquidationValues.settled := by
  unfold cappedValues
  simp only [except_map_bind]
  rfl

/-- A trove that has settled is assessed as before. -/
theorem assess_settled (s : RunningState) : assess p price s borrower entire.settled =
    (assess p price s borrower entire).map (Except.map LiquidationValues.settled) := by
  have hvalues : ∀ values : Except Error LiquidationValues, (values.map LiquidationValues.settled).map Except.ok =
      (values.map (Except.ok : LiquidationValues → Decision)).map (Except.map LiquidationValues.settled) := by
    intro values
    cases values <;> rfl
  unfold assess
  simp only [apply_ite (Except.map _), offsetValues_settled, underwaterValues_settled, cappedValues_settled, hvalues]
  rfl

/-- What is decided about a trove is decided about it with nothing pending, if it is the one that has settled. -/
theorem assess_settledFor (s : RunningState) :
    assess p price s borrower (if borrower = owner then entire.settled else entire) =
      (assess p price s borrower entire).map (Except.map (LiquidationValues.settledFor owner)) := by
  have hdecided : (assess p price s borrower entire).map (Except.map (LiquidationValues.settledFor owner)) =
      if borrower = owner then (assess p price s borrower entire).map (Except.map LiquidationValues.settled)
      else assess p price s borrower entire := by
    cases hassess : assess p price s borrower entire with
    | error error => exact (ite_self _).symm
    | ok decision =>
        cases decision with
        | error reason => exact (ite_self _).symm
        | ok v =>
            have hborrower : v.borrower = borrower := (assess_rules hassess).settles.borrower
            rw [← hborrower]
            show Except.ok (Except.ok (if v.borrower = owner then v.settled else v)) = _
            split <;> rfl
  rw [hdecided]
  split
  · exact assess_settled s
  · rfl

namespace Draft

theorem liquidate_settledFor (d : Draft) (v : LiquidationValues) :
    (d.settledFor owner).liquidate (v.settledFor owner) = (d.liquidate v).map (settledFor owner) := by
  have hstate := LiquidationValues.apply_settledFor (f := d.state.advance) (fun _ => rfl) owner v
  have htotals := LiquidationValues.apply_settledFor (f := d.plan.totals.add) (fun _ => rfl) owner v
  have hborrower := LiquidationValues.apply_settledFor (f := LiquidationValues.borrower) (fun _ => rfl) owner v
  have hvalues : d.plan.values.map (LiquidationValues.settledFor owner) ++ [v.settledFor owner] =
      (d.plan.values ++ [v]).map (LiquidationValues.settledFor owner) := by
    rw [List.map_append, List.map_singleton]
  unfold liquidate
  dsimp only [settledFor, LiquidationPlan.settledFor]
  rw [hstate, htotals, hborrower, hvalues]
  cases d.state.advance v with
  | error error => rfl
  | ok state =>
      cases d.plan.totals.add v with
      | error error => rfl
      | ok totals => rfl

theorem follow_settledFor (d : Draft) (borrower : Address) (decision : Decision) :
    (d.settledFor owner).follow borrower (decision.map (LiquidationValues.settledFor owner)) =
      (d.follow borrower decision).map (settledFor owner) := by
  cases decision with
  | error reason => rfl
  | ok v => exact liquidate_settledFor d v

theorem consider_of_inactive (h : l.isActive borrower = false) (d : Draft) : d.consider l p borrower =
    if d.seen.contains borrower then .ok (d.skip borrower .duplicate) else .ok (d.skip borrower .notActive) := by
  unfold consider
  cases hget : l.troves.get? borrower with
  | none => rfl
  | some t =>
      dsimp only
      rw [Ledger.not_active_of_isActive h hget]
      rfl

/-- An active trove that others were looked at before is assessed by its entire amounts. -/
theorem consider_of_active (h : l.isActive borrower = true) (d : Draft) : d.consider l p borrower =
    if d.seen.contains borrower then .ok (d.skip borrower .duplicate)
    else if d.state.activeTroves ≤ 1 then .ok (d.skip borrower .lastTrove)
    else l.entire borrower >>= fun entire => assess p d.plan.price d.state borrower entire >>= d.follow borrower := by
  obtain ⟨r, hfound⟩ := Ledger.exists_activeTrove h
  obtain ⟨hget, hactive⟩ := Ledger.get?_of_activeTrove hfound
  unfold consider
  rw [hget, Ledger.entire_of_activeTrove hfound]
  dsimp only
  rw [hactive]
  simp only [Bool.not_true, Bool.false_eq_true, if_false]
  refine if_congr Iff.rfl rfl (if_congr Iff.rfl rfl (congrArg _ (funext fun entire => ?_)))
  refine congrArg _ (funext fun decision => ?_)
  cases decision <;> rfl

/-- To look at a borrower of a ledger in which a trove has settled gives the same. -/
theorem consider_settle (hfound : l.activeTrove owner = .ok t) (hentire : l.rewards.entire t = .ok e) (d : Draft)
    (borrower : Address) :
    (d.settledFor owner).consider (l.settle owner e) p borrower = (d.consider l p borrower).map (settledFor owner) := by
  cases hactive : l.isActive borrower with
  | false =>
      have hstill : (l.settle owner e).isActive borrower = false := (Ledger.isActive_settle l owner e borrower).trans hactive
      rw [consider_of_inactive hstill, consider_of_inactive hactive, apply_ite (Except.map (settledFor owner))]
      rfl
  | true =>
      have hstill : (l.settle owner e).isActive borrower = true := (Ledger.isActive_settle l owner e borrower).trans hactive
      rw [consider_of_active hstill, consider_of_active hactive, Ledger.entire_settle hfound hentire,
        apply_ite (Except.map (settledFor owner)), apply_ite (Except.map (settledFor owner))]
      refine if_congr Iff.rfl rfl (if_congr Iff.rfl rfl ?_)
      cases l.entire borrower with
      | error error => rfl
      | ok entire =>
          show (assess p d.plan.price d.state borrower _ >>= _) = (assess p d.plan.price d.state borrower entire >>= _).map _
          rw [assess_settledFor]
          cases assess p d.plan.price d.state borrower entire with
          | error error => rfl
          | ok decision => exact follow_settledFor d borrower decision

theorem foldlM_consider_settle (hfound : l.activeTrove owner = .ok t) (hentire : l.rewards.entire t = .ok e) (d : Draft)
    (borrowers : List Address) : borrowers.foldlM (consider (l.settle owner e) p) (d.settledFor owner) =
      (borrowers.foldlM (consider l p) d).map (settledFor owner) := by
  induction borrowers generalizing d with
  | nil => rfl
  | cons borrower rest ih =>
      rw [List.foldlM_cons, List.foldlM_cons, consider_settle hfound hentire]
      cases d.consider l p borrower with
      | error error => rfl
      | ok next => exact ih next

theorem start_settle (h : l.SameWorth (l.settle owner e)) (s : StabilityPool) :
    start (l.settle owner e) s p price = (start l s p price).settledFor owner := by
  have hmode : (l.settle owner e).inRecovery p price = l.inRecovery p price := by
    unfold Ledger.inRecovery Ledger.systemRatio
    rw [h.systemDebt, h.systemCollateral]
  unfold start
  rw [hmode, h.systemDebt, h.systemCollateral]
  rfl

end Draft

/-- **The plan of a batch is the one of before, with nothing pending for a trove that has settled.** -/
theorem make_settle (hworth : l.SameWorth (l.settle owner e)) (hfound : l.activeTrove owner = .ok t)
    (hentire : l.rewards.entire t = .ok e) (s : StabilityPool) (borrowers : List Address) :
    make (l.settle owner e) s p price borrowers = (make l s p price borrowers).map (settledFor owner) := by
  unfold make
  rw [Draft.start_settle hworth, Draft.foldlM_consider_settle hfound hentire]
  cases borrowers.foldlM (Draft.consider l p) (Draft.start l s p price) <;> rfl

end LiquidationPlan

namespace Liquidator

variable {s : Liquidator} {plan : LiquidationPlan} {l : Ledger} {owner : Address} {t : Trove} {e : EntireTrove}
  {values : List LiquidationValues}

/-! ## The commit -/

theorem map_settledFor_of_not_mem (h : owner ∉ values.map LiquidationValues.borrower) :
    values.map (LiquidationValues.settledFor owner) = values := by
  refine (List.map_congr_left fun v hmem => ?_).trans (List.map_id' values)
  exact if_neg fun hsame : v.borrower = owner => h (hsame ▸ List.mem_map_of_mem hmem)

/-- **A batch that closes a trove ends with the same ledger, whether the trove has settled before or not.** The troves
closed before it can be closed first. -/
theorem closeAll_settle (hsound : l.Sound) (h : Closable l values) (hfound : l.activeTrove owner = .ok t)
    (hentire : l.rewards.entire t = .ok e) (hmem : owner ∈ values.map LiquidationValues.borrower) :
    closeAll (l.settle owner e) (values.map (LiquidationValues.settledFor owner)) = closeAll l values := by
  induction values generalizing l t with
  | nil => cases hmem
  | cons v rest ih =>
      obtain ⟨r, hr, hplanned⟩ := h.found v List.mem_cons_self
      have hborrower := LiquidationValues.apply_settledFor (f := LiquidationValues.borrower) (fun _ => rfl) owner v
      rw [List.map_cons, closeAll_cons, closeAll_cons, hborrower]
      by_cases hsame : v.borrower = owner
      · have hdistinct := h.distinct
        rw [List.map_cons, List.nodup_cons] at hdistinct
        rw [hsame, hfound] at hr
        cases hr
        have hsettled : (v.settledFor owner).entire = v.entire.settled := by rw [LiquidationValues.settledFor, if_pos hsame]; rfl
        have hthis : v.entire = e := Except.ok.inj (hplanned.symm.trans hentire)
        rw [map_settledFor_of_not_mem (hsame ▸ hdistinct.1), hsettled, hsame, hthis]
        exact congrArg (closeAll · rest) (Ledger.leave_settle_self l owner e .closedByLiquidation)
      · have hother : v.settledFor owner = v := if_neg hsame
        have hlater : owner ∈ rest.map LiquidationValues.borrower := by
          rw [List.map_cons, List.mem_cons] at hmem
          exact hmem.resolve_left (Ne.symm hsame)
        have hclosed : TroveStatus.closedByLiquidation ≠ .active := by decide
        obtain ⟨slot, hkept, hstill⟩ := Ledger.found_leave hfound hentire (Ne.symm hsame) v.entire .closedByLiquidation
        have hrest := ih (hsound.leave hr hplanned hclosed) h.tail hkept hstill hlater
        rw [hother]
        exact (congrArg (closeAll · _) (hsound.leave_settle_of_ne hfound hentire hr hplanned (Ne.symm hsame) _)).trans hrest

theorem creditAll_settledFor (s : Surplus) (values : List LiquidationValues) :
    creditAll s (values.map (LiquidationValues.settledFor owner)) = creditAll s values := by
  unfold creditAll
  rw [List.foldl_map]
  congr 1
  funext s v
  exact LiquidationValues.apply_settledFor (f := fun v => s.credit v.borrower v.surplus) (fun _ => rfl) owner v

theorem remember_settledFor (h : LiquidationHistory) (plan : LiquidationPlan) :
    h.remember (plan.settledFor owner) = h.remember plan := by
  have hrecords : (plan.settledFor owner).values.map (LiquidationRecord.ofValues (plan.settledFor owner).price) =
      plan.values.map (LiquidationRecord.ofValues plan.price) := by
    refine List.map_map.trans (List.map_congr_left fun v _ => ?_)
    exact LiquidationValues.apply_settledFor (f := LiquidationRecord.ofValues plan.price) (fun _ => rfl) owner v
  have hlength : (plan.settledFor owner).values.length = plan.values.length := List.length_map _
  have hcount : (plan.settledFor owner).values.countP (fun v => v.mode.isRecovery) =
      plan.values.countP fun v => v.mode.isRecovery := by
    refine List.countP_map.trans (List.countP_congr fun v _ => ?_)
    rw [Function.comp_apply, LiquidationValues.apply_settledFor (f := fun v => v.mode.isRecovery) fun _ => rfl]
  have hstatistics : h.statistics.add (plan.settledFor owner) = h.statistics.add plan := by
    unfold LiquidationStatistics.add
    rw [hlength, hcount]
    rfl
  unfold LiquidationHistory.remember
  rw [hstatistics, hrecords]

/-- What a batch comes to without and with a settlement of one trove before it. -/
structure SettledFirst (owner : Address) (s : Liquidator) (o : LiquidationOutcome) (s' : Liquidator)
    (o' : LiquidationOutcome) : Prop where
  outcome : o' = o.settledFor owner
  pool : s'.pool = s.pool
  surplus : s'.surplus = s.surplus
  history : s'.history = s.history
  ledger : owner ∈ o.liquidated.map LiquidationValues.borrower → s'.ledger = s.ledger

theorem isEmpty_settledFor (plan : LiquidationPlan) : (plan.settledFor owner).isEmpty = plan.isEmpty :=
  List.isEmpty_map

theorem settledFirst_carryOut (hsound : s.ledger.Sound) (hfits : plan.Fits s.ledger)
    (hfound : s.ledger.activeTrove owner = .ok t) (hentire : s.ledger.rewards.entire t = .ok e)
    (redistribution : Option Redistribution) (offset : Option Offset) :
    SettledFirst owner (s.carryOut plan redistribution offset)
      ⟨plan.price, plan.recoveryAtStart, plan.values, plan.totals, offset, redistribution⟩
      ({ s with ledger := s.ledger.settle owner e }.carryOut (plan.settledFor owner) redistribution offset)
      ⟨plan.price, plan.recoveryAtStart, (plan.settledFor owner).values, plan.totals, offset, redistribution⟩ where
  outcome := rfl
  pool := rfl
  surplus := creditAll_settledFor s.surplus plan.values
  history := remember_settledFor s.history plan
  ledger hmem := by
    have hclosed : closeAll (s.ledger.settle owner e) (plan.settledFor owner).values = closeAll s.ledger plan.values :=
      closeAll_settle hsound (closable_of_fits hfits) hfound hentire hmem
    rw [carryOut_ledger, carryOut_ledger]
    dsimp only
    rw [hclosed]

/-- A commit reads of the ledger only what no settlement changes, until the troves are closed. -/
theorem parallel_commit_settle (hsound : s.ledger.Sound) (hfits : plan.Fits s.ledger)
    (hfound : s.ledger.activeTrove owner = .ok t) (hentire : s.ledger.rewards.entire t = .ok e) :
    Parallel (SettledFirst owner) (perform (commit plan) s)
      (perform (commit (plan.settledFor owner)) { s with ledger := s.ledger.settle owner e }) := by
  unfold commit
  refine parallel_get_bind ?_
  rw [isEmpty_settledFor]
  refine parallel_guard fun _ => parallel_liftM_bind fun stakes _ => ?_
  refine parallel_liftM_bind fun redistribution _ => parallel_liftM_bind fun offset _ => ?_
  exact .done (settledFirst_carryOut hsound hfits hfound hentire redistribution offset)

/-- **A batch after a settlement is the batch.** It is refused for the same reason, or takes the same troves. -/
theorem parallel_liquidateBatch_settle (hsound : s.ledger.Sound) (hfound : s.ledger.activeTrove owner = .ok t)
    (hentire : s.ledger.rewards.entire t = .ok e) (p : Params) (price : Amount) (borrowers : List Address) :
    Parallel (SettledFirst owner) (perform (liquidateBatch p price borrowers) s)
      (perform (liquidateBatch p price borrowers) { s with ledger := s.ledger.settle owner e }) := by
  unfold liquidateBatch
  refine parallel_get_bind ?_
  dsimp only
  rw [LiquidationPlan.make_settle (hsound.sameWorth_settle hfound hentire) hfound hentire]
  refine parallel_liftM_map_bind fun plan hplan => ?_
  rw [isEmpty_settledFor]
  exact parallel_guard fun _ => parallel_commit_settle hsound (LiquidationPlan.fits_of_make hplan) hfound hentire

end Liquidator

end CollateralDebt
