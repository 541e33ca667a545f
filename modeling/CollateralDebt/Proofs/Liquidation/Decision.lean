import CollateralDebt.Proofs.Liquidation.Plan

/-! What a batch decides, place by place of its list. A plan is made up of one decision for each place, in the order
of the list: either the trove is liquidated or it is skipped. Each decision is taken while the system stands as the
troves liquidated before would leave it, and `Due` says which one it is: duplicates, accounts without an active
trove and the last trove are skipped, and of all others exactly the eligible ones are liquidated, each by the rule
for its ratio and that of the system. -/

open CollateralDebt.Action

namespace CollateralDebt

/-- The system as it stands, before any trove is planned. -/
def RunningState.now (l : Ledger) (s : StabilityPool) : RunningState where
  systemDebt := l.pools.debt
  systemCollateral := l.pools.collateral
  deposits := s.totalDeposits
  activeTroves := l.activeCount

namespace LiquidationPlan

/-- The troves that are liquidated by decisions about places of a list. -/
def liquidatedBy (decisions : List (Address × Decision)) : List LiquidationValues :=
  decisions.filterMap fun d => d.2.toOption

/-- The places of a list that are skipped by decisions about them, each with its reason. -/
def skippedBy (decisions : List (Address × Decision)) : List (Address × SkipReason) :=
  decisions.filterMap fun d =>
    match d.2 with
    | .ok _ => none
    | .error reason => some (d.1, reason)

theorem liquidatedBy_cons (first : Address × Decision) (rest : List (Address × Decision)) :
    liquidatedBy (first :: rest) = liquidatedBy [first] ++ liquidatedBy rest := List.filterMap_append (l := [first])

theorem skippedBy_cons (first : Address × Decision) (rest : List (Address × Decision)) :
    skippedBy (first :: rest) = skippedBy [first] ++ skippedBy rest := List.filterMap_append (l := [first])

/-! ## Decisions along a list -/

namespace Draft

variable {l : Ledger} {p : Params} {d d' d'' : Draft} {borrower : Address} {decision : Decision}
  {decisions : List (Address × Decision)} {borrowers : List Address}

/-- From one draft to another by decisions about places of a list, one after the other. -/
structure Course (l : Ledger) (p : Params) (d : Draft) (decisions : List (Address × Decision)) (d' : Draft) : Prop where
  values : d'.plan.values = d.plan.values ++ liquidatedBy decisions
  skipped : d'.plan.skipped = d.plan.skipped ++ skippedBy decisions
  state : (liquidatedBy decisions).foldlM RunningState.advance d.state = .ok d'.state
  others : (liquidatedBy decisions).length ≤ d.state.activeTroves - 1
  decided : ∀ before borrower decision after, decisions = before ++ (borrower, decision) :: after →
    ∃ state, (liquidatedBy before).foldlM RunningState.advance d.state = .ok state ∧
      Decides l p d.plan.price state ((before.map Prod.fst).reverse ++ d.seen) borrower decision

theorem course_refl (l : Ledger) (p : Params) (d : Draft) : Course l p d [] d where
  values := (List.append_nil _).symm
  skipped := (List.append_nil _).symm
  state := rfl
  others := Nat.zero_le _
  decided before _ _ _ hsplit := by cases before <;> cases hsplit

/-- What a decision leaves: its trove or its reason is the last one of the plan, and the system stands accordingly. -/
theorem follow_eq_ok (hdecides : Decides l p d.plan.price d.state d.seen borrower decision)
    (h : d.follow borrower decision = .ok d') :
    d'.plan.price = d.plan.price ∧ d'.seen = borrower :: d.seen ∧
      d'.plan.values = d.plan.values ++ liquidatedBy [(borrower, decision)] ∧
      d'.plan.skipped = d.plan.skipped ++ skippedBy [(borrower, decision)] ∧
      (liquidatedBy [(borrower, decision)]).foldlM RunningState.advance d.state = .ok d'.state := by
  cases decision with
  | error reason =>
      cases h
      exact ⟨rfl, rfl, (List.append_nil _).symm, rfl, rfl⟩
  | ok v =>
      obtain ⟨state, hstate, h⟩ := except_bind_eq_ok.1 h
      obtain ⟨totals, -, h⟩ := except_bind_eq_ok.1 h
      cases h
      refine ⟨rfl, ?_, rfl, (List.append_nil _).symm, ?_⟩
      · rw [← hdecides.ok.1]
      · exact except_bind_eq_ok.2 ⟨state, hstate, rfl⟩

theorem Course.cons (hdecides : Decides l p d.plan.price d.state d.seen borrower decision)
    (hfollow : d.follow borrower decision = .ok d') (h : Course l p d' decisions d'') :
    Course l p d ((borrower, decision) :: decisions) d'' := by
  obtain ⟨hprice, hseen, hvalues, hskipped, hstate⟩ := follow_eq_ok hdecides hfollow
  constructor
  · rw [h.values, hvalues, List.append_assoc, ← liquidatedBy_cons]
  · rw [h.skipped, hskipped, List.append_assoc, ← skippedBy_cons]
  · rw [liquidatedBy_cons, List.foldlM_append]
    exact except_bind_eq_ok.2 ⟨_, hstate, h.state⟩
  · rw [liquidatedBy_cons, List.length_append]
    have hothers := h.others
    cases decision with
    | error reason =>
        have hsame : d.state = d'.state := Except.ok.inj hstate
        rw [← hsame] at hothers
        show 0 + _ ≤ _
        omega
    | ok v =>
        obtain ⟨state, hadvance, hlast⟩ := except_bind_eq_ok.1 hstate
        cases hlast
        have hmore := hdecides.ok.2.2.1
        rw [(RunningState.advance_eq_ok hadvance).activeTroves, List.length_singleton] at hothers
        show 1 + _ ≤ _
        omega
  · intro before later decision' after hsplit
    cases before with
    | nil =>
        obtain ⟨hfirst, -⟩ := List.cons.inj hsplit
        cases hfirst
        exact ⟨d.state, rfl, hdecides⟩
    | cons first before =>
        obtain ⟨hfirst, hrest⟩ := List.cons.inj hsplit
        obtain ⟨state, hreached, hlater⟩ := h.decided before later decision' after hrest
        rw [hprice, hseen] at hlater
        refine ⟨state, ?_, ?_⟩
        · rw [← hfirst, liquidatedBy_cons, List.foldlM_append]
          exact except_bind_eq_ok.2 ⟨_, hstate, hreached⟩
        · rw [← hfirst, List.map_cons, List.reverse_cons, List.append_assoc, List.singleton_append]
          exact hlater

/-- Looking at the borrowers of a list is a course of decisions, one for each place. -/
theorem exists_course (h : borrowers.foldlM (Draft.consider l p) d = .ok d') :
    ∃ decisions : List (Address × Decision), decisions.map Prod.fst = borrowers ∧ Course l p d decisions d' := by
  induction borrowers generalizing d with
  | nil =>
      cases h
      exact ⟨[], rfl, course_refl l p _⟩
  | cons borrower rest ih =>
      rw [List.foldlM_cons] at h
      obtain ⟨next, hstep, h⟩ := except_bind_eq_ok.1 h
      obtain ⟨decision, hdecides, hfollow⟩ := consider_eq_ok hstep
      obtain ⟨decisions, hborrowers, hcourse⟩ := ih h
      exact ⟨(borrower, decision) :: decisions, congrArg (borrower :: ·) hborrowers, hcourse.cons hdecides hfollow⟩

end Draft

variable {l : Ledger} {s : StabilityPool} {p : Params} {price : Amount} {borrowers : List Address}
  {plan : LiquidationPlan}

/-- A plan is made by a course of decisions from the system as it stands. -/
theorem course_of_make (h : make l s p price borrowers = .ok plan) :
    ∃ decisions draft, decisions.map Prod.fst = borrowers ∧ draft.plan = plan ∧
      Draft.Course l p (.start l s p price) decisions draft := by
  unfold make at h
  obtain ⟨draft, hdraft, h⟩ := except_bind_eq_ok.1 h
  obtain ⟨decisions, hborrowers, hcourse⟩ := Draft.exists_course hdraft
  exact ⟨decisions, draft, hborrowers, Except.ok.inj h, hcourse⟩

/-- A plan has a forecast of how the system stands after all its troves, and one active trove is not among them. -/
theorem forecast_of_make (h : make l s p price borrowers = .ok plan) :
    ∃ forecast, plan.values.foldlM RunningState.advance (.now l s) = .ok forecast ∧
      plan.values.length ≤ l.activeCount - 1 := by
  obtain ⟨decisions, draft, -, rfl, hcourse⟩ := course_of_make h
  have hvalues : draft.plan.values = liquidatedBy decisions := hcourse.values
  rw [hvalues]
  exact ⟨draft.state, hcourse.state, hcourse.others⟩

/-! ## Which decision is due -/

/-- A trove of a ratio and a debt is liquidated in a system of a ratio and with such deposits in the pool. -/
def Eligible (p : Params) (systemRatio ratio debt deposits : Amount) : Prop :=
  p.criticalRatio ≤ systemRatio ∧ ratio < p.minimumRatio ∨
    systemRatio < p.criticalRatio ∧
      (ratio < p.minimumRatio ∨ p.minimumRatio ≤ ratio ∧ ratio < systemRatio ∧ debt ≤ deposits)

/-- The decision about a borrower that is due when others came before it in the list and the system stands so. -/
structure Due (l : Ledger) (p : Params) (price : Amount) (state : RunningState) (before : List Address)
    (borrower : Address) (decision : Decision) : Prop where
  named : ∀ v, decision = .ok v → v.borrower = borrower
  duplicate : borrower ∈ before → decision = .error .duplicate
  notActive : borrower ∉ before → l.isActive borrower = false → decision = .error .notActive
  lastTrove : borrower ∉ before → l.isActive borrower = true → state.activeTroves ≤ 1 → decision = .error .lastTrove
  eligible : borrower ∉ before → l.isActive borrower = true → 1 < state.activeTroves →
    ∃ entire, l.entire borrower = .ok entire ∧
      let ratio := Amount.collateralRatio entire.collateral entire.debt price
      ((∃ v, decision = .ok v) ↔ Eligible p (state.ratio price) ratio entire.debt state.deposits) ∧
        ∀ v, decision = .ok v → v.entire = entire ∧ v.ratio = ratio ∧ v.mode = modeOf p (state.ratio price) ratio

/-- A trove is liquidated exactly if it is eligible. -/
theorem Rules.eligible {state : RunningState} {borrower : Address} {entire : EntireTrove} {ratio : Amount}
    {decision : Decision} (h : Rules p price state borrower entire ratio decision) (hp : p.Sensible) :
    (∃ v, decision = .ok v) ↔ Eligible p (state.ratio price) ratio entire.debt state.deposits := by
  have hskipped : ∀ {reason : SkipReason}, ¬∃ v : LiquidationValues, (.error reason : Decision) = .ok v :=
    fun ⟨_, hv⟩ => nomatch hv
  cases h with
  | underwater hsystem hratio h =>
      exact iff_of_true ⟨_, rfl⟩ (.inr ⟨hsystem, .inl (Nat.lt_trans hratio hp.minimumRatio_gt)⟩)
  | belowMinimum hsystem hone hratio h => exact iff_of_true ⟨_, rfl⟩ (.inr ⟨hsystem, .inl hratio⟩)
  | aboveSystem hsystem hminimum hratio =>
      refine iff_of_false hskipped ?_
      rintro (⟨habove, -⟩ | ⟨-, hlow | ⟨-, hlow, -⟩⟩)
      · exact Amount.not_le.2 hsystem habove
      · exact Amount.not_lt.2 hminimum hlow
      · exact Amount.not_le.2 hlow hratio
  | notCovered hsystem hminimum hratio hdeposits =>
      refine iff_of_false hskipped ?_
      rintro (⟨habove, -⟩ | ⟨-, hlow | ⟨-, -, henough⟩⟩)
      · exact Amount.not_le.2 hsystem habove
      · exact Amount.not_lt.2 hminimum hlow
      · exact Amount.not_lt.2 henough hdeposits
  | capped hsystem hone hminimum hratio hdeposits h =>
      exact iff_of_true ⟨_, rfl⟩ (.inr ⟨hsystem, .inr ⟨hminimum, hratio, hdeposits⟩⟩)
  | normal hsystem hratio h => exact iff_of_true ⟨_, rfl⟩ (.inl ⟨hsystem, hratio⟩)
  | healthy hsystem hratio =>
      refine iff_of_false hskipped ?_
      rintro (⟨-, hlow⟩ | ⟨hbelow, -⟩)
      · exact Amount.not_lt.2 hratio hlow
      · exact Amount.not_lt.2 hsystem hbelow

/-- The decision that is taken is the one that is due. -/
theorem Decides.due {state : RunningState} {seen before : List Address} {borrower : Address} {decision : Decision}
    (h : Decides l p price state seen borrower decision) (hp : p.Sensible)
    (hseen : borrower ∈ seen ↔ borrower ∈ before) : Due l p price state before borrower decision := by
  cases h with
  | duplicate hearlier =>
      rw [hseen] at hearlier
      exact ⟨fun _ hv => (nomatch hv), fun _ => rfl, fun hnew => absurd hearlier hnew,
        fun hnew => absurd hearlier hnew, fun hnew => absurd hearlier hnew⟩
  | notActive hnew hinactive =>
      rw [hseen] at hnew
      have hnot : l.isActive borrower ≠ true := by simp [hinactive]
      exact ⟨fun _ hv => (nomatch hv), fun hearlier => absurd hearlier hnew, fun _ _ => rfl,
        fun _ hactive => absurd hactive hnot, fun _ hactive => absurd hactive hnot⟩
  | lastTrove hnew hactive hlast =>
      rw [hseen] at hnew
      have hnot : l.isActive borrower ≠ false := by simp [hactive]
      exact ⟨fun _ hv => (nomatch hv), fun hearlier => absurd hearlier hnew, fun _ hinactive => absurd hinactive hnot,
        fun _ _ _ => rfl, fun _ _ hothers => absurd hothers (Nat.not_lt.2 hlast)⟩
  | @assessed entire decision hnew hactive hothers hentire hassess =>
      rw [hseen] at hnew
      have hnot : l.isActive borrower ≠ false := by simp [hactive]
      have hsettles : ∀ v, decision = .ok v → v.Settles borrower entire _ _ :=
        fun v hv => (assess_rules (hv ▸ hassess)).settles
      refine ⟨fun v hv => (hsettles v hv).borrower, fun hearlier => absurd hearlier hnew,
        fun _ hinactive => absurd hinactive hnot, fun _ _ hlast => absurd hothers (Nat.not_lt.2 hlast), fun _ _ _ => ?_⟩
      refine ⟨entire, hentire, (assess_rules hassess).eligible hp, fun v hv => ?_⟩
      exact ⟨(hsettles v hv).entire, (hsettles v hv).ratio, (hsettles v hv).mode⟩

/-- **A batch liquidates exactly the eligible troves.** The troves of a plan are distinct and active, and one active
trove at least is not among them. There is one decision for each place of the list, in its order, and those to
liquidate and those to skip make up the plan. Each is the one that is due in the system as the troves liquidated
before it would leave it. -/
theorem decisions_due (hp : p.check = .ok ()) (h : make l s p price borrowers = .ok plan) :
    (plan.values.map LiquidationValues.borrower).Nodup ∧
    (∀ v ∈ plan.values, l.isActive v.borrower = true) ∧
    plan.values.length ≤ l.activeCount - 1 ∧
    ∃ decisions : List (Address × Decision),
      decisions.map Prod.fst = borrowers ∧ liquidatedBy decisions = plan.values ∧ skippedBy decisions = plan.skipped ∧
      ∀ before borrower decision after, decisions = before ++ (borrower, decision) :: after →
        ∃ state, (liquidatedBy before).foldlM RunningState.advance (.now l s) = .ok state ∧
          Due l p price state (before.map Prod.fst) borrower decision := by
  have hfits := fits_of_make h
  obtain ⟨decisions, draft, hborrowers, rfl, hcourse⟩ := course_of_make h
  have hvalues : liquidatedBy decisions = draft.plan.values := hcourse.values.symm
  refine ⟨hfits.distinct, fun v hmem => ?_, hvalues ▸ hcourse.others, decisions, hborrowers, hvalues,
    hcourse.skipped.symm, ?_⟩
  · obtain ⟨t, hfound, -⟩ := hfits.found v hmem
    obtain ⟨hget, hactive⟩ := Ledger.get?_of_activeTrove hfound
    rw [Ledger.isActive, Ledger.status, hget]
    exact hactive
  · intro before borrower decision after hsplit
    obtain ⟨state, hstate, hdecides⟩ := hcourse.decided before borrower decision after hsplit
    refine ⟨state, hstate, hdecides.due (Params.sensible_of_check hp) ?_⟩
    rw [List.mem_append, List.mem_reverse]
    exact or_iff_left List.not_mem_nil

/-- Four troves at a price of one, with ratios of 0.75, 1.05, 1.2 and 2.8 and one of 1.45 for the system. -/
def sampleLedger : Ledger :=
  [(1, 1500), (2, 2100), (3, 2400), (4, 5600)].foldl (fun l (owner, collateral) =>
    (perform (Ledger.openTrove (.ofWord owner) (.ofWhole collateral) (.ofWhole 2000)) l).1) .empty

def samplePool : StabilityPool :=
  (perform (StabilityPool.provide (.ofWord 9) (.ofWhole 2500)) (.ofParams .standard)).1

/-- The second trove that is liquidated ends Recovery Mode; one account is named twice, and one has no trove. -/
def sampleBatch : List Address := [.ofWord 1, .ofWord 3, .ofWord 2, .ofWord 3, .ofWord 7, .ofWord 4]

/-- Troves are liquidated by three rules, and the others are skipped for three reasons. -/
theorem decisions_due_sample : ∃ plan, make sampleLedger samplePool .standard .one sampleBatch = .ok plan ∧
    plan.values.map LiquidationValues.mode = [.recoveryUnderwater, .recoveryCapped, .normal] ∧
    plan.skipped = [(.ofWord 3, .duplicate), (.ofWord 7, .notActive), (.ofWord 4, .lastTrove)] ∧
    plan.values.length ≤ sampleLedger.activeCount - 1 ∧
    ∃ decisions : List (Address × Decision), decisions.map Prod.fst = sampleBatch ∧
      liquidatedBy decisions = plan.values ∧ skippedBy decisions = plan.skipped := by
  have hstandard : Params.standard.check = .ok () := rfl
  obtain ⟨plan, hplan, hmodes, hskipped⟩ :
      ∃ plan, make sampleLedger samplePool .standard .one sampleBatch = .ok plan ∧
        plan.values.map LiquidationValues.mode = [.recoveryUnderwater, .recoveryCapped, .normal] ∧
        plan.skipped = [(.ofWord 3, .duplicate), (.ofWord 7, .notActive), (.ofWord 4, .lastTrove)] :=
    ⟨_, rfl, by decide +kernel, by decide +kernel⟩
  obtain ⟨-, -, hothers, decisions, hplaces, hvalues, hreasons, -⟩ := decisions_due hstandard hplan
  exact ⟨plan, hplan, hmodes, hskipped, hothers, decisions, hplaces, hvalues, hreasons⟩

end LiquidationPlan

end CollateralDebt
