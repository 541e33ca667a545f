import CollateralDebt.Proofs.Machine.Accounts

/-! What an owner's operation does to the ratio of the system. Before anything is written it is checked against the entire
amounts of the trove; the ledger then settles what was pending, moves it from one pool to the other, and changes both
totals. While all collateral ever locked is an amount nothing of this is clamped, and the system holds exactly what the
check predicted: the new amounts of the trove in place of the old ones. -/

open CollateralDebt.Action

namespace CollateralDebt

/-- A turnover of both assets replaces the amounts of a trove in the system. -/
theorem Ledger.Accounted.replaces {l l' : Ledger} {t t' : Transcript} {old new : Option Trove} {a : Adjustment}
    (h : l.Accounted t) (hrange : t.InRange) (h' : l'.Accounted t') (hrange' : t'.InRange)
    (hturn : ∀ (x : Asset) {inflow outflow}, (l.books x).Sound inflow outflow 0 t.settlements → inflow < 2 ^ 128 →
      Turnover x l l' old new ∧ (x.before a).units ≤ (x.held l.pools).units)
    (hbefore : ∀ x : Asset, (x.before a).units =
      old.elim 0 fun trove => (x.settled trove).units + x.due l.rewards.level trove)
    (hafter : ∀ x : Asset, (x.after a).units = new.elim 0 fun trove => (x.settled trove).units) :
    a.Replaces l l' := by
  constructor <;> intro x <;> obtain ⟨inflow, outflow, hinflow, hsound⟩ := h.sound hrange x
  · exact (hturn x hsound hinflow).2
  · obtain ⟨inflow', outflow', hinflow', hsound'⟩ := h'.sound hrange' x
    rw [hbefore, hafter]
    exact (hturn x hsound hinflow).1.held_eq hsound hinflow hsound' hinflow'

/-- So does the turnover of a trove that settles, if the adjustment starts from what the trove is in the end. -/
theorem Ledger.Accounted.replaces_entire {l l' : Ledger} {t t' : Transcript} {owner : Address} {old : Trove}
    {new : Option Trove} {e : EntireTrove} {a : Adjustment} (h : l.Accounted t) (hrange : t.InRange)
    (h' : l'.Accounted t') (hrange' : t'.InRange) (hfound : l.activeTrove owner = .ok old)
    (hentire : l.rewards.entire old = .ok e)
    (hturn : ∀ (x : Asset) {inflow outflow}, (l.books x).Sound inflow outflow 0 t.settlements → inflow < 2 ^ 128 →
      Turnover x l l' (some old) new)
    (hbefore : ∀ x : Asset, x.before a = x.entire e)
    (hafter : ∀ x : Asset, (x.after a).units = new.elim 0 fun trove => (x.settled trove).units) :
    a.Replaces l l' := by
  refine h.replaces hrange h' hrange' (fun x _ _ hsound hinflow => ⟨hturn x hsound hinflow, ?_⟩) (fun x => ?_) hafter
  · rw [hbefore]
    exact entire_le_held hsound hinflow hfound hentire
  · rw [hbefore, Option.elim_some, ← pending_eq_due hfound hentire]
    exact (Rewards.entire_eq_ok hentire).2.2 x

theorem Ledger.troveRatio_eq {l : Ledger} {owner : Address} {e : EntireTrove} (h : l.entire owner = .ok e)
    (price : Amount) : l.troveRatio owner price = .ok (Amount.collateralRatio e.collateral e.debt price) := by
  unfold troveRatio
  rw [h]
  rfl

namespace Machine

variable {m m' : Machine} {price : Amount} {owner : Address} {operation : Operation} {result : OperationResult}
  {a : Adjustment} {ledger : Ledger}

/-- **The system changes as the rules predict**: what was pending for the trove counts as its own before, and none of it
is lost when it settles. -/
theorem Borrows.replaces {t t' : Transcript} (h : Borrows m price operation result a ledger)
    (hledger : m.state.ledger.Accounted t) (hrange : t.InRange) (hledger' : ledger.Accounted t')
    (hrange' : t'.InRange) : a.Replaces m.state.ledger ledger := by
  cases h with
  | opened hpasses hdone =>
      obtain ⟨hopened, rfl, rfl⟩ := Ledger.openTrove_eq_ok hdone
      refine hledger.replaces hrange hledger' hrange' (fun x _ _ _ _ => ⟨hopened.turnover x, ?_⟩) (fun x => ?_) fun x => ?_
      · cases x <;> exact Nat.zero_le _
      · cases x <;> rfl
      · cases x <;> rfl
  | adjusted hentire hcollateral hdebt hpasses hdone =>
      obtain ⟨old, e, hadjusted, -, rfl, rfl⟩ := Ledger.adjust_eq_ok hdone
      obtain rfl : e = _ := Except.ok.inj (hadjusted.entire_before.symm.trans hentire)
      exact hledger.replaces_entire hrange hledger' hrange' hadjusted.found hadjusted.entire
        (fun x _ _ => hadjusted.turnover) (fun x => by cases x <;> rfl) fun x => by cases x <;> rfl
  | closed hentire hclosable hdone =>
      obtain ⟨old, e, hrepaid, -⟩ := Ledger.closeByOwner_eq_ok hdone
      obtain rfl : e = _ := Except.ok.inj (hrepaid.entire_before.symm.trans hentire)
      exact hledger.replaces_entire hrange hledger' hrange' hrepaid.found hrepaid.entire
        (fun x _ _ => hrepaid.turnover) (fun x => by cases x <;> rfl) fun x => by cases x <;> rfl

/-- A trove is closed in Normal Mode only, and only if the system without it is predicted to stay there. -/
theorem requireClosable_eq_ok {e : EntireTrove} (h : m.requireClosable price e = .ok ()) :
    m.state.params.criticalRatio ≤ m.state.ledger.systemRatio price ∧
      m.state.params.criticalRatio ≤ (Adjustment.closing e).predictedRatio m.state.ledger price := by
  unfold requireClosable at h
  obtain ⟨hnormal, h⟩ := except_guard_eq_ok.1 h
  obtain ⟨collateral, hcollateral, h⟩ := except_bind_eq_ok.1 h
  obtain ⟨debt, hdebt, h⟩ := except_bind_eq_ok.1 h
  obtain ⟨rfl, -⟩ := Ledger.minus_eq_minusClamped hcollateral
  obtain ⟨rfl, -⟩ := Ledger.minus_eq_minusClamped hdebt
  refine ⟨Params.not_isRecovery_iff.1 hnormal, ?_⟩
  have hratio : (Adjustment.closing e).predictedRatio m.state.ledger price = Amount.collateralRatio
      (m.state.ledger.pools.collateral.minusClamped e.collateral) (m.state.ledger.pools.debt.minusClamped e.debt)
      price := by
    unfold Adjustment.predictedRatio Adjustment.closing
    dsimp only
    rw [Amount.plusClamped_zero, Amount.plusClamped_zero]
  rw [hratio]
  dsimp only at h
  split at h
  · cases h
  · next hkept => exact Params.not_isRecovery_iff.1 hkept

theorem Borrows.stays_normal (h : Borrows m price operation result a ledger)
    (hreplaces : a.Replaces m.state.ledger ledger)
    (hnormal : m.state.params.criticalRatio ≤ m.state.ledger.systemRatio price) :
    m.state.params.criticalRatio ≤ ledger.systemRatio price := by
  cases h with
  | opened hpasses hdone => exact hpasses.stays_normal hreplaces hnormal
  | adjusted hentire hcollateral hdebt hpasses hdone => exact hpasses.stays_normal hreplaces hnormal
  | closed hentire hclosable hdone =>
      rw [← hreplaces.predictedRatio_eq]
      exact (requireClosable_eq_ok hclosable).2

/-- A trove that is opened or adjusted has passed the rules with the amounts that it has afterwards. -/
theorem Borrows.entire_after (h : Borrows m price operation result a ledger)
    (howner : operation.borrower? = some owner) (hstays : operation ≠ .closeTrove owner) :
    ∃ e, ledger.entire owner = .ok e ∧ e.collateral = a.newCollateral ∧ e.debt = a.newDebt ∧
      a.Passes m.state.params m.state.ledger price := by
  cases h with
  | opened hpasses hdone =>
      cases howner
      obtain ⟨hopened, rfl, rfl⟩ := Ledger.openTrove_eq_ok hdone
      exact ⟨_, hopened.entire_after, rfl, rfl, hpasses⟩
  | adjusted hentire hcollateral hdebt hpasses hdone =>
      cases howner
      obtain ⟨old, e, hadjusted, -, rfl, rfl⟩ := Ledger.adjust_eq_ok hdone
      exact ⟨_, hadjusted.entire_after, rfl, rfl, hpasses⟩
  | closed hentire hclosable hdone =>
      cases howner
      exact absurd rfl hstays

variable {p : Params} {t : Transcript}

/-- An operation of an owner in a machine that was reached, with the price that was read for it. -/
theorem Run.borrows (h : Run p m t) (hprice : m.feed.fetch = .ok price) (howner : operation.borrower? = some owner)
    (hdone : perform (execute operation) m = (m', .ok result)) :
    ∃ a, Borrows m price operation result a m'.state.ledger ∧
      (Transcript.locked ((operation, result) :: t) < 2 ^ 128 → a.Replaces m.state.ledger m'.state.ledger) := by
  obtain ⟨price', a, ledger, hprice', hborrows, honly⟩ := borrows_of_execute howner hdone
  obtain rfl : price' = price := Except.ok.inj (hprice'.symm.trans hprice)
  obtain rfl := honly.ledger_eq
  refine ⟨a, hborrows, fun hlocked => ?_⟩
  have hrange := Transcript.inRange_of_locked_lt hlocked
  exact hborrows.replaces h.accounted hrange.tail (h.done hdone).accounted hrange

/-- **An owner cannot take the system out of Normal Mode.** If the system is at the critical ratio or above at the price
now, it still is after any operation of an owner that succeeds, as long as all collateral ever locked is an amount. A
trove that was opened or adjusted is then at the minimum ratio or above, has at least the minimum debt, and some
collateral. -/
theorem Run.normal_guarded (h : Run p m t) (hprice : m.feed.fetch = .ok price)
    (hnormal : p.criticalRatio ≤ m.state.ledger.systemRatio price) (howner : operation.borrower? = some owner)
    (hdone : perform (execute operation) m = (m', .ok result))
    (hlocked : Transcript.locked ((operation, result) :: t) < 2 ^ 128) :
    p.criticalRatio ≤ m'.state.ledger.systemRatio price ∧
    (operation ≠ .closeTrove owner → ∃ e ratio, m'.state.ledger.entire owner = .ok e ∧
      m'.state.ledger.troveRatio owner price = .ok ratio ∧ p.minimumRatio ≤ ratio ∧ p.minimumDebt ≤ e.debt ∧
      0 < e.collateral.units) := by
  obtain ⟨a, hborrows, hreplaces⟩ := h.borrows hprice howner hdone
  obtain rfl := h.params_eq
  refine ⟨hborrows.stays_normal (hreplaces hlocked) hnormal, fun hstays => ?_⟩
  obtain ⟨e, hentire, hcollateral, hdebt, hpasses⟩ := hborrows.entire_after howner hstays
  have hratio := (hpasses.normal hnormal).1
  rw [Adjustment.newRatio, ← hcollateral, ← hdebt] at hratio
  exact ⟨e, _, hentire, Ledger.troveRatio_eq hentire price, hratio, hdebt ▸ hpasses.debt_ge,
    hcollateral ▸ hpasses.collateral_pos⟩

/-- The first liquidation leaves something pending for the second trove, which settles as its owner repays. -/
def settlingRequests : List Request := sampleRequests.take 6

def settlingReached : Machine := (replay sampleStart settlingRequests).1

theorem run_settling : Run .standard settlingReached (replay sampleStart settlingRequests).2 :=
  run_replay create_sample settlingRequests

def settlingRepayment : Operation := .adjustTrove (.ofWord 2) (.decrease (.ofWhole 500)) (.decrease (.ofWhole 100))

/-- Half of the collateral is withdrawn, and what was pending counts in the prediction and in the outcome. -/
theorem Run.normal_guarded_settling : ∃ m' result pending e,
    settlingReached.state.ledger.pending (.ofWord 2) = .ok pending ∧ pending.isZero = false ∧
    perform (execute settlingRepayment) settlingReached = (m', .ok result) ∧
    Params.standard.criticalRatio ≤ settlingReached.state.ledger.systemRatio (.ofWhole 105) ∧
    Params.standard.criticalRatio ≤ m'.state.ledger.systemRatio (.ofWhole 105) ∧
    m'.state.ledger.entire (.ofWord 2) = .ok e ∧ Params.standard.minimumDebt ≤ e.debt ∧ 0 < e.collateral.units := by
  have hpending : (settlingReached.state.ledger.pending (.ofWord 2)).map Pending.isZero = .ok false := by
    decide +kernel
  have hprice : settlingReached.feed.fetch = .ok (.ofWhole 105) := by decide +kernel
  have hnormal : Params.standard.criticalRatio ≤ settlingReached.state.ledger.systemRatio (.ofWhole 105) := by
    decide +kernel
  have hisOk : (perform (execute settlingRepayment) settlingReached).2.isOk = true := by decide +kernel
  obtain ⟨pending, hfound, hsome⟩ := except_map_eq_ok.1 hpending
  obtain ⟨result, hresult⟩ := exists_ok_of_isOk hisOk
  have hdone := perform_eq_ok_of_snd hresult
  have hlocked : Transcript.locked ((settlingRepayment, result) :: (replay sampleStart settlingRequests).2) < 2 ^ 128 := by
    rw [Transcript.locked_cons, show Transcript.lockedBy (settlingRepayment, result) = 0 from rfl]
    decide +kernel
  obtain ⟨hkept, htrove⟩ := Run.normal_guarded run_settling hprice hnormal rfl hdone hlocked
  obtain ⟨e, ratio, hentire, -, -, hdebt, hcollateral⟩ := htrove (by decide)
  exact ⟨_, result, pending, e, hfound, hsome, hdone, hnormal, hkept, hentire, hdebt, hcollateral⟩

section Recovery

variable (h : Run p m t) (hprice : m.feed.fetch = .ok price)
  (hrecovery : m.state.ledger.systemRatio price < p.criticalRatio)
include h hprice hrecovery

theorem Run.closing_refused (owner : Address) : ∃ e, perform (execute (.closeTrove owner)) m = (m, .error e) := by
  cases hdone : perform (execute (.closeTrove owner)) m with
  | mk m' given =>
      cases given with
      | error e =>
          have hsame : m' = m := execute_allOrNothing _ _ _ _ hdone
          exact ⟨e, by rw [hsame]⟩
      | ok result =>
          obtain ⟨a, hborrows, -⟩ := h.borrows hprice rfl hdone
          obtain rfl := h.params_eq
          cases hborrows with
          | closed hentire hclosable _ =>
              exact absurd hrecovery (Amount.not_lt.2 (requireClosable_eq_ok hclosable).1)

theorem Run.opening_guarded {collateral debt : Amount}
    (hdone : perform (execute (.openTrove owner collateral debt)) m = (m', .ok result))
    (hlocked : Transcript.locked ((.openTrove owner collateral debt, result) :: t) < 2 ^ 128) :
    m.state.ledger.systemRatio price ≤ m'.state.ledger.systemRatio price ∧ m.state.ledger.isActive owner = false ∧
      ∃ e, m'.state.ledger.entire owner = .ok e ∧ e.collateral = collateral := by
  obtain ⟨a, hborrows, hreplaces⟩ := h.borrows hprice rfl hdone
  obtain rfl := h.params_eq
  cases hborrows with
  | opened hpasses hledger =>
      obtain ⟨hopened, hcollateral, -⟩ := Ledger.openTrove_eq_ok hledger
      exact ⟨hpasses.opening_keeps_ratio (hreplaces hlocked) hrecovery rfl, hopened.inactive, _, hopened.entire_after,
        hcollateral⟩

theorem Run.adjusting_guarded {collateral debt : AmountChange} {ratio : Amount}
    (hdone : perform (execute (.adjustTrove owner collateral debt)) m = (m', .ok result))
    (hlocked : Transcript.locked ((.adjustTrove owner collateral debt, result) :: t) < 2 ^ 128)
    (hratio : m.state.ledger.troveRatio owner price = .ok ratio) (hfinite : ratio < Amount.max) :
    (m.state.ledger.systemRatio price).units ≤ (m'.state.ledger.systemRatio price).units + 1 ∧
      ∃ before after, m.state.ledger.entire owner = .ok before ∧ m'.state.ledger.entire owner = .ok after ∧
        before.collateral ≤ after.collateral := by
  obtain ⟨a, hborrows, hreplaces⟩ := h.borrows hprice rfl hdone
  obtain rfl := h.params_eq
  obtain ⟨after, hafter, hcollateral, -, hpasses⟩ := hborrows.entire_after rfl Operation.noConfusion
  cases hborrows with
  | adjusted hentire _ _ _ _ =>
      obtain rfl := Except.ok.inj ((Ledger.troveRatio_eq hentire price).symm.trans hratio)
      refine ⟨hpasses.keeps_ratio (hreplaces hlocked) hrecovery hfinite, _, after, hentire, hafter, ?_⟩
      rw [hcollateral]
      exact (hpasses.recovery hrecovery).1

end Recovery

/-- **In Recovery Mode an owner cannot make things worse.** If the system is below the critical ratio at the price now,
no trove can be closed. As long as all collateral ever locked is an amount, a trove that is opened does not lower the
ratio of the system; one that is adjusted lowers it by one unit at most, unless its own ratio was the largest amount, and
has no less collateral than before. -/
theorem Run.recovery_guarded (h : Run p m t) (hprice : m.feed.fetch = .ok price)
    (hrecovery : m.state.ledger.systemRatio price < p.criticalRatio) :
    (∀ owner, ∃ e, perform (execute (.closeTrove owner)) m = (m, .error e)) ∧
    (∀ owner collateral debt m' result, perform (execute (.openTrove owner collateral debt)) m = (m', .ok result) →
      Transcript.locked ((.openTrove owner collateral debt, result) :: t) < 2 ^ 128 →
      m.state.ledger.systemRatio price ≤ m'.state.ledger.systemRatio price ∧
      m.state.ledger.isActive owner = false ∧
      ∃ e, m'.state.ledger.entire owner = .ok e ∧ e.collateral = collateral) ∧
    (∀ owner collateral debt m' result ratio,
      perform (execute (.adjustTrove owner collateral debt)) m = (m', .ok result) →
      Transcript.locked ((.adjustTrove owner collateral debt, result) :: t) < 2 ^ 128 →
      m.state.ledger.troveRatio owner price = .ok ratio → ratio < Amount.max →
      (m.state.ledger.systemRatio price).units ≤ (m'.state.ledger.systemRatio price).units + 1 ∧
      ∃ before after, m.state.ledger.entire owner = .ok before ∧ m'.state.ledger.entire owner = .ok after ∧
        before.collateral ≤ after.collateral) := by
  refine ⟨h.closing_refused hprice hrecovery, ?_, ?_⟩
  · intro owner collateral debt m' result hdone hlocked
    exact h.opening_guarded hprice hrecovery hdone hlocked
  · intro owner collateral debt m' result ratio hdone hlocked hratio hfinite
    exact h.adjusting_guarded hprice hrecovery hdone hlocked hratio hfinite

/-- Two troves at a price of one, below the critical ratio together. The ratio of the first one is a fraction of a unit
above the amount that it is rounded to. -/
def roundedRequests : List Request := [
  .price (.ofWhole 2),
  .operation (.openTrove (.ofWord 1) ((Amount.ofWhole 3200).plusClamped (.clamp 2)) (.ofWhole 2000)),
  .operation (.openTrove (.ofWord 2) ((Amount.ofWhole 2400).minusClamped (.clamp 2)) (.ofWhole 2000)),
  .price (.ofWhole 1)]

def roundedReached : Machine := (replay sampleStart roundedRequests).1

theorem run_rounded : Run .standard roundedReached (replay sampleStart roundedRequests).2 :=
  run_replay create_sample roundedRequests

/-- One unit more is borrowed from the first trove. Its ratio is rounded to the same amount as before. -/
def roundedBorrowing : Operation := .adjustTrove (.ofWord 1) .unchanged (.increase (.clamp 1))

def roundedOpening : Operation := .openTrove (.ofWord 3) (.ofWhole 3000) (.ofWhole 2000)

/-- The one unit is lost where a trove above the ratio of the system borrows more and the rounded ratios compare as
equal. -/
theorem Run.recovery_guarded_rounded :
    roundedReached.state.ledger.systemRatio (.ofWhole 1) < Params.standard.criticalRatio ∧
    (∃ e, perform (execute (.closeTrove (.ofWord 1))) roundedReached = (roundedReached, .error e)) ∧
    (∃ m' result, perform (execute roundedOpening) roundedReached = (m', .ok result) ∧
      roundedReached.state.ledger.systemRatio (.ofWhole 1) ≤ m'.state.ledger.systemRatio (.ofWhole 1)) ∧
    ∃ m' result before after, perform (execute roundedBorrowing) roundedReached = (m', .ok result) ∧
      m'.state.ledger.systemRatio (.ofWhole 1) < roundedReached.state.ledger.systemRatio (.ofWhole 1) ∧
      (roundedReached.state.ledger.systemRatio (.ofWhole 1)).units ≤
        (m'.state.ledger.systemRatio (.ofWhole 1)).units + 1 ∧
      roundedReached.state.ledger.entire (.ofWord 1) = .ok before ∧ m'.state.ledger.entire (.ofWord 1) = .ok after ∧
      before.collateral ≤ after.collateral := by
  have hprice : roundedReached.feed.fetch = .ok (.ofWhole 1) := by decide +kernel
  have hrecovery : roundedReached.state.ledger.systemRatio (.ofWhole 1) < Params.standard.criticalRatio := by
    decide +kernel
  have hopens : (perform (execute roundedOpening) roundedReached).2.isOk = true := by decide +kernel
  have hborrows : (perform (execute roundedBorrowing) roundedReached).2.isOk = true := by decide +kernel
  have hlowered : (perform (execute roundedBorrowing) roundedReached).1.state.ledger.systemRatio (.ofWhole 1) <
      roundedReached.state.ledger.systemRatio (.ofWhole 1) := by decide +kernel
  have hratio : (roundedReached.state.ledger.troveRatio (.ofWord 1) (.ofWhole 1)).map (fun ratio =>
      decide (ratio < Amount.max)) = .ok true := by decide +kernel
  obtain ⟨ratio, htroveRatio, hfinite⟩ := except_map_eq_ok.1 hratio
  obtain ⟨opened, hopened⟩ := exists_ok_of_isOk hopens
  obtain ⟨adjusted, hadjusted⟩ := exists_ok_of_isOk hborrows
  have hopenedNow := perform_eq_ok_of_snd hopened
  have hadjustedNow := perform_eq_ok_of_snd hadjusted
  have hopenedRange : Transcript.locked ((roundedOpening, opened) :: (replay sampleStart roundedRequests).2) <
      2 ^ 128 := by
    rw [Transcript.locked_cons, roundedOpening, Transcript.lockedBy_openTrove]
    decide +kernel
  have hadjustedRange : Transcript.locked ((roundedBorrowing, adjusted) :: (replay sampleStart roundedRequests).2) <
      2 ^ 128 := by
    rw [Transcript.locked_cons, roundedBorrowing, Transcript.lockedBy_unchanged]
    decide +kernel
  obtain ⟨hclose, hopen, hadjust⟩ := Run.recovery_guarded run_rounded hprice hrecovery
  obtain ⟨hbound, before, after, hbefore, hafter, hcollateral⟩ :=
    hadjust _ _ _ _ adjusted ratio hadjustedNow hadjustedRange htroveRatio (of_decide_eq_true hfinite)
  obtain ⟨hkept, -⟩ := hopen _ _ _ _ opened hopenedNow hopenedRange
  exact ⟨hrecovery, hclose _, ⟨_, opened, hopenedNow, hkept⟩, _, adjusted, before, after, hadjustedNow, hlowered, hbound,
    hbefore, hafter, hcollateral⟩

end Machine

end CollateralDebt
