import CollateralDebt.Proofs.Event.Replay
import CollateralDebt.Proofs.Machine.Collateral
import CollateralDebt.Proofs.Machine.Log
import CollateralDebt.Proofs.Machine.Order

/-! The log of a machine replays to its state. Each change of a part is told by an event of its own: a batch is taken
apart into the troves that it closes, the surplus that it credits, the redistribution, the offset and the new basis, in
the order in which its events are logged. What an operation logs in all then follows from what it does to its part. -/

open CollateralDebt.Action CollateralDebt.Machine

namespace CollateralDebt

/-- Everything that events can tell of a state is as they tell it. -/
structure Retold (events : List Event) (l : Ledger) (pool : StabilityPool) (surplus : Surplus) : Prop where
  troves : TrovesTold events l.troves
  rewards : RewardsTold events l.rewards
  deposits : DepositsTold events pool.deposits
  product : ProductTold events pool
  surplus : SurplusTold events surplus

/-- Events about one part of the state. -/
def Concern (topic : Event.Topic) (events : List Event) : Prop := ∀ e ∈ events, e.topic = topic

theorem Concern.ne {topic apart : Event.Topic} {events : List Event} (h : Concern topic events) (hne : topic ≠ apart) :
    ∀ e ∈ events, e.topic ≠ apart := fun e hmem => by
  rw [h e hmem]
  exact hne

theorem concern_singleton (event : Event) : Concern event.topic [event] := fun e hmem => by
  rw [List.mem_singleton.1 hmem]

theorem concern_summary (totals : BatchLiquidated) (paid : Transfer) :
    Concern .other [.liquidation totals, .gasCompensationPaid paid] := by
  intro e hmem
  rcases List.mem_pair.1 hmem with rfl | rfl <;> rfl

/-- Events of what the owner of a trove did to it. -/
def UpdatesOf (owner : Address) (events : List Event) : Prop :=
  ∀ e ∈ events, ∃ u, e = .troveUpdated u ∧ u.borrower = owner

namespace UpdatesOf

variable {owner : Address} {events more : List Event}

theorem concern (h : UpdatesOf owner events) : Concern .troves events := fun e hmem => by
  obtain ⟨u, rfl, -⟩ := h e hmem
  rfl

theorem aboutTrove (h : UpdatesOf owner events) : AboutTrove owner events := by
  intro other hne e hmem
  obtain ⟨u, rfl, howner⟩ := h e hmem
  exact if_neg fun hother => hne (hother.symm.trans howner)

theorem concat {u : TroveUpdated} (h : UpdatesOf owner events) (howner : u.borrower = owner) :
    UpdatesOf owner (events ++ [.troveUpdated u]) := by
  intro e hmem
  rcases List.mem_append.1 hmem with hearlier | hlast
  · exact h e hearlier
  · exact ⟨u, List.mem_singleton.1 hlast, howner⟩

end UpdatesOf

theorem updatesOf_nil (owner : Address) : UpdatesOf owner [] := fun _ hmem => nomatch hmem

theorem updatesOf_settlementOf (owner : Address) (entire : EntireTrove) (pending : Pending) :
    UpdatesOf owner (settlementOf owner entire pending) := by
  unfold settlementOf
  split
  · exact updatesOf_nil owner
  · exact (updatesOf_nil owner).concat rfl

theorem standing?_updateOf {t : Trove} {operation : TroveOperation} (hactive : t.isActive = true)
    (hopen : operation ≠ .closed) : (updateOf t operation).standing? t.owner = some t.standing := by
  have hstatus : t.status = .active := of_decide_eq_true hactive
  unfold updateOf Event.standing? Trove.standing
  dsimp only
  rw [if_pos rfl, if_neg hopen, hstatus]

namespace Retold

variable {events more : List Event} {l l' : Ledger} {pool pool' : StabilityPool} {surplus surplus' : Surplus}
  {owner : Address} {t : Trove}

theorem start (p : Params) : Retold [] .empty (.ofParams p) .empty :=
  ⟨fun _ => rfl, ⟨rfl, rfl⟩, fun _ => rfl, rfl, fun _ => rfl⟩

theorem later (h : Retold events l pool surplus) (hmore : Concern .other more) :
    Retold (events ++ more) l pool surplus :=
  ⟨h.troves.later (hmore.ne (by decide)), h.rewards.later rfl (hmore.ne (by decide)),
    h.deposits.later (hmore.ne (by decide)), h.product.later rfl rfl (hmore.ne (by decide)),
    h.surplus.later (hmore.ne (by decide))⟩

/-- Only troves change, and of the rewards the total of stakes. -/
theorem onTroves (h : Retold events l pool surplus) (hmore : Concern .troves more)
    (hrewards : l'.rewards = { l.rewards with totalStakes := l'.rewards.totalStakes })
    (htroves : TrovesTold (events ++ more) l'.troves) : Retold (events ++ more) l' pool surplus :=
  ⟨htroves, h.rewards.later hrewards (hmore.ne (by decide)), h.deposits.later (hmore.ne (by decide)),
    h.product.later rfl rfl (hmore.ne (by decide)), h.surplus.later (hmore.ne (by decide))⟩

theorem onSurplus (h : Retold events l pool surplus) (hmore : Concern .surplus more)
    (hsurplus : SurplusTold (events ++ more) surplus') : Retold (events ++ more) l pool surplus' :=
  ⟨h.troves.later (hmore.ne (by decide)), h.rewards.later rfl (hmore.ne (by decide)),
    h.deposits.later (hmore.ne (by decide)), h.product.later rfl rfl (hmore.ne (by decide)), hsurplus⟩

theorem onRewards (h : Retold events l pool surplus) (hmore : Concern .rewards more) (htroves : l'.troves = l.troves)
    (hrewards : RewardsTold (events ++ more) l'.rewards) : Retold (events ++ more) l' pool surplus := by
  refine ⟨?_, hrewards, h.deposits.later (hmore.ne (by decide)), h.product.later rfl rfl (hmore.ne (by decide)),
    h.surplus.later (hmore.ne (by decide))⟩
  rw [htroves]
  exact h.troves.later (hmore.ne (by decide))

/-! ## Operations of owners and depositors -/

/-- A trove is put in place, and the last event tells how it stands. -/
theorem put {operation : TroveOperation} (before : List Event) (h : Retold events l pool surplus)
    (htroves : l'.troves = l.troves.insert owner t)
    (hrewards : l'.rewards = { l.rewards with totalStakes := l'.rewards.totalStakes }) (hactive : t.isActive = true)
    (howned : t.owner = owner) (hopen : operation ≠ .closed) (hbefore : UpdatesOf owner before) :
    Retold (events ++ (before ++ [updateOf t operation])) l' pool surplus := by
  have hupdates : UpdatesOf owner (before ++ [updateOf t operation]) := hbefore.concat howned
  have hstanding := standing?_updateOf hactive hopen
  rw [howned] at hstanding
  refine h.onTroves hupdates.concern hrewards ?_
  rw [htroves]
  exact h.troves.insert (lastOf_concat hstanding) hupdates.aboutTrove

theorem opened (h : Retold events l pool surplus) (hopened : Ledger.Opened l l' owner t) :
    Retold (events ++ [updateOf t .opened]) l' pool surplus :=
  h.put [] hopened.troves (Rewards.replaceStake_eq_ok hopened.rewards).1 hopened.active hopened.owned
    (by decide) (updatesOf_nil owner)

theorem adjusted {old : Trove} {e entire : EntireTrove} {pending : Pending} (h : Retold events l pool surplus)
    (hl : l.InOrder) (hadjusted : Ledger.Adjusted l l' owner old e t) :
    Retold (events ++ (settlementOf owner entire pending ++ [updateOf t .adjusted])) l' pool surplus := by
  have howned := hadjusted.owned.trans (hl.owned owner old (Ledger.get?_of_activeTrove hadjusted.found).1)
  exact h.put _ hadjusted.troves (Rewards.replaceStake_eq_ok hadjusted.rewards).1 hadjusted.active howned (by decide)
    (updatesOf_settlementOf owner entire pending)

theorem closed {old : Trove} {e entire : EntireTrove} {pending : Pending} (h : Retold events l pool surplus)
    (hl : l.InOrder) (hrepaid : Ledger.Repaid l l' owner old e) :
    Retold (events ++ (settlementOf owner entire pending ++ [.troveUpdated ⟨owner, .zero, .zero, .zero, .closed⟩])) l'
      pool surplus := by
  have hupdates := (updatesOf_settlementOf owner entire pending).concat (u := ⟨owner, .zero, .zero, .zero, .closed⟩) rfl
  have hstanding : Event.standing? owner (.troveUpdated ⟨owner, .zero, .zero, .zero, .closed⟩) =
    some (.emptied .closedByOwner) := if_pos rfl
  obtain ⟨owners, troves, -, hframe⟩ := Ledger.leave_frame l owner e .closedByOwner
  rw [hrepaid.left]
  refine h.onTroves hupdates.concern ?_ ?_
  · rw [hframe]
    rfl
  · exact h.troves.leave hl hrepaid.found e (lastOf_concat hstanding) hupdates.aboutTrove

theorem settled {paidIn : Nat} {change : DepositChange} {event : Event} (h : Retold events l pool surplus)
    (hsettles : StabilityPool.Settles pool paidIn change pool') (htopic : event.topic = .deposits)
    (htold : ∀ depositor, event.deposit? depositor =
      if change.depositor = depositor then some change.deposit else none) :
    Retold (events ++ [event]) l pool' surplus := by
  have hmore : Concern .deposits [event] := htopic ▸ concern_singleton event
  have hunmoved := hsettles.unmoved
  exact ⟨h.troves.later (hmore.ne (by decide)), h.rewards.later rfl (hmore.ne (by decide)),
    h.deposits.settles hsettles htold, h.product.later hunmoved.product_eq hunmoved.phase_eq (hmore.ne (by decide)),
    h.surplus.later (hmore.ne (by decide))⟩

theorem claimed {amount : Amount} (h : Retold events l pool surplus)
    (hdone : perform (Surplus.claim owner) surplus = (surplus', .ok amount)) :
    Retold (events ++ [.surplusClaimed ⟨owner, amount⟩]) l pool surplus' :=
  h.onSurplus (concern_singleton _) (h.surplus.claim hdone)

/-! ## Batches -/

theorem closeLiquidated {v : LiquidationValues} (h : Retold events l pool surplus) (hl : l.InOrder) (hv : v.Found l)
    (hbalanced : surplus.Balanced) (hfits : surplus.total.units + v.surplus.units < 2 ^ 128) :
    Retold (events ++ liquidationOf v) (l.closeLiquidated v.borrower v.entire) pool
      (surplus.credit v.borrower v.surplus) := by
  have hstanding : Event.standing? v.borrower
    (.troveLiquidated ⟨v.borrower, v.entire.debt, v.entire.collateral, v.mode⟩) =
      some (.emptied .closedByLiquidation) := if_pos rfl
  obtain ⟨r, hfound, -⟩ := hv
  obtain ⟨owners, troves, -, hframe⟩ := Ledger.leave_frame l v.borrower v.entire .closedByLiquidation
  have hclosed : Retold (events ++ [.troveLiquidated ⟨v.borrower, v.entire.debt, v.entire.collateral, v.mode⟩])
      (l.closeLiquidated v.borrower v.entire) pool surplus := by
    refine h.onTroves (concern_singleton _) ?_ (h.troves.leave hl hfound v.entire (lastOf_singleton hstanding) ?_)
    · rw [Ledger.closeLiquidated_eq_leave, hframe]
      rfl
    · intro other hne e hmem
      rw [List.mem_singleton.1 hmem]
      exact if_neg fun hother => hne hother.symm
  unfold liquidationOf
  rw [← List.singleton_append, ← List.append_assoc]
  split
  · next hzero =>
      rw [Surplus.credit, if_pos hzero, List.append_nil]
      exact hclosed
  · exact hclosed.onSurplus (concern_singleton _) (hclosed.surplus.credit hbalanced hfits)

theorem closeAll {values : List LiquidationValues} (h : Retold events l pool surplus) (hl : l.InOrder)
    (hvalues : Liquidator.Closable l values) (hbalanced : surplus.Balanced)
    (hfits : surplus.total.units + (values.map fun v => v.surplus.units).sum < 2 ^ 128) :
    Retold (events ++ values.flatMap liquidationOf) (Liquidator.closeAll l values) pool
      (Liquidator.creditAll surplus values) := by
  induction values generalizing events l surplus with
  | nil =>
      rw [List.flatMap_nil, List.append_nil]
      exact h
  | cons v rest ih =>
      have hv := hvalues.found v List.mem_cons_self
      have ⟨r, hfound, _⟩ := hv
      rw [List.map_cons, List.sum_cons, ← Nat.add_assoc] at hfits
      have hone : surplus.total.units + v.surplus.units < 2 ^ 128 := by omega
      obtain ⟨hcredited, htotal⟩ := hbalanced.credit v.borrower hone
      rw [← htotal] at hfits
      rw [List.flatMap_cons, ← List.append_assoc, Liquidator.closeAll_cons]
      exact ih (h.closeLiquidated hl hv hbalanced hone) (hl.leave hfound v.entire (by decide)) hvalues.tail hcredited hfits

theorem redistributed (h : Retold events l pool surplus) (redistribution : Option Redistribution) :
    Retold (events ++ redistribution.toList.map fun d => .levelUpdated d.level)
      (Liquidator.redistributed l redistribution) pool surplus := by
  cases redistribution with
  | none =>
      rw [Option.toList_none, List.map_nil, List.append_nil]
      exact h
  | some d => exact h.onRewards (concern_singleton _) rfl (h.rewards.redistribute d)

theorem rebase (h : Retold events l pool surplus) :
    Retold (events ++ [.rebased ⟨l.rebase.rewards.stakesBasis, l.rebase.rewards.collateralBasis⟩]) l.rebase pool surplus :=
  h.onRewards (concern_singleton _) rfl (h.rewards.rebase l.pools.collateral)

theorem offset (h : Retold events l pool surplus) (o : Option Offset) :
    Retold (events ++ o.toList.map fun o => .poolOffset ⟨o.debtLoss, o.collateralGain, o.product, o.sum, o.phase⟩)
      (o.elim l fun o => l.burn o.debtLoss) (o.elim pool fun o => pool.applyOffset o) surplus := by
  cases o with
  | none =>
      rw [Option.toList_none, List.map_nil, List.append_nil]
      exact h
  | some o =>
      have hmore : Concern .product [.poolOffset ⟨o.debtLoss, o.collateralGain, o.product, o.sum, o.phase⟩] :=
        concern_singleton _
      exact ⟨h.troves.later (hmore.ne (by decide)), h.rewards.later rfl (hmore.ne (by decide)),
        h.deposits.later (hmore.ne (by decide)), productTold_applyOffset events pool o,
        h.surplus.later (hmore.ne (by decide))⟩

/-- **A batch is retold by its events**, one change after the other. -/
theorem committed {s s' : Liquidator} {plan : LiquidationPlan} {outcome : LiquidationOutcome} (caller : Address)
    (h : Retold events s.ledger s.pool s.surplus) (hcommitted : Liquidator.Committed s s' plan outcome)
    (hfits : plan.Fits s.ledger) (hs : s.ledger.InOrder) (hbalanced : s.surplus.Balanced)
    (hcredits : s.surplus.total.units + (outcome.liquidated.map fun v => v.surplus.units).sum < 2 ^ 128) :
    Retold (events ++ eventsOf caller outcome s'.ledger.rewards) s'.ledger s'.pool s'.surplus := by
  have hliquidated : outcome.liquidated = plan.values := congrArg LiquidationOutcome.liquidated hcommitted.outcome
  rw [hliquidated] at hcredits
  have hclosed := h.closeAll hs (Liquidator.closable_of_fits hfits) hbalanced hcredits
  have hrebased := ((hclosed.redistributed outcome.redistribution).offset outcome.offset).rebase
  obtain ⟨hledger, hpool, hsurplus⟩ := hcommitted.parts
  rw [eventsOf, ← List.singleton_append, hliquidated, hledger, hpool, hsurplus]
  simp only [← List.append_assoc]
  exact hrebased.later (concern_summary _ _)

end Retold

theorem UpdatesOf.unbatched {owner : Address} {events : List Event} (h : UpdatesOf owner events) : Unbatched events := by
  intro e hmem
  obtain ⟨u, rfl, -⟩ := h e hmem
  exact ⟨rfl, rfl⟩

/-- What is counted in the events of a batch is counted trove by trove. -/
theorem sum_flatMap_liquidationOf {f : Event → Nat} {g : LiquidationValues → Nat} (h : ∀ v, ((liquidationOf v).map f).sum = g v)
    (values : List LiquidationValues) : ((values.flatMap liquidationOf).map f).sum = (values.map g).sum := by
  induction values with
  | nil => rfl
  | cons v rest ih => rw [List.flatMap_cons, List.map_append, List.sum_append, h, ih, List.map_cons, List.sum_cons]

theorem counts_liquidationOf (v : LiquidationValues) :
    ((liquidationOf v).map Event.liquidatedDebt).sum = v.entire.debt.units ∧
    ((liquidationOf v).map Event.liquidatedCollateral).sum = v.entire.collateral.units ∧
    ((liquidationOf v).map Event.credited).sum = v.surplus.units := by
  unfold liquidationOf
  split
  · next hzero => exact ⟨rfl, rfl, (Amount.units_of_isZero hzero).symm⟩
  · exact ⟨rfl, rfl, Nat.zero_add _⟩

theorem isLiquidation_liquidationOf {v : LiquidationValues} {e : Event} (hmem : e ∈ liquidationOf v) :
    e.isLiquidation = false := by
  rcases List.mem_cons.1 hmem with rfl | hcredit
  · rfl
  · split at hcredit
    · cases hcredit
    · rw [List.mem_singleton.1 hcredit]
      rfl

theorem Unbatched.append {events more : List Event} (h : Unbatched events) (hmore : Unbatched more) :
    Unbatched (events ++ more) := fun e hmem => (List.mem_append.1 hmem).elim (h e) (hmore e)

theorem unbatched_singleton {event : Event} (h : event.isLiquidation = false ∧ event.isOfBatch = false) :
    Unbatched [event] := fun e hmem => by
  rw [List.mem_singleton.1 hmem]
  exact h

/-- What comes between the last trove of a batch and the event that sums the batch up. -/
theorem unbatched_changes (redistribution : Option Redistribution) (offset : Option Offset) (basis : Rebased) :
    Unbatched ((redistribution.toList.map fun d => .levelUpdated d.level)
      ++ (offset.toList.map fun o => .poolOffset ⟨o.debtLoss, o.collateralGain, o.product, o.sum, o.phase⟩)
      ++ [.rebased basis]) := by
  intro e hmem
  simp only [List.mem_append, List.mem_map, List.mem_singleton] at hmem
  rcases hmem with (⟨d, -, rfl⟩ | ⟨o, -, rfl⟩) | rfl <;> exact ⟨rfl, rfl⟩

theorem Reconciled.committed {events : List Event} {s s' : Liquidator} {plan : LiquidationPlan}
    {outcome : LiquidationOutcome} (caller : Address) (rewards : Rewards) (h : Reconciled events)
    (hcommitted : Liquidator.Committed s s' plan outcome) (hfits : plan.Fits s.ledger) :
    Reconciled (events ++ eventsOf caller outcome rewards) := by
  have hliquidated : outcome.liquidated = plan.values := congrArg LiquidationOutcome.liquidated hcommitted.outcome
  have htotals : outcome.totals = plan.totals := congrArg LiquidationOutcome.totals hcommitted.outcome
  have hnone : ∀ e ∈ plan.values.flatMap liquidationOf, e.isLiquidation = false := by
    intro e hmem
    obtain ⟨v, -, hv⟩ := List.mem_flatMap.1 hmem
    exact isLiquidation_liquidationOf hv
  have hsums : SumsUp ⟨plan.totals.debt, plan.totals.collateral, plan.totals.gasCompensation, plan.totals.offsetDebt,
      plan.totals.redistributedDebt, plan.totals.surplus, outcome.price⟩ (plan.values.flatMap liquidationOf) := by
    constructor
    · rw [sum_flatMap_liquidationOf fun v => (counts_liquidationOf v).1]
      exact hfits.totals.debt
    · rw [sum_flatMap_liquidationOf fun v => (counts_liquidationOf v).2.1]
      exact hfits.totals.collateral
    · rw [sum_flatMap_liquidationOf fun v => (counts_liquidationOf v).2.2]
      exact hfits.totals.surplus
  have hpaid : Unbatched [.gasCompensationPaid ⟨caller, plan.totals.gasCompensation⟩] := unbatched_singleton ⟨rfl, rfl⟩
  have hall := (h.batch hnone (unbatched_changes outcome.redistribution outcome.offset
    ⟨rewards.stakesBasis, rewards.collateralBasis⟩) hsums).later hpaid
  rw [eventsOf, hliquidated, htotals]
  simp only [List.append_assoc, List.singleton_append] at hall ⊢
  exact hall

theorem Event.of_isModeChange {e : Event} (h : e.isModeChange = true) :
    e.topic = .other ∧ e.isLiquidation = false ∧ e.isOfBatch = false := by
  cases e with
  | recoveryEntered | recoveryExited => exact ⟨rfl, rfl, rfl⟩
  | _ => cases h

namespace Machine

variable {p : Params} {feed : PriceFeed} {s s' : Liquidator} {t : Transcript} {operation : Operation}
  {result : OperationResult} {events more : List Event}

/-- A state and a list of events that replays to it. -/
structure Replays (events : List Event) (s : Liquidator) : Prop where
  retold : Retold events s.ledger s.pool s.surplus
  reconciled : Reconciled events

theorem Replays.modeChanges (h : Replays events s) (hchanges : ∀ e ∈ more, e.isModeChange = true) :
    Replays (events ++ more) s := by
  have hof := fun e hmem => Event.of_isModeChange (hchanges e hmem)
  exact ⟨h.retold.later fun e hmem => (hof e hmem).1, h.reconciled.later fun e hmem => (hof e hmem).2⟩

/-- What an operation logs tells how its part changed. -/
theorem retold_of_effect (h : Retold events s.ledger s.pool s.surplus) (hs : s.ledger.InOrder)
    (haccounted : s.ledger.Accounted t) (hstored : s.Stored t) (hlocked : t.locked < 2 ^ 128)
    (heffect : Effect p feed s operation result s') (hreported : Reported s s' operation result more) :
    Retold (events ++ more) s'.ledger s'.pool s'.surplus := by
  cases hreported with
  | opened =>
      cases heffect with
      | opened hdone => exact h.opened (Ledger.openTrove_eq_ok hdone).1
  | adjusted =>
      cases heffect with
      | adjusted _ _ _ hdone =>
          obtain ⟨old, e, hadjusted, -⟩ := Ledger.adjust_eq_ok hdone
          exact h.adjusted hs hadjusted
  | closed =>
      cases heffect with
      | closed hdone =>
          obtain ⟨old, e, hrepaid, -⟩ := Ledger.closeByOwner_eq_ok hdone
          exact h.closed hs hrepaid
  | provided =>
      cases heffect with
      | provided hdone =>
          obtain ⟨hsettles, rfl, -⟩ := StabilityPool.provide_settles hdone
          exact h.settled hsettles rfl fun depositor => rfl
  | withdrawn =>
      cases heffect with
      | withdrawn hdone =>
          obtain ⟨hsettles, rfl⟩ := StabilityPool.withdraw_settles hdone
          exact h.settled hsettles rfl fun depositor => rfl
  | liquidated | batchLiquidated =>
      -- No credit is clamped, because the total of the surplus is exact after the batch too.
      obtain ⟨⟨plan, hfits, hcommitted⟩, -⟩ := heffect.committed
      have htotal := (handsOut_of_effect haccounted hstored hlocked heffect).surplus_eq
      have hrange := s'.surplus.total.units_lt
      exact h.committed _ hcommitted hfits hs hstored.balanced (by omega)
  | claimed =>
      cases heffect with
      | claimed hdone => exact h.claimed hdone

/-- Only liquidations log a batch, and they sum it up. -/
theorem reconciled_of_effect (h : Reconciled events) (heffect : Effect p feed s operation result s')
    (hreported : Reported s s' operation result more) : Reconciled (events ++ more) := by
  cases hreported with
  | opened | provided | withdrawn | claimed => exact h.later (unbatched_singleton ⟨rfl, rfl⟩)
  | @adjusted owner collateral debt entire trove =>
      have hsettled := (updatesOf_settlementOf owner entire entire.pending).unbatched
      exact h.later (hsettled.append (unbatched_singleton ⟨rfl, rfl⟩))
  | @closed owner collateral entire =>
      have hsettled := (updatesOf_settlementOf owner entire entire.pending).unbatched
      exact h.later (hsettled.append (unbatched_singleton ⟨rfl, rfl⟩))
  | liquidated | batchLiquidated =>
      obtain ⟨⟨plan, hfits, hcommitted⟩, -⟩ := heffect.committed
      exact h.committed _ _ hcommitted hfits

variable {m : Machine}

/-- **The log replays to the state**, as long as all collateral ever locked is an amount. No operation takes an event out
of the log, so that it has all events since the machine was created. Every trove stands as the last
event about it says, closed and with nothing in it after it was closed by its owner or a liquidation, and there is none
that no event is about. Every deposit has the value of its last event, the surplus of an account is what was credited
to it and not claimed, and the level, the basis of stakes and the product are those logged last. What sums a batch of
liquidations up has the debt and the collateral of its troves, and the surplus that was credited for them. -/
theorem Run.log_replays (h : Run p m t) (hlocked : t.locked < 2 ^ 128) : Replays m.log.events m.liquidator := by
  induction h with
  | start hcreate =>
      obtain ⟨-, hstate, hhistory, hlog⟩ := create_eq_ok hcreate
      rw [liquidator, hstate, hlog]
      exact ⟨.start p, reconciled_nil⟩
  | @done m m' t operation result h hdone ih =>
      rw [Transcript.locked_cons] at hlocked
      have hearlier : t.locked < 2 ^ 128 := by omega
      obtain ⟨heffect, -⟩ := effect_of_execute hdone
      obtain ⟨events, hreported, changes, hchanges, hlog⟩ := reported_of_execute hdone
      rw [hlog]
      obtain ⟨hretold, hreconciled⟩ := ih hearlier
      have hnow : Replays (m.log.events ++ events) m'.liquidator :=
        ⟨retold_of_effect hretold h.kept.inOrder h.accounted (h.stored hearlier) hearlier heffect hreported,
          reconciled_of_effect hreconciled heffect hreported⟩
      exact hnow.modeChanges hchanges
  | @refused m m' t operation e h hrefused ih =>
      have hsame : m' = m := execute_allOrNothing _ _ _ _ hrefused
      rw [hsame]
      exact ih hlocked
  | priced h hpriced ih =>
      obtain ⟨feed, rfl⟩ := setPrice_frame hpriced
      exact ih hlocked

/-- A batch in Recovery Mode took three troves and credited two of their owners, and one of these has claimed. What is
left to the other can be read off the log. -/
theorem Run.log_replays_recovered :
    recoveredTranscript.locked < 2 ^ 128 ∧
    Replays recoveredReached.log.events recoveredReached.liquidator ∧
    recoveredReached.log.events.length = 21 ∧
    (recoveredReached.liquidator.ledger.troves.get? (.ofWord 3)).map Trove.standing =
      some (.emptied .closedByLiquidation) ∧
    (recoveredReached.liquidator.surplus.balance (.ofWord 3)).units = 3 * Amount.scale := by
  have hlocked : recoveredTranscript.locked < 2 ^ 128 := by decide +kernel
  have hreplays := Run.log_replays run_recovered hlocked
  have htrove : lastOf (Event.standing? (.ofWord 3)) recoveredReached.log.events =
    some (.emptied .closedByLiquidation) := by decide +kernel
  have hcredited : (recoveredReached.log.events.map (Event.creditedTo (.ofWord 3))).sum = 3 * Amount.scale := by
    decide +kernel
  have hclaimed : (recoveredReached.log.events.map (Event.claimedBy (.ofWord 3))).sum = 0 := by decide +kernel
  have hlength : recoveredReached.log.events.length = 21 := by decide +kernel
  have hsurplus := hreplays.retold.surplus (.ofWord 3)
  rw [hclaimed, hcredited, Nat.add_zero] at hsurplus
  exact ⟨hlocked, hreplays, hlength, (hreplays.retold.troves (.ofWord 3)).trans htrove, hsurplus⟩

end Machine

end CollateralDebt
