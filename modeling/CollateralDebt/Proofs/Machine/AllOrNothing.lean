import CollateralDebt.Proofs.Ledger.Operations
import CollateralDebt.Proofs.Machine.Effect
import CollateralDebt.Proofs.StabilityPool.Operations

/-! A refused operation leaves no trace. Every entry point makes its checks before its first write, and what
comes after the write cannot fail: a trove that was just opened is read back, the record of a trove that is
adjusted was found before, and events are logged without a check. So the machine after an error is the machine
before it, in whatever state it was. -/

open CollateralDebt.Action

namespace CollateralDebt

namespace Ledger

/-- The record that is read back after the writes is the one that was just put there. -/
theorem openTrove_allOrNothing (owner : Address) (collateral debt : Amount) (l : Ledger) :
    AllOrNothing (openTrove owner collateral debt) l := by
  unfold openTrove
  refine allOrNothing_get_bind (allOrNothing_ite (fun _ => allOrNothing_throw_bind _ _ _) fun _ => ?_)
  refine allOrNothing_ite (fun _ => allOrNothing_throw_bind _ _ _) fun _ => ?_
  refine allOrNothing_liftM_bind fun stake _ => allOrNothing_liftM_bind fun activeCollateral _ => ?_
  refine allOrNothing_liftM_bind fun activeDebt _ => allOrNothing_liftM_bind fun minted _ => ?_
  refine allOrNothing_liftM_bind fun rewards _ => ?_
  apply Completes.allOrNothing
  exact completes_set_bind (completes_get_bind (completes_liftM
    (activeTrove_of_get? (by rw [SortedMap.get?_insert, if_pos rfl]) rfl) _))

/-- The first write leaves the records alone, so the one found before it is found again after it. -/
theorem adjust_allOrNothing (owner : Address) (collateral debt : Amount) (l : Ledger) :
    AllOrNothing (adjust owner collateral debt) l := by
  unfold adjust
  refine allOrNothing_get_bind (allOrNothing_ite (fun _ => allOrNothing_throw_bind _ _ _) fun _ => ?_)
  refine allOrNothing_liftM_bind fun trove htrove => allOrNothing_liftM_bind fun entire _ => ?_
  refine allOrNothing_liftM_bind fun activeCollateral _ => allOrNothing_liftM_bind fun activeDebt _ => ?_
  refine allOrNothing_liftM_bind fun supply _ => allOrNothing_liftM_bind fun stake _ => ?_
  refine allOrNothing_liftM_bind fun rewards _ => ?_
  apply Completes.allOrNothing
  refine completes_set_bind (completes_get_bind ?_)
  simp only [(get?_of_activeTrove htrove).1]
  exact completes_bind (completes_modify _ _) fun _ _ => completes_pure _ _

theorem closeByOwner_allOrNothing (owner : Address) (l : Ledger) : AllOrNothing (closeByOwner owner) l := by
  unfold closeByOwner
  refine allOrNothing_get_bind (allOrNothing_liftM_bind fun trove _ => ?_)
  refine allOrNothing_ite (fun _ => allOrNothing_throw_bind _ _ _) fun _ => ?_
  refine allOrNothing_liftM_bind fun entire _ => allOrNothing_liftM_bind fun activeCollateral _ => ?_
  refine allOrNothing_liftM_bind fun activeDebt _ => allOrNothing_liftM_bind fun burned _ => ?_
  exact allOrNothing_set_return _ _ _

end Ledger

theorem Surplus.claim_allOrNothing (owner : Address) (s : Surplus) : AllOrNothing (claim owner) s := by
  unfold claim
  refine allOrNothing_get_bind (allOrNothing_ite (fun _ => allOrNothing_throw_bind _ _ _) fun _ => ?_)
  exact allOrNothing_set_return _ _ _

namespace Liquidator

/-- The redistribution and the offset are both computed before the first trove is closed. -/
theorem commit_allOrNothing (plan : LiquidationPlan) (s : Liquidator) : AllOrNothing (commit plan) s := by
  unfold commit
  refine allOrNothing_get_bind (allOrNothing_ite (fun _ => allOrNothing_throw_bind _ _ _) fun _ => ?_)
  refine allOrNothing_liftM_bind fun stakes _ => allOrNothing_liftM_bind fun redistribution _ => ?_
  refine allOrNothing_liftM_bind fun offset _ => ?_
  exact allOrNothing_set_return _ _ _

theorem liquidateBatch_allOrNothing (p : Params) (price : Amount) (borrowers : List Address) (s : Liquidator) :
    AllOrNothing (liquidateBatch p price borrowers) s := by
  unfold liquidateBatch
  refine allOrNothing_get_bind (allOrNothing_liftM_bind fun plan _ => ?_)
  exact allOrNothing_ite (fun _ => allOrNothing_throw_bind _ _ _) fun _ => commit_allOrNothing plan s

theorem liquidate_allOrNothing (p : Params) (price : Amount) (borrower : Address) (s : Liquidator) :
    AllOrNothing (liquidate p price borrower) s := by
  unfold liquidate
  refine allOrNothing_get_bind (allOrNothing_ite (fun _ => allOrNothing_throw_bind _ _ _) fun _ => ?_)
  refine allOrNothing_ite (fun _ => allOrNothing_throw_bind _ _ _) fun _ => ?_
  exact liquidateBatch_allOrNothing p price [borrower] s

end Liquidator

namespace Machine

theorem allOrNothing_price_bind {α : Type} {next : Amount → Action Machine α} {m : Machine}
    (h : ∀ price, AllOrNothing (next price) m) : AllOrNothing (price >>= next) m := by
  have hread : AllOrNothing (liftM m.feed.fetch >>= next) m := allOrNothing_liftM_bind fun price _ => h price
  exact hread

theorem openTrove_allOrNothing (owner : Address) (collateral debt : Amount) (m : Machine) :
    AllOrNothing (openTrove owner collateral debt) m := by
  unfold openTrove
  refine allOrNothing_price_bind fun price => allOrNothing_get_bind ?_
  refine allOrNothing_ite (fun _ => allOrNothing_throw_bind _ _ _) fun _ => ?_
  refine allOrNothing_liftM_bind fun _ _ => allOrNothing_liftM_bind fun _ _ => ?_
  refine allOrNothing_liftM_bind fun verdict _ => allOrNothing_liftM_bind fun _ _ => ?_
  refine allOrNothing_bind (allOrNothing_onPart (Ledger.openTrove_allOrNothing _ _ _ _) rfl) fun trove _ _ => ?_
  exact (quiet_bind (quiet_record _) (quiet_bind (quiet_trackMode _) (quiet_pure trove))).completes _

theorem adjustTrove_allOrNothing (owner : Address) (collateral debt : AmountChange) (m : Machine) :
    AllOrNothing (adjustTrove owner collateral debt) m := by
  unfold adjustTrove
  refine allOrNothing_ite (fun _ => allOrNothing_throw_bind _ _ _) fun _ => ?_
  refine allOrNothing_price_bind fun price => allOrNothing_get_bind ?_
  refine allOrNothing_liftM_bind fun entire _ => allOrNothing_liftM_bind fun newCollateral _ => ?_
  refine allOrNothing_liftM_bind fun newDebt _ => allOrNothing_liftM_bind fun _ _ => ?_
  refine allOrNothing_liftM_bind fun _ _ => allOrNothing_liftM_bind fun verdict _ => ?_
  refine allOrNothing_liftM_bind fun _ _ => ?_
  refine allOrNothing_bind (allOrNothing_onPart (Ledger.adjust_allOrNothing _ _ _ _) rfl) fun adjusted _ _ => ?_
  exact (quiet_bind (quiet_logAll _) (quiet_bind (quiet_record _)
    (quiet_bind (quiet_trackMode _) (quiet_pure adjusted.2)))).completes _

theorem closeTrove_allOrNothing (owner : Address) (m : Machine) : AllOrNothing (closeTrove owner) m := by
  unfold closeTrove
  refine allOrNothing_price_bind fun price => allOrNothing_get_bind ?_
  refine allOrNothing_liftM_bind fun entire _ => ?_
  refine allOrNothing_ite (fun _ => allOrNothing_throw_bind _ _ _) fun _ => ?_
  refine allOrNothing_liftM_bind fun _ _ => ?_
  refine allOrNothing_bind (allOrNothing_onPart (Ledger.closeByOwner_allOrNothing _ _) rfl) fun closed _ _ => ?_
  exact (quiet_bind (quiet_logAll _) (quiet_bind (quiet_record _)
    (quiet_bind (quiet_trackMode _) (quiet_pure closed.collateral)))).completes _

/-- An operation that only logs an event after what it does to a part. -/
theorem logged_allOrNothing {α : Type} {action : Action Machine α} {event : α → Event} {m : Machine}
    (h : AllOrNothing action m) :
    AllOrNothing (do
      let result ← action
      record (event result)
      return result) m :=
  allOrNothing_bind h fun result _ _ => (quiet_bind (quiet_record _) (quiet_pure result)).completes _

theorem liquidate_allOrNothing (caller borrower : Address) (m : Machine) :
    AllOrNothing (liquidate caller borrower) m := by
  unfold liquidate
  refine allOrNothing_price_bind fun price => allOrNothing_get_bind ?_
  refine allOrNothing_bind (allOrNothing_onPart (Liquidator.liquidate_allOrNothing _ _ _ _) rfl) fun outcome _ _ => ?_
  exact (quiet_bind (quiet_report _ _ _) (quiet_pure outcome)).completes _

theorem liquidateBatch_allOrNothing (caller : Address) (borrowers : List Address) (m : Machine) :
    AllOrNothing (liquidateBatch caller borrowers) m := by
  unfold liquidateBatch
  refine allOrNothing_price_bind fun price => allOrNothing_get_bind ?_
  refine allOrNothing_bind (allOrNothing_onPart (Liquidator.liquidateBatch_allOrNothing _ _ _ _) rfl) fun outcome _ _ => ?_
  exact (quiet_bind (quiet_report _ _ _) (quiet_pure outcome)).completes _

theorem allOrNothing_return {α : Type} {action : Action Machine α} {f : α → OperationResult} {m : Machine}
    (h : AllOrNothing action m) : AllOrNothing (do return f (← action)) m :=
  allOrNothing_bind h fun _ _ _ => completes_pure _ _

theorem execute_allOrNothing (operation : Operation) (m : Machine) : AllOrNothing (execute operation) m := by
  unfold execute
  refine allOrNothing_liftM_bind fun _ _ => ?_
  cases operation with
  | openTrove owner collateral debt => exact allOrNothing_return (openTrove_allOrNothing _ _ _ _)
  | adjustTrove owner collateral debt => exact allOrNothing_return (adjustTrove_allOrNothing _ _ _ _)
  | closeTrove owner => exact allOrNothing_return (closeTrove_allOrNothing _ _)
  | provide depositor amount =>
      refine allOrNothing_return (logged_allOrNothing (allOrNothing_onPart ?_ rfl))
      exact StabilityPool.provide_allOrNothing _ _ _
  | withdraw depositor amount =>
      refine allOrNothing_return (logged_allOrNothing (allOrNothing_onPart ?_ rfl))
      exact StabilityPool.withdraw_allOrNothing _ _ _
  | liquidate caller borrower => exact allOrNothing_return (liquidate_allOrNothing _ _ _)
  | liquidateBatch caller borrowers => exact allOrNothing_return (liquidateBatch_allOrNothing _ _ _)
  | claimSurplus owner =>
      refine allOrNothing_return (logged_allOrNothing (allOrNothing_onPart ?_ rfl))
      exact Surplus.claim_allOrNothing _ _

/-- **A refused operation changes nothing.** If an operation gives an error, the machine is the one it was
asked of: the state and with it its bytes and its digest, what is remembered of liquidations, the log, and the
mode that is tracked. -/
theorem eq_of_execute_error {operation : Operation} {m m' : Machine} {e : Error}
    (h : perform (execute operation) m = (m', .error e)) : m' = m :=
  execute_allOrNothing operation m m' e h

/-- A price of two hundred. -/
def sampleFeed : PriceFeed := ⟨⟨.ofWhole 200, 1⟩, none, [⟨.ofWhole 200, 1⟩]⟩

/-- A new machine with the standard parameters. -/
def sampleStart : Machine := ⟨.empty .standard, sampleFeed, .new 1000, .empty, false⟩

def sampleOpened : Machine :=
  (perform (execute (.openTrove (.ofWord 1) (.ofWhole 20) (.ofWhole 2000))) sampleStart).1

/-- The only trove cannot be closed, and is still there. -/
theorem eq_of_execute_error_lastTrove :
    (perform (execute (.closeTrove (.ofWord 1))) sampleOpened).2 = .error .lastTrove ∧
      sampleOpened.state.ledger.isActive (.ofWord 1) = true ∧
      (perform (execute (.closeTrove (.ofWord 1))) sampleOpened).1 = sampleOpened := by
  have hrefused : (perform (execute (.closeTrove (.ofWord 1))) sampleOpened).2 = .error .lastTrove := rfl
  exact ⟨hrefused, by decide +kernel, eq_of_execute_error (Prod.ext rfl hrefused)⟩

end Machine

end CollateralDebt
