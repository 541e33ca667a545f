import CollateralDebt.Machine
import CollateralDebt.Proofs.Solvency

/-! What a successful operation of the machine does to troves, deposits, surplus and history. Reading the price,
logging events and tracking the mode are quiet: they touch none of these and cannot fail. `Executed` takes each operation
apart, once for all that is said of its results: what was checked, the one operation of one part, and what is told after
it. `effect_of_execute` says which operation of which part that is, and for the operations of owners `Borrows` also keeps
what was checked before. -/

open CollateralDebt.Action

namespace CollateralDebt

/-- The owner whose trove an operation opens, adjusts or closes. -/
def Operation.borrower? : Operation → Option Address
  | .openTrove owner .. | .adjustTrove owner .. | .closeTrove owner => some owner
  | _ => none

namespace Machine

/-- An action that always gives a result, and leaves all but the log and the tracked mode as it was. -/
def Quiet {α : Type} (action : Action Machine α) (a : α) : Prop :=
  ∀ m, ∃ log inRecovery, perform action m = ({ m with log, inRecovery }, .ok a)

section Quiet

variable {α β : Type}

theorem quiet_pure (a : α) : Quiet (pure a) a := fun m => ⟨m.log, m.inRecovery, rfl⟩

theorem quiet_bind {first : Action Machine α} {next : α → Action Machine β} {a : α} {b : β} (h : Quiet first a)
    (hnext : Quiet (next a) b) : Quiet (first >>= next) b := by
  intro m
  obtain ⟨log, inRecovery, hfirst⟩ := h m
  obtain ⟨log', inRecovery', hthen⟩ := hnext { m with log, inRecovery }
  exact ⟨log', inRecovery', by rw [perform_bind, hfirst]; exact hthen⟩

theorem quiet_get_bind {next : Machine → Action Machine β} {b : β} (h : ∀ m, Quiet (next m) b) :
    Quiet (get >>= next) b := fun m => h m m

theorem quiet_record (event : Event) : Quiet (record event) () := fun m => ⟨m.log.push event, m.inRecovery, rfl⟩

theorem quiet_logAll (events : List Event) : Quiet (logAll events) () := by
  unfold logAll
  induction events with
  | nil => exact quiet_pure _
  | cons event rest ih => exact quiet_bind (quiet_record event) ih

theorem quiet_trackMode (price : Amount) : Quiet (trackMode price) () := by
  unfold trackMode
  intro m
  rw [perform_get_bind]
  dsimp only
  split
  · rw [perform_set_bind]
    obtain ⟨log, inRecovery, hrecord⟩ := quiet_record _ { m with inRecovery := _ }
    exact ⟨log, inRecovery, hrecord⟩
  · exact quiet_pure _ m

theorem quiet_report (caller : Address) (price : Amount) (outcome : LiquidationOutcome) :
    Quiet (report caller price outcome) () := by
  unfold report
  exact quiet_get_bind fun _ => quiet_bind (quiet_logAll _) (quiet_trackMode price)

theorem Quiet.completes {action : Action Machine α} {a : α} (h : Quiet action a) (m : Machine) : Completes action m := by
  obtain ⟨log, inRecovery, hdone⟩ := h m
  exact ⟨a, _, hdone⟩

end Quiet

/-- Everything of a machine that a liquidation changes, and with it all that any operation changes but the log and
the tracked mode. -/
def liquidator (m : Machine) : Liquidator := ⟨m.state.ledger, m.state.pool, m.state.surplus, m.history⟩

/-- What an operation with a result does, for parameters and a source of prices. -/
inductive Effect (p : Params) (feed : PriceFeed) (s : Liquidator) :
    Operation → OperationResult → Liquidator → Prop where
  | opened {owner collateral debt trove ledger}
      (h : perform (Ledger.openTrove owner collateral debt) s.ledger = (ledger, .ok trove)) :
      Effect p feed s (.openTrove owner collateral debt) (.trove trove) { s with ledger }
  | adjusted {owner collateral debt entire newCollateral newDebt pending trove ledger}
      (hentire : s.ledger.entire owner = .ok entire)
      (hcollateral : collateralAfter entire collateral = .ok newCollateral)
      (hdebt : debtAfter entire debt = .ok newDebt)
      (h : perform (Ledger.adjust owner newCollateral newDebt) s.ledger = (ledger, .ok (pending, trove))) :
      Effect p feed s (.adjustTrove owner collateral debt) (.trove trove) { s with ledger }
  | closed {owner trove ledger} (h : perform (Ledger.closeByOwner owner) s.ledger = (ledger, .ok trove)) :
      Effect p feed s (.closeTrove owner) (.closed trove.collateral) { s with ledger }
  | provided {depositor amount change pool}
      (h : perform (StabilityPool.provide depositor amount) s.pool = (pool, .ok change)) :
      Effect p feed s (.provide depositor amount) (.deposit change) { s with pool }
  | withdrawn {depositor amount change pool}
      (h : perform (StabilityPool.withdraw depositor amount) s.pool = (pool, .ok change)) :
      Effect p feed s (.withdraw depositor amount) (.deposit change) { s with pool }
  | liquidated {caller borrower price outcome s'} (hprice : feed.fetch = .ok price)
      (h : perform (Liquidator.liquidate p price borrower) s = (s', .ok outcome)) :
      Effect p feed s (.liquidate caller borrower) (.liquidation outcome) s'
  | batchLiquidated {caller borrowers price outcome s'} (hprice : feed.fetch = .ok price)
      (h : perform (Liquidator.liquidateBatch p price borrowers) s = (s', .ok outcome)) :
      Effect p feed s (.liquidateBatch caller borrowers) (.liquidation outcome) s'
  | claimed {owner amount surplus} (h : perform (Surplus.claim owner) s.surplus = (surplus, .ok amount)) :
      Effect p feed s (.claimSurplus owner) (.surplus amount) { s with surplus }

/-- Two machines with the same parameters, the same source of prices and the same version of the state. -/
structure SameSetting (m m' : Machine) : Prop where
  params_eq : m'.state.params = m.state.params
  feed_eq : m'.feed = m.feed
  version_eq : m'.state.version = m.state.version

section Parts

variable {σ α β : Type} {part : Machine → σ} {putBack : σ → Machine → Machine} {m m' : Machine} {b : β}

theorem perform_price_bind {next : Amount → Action Machine β} (h : perform (price >>= next) m = (m', .ok b)) :
    ∃ price, m.feed.fetch = .ok price ∧ perform (next price) m = (m', .ok b) := by
  have hread : perform (liftM m.feed.fetch >>= next) m = (m', .ok b) := h
  exact perform_liftM_bind_eq_ok.1 hread

/-- An operation of a part, after which nothing but the log and the tracked mode changes. -/
theorem perform_part_quiet {action : Action σ α} {next : α → Action Machine β} {result : α → β}
    (h : perform (onPart part putBack action >>= next) m = (m', .ok b))
    (hquiet : ∀ a, Quiet (next a) (result a)) :
    ∃ a state log inRecovery, perform action (part m) = (state, .ok a) ∧ b = result a ∧
      m' = { putBack state m with log, inRecovery } := by
  obtain ⟨a, m₁, hpart, hthen⟩ := perform_bind_eq_ok.1 h
  rw [perform_onPart] at hpart
  obtain ⟨hput, hresult⟩ := Prod.mk.inj hpart
  obtain ⟨log, inRecovery, hdone⟩ := hquiet a m₁
  rw [hdone] at hthen
  obtain ⟨hm', hb⟩ := Prod.mk.inj hthen
  refine ⟨a, (perform action (part m)).1, log, inRecovery, Prod.ext rfl hresult, (Except.ok.inj hb).symm, ?_⟩
  rw [← hm', hput]

end Parts

variable {m m' : Machine}

/-- Nothing but the ledger, the log and the tracked mode differs. -/
def OnLedger (m m' : Machine) (ledger : Ledger) : Prop :=
  ∃ log inRecovery, m' = { m with state := { m.state with ledger }, log, inRecovery }

theorem OnLedger.ledger_eq {ledger : Ledger} (h : OnLedger m m' ledger) : m'.state.ledger = ledger := by
  obtain ⟨log, inRecovery, rfl⟩ := h
  rfl

/-- What an owner did to a trove at a price, with what was found and checked before, and the amounts of the trove before
and after. -/
inductive Borrows (m : Machine) (price : Amount) : Operation → OperationResult → Adjustment → Ledger → Prop where
  | opened {owner collateral debt trove ledger}
      (hpasses : (Adjustment.opening collateral debt).Passes m.state.params m.state.ledger price)
      (h : perform (Ledger.openTrove owner collateral debt) m.state.ledger = (ledger, .ok trove)) :
      Borrows m price (.openTrove owner collateral debt) (.trove trove) (.opening collateral debt) ledger
  | adjusted {owner collateral debt entire newCollateral newDebt pending trove ledger}
      (hentire : m.state.ledger.entire owner = .ok entire)
      (hcollateral : collateralAfter entire collateral = .ok newCollateral)
      (hdebt : debtAfter entire debt = .ok newDebt)
      (hpasses : Adjustment.Passes ⟨entire.collateral, entire.debt, newCollateral, newDebt⟩ m.state.params
        m.state.ledger price)
      (h : perform (Ledger.adjust owner newCollateral newDebt) m.state.ledger = (ledger, .ok (pending, trove))) :
      Borrows m price (.adjustTrove owner collateral debt) (.trove trove)
        ⟨entire.collateral, entire.debt, newCollateral, newDebt⟩ ledger
  | closed {owner entire trove ledger} (hentire : m.state.ledger.entire owner = .ok entire)
      (hclosable : m.requireClosable price entire = .ok ())
      (h : perform (Ledger.closeByOwner owner) m.state.ledger = (ledger, .ok trove)) :
      Borrows m price (.closeTrove owner) (.closed trove.collateral) (.closing entire) ledger

/-- An operation of an owner was done at the price now. -/
def BorrowsNow (m m' : Machine) (operation : Operation) (result : OperationResult) : Prop :=
  ∃ price adjustment ledger, m.feed.fetch = .ok price ∧ Borrows m price operation result adjustment ledger ∧
    OnLedger m m' ledger

theorem BorrowsNow.effect {operation : Operation} {result : OperationResult} (h : BorrowsNow m m' operation result) :
    Effect m.state.params m.feed m.liquidator operation result m'.liquidator ∧ SameSetting m m' := by
  obtain ⟨price, adjustment, ledger, -, hborrows, log, inRecovery, rfl⟩ := h
  refine ⟨?_, rfl, rfl, rfl⟩
  cases hborrows with
  | opened hpasses hledger => exact .opened hledger
  | adjusted hentire hcollateral hdebt hpasses hledger => exact .adjusted hentire hcollateral hdebt hledger
  | closed hentire hclosable hledger => exact .closed hledger

/-! ## What was found and checked -/

/-- What an operation with a result comes down to: what was found and checked first, and then an action of one part, after
which events are logged, and the mode is tracked if the operation was done at a price. -/
inductive Executed (m m' : Machine) : Operation → OperationResult → Prop where
  | openTrove {owner collateral debt price trove} (hprice : m.feed.fetch = .ok price)
      (hpasses : (Adjustment.opening collateral debt).Passes m.state.params m.state.ledger price)
      (h : perform (do
        let trove ← onLedger (Ledger.openTrove owner collateral debt)
        record (updateOf trove .opened)
        trackMode price
        return trove) m = (m', .ok trove)) :
      Executed m m' (.openTrove owner collateral debt) (.trove trove)
  | adjustTrove {owner collateral debt price entire newCollateral newDebt trove} (hprice : m.feed.fetch = .ok price)
      (hentire : m.state.ledger.entire owner = .ok entire)
      (hcollateral : collateralAfter entire collateral = .ok newCollateral)
      (hdebt : debtAfter entire debt = .ok newDebt)
      (hpasses : Adjustment.Passes ⟨entire.collateral, entire.debt, newCollateral, newDebt⟩ m.state.params
        m.state.ledger price)
      (h : perform (do
        let (pending, trove) ← onLedger (Ledger.adjust owner newCollateral newDebt)
        logAll (settlementOf owner entire pending)
        record (updateOf trove .adjusted)
        trackMode price
        return trove) m = (m', .ok trove)) :
      Executed m m' (.adjustTrove owner collateral debt) (.trove trove)
  | closeTrove {owner price entire collateral} (hprice : m.feed.fetch = .ok price)
      (hentire : m.state.ledger.entire owner = .ok entire) (hclosable : m.requireClosable price entire = .ok ())
      (h : perform (do
        let closed ← onLedger (Ledger.closeByOwner owner)
        logAll (settlementOf owner entire entire.pending)
        record (.troveUpdated ⟨owner, .zero, .zero, .zero, .closed⟩)
        trackMode price
        return closed.collateral) m = (m', .ok collateral)) :
      Executed m m' (.closeTrove owner) (.closed collateral)
  | provide {depositor amount change}
      (h : perform (do
        let change ← onPool (StabilityPool.provide depositor amount)
        record (.deposited ⟨depositor, amount, change.deposit, change.gain⟩)
        return change) m = (m', .ok change)) :
      Executed m m' (.provide depositor amount) (.deposit change)
  | withdraw {depositor amount change}
      (h : perform (do
        let change ← onPool (StabilityPool.withdraw depositor amount)
        record (.withdrawn ⟨depositor, change.withdrawn, change.deposit, change.gain⟩)
        return change) m = (m', .ok change)) :
      Executed m m' (.withdraw depositor amount) (.deposit change)
  | liquidate {caller borrower price outcome} (hprice : m.feed.fetch = .ok price)
      (h : perform (do
        let outcome ← onLiquidator (Liquidator.liquidate m.state.params price borrower)
        report caller price outcome
        return outcome) m = (m', .ok outcome)) :
      Executed m m' (.liquidate caller borrower) (.liquidation outcome)
  | liquidateBatch {caller borrowers price outcome} (hprice : m.feed.fetch = .ok price)
      (h : perform (do
        let outcome ← onLiquidator (Liquidator.liquidateBatch m.state.params price borrowers)
        report caller price outcome
        return outcome) m = (m', .ok outcome)) :
      Executed m m' (.liquidateBatch caller borrowers) (.liquidation outcome)
  | claimSurplus {owner amount}
      (h : perform (do
        let amount ← onSurplus (Surplus.claim owner)
        record (.surplusClaimed ⟨owner, amount⟩)
        return amount) m = (m', .ok amount)) :
      Executed m m' (.claimSurplus owner) (.surplus amount)

theorem openTrove_executed {owner : Address} {collateral debt : Amount} {t : Trove}
    (h : perform (openTrove owner collateral debt) m = (m', .ok t)) :
    Executed m m' (.openTrove owner collateral debt) (.trove t) := by
  unfold openTrove at h
  obtain ⟨price, hprice, h⟩ := perform_price_bind h
  rw [perform_get_bind] at h
  obtain ⟨-, h⟩ := perform_guard_eq_ok.1 h
  obtain ⟨_, hpositive, h⟩ := perform_liftM_bind_eq_ok.1 h
  obtain ⟨_, hdebt, h⟩ := perform_liftM_bind_eq_ok.1 h
  obtain ⟨verdict, hverdict, h⟩ := perform_liftM_bind_eq_ok.1 h
  obtain ⟨_, hrequire, h⟩ := perform_liftM_bind_eq_ok.1 h
  exact .openTrove hprice (Adjustment.passes_of_checks hpositive hdebt hverdict hrequire) h

theorem adjustTrove_executed {owner : Address} {collateral debt : AmountChange} {t : Trove}
    (h : perform (adjustTrove owner collateral debt) m = (m', .ok t)) :
    Executed m m' (.adjustTrove owner collateral debt) (.trove t) := by
  unfold adjustTrove at h
  obtain ⟨-, h⟩ := perform_guard_eq_ok.1 h
  obtain ⟨price, hprice, h⟩ := perform_price_bind h
  rw [perform_get_bind] at h
  obtain ⟨entire, hentire, h⟩ := perform_liftM_bind_eq_ok.1 h
  obtain ⟨newCollateral, hnewCollateral, h⟩ := perform_liftM_bind_eq_ok.1 h
  obtain ⟨newDebt, hnewDebt, h⟩ := perform_liftM_bind_eq_ok.1 h
  obtain ⟨_, hpositive, h⟩ := perform_liftM_bind_eq_ok.1 h
  obtain ⟨_, hdebt, h⟩ := perform_liftM_bind_eq_ok.1 h
  obtain ⟨verdict, hverdict, h⟩ := perform_liftM_bind_eq_ok.1 h
  obtain ⟨_, hrequire, h⟩ := perform_liftM_bind_eq_ok.1 h
  have hpasses := Adjustment.passes_of_checks hpositive hdebt hverdict hrequire
  exact .adjustTrove hprice hentire hnewCollateral hnewDebt hpasses h

theorem closeTrove_executed {owner : Address} {collateral : Amount}
    (h : perform (closeTrove owner) m = (m', .ok collateral)) :
    Executed m m' (.closeTrove owner) (.closed collateral) := by
  unfold closeTrove at h
  obtain ⟨price, hprice, h⟩ := perform_price_bind h
  rw [perform_get_bind] at h
  obtain ⟨entire, hentire, h⟩ := perform_liftM_bind_eq_ok.1 h
  obtain ⟨-, h⟩ := perform_guard_eq_ok.1 h
  obtain ⟨_, hclosable, h⟩ := perform_liftM_bind_eq_ok.1 h
  exact .closeTrove hprice hentire hclosable h

/-- An operation with a result is taken apart here, and nowhere else. -/
theorem executed_of_execute {operation : Operation} {result : OperationResult}
    (h : perform (execute operation) m = (m', .ok result)) : Executed m m' operation result := by
  unfold execute at h
  obtain ⟨_, -, h⟩ := perform_liftM_bind_eq_ok.1 h
  cases operation with
  | openTrove owner collateral debt =>
      obtain ⟨t, hdone, rfl⟩ := perform_bind_pure_eq_ok.1 h
      exact openTrove_executed hdone
  | adjustTrove owner collateral debt =>
      obtain ⟨t, hdone, rfl⟩ := perform_bind_pure_eq_ok.1 h
      exact adjustTrove_executed hdone
  | closeTrove owner =>
      obtain ⟨collateral, hdone, rfl⟩ := perform_bind_pure_eq_ok.1 h
      exact closeTrove_executed hdone
  | provide depositor amount =>
      obtain ⟨change, hdone, rfl⟩ := perform_bind_pure_eq_ok.1 h
      exact .provide hdone
  | withdraw depositor amount =>
      obtain ⟨change, hdone, rfl⟩ := perform_bind_pure_eq_ok.1 h
      exact .withdraw hdone
  | liquidate caller borrower =>
      obtain ⟨outcome, hdone, rfl⟩ := perform_bind_pure_eq_ok.1 h
      obtain ⟨price, hprice, hdone⟩ := perform_price_bind hdone
      exact .liquidate hprice hdone
  | liquidateBatch caller borrowers =>
      obtain ⟨outcome, hdone, rfl⟩ := perform_bind_pure_eq_ok.1 h
      obtain ⟨price, hprice, hdone⟩ := perform_price_bind hdone
      exact .liquidateBatch hprice hdone
  | claimSurplus owner =>
      obtain ⟨amount, hdone, rfl⟩ := perform_bind_pure_eq_ok.1 h
      exact .claimSurplus hdone

/-! ## What is done -/

theorem borrows_of_execute {owner : Address} {operation : Operation} {result : OperationResult}
    (howner : operation.borrower? = some owner) (h : perform (execute operation) m = (m', .ok result)) :
    BorrowsNow m m' operation result := by
  cases executed_of_execute h with
  | openTrove hprice hpasses hpart =>
      obtain ⟨_, ledger, log, inRecovery, hledger, rfl, rfl⟩ := perform_part_quiet hpart fun t =>
        quiet_bind (quiet_record _) (quiet_bind (quiet_trackMode _) (quiet_pure t))
      exact ⟨_, _, ledger, hprice, .opened hpasses hledger, log, inRecovery, rfl⟩
  | adjustTrove hprice hentire hcollateral hdebt hpasses hpart =>
      obtain ⟨⟨pending, t⟩, ledger, log, inRecovery, hledger, rfl, rfl⟩ := perform_part_quiet hpart fun adjusted =>
        quiet_bind (quiet_logAll _) (quiet_bind (quiet_record _)
          (quiet_bind (quiet_trackMode _) (quiet_pure adjusted.2)))
      exact ⟨_, _, ledger, hprice, .adjusted hentire hcollateral hdebt hpasses hledger, log, inRecovery, rfl⟩
  | closeTrove hprice hentire hclosable hpart =>
      obtain ⟨_, ledger, log, inRecovery, hledger, rfl, rfl⟩ := perform_part_quiet hpart fun t =>
        quiet_bind (quiet_logAll _) (quiet_bind (quiet_record _)
          (quiet_bind (quiet_trackMode _) (quiet_pure t.collateral)))
      exact ⟨_, _, ledger, hprice, .closed hentire hclosable hledger, log, inRecovery, rfl⟩
  | provide | withdraw | liquidate | liquidateBatch | claimSurplus => cases howner

/-- **An operation with a result has its effect on its part, and no other.** Parameters and prices stay. -/
theorem effect_of_execute {operation : Operation} {result : OperationResult}
    (h : perform (execute operation) m = (m', .ok result)) :
    Effect m.state.params m.feed m.liquidator operation result m'.liquidator ∧ SameSetting m m' := by
  cases executed_of_execute h with
  | openTrove | adjustTrove | closeTrove => exact (borrows_of_execute rfl h).effect
  | provide hpart =>
      obtain ⟨_, pool, log, inRecovery, hpool, rfl, rfl⟩ := perform_part_quiet hpart fun change =>
        quiet_bind (quiet_record _) (quiet_pure change)
      exact ⟨.provided hpool, rfl, rfl, rfl⟩
  | withdraw hpart =>
      obtain ⟨_, pool, log, inRecovery, hpool, rfl, rfl⟩ := perform_part_quiet hpart fun change =>
        quiet_bind (quiet_record _) (quiet_pure change)
      exact ⟨.withdrawn hpool, rfl, rfl, rfl⟩
  | liquidate hprice hpart =>
      obtain ⟨_, s', log, inRecovery, hdone, rfl, rfl⟩ := perform_part_quiet hpart fun outcome =>
        quiet_bind (quiet_report _ _ outcome) (quiet_pure outcome)
      exact ⟨.liquidated hprice hdone, rfl, rfl, rfl⟩
  | liquidateBatch hprice hpart =>
      obtain ⟨_, s', log, inRecovery, hdone, rfl, rfl⟩ := perform_part_quiet hpart fun outcome =>
        quiet_bind (quiet_report _ _ outcome) (quiet_pure outcome)
      exact ⟨.batchLiquidated hprice hdone, rfl, rfl, rfl⟩
  | claimSurplus hpart =>
      obtain ⟨_, surplus, log, inRecovery, hsurplus, rfl, rfl⟩ := perform_part_quiet hpart fun amount =>
        quiet_bind (quiet_record _) (quiet_pure amount)
      exact ⟨.claimed hsurplus, rfl, rfl, rfl⟩

end Machine

end CollateralDebt
