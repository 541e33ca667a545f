import CollateralDebt.Proofs.Action.Parallel
import CollateralDebt.Proofs.Machine.Counts

/-! A machine that is saved and resumed. What a machine answers, and how it changes its state, depends on its state and
on the price now: what is remembered of liquidations, the events not taken, the mode that is tracked and earlier prices
are written but never read. And every state that a machine reaches passes the checks of a resumption. So a machine that
resumes from its own bytes at the same price goes on as if nothing had happened. -/

open CollateralDebt.Action

namespace CollateralDebt

theorem PriceFeed.exists_fetch_iff {feed : PriceFeed} :
    (∃ price, feed.fetch = .ok price) ↔ ¬feed.current.price.isZero = true := by
  unfold fetch
  split
  · next hzero => exact ⟨fun ⟨_, h⟩ => (nomatch h), fun h => absurd hzero h⟩
  · next hpositive => exact ⟨fun _ => hpositive, fun _ => ⟨_, rfl⟩⟩

theorem Requirement.not_isZero_of_usablePrice {price : Amount} {u : Unit} (h : usablePrice price = .ok u) :
    ¬price.isZero = true := by
  unfold usablePrice at h
  split at h
  · cases h
  · next hpositive => exact hpositive

/-- Nothing but what is remembered of liquidations differs. -/
structure Liquidator.SameBooks (s t : Liquidator) : Prop where
  ledger_eq : t.ledger = s.ledger
  pool_eq : t.pool = s.pool
  surplus_eq : t.surplus = s.surplus

/-- Both give the same result and leave the same books. -/
def Liquidator.Agree {α : Type} (s : Liquidator) (a : α) (t : Liquidator) (b : α) : Prop := b = a ∧ s.SameBooks t

namespace Liquidator

variable {s t : Liquidator}

theorem commit_parallel (h : s.SameBooks t) (plan : LiquidationPlan) :
    Parallel Agree (perform (commit plan) s) (perform (commit plan) t) := by
  unfold commit
  refine parallel_get_bind (parallel_guard fun _ => ?_)
  rw [h.ledger_eq, h.pool_eq]
  refine parallel_liftM_bind fun stakes _ => parallel_liftM_bind fun redistribution _ => ?_
  refine parallel_liftM_bind fun offset _ => ?_
  rw [perform_set_bind, perform_set_bind]
  refine .done ⟨rfl, ?_⟩
  constructor
  · rw [carryOut_ledger, carryOut_ledger, h.ledger_eq]
  · cases offset with
    | none => exact h.pool_eq
    | some o => exact congrArg (fun pool => pool.applyOffset o) h.pool_eq
  · exact congrArg (fun surplus => creditAll surplus plan.values) h.surplus_eq

theorem liquidateBatch_parallel (h : s.SameBooks t) (p : Params) (price : Amount) (borrowers : List Address) :
    Parallel Agree (perform (liquidateBatch p price borrowers) s) (perform (liquidateBatch p price borrowers) t) := by
  unfold liquidateBatch
  refine parallel_get_bind ?_
  rw [h.ledger_eq, h.pool_eq]
  exact parallel_liftM_bind fun plan _ => parallel_guard fun _ => commit_parallel h plan

theorem liquidate_parallel (h : s.SameBooks t) (p : Params) (price : Amount) (borrower : Address) :
    Parallel Agree (perform (liquidate p price borrower) s) (perform (liquidate p price borrower) t) := by
  unfold liquidate
  refine parallel_get_bind ?_
  rw [h.ledger_eq]
  exact parallel_guard fun _ => parallel_guard fun _ => liquidateBatch_parallel h p price [borrower]

end Liquidator

namespace Machine

/-- Two machines with one state, at one price. -/
structure Alike (m n : Machine) : Prop where
  state_eq : n.state = m.state
  price_eq : n.feed.current.price = m.feed.current.price

/-- Both give the same result and are left alike. -/
def Agree {α : Type} (m : Machine) (a : α) (n : Machine) (b : α) : Prop := b = a ∧ m.Alike n

variable {α β σ : Type} {m n : Machine}

theorem Alike.fetch_eq (h : m.Alike n) : n.feed.fetch = m.feed.fetch := by
  unfold PriceFeed.fetch
  rw [h.price_eq]

theorem parallel_price_bind {next : Amount → Action Machine α} (h : m.Alike n)
    (hnext : ∀ price, Parallel Agree (perform (next price) m) (perform (next price) n)) :
    Parallel Agree (perform (price >>= next) m) (perform (price >>= next) n) := by
  have hread : Parallel Agree (perform (liftM m.feed.fetch >>= next) m) (perform (liftM n.feed.fetch >>= next) n) := by
    rw [h.fetch_eq]
    exact parallel_liftM_bind fun price _ => hnext price
  exact hread

/-- After an operation on a part only the log and the tracked mode change. -/
theorem parallel_part_quiet {part : Machine → σ} {putBack : σ → Machine → Machine} {action : Action σ α}
    {next : α → Action Machine β} {result : α → β} {Q : σ → α → σ → α → Prop}
    (hpart : Parallel Q (perform action (part m)) (perform action (part n)))
    (hback : ∀ x a y b, Q x a y b → b = a ∧ (putBack x m).Alike (putBack y n))
    (hquiet : ∀ a, Quiet (next a) (result a)) :
    Parallel Agree (perform (onPart part putBack action >>= next) m) (perform (onPart part putBack action >>= next) n) := by
  refine parallel_bind (Q := Agree) (parallel_onPart hpart hback) fun m₁ a n₁ b hagree => ?_
  obtain ⟨rfl, halike⟩ := hagree
  obtain ⟨log, inRecovery, hm⟩ := hquiet b m₁
  obtain ⟨log', inRecovery', hn⟩ := hquiet b n₁
  rw [hm, hn]
  exact .done ⟨rfl, halike.state_eq, halike.price_eq⟩

theorem Alike.modify (h : m.Alike n) (f : State → State) :
    Alike { m with state := f m.state } { n with state := f n.state } := ⟨congrArg f h.state_eq, h.price_eq⟩

/-- A part that is the same in both is left the same by any action on it. -/
theorem parallel_same_part {part : Machine → σ} {putBack : σ → Machine → Machine} {action : Action σ α}
    {next : α → Action Machine β} {result : α → β} (hpart : part n = part m)
    (hback : ∀ x, (putBack x m).Alike (putBack x n)) (hquiet : ∀ a, Quiet (next a) (result a)) :
    Parallel Agree (perform (onPart part putBack action >>= next) m) (perform (onPart part putBack action >>= next) n) := by
  refine parallel_part_quiet (Q := fun x a y b => b = a ∧ y = x) ?_ ?_ hquiet
  · rw [hpart]
    rcases perform action (part m) with ⟨x, e | a⟩
    · exact .failed x x e
    · exact .done ⟨rfl, rfl⟩
  · rintro x a y b ⟨rfl, rfl⟩
    exact ⟨rfl, hback y⟩

theorem parallel_ledger {action : Action Ledger α} {next : α → Action Machine β} {result : α → β} (h : m.Alike n)
    (hquiet : ∀ a, Quiet (next a) (result a)) :
    Parallel Agree (perform (onLedger action >>= next) m) (perform (onLedger action >>= next) n) :=
  parallel_same_part (congrArg State.ledger h.state_eq) (fun ledger => h.modify fun state => { state with ledger }) hquiet

theorem parallel_pool {action : Action StabilityPool α} {next : α → Action Machine β} {result : α → β} (h : m.Alike n)
    (hquiet : ∀ a, Quiet (next a) (result a)) :
    Parallel Agree (perform (onPool action >>= next) m) (perform (onPool action >>= next) n) :=
  parallel_same_part (congrArg State.pool h.state_eq) (fun pool => h.modify fun state => { state with pool }) hquiet

theorem parallel_surplus {action : Action Surplus α} {next : α → Action Machine β} {result : α → β} (h : m.Alike n)
    (hquiet : ∀ a, Quiet (next a) (result a)) :
    Parallel Agree (perform (onSurplus action >>= next) m) (perform (onSurplus action >>= next) n) :=
  parallel_same_part (congrArg State.surplus h.state_eq) (fun surplus => h.modify fun state => { state with surplus })
    hquiet

theorem parallel_liquidator {action : Action Liquidator α} {next : α → Action Machine β} {result : α → β}
    (h : m.Alike n) (hblind : ∀ {s t : Liquidator}, s.SameBooks t →
      Parallel Liquidator.Agree (perform action s) (perform action t)) (hquiet : ∀ a, Quiet (next a) (result a)) :
    Parallel Agree (perform (onLiquidator action >>= next) m) (perform (onLiquidator action >>= next) n) := by
  refine parallel_part_quiet (hblind ⟨?_, ?_, ?_⟩) ?_ hquiet
  · exact congrArg State.ledger h.state_eq
  · exact congrArg State.pool h.state_eq
  · exact congrArg State.surplus h.state_eq
  · rintro x a y b ⟨rfl, hledger, hpool, hsurplus⟩
    refine ⟨rfl, ?_, h.price_eq⟩
    dsimp only
    rw [h.state_eq, hledger, hpool, hsurplus]

theorem openTrove_parallel (h : m.Alike n) (owner : Address) (collateral debt : Amount) :
    Parallel Agree (perform (openTrove owner collateral debt) m) (perform (openTrove owner collateral debt) n) := by
  unfold openTrove
  refine parallel_price_bind h fun price => parallel_get_bind ?_
  rw [h.state_eq]
  refine parallel_guard fun _ => parallel_liftM_bind fun _ _ => parallel_liftM_bind fun _ _ => ?_
  refine parallel_liftM_bind fun verdict _ => parallel_liftM_bind fun _ _ => ?_
  exact parallel_ledger h fun trove =>
    quiet_bind (quiet_record _) (quiet_bind (quiet_trackMode _) (quiet_pure trove))

theorem adjustTrove_parallel (h : m.Alike n) (owner : Address) (collateral debt : AmountChange) :
    Parallel Agree (perform (adjustTrove owner collateral debt) m) (perform (adjustTrove owner collateral debt) n) := by
  unfold adjustTrove
  refine parallel_guard fun _ => parallel_price_bind h fun price => parallel_get_bind ?_
  rw [h.state_eq]
  refine parallel_liftM_bind fun entire _ => parallel_liftM_bind fun newCollateral _ => ?_
  refine parallel_liftM_bind fun newDebt _ => parallel_liftM_bind fun _ _ => parallel_liftM_bind fun _ _ => ?_
  refine parallel_liftM_bind fun verdict _ => parallel_liftM_bind fun _ _ => ?_
  exact parallel_ledger h fun adjusted =>
    quiet_bind (quiet_logAll _) (quiet_bind (quiet_record _) (quiet_bind (quiet_trackMode _) (quiet_pure adjusted.2)))

theorem closeTrove_parallel (h : m.Alike n) (owner : Address) :
    Parallel Agree (perform (closeTrove owner) m) (perform (closeTrove owner) n) := by
  unfold closeTrove
  refine parallel_price_bind h fun price => parallel_get_bind ?_
  have hclosable : ∀ entire, n.requireClosable price entire = m.requireClosable price entire := by
    intro entire
    unfold requireClosable
    rw [h.state_eq]
  rw [h.state_eq]
  simp only [hclosable]
  refine parallel_liftM_bind fun entire _ => parallel_guard fun _ => parallel_liftM_bind fun _ _ => ?_
  exact parallel_ledger h fun closed =>
    quiet_bind (quiet_logAll _) (quiet_bind (quiet_record _) (quiet_bind (quiet_trackMode _) (quiet_pure closed.collateral)))

theorem liquidate_parallel (h : m.Alike n) (caller borrower : Address) :
    Parallel Agree (perform (liquidate caller borrower) m) (perform (liquidate caller borrower) n) := by
  unfold liquidate
  refine parallel_price_bind h fun price => parallel_get_bind ?_
  rw [h.state_eq]
  exact parallel_liquidator h (fun hbooks => Liquidator.liquidate_parallel hbooks _ _ _) fun outcome =>
    quiet_bind (quiet_report _ _ outcome) (quiet_pure outcome)

theorem liquidateBatch_parallel (h : m.Alike n) (caller : Address) (borrowers : List Address) :
    Parallel Agree (perform (liquidateBatch caller borrowers) m) (perform (liquidateBatch caller borrowers) n) := by
  unfold liquidateBatch
  refine parallel_price_bind h fun price => parallel_get_bind ?_
  rw [h.state_eq]
  exact parallel_liquidator h (fun hbooks => Liquidator.liquidateBatch_parallel hbooks _ _ _) fun outcome =>
    quiet_bind (quiet_report _ _ outcome) (quiet_pure outcome)

theorem parallel_return {action : Action Machine α} {f : α → OperationResult}
    (h : Parallel Agree (perform action m) (perform action n)) :
    Parallel Agree (perform (do return f (← action)) m) (perform (do return f (← action)) n) :=
  parallel_bind h fun _ _ _ _ hagree => .done ⟨congrArg f hagree.1, hagree.2⟩

/-- **An operation reads the state and the price, and nothing else of a machine.** -/
theorem execute_parallel (h : m.Alike n) (operation : Operation) :
    Parallel Agree (perform (execute operation) m) (perform (execute operation) n) := by
  unfold execute
  refine parallel_liftM_bind fun _ _ => ?_
  cases operation with
  | openTrove owner collateral debt => exact parallel_return (openTrove_parallel h owner collateral debt)
  | adjustTrove owner collateral debt => exact parallel_return (adjustTrove_parallel h owner collateral debt)
  | closeTrove owner => exact parallel_return (closeTrove_parallel h owner)
  | provide depositor amount =>
      exact parallel_return (parallel_pool h fun change => quiet_bind (quiet_record _) (quiet_pure change))
  | withdraw depositor amount =>
      exact parallel_return (parallel_pool h fun change => quiet_bind (quiet_record _) (quiet_pure change))
  | liquidate caller borrower => exact parallel_return (liquidate_parallel h caller borrower)
  | liquidateBatch caller borrowers => exact parallel_return (liquidateBatch_parallel h caller borrowers)
  | claimSurplus owner =>
      exact parallel_return (parallel_surplus h fun amount => quiet_bind (quiet_record _) (quiet_pure amount))

/-! ## What is seen from outside -/

/-- The machine after a request, and what it answers: the result of an operation, or that it took note of a price, or
why it was refused. -/
def respond (m : Machine) : Request → Machine × Except Error (Option OperationResult)
  | .operation operation => ((perform (execute operation) m).1, (perform (execute operation) m).2.map some)
  | .price price => ((perform (setPrice price) m).1, (perform (setPrice price) m).2.map fun _ => none)

/-- What is seen of a machine that is handed a list of requests: each answer, and the state after it. -/
def observe (m : Machine) : List Request → List (Except Error (Option OperationResult) × State)
  | [] => []
  | request :: rest => ((respond m request).2, (respond m request).1.state) :: observe (respond m request).1 rest

theorem execute_alike (h : m.Alike n) (operation : Operation) :
    (perform (execute operation) n).2 = (perform (execute operation) m).2 ∧
      (perform (execute operation) m).1.Alike (perform (execute operation) n).1 := by
  have hparallel := execute_parallel h operation
  rcases hm : perform (execute operation) m with ⟨m', result⟩
  rcases hn : perform (execute operation) n with ⟨n', result'⟩
  rw [hm, hn] at hparallel
  cases hparallel with
  | failed _ _ e =>
      -- A refused operation leaves either machine as it was.
      rw [execute_allOrNothing _ _ _ _ hm, execute_allOrNothing _ _ _ _ hn]
      exact ⟨rfl, h⟩
  | done hagree => exact ⟨congrArg Except.ok hagree.1, hagree.2⟩

/-- A price that can be used becomes the price now, and any other changes nothing. -/
theorem perform_setPrice (price : Amount) (m : Machine) :
    ∃ feed, perform (setPrice price) m = ({ m with feed }, Requirement.usablePrice price) ∧
      feed.current.price = match Requirement.usablePrice price with
        | .ok _ => price
        | .error _ => m.feed.current.price := by
  unfold setPrice PriceFeed.setPrice
  rw [perform_onPart, perform_bind, perform_liftM]
  cases Requirement.usablePrice price with
  | error e => exact ⟨m.feed, rfl, rfl⟩
  | ok _ => exact ⟨_, rfl, rfl⟩

theorem setPrice_alike (h : m.Alike n) (price : Amount) :
    (perform (setPrice price) n).2 = (perform (setPrice price) m).2 ∧
      (perform (setPrice price) m).1.Alike (perform (setPrice price) n).1 := by
  obtain ⟨feed, hm, hprice⟩ := perform_setPrice price m
  obtain ⟨feed', hn, hprice'⟩ := perform_setPrice price n
  rw [hm, hn]
  refine ⟨rfl, h.state_eq, ?_⟩
  rw [hprice, hprice', h.price_eq]

theorem respond_alike (h : m.Alike n) (request : Request) :
    (respond n request).2 = (respond m request).2 ∧ (respond m request).1.Alike (respond n request).1 := by
  cases request with
  | operation operation =>
      obtain ⟨hresult, halike⟩ := execute_alike h operation
      exact ⟨congrArg (Except.map some) hresult, halike⟩
  | price price =>
      obtain ⟨hresult, halike⟩ := setPrice_alike h price
      exact ⟨congrArg (Except.map fun _ => none) hresult, halike⟩

/-- **Machines that are alike cannot be told apart.** -/
theorem observe_eq (h : m.Alike n) (requests : List Request) : observe n requests = observe m requests := by
  induction requests generalizing m n with
  | nil => rfl
  | cons request rest ih =>
      obtain ⟨hresult, halike⟩ := respond_alike h request
      rw [observe, observe, hresult, halike.state_eq, ih halike]

/-! ## The checks of a resumption -/

variable {p : Params} {t : Transcript}

theorem Run.check (h : Run p m t) : p.check = .ok () := by
  induction h with
  | start hcreate => exact (create_eq_ok hcreate).1
  | done _ _ ih => exact ih
  | refused _ _ ih => exact ih
  | priced _ _ ih => exact ih

theorem Run.version_eq (h : Run p m t) : m.state.version = State.currentVersion := by
  induction h with
  | start hcreate =>
      obtain ⟨-, hstate, -⟩ := create_eq_ok hcreate
      rw [hstate]
      rfl
  | done _ hdone ih => exact (effect_of_execute hdone).2.version_eq.trans ih
  | refused _ hrefused ih => exact execute_allOrNothing _ _ _ _ hrefused ▸ ih
  | priced _ hpriced ih =>
      obtain ⟨feed, rfl⟩ := setPrice_frame hpriced
      exact ih

/-- The pool of a machine is one that is reached by deposits, withdrawals and offsets. -/
theorem Run.pool (h : Run p m t) : ∃ turns, StabilityPool.Run p m.state.pool turns := by
  have hbatch : ∀ {s s' : Liquidator} {price borrowers outcome}, (∃ turns, StabilityPool.Run p s.pool turns) →
      perform (Liquidator.liquidateBatch p price borrowers) s = (s', .ok outcome) →
        ∃ turns, StabilityPool.Run p s'.pool turns := by
    rintro s s' price borrowers outcome ⟨turns, hturns⟩ hdone
    obtain ⟨plan, -, hcommitted⟩ := Liquidator.liquidateBatch_eq_ok hdone
    have hoffset := hcommitted.offset
    rw [hcommitted.state]
    cases ho : outcome.offset with
    | none => exact ⟨turns, hturns⟩
    | some o =>
        rw [ho] at hoffset
        exact ⟨_, hturns.offset (StabilityPool.perform_offset (Liquidator.offsetOf_of_offsetFor hoffset))⟩
  refine (Run.induct (motive := fun s _ => ∃ turns, StabilityPool.Run p s.pool turns) ⟨[], .start h.check⟩ ?_ h).2
  rintro s s' _ feed operation result ⟨turns, hturns⟩ heffect
  cases heffect with
  | opened | adjusted | closed | claimed => exact ⟨turns, hturns⟩
  | provided hdone => exact ⟨_, hturns.provided hdone⟩
  | withdrawn hdone => exact ⟨_, hturns.withdrawn hdone⟩
  | liquidated _ hdone => exact hbatch ⟨turns, hturns⟩ (Liquidator.liquidate_eq_ok hdone).2.2
  | batchLiquidated _ hdone => exact hbatch ⟨turns, hturns⟩ hdone

theorem Run.state_check (h : Run p m t) : m.state.check = .ok () := by
  obtain ⟨turns, hturns⟩ := h.pool
  obtain ⟨hfloor, hfactor⟩ := hturns.scaled
  have hproduct := Amount.units_pos_iff.1 hturns.consistent.product_pos
  have hscaled : ¬(m.state.pool.factor ≠ .ofWord m.state.params.productFactor ∨
      m.state.pool.floor ≠ .ofWord m.state.params.productFloor) := by
    rw [h.params_eq]
    exact not_or.2 ⟨not_not.2 hfactor, not_not.2 hfloor⟩
  unfold State.check
  refine except_bind_eq_ok.2 ⟨(), h.params_eq ▸ h.check, except_bind_eq_ok.2 ⟨(), h.ledger_check, ?_⟩⟩
  exact except_guard_eq_ok.2 ⟨hproduct, if_neg hscaled⟩

/-- Whoever changes a trove has read the price. -/
theorem fetches_or_ledger_eq {m' : Machine} {operation : Operation} {result : OperationResult}
    (h : perform (execute operation) m = (m', .ok result)) :
    (∃ price, m.feed.fetch = .ok price) ∨ m'.state.ledger = m.state.ledger := by
  cases howner : operation.borrower? with
  | some owner =>
      obtain ⟨price, -, -, hprice, -⟩ := borrows_of_execute howner h
      exact .inl ⟨price, hprice⟩
  | none =>
      obtain ⟨heffect, -⟩ := effect_of_execute h
      generalize hbooks : m'.liquidator = s' at heffect
      have hledger : m'.state.ledger = s'.ledger := congrArg Liquidator.ledger hbooks
      cases heffect with
      | opened | adjusted | closed => cases howner
      | provided | withdrawn | claimed => exact .inr hledger
      | liquidated hprice | batchLiquidated hprice => exact .inl ⟨_, hprice⟩

theorem Run.fetches (h : Run p m t) (hactive : 0 < m.state.ledger.activeCount) : ∃ price, m.feed.fetch = .ok price := by
  induction h with
  | start hcreate =>
      obtain ⟨-, hstate, -⟩ := create_eq_ok hcreate
      rw [hstate] at hactive
      cases hactive
  | done _ hdone ih =>
      rw [(effect_of_execute hdone).2.feed_eq]
      rcases fetches_or_ledger_eq hdone with hprice | hledger
      · exact hprice
      · rw [hledger] at hactive
        exact ih hactive
  | refused _ hrefused ih =>
      rw [execute_allOrNothing _ _ _ _ hrefused] at hactive ⊢
      exact ih hactive
  | @priced m m' t price result _ hpriced ih =>
      obtain ⟨feed, hset, hnow⟩ := perform_setPrice price m
      rw [hpriced] at hset
      obtain ⟨rfl, -⟩ := Prod.mk.inj hset
      rw [PriceFeed.exists_fetch_iff] at ih ⊢
      dsimp only at hactive ⊢
      rw [hnow]
      cases husable : Requirement.usablePrice price with
      | error e => exact ih hactive
      | ok _ => exact Requirement.not_isZero_of_usablePrice husable

/-- A machine that was reached can be resumed from its state at the price now, and is then alike. -/
theorem Run.resumes (h : Run p m t) {feed : PriceFeed} (hprice : feed.current.price = m.feed.current.price) :
    ∃ resumed, resume m.state feed = .ok resumed ∧ m.Alike resumed := by
  have hresume : ∃ inRecovery, resume m.state feed =
      .ok ⟨m.state, feed, .new m.state.params.historyLimit.toNat, .empty, inRecovery⟩ := by
    unfold resume
    by_cases hactive : m.state.ledger.activeCount = 0
    · exact ⟨false, except_bind_eq_ok.2 ⟨(), h.state_check, if_pos hactive⟩⟩
    · obtain ⟨price, hfetch⟩ := h.fetches (Nat.pos_of_ne_zero hactive)
      have hnow : feed.fetch = .ok price := by
        rw [PriceFeed.fetch, hprice]
        exact hfetch
      refine ⟨m.state.ledger.inRecovery m.state.params price, except_bind_eq_ok.2 ⟨(), h.state_check, ?_⟩⟩
      exact (if_neg hactive).trans (except_bind_eq_ok.2 ⟨price, hnow, rfl⟩)
  obtain ⟨inRecovery, hresumed⟩ := hresume
  exact ⟨_, hresumed, rfl, hprice⟩

/-- **A restart goes unnoticed.** As long as its counts are words, which they are until as many operations were done as
words can count, a machine can be resumed from its own bytes over any source of prices with the same price now. The
resumed machine has the same state, and from then on it gives the same answers to the same requests, and goes through
the same states. -/
theorem Run.restart_unnoticed (h : Run p m t) {feed : PriceFeed}
    (hprice : feed.current.price = m.feed.current.price) :
    (t.length < UInt64.size → m.state.InWords) ∧
    (m.state.InWords → ∃ resumed, load m.save feed = .ok resumed ∧ resumed.state = m.state ∧
      ∀ requests, observe resumed requests = observe m requests) := by
  refine ⟨h.inWords, fun hwords => ?_⟩
  obtain ⟨resumed, hresumed, halike⟩ := h.resumes hprice
  have hdecoded : State.decode m.save = .ok m.state := by
    have happend := State.decode_append_of_inWords h.version_eq hwords []
    rwa [List.append_nil] at happend
  have hload : State.load m.save = .ok m.state := by
    unfold State.load
    exact except_bind_eq_ok.2 ⟨m.state, hdecoded, except_bind_eq_ok.2 ⟨(), h.params_eq ▸ h.check, rfl⟩⟩
  refine ⟨resumed, ?_, halike.state_eq, observe_eq halike⟩
  unfold load
  exact except_bind_eq_ok.2 ⟨m.state, hload, hresumed⟩

/-- A source of prices that was just started, at a hundred. -/
def restartFeed : PriceFeed := ⟨⟨.ofWhole 100, 1⟩, none, [⟨.ofWhole 100, 1⟩]⟩

/-- After the price fell the mode is not tracked yet. The machine that resumes then tracks it at once and has no events
to give, and all the same it cannot be told from the one that was saved. -/
theorem Run.restart_unnoticed_fallen :
    restartFeed.current.price = fallenReached.feed.current.price ∧ restartFeed ≠ fallenReached.feed ∧
    (replay sampleStart fallenRequests).2.length < UInt64.size ∧ fallenReached.inRecovery = false ∧
    ∃ resumed, load fallenReached.save restartFeed = .ok resumed ∧ resumed.inRecovery = true ∧
      resumed.log ≠ fallenReached.log ∧ ∀ requests, observe resumed requests = observe fallenReached requests := by
  have hprice : restartFeed.current.price = fallenReached.feed.current.price := by decide +kernel
  have hfew : (replay sampleStart fallenRequests).2.length < UInt64.size := by decide +kernel
  obtain ⟨hwords, hrestart⟩ := Run.restart_unnoticed run_fallen hprice
  obtain ⟨resumed, hload, -, hobserve⟩ := hrestart (hwords hfew)
  have hflags : (load fallenReached.save restartFeed).map (fun resumed => (resumed.inRecovery, resumed.log)) =
      .ok (true, .empty) := by decide +kernel
  rw [hload] at hflags
  obtain ⟨hmode, hlog⟩ := Prod.mk.inj (Except.ok.inj hflags)
  have hevents : fallenReached.log ≠ .empty := by decide +kernel
  exact ⟨hprice, by decide +kernel, hfew, by decide +kernel, resumed, hload, hmode, hlog ▸ hevents.symm, hobserve⟩

end Machine

end CollateralDebt
