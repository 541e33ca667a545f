import CollateralDebt.Event.Basic
import CollateralDebt.Proofs.Ledger.Row
import CollateralDebt.Proofs.StabilityPool.Run
import CollateralDebt.Proofs.Surplus
import Mathlib.Data.List.DropRight

/-! What a list of events tells of the state. A trove stands as the last event about it says, a deposit is worth what
the last event about it says, and so for the level, the basis of stakes and the product; the balance of an account is
what was credited to it and not claimed. Each of these is kept when a part of the state changes and the event of that
change is added, and when events are added that are about something else. -/

namespace CollateralDebt

/-- What events can tell of a trove. -/
structure TroveStanding where
  status : TroveStatus
  debt : Amount
  collateral : Amount
  stake : Amount
  deriving DecidableEq

/-- A trove in which nothing is left. -/
def TroveStanding.emptied (status : TroveStatus) : TroveStanding := ⟨status, .zero, .zero, .zero⟩

def Trove.standing (t : Trove) : TroveStanding := ⟨t.status, t.debt, t.collateral, t.stake⟩

namespace Event

/-- How the trove of an owner stands after an event about it. -/
def standing? (owner : Address) : Event → Option TroveStanding
  | .troveUpdated e =>
      if e.borrower = owner then
        some (if e.operation = .closed then .emptied .closedByOwner else ⟨.active, e.debt, e.collateral, e.stake⟩)
      else none
  | .troveLiquidated e => if e.borrower = owner then some (.emptied .closedByLiquidation) else none
  | _ => none

/-- What an account has in the pool after an event about its deposit. -/
def deposit? (depositor : Address) : Event → Option Amount
  | .deposited e => if e.depositor = depositor then some e.deposit else none
  | .withdrawn e => if e.depositor = depositor then some e.deposit else none
  | _ => none

def level? : Event → Option Level
  | .levelUpdated level => some level
  | _ => none

def basis? : Event → Option Rebased
  | .rebased e => some e
  | _ => none

def product? : Event → Option (Amount × Phase)
  | .poolOffset e => some (e.product, e.phase)
  | _ => none

/-- How much surplus an event credits to an account. -/
def creditedTo (owner : Address) : Event → Nat
  | .surplusCredited e => if e.account = owner then e.amount.units else 0
  | _ => 0

/-- How much surplus an event pays to an account. -/
def claimedBy (owner : Address) : Event → Nat
  | .surplusClaimed e => if e.account = owner then e.amount.units else 0
  | _ => 0

/-- How much debt was in the trove that an event closes. -/
def liquidatedDebt : Event → Nat
  | .troveLiquidated e => e.debt.units
  | _ => 0

def liquidatedCollateral : Event → Nat
  | .troveLiquidated e => e.collateral.units
  | _ => 0

/-- How much surplus an event credits, to whomever. -/
def credited : Event → Nat
  | .surplusCredited e => e.amount.units
  | _ => 0

/-- The part of the state that an event is about. -/
inductive Topic where
  | troves
  | deposits
  | surplus
  | rewards
  | product
  | other
  deriving DecidableEq

def topic : Event → Topic
  | .troveUpdated _ | .troveLiquidated _ => .troves
  | .deposited _ | .withdrawn _ => .deposits
  | .surplusCredited _ | .surplusClaimed _ => .surplus
  | .levelUpdated _ | .rebased _ => .rewards
  | .poolOffset _ => .product
  | .liquidation _ | .gasCompensationPaid _ | .recoveryEntered _ | .recoveryExited _ => .other

section Topic

variable {e : Event}

theorem standing?_eq_none (h : e.topic ≠ .troves) (owner : Address) : e.standing? owner = none := by
  cases e with
  | troveUpdated | troveLiquidated => exact absurd rfl h
  | _ => rfl

theorem deposit?_eq_none (h : e.topic ≠ .deposits) (depositor : Address) : e.deposit? depositor = none := by
  cases e with
  | deposited | withdrawn => exact absurd rfl h
  | _ => rfl

theorem claimed_credited_eq_zero (h : e.topic ≠ .surplus) (owner : Address) :
    e.claimedBy owner = 0 ∧ e.creditedTo owner = 0 := by
  cases e with
  | surplusClaimed | surplusCredited => exact absurd rfl h
  | _ => exact ⟨rfl, rfl⟩

theorem level?_basis?_eq_none (h : e.topic ≠ .rewards) : e.level? = none ∧ e.basis? = none := by
  cases e with
  | levelUpdated | rebased => exact absurd rfl h
  | _ => exact ⟨rfl, rfl⟩

theorem product?_eq_none (h : e.topic ≠ .product) : e.product? = none := by
  cases e with
  | poolOffset => exact absurd rfl h
  | _ => rfl

end Topic

/-- Whether an event says what became of one trove of a batch. -/
def isOfBatch : Event → Bool
  | .troveLiquidated _ | .surplusCredited _ => true
  | _ => false

/-- Whether an event sums a batch up. -/
def isLiquidation : Event → Bool
  | .liquidation _ => true
  | _ => false

end Event

/-- The last thing that events tell of something. -/
def lastOf {α : Type} (f : Event → Option α) (events : List Event) : Option α := (events.filterMap f).getLast?

section Told

variable {α : Type} {f : Event → Option α} {events more : List Event}

theorem lastOf_append (f : Event → Option α) (events more : List Event) :
    lastOf f (events ++ more) = (lastOf f more).or (lastOf f events) := by
  unfold lastOf
  rw [List.filterMap_append, List.getLast?_append]

theorem lastOf_eq_none (h : ∀ e ∈ more, f e = none) : lastOf f more = none := by
  unfold lastOf
  rw [List.filterMap_eq_nil_iff.2 h, List.getLast?_nil]

theorem lastOf_append_silent (h : ∀ e ∈ more, f e = none) : lastOf f (events ++ more) = lastOf f events := by
  rw [lastOf_append, lastOf_eq_none h, Option.none_or]

theorem lastOf_append_eq_some {a : α} (h : lastOf f more = some a) : lastOf f (events ++ more) = some a := by
  rw [lastOf_append, h, Option.some_or]

theorem lastOf_singleton {event : Event} {a : α} (h : f event = some a) : lastOf f [event] = some a := by
  unfold lastOf
  rw [List.filterMap_cons_some h]
  rfl

theorem lastOf_concat {event : Event} {a : α} (h : f event = some a) : lastOf f (events ++ [event]) = some a :=
  lastOf_append_eq_some (lastOf_singleton h)

theorem sum_map_eq_zero {f : Event → Nat} (h : ∀ e ∈ more, f e = 0) : (more.map f).sum = 0 := by
  rw [List.map_congr_left h]
  exact List.sum_map_zero

theorem sum_append_silent {f : Event → Nat} (h : ∀ e ∈ more, f e = 0) :
    ((events ++ more).map f).sum = (events.map f).sum := by
  rw [List.map_append, List.sum_append, sum_map_eq_zero h, Nat.add_zero]

theorem sum_silent_append {f : Event → Nat} (h : ∀ e ∈ events, f e = 0) :
    ((events ++ more).map f).sum = (more.map f).sum := by
  rw [List.map_append, List.sum_append, sum_map_eq_zero h, Nat.zero_add]

end Told

/-! ## Troves -/

/-- Every trove stands as the last event about it says, and without one there is none. -/
def TrovesTold (events : List Event) (troves : SortedMap Address Trove) : Prop :=
  ∀ owner, (troves.get? owner).map Trove.standing = lastOf (Event.standing? owner) events

/-- Events about no trove but one. -/
def AboutTrove (owner : Address) (events : List Event) : Prop :=
  ∀ other, other ≠ owner → ∀ e ∈ events, e.standing? other = none

namespace TrovesTold

variable {events more : List Event} {troves : SortedMap Address Trove} {l : Ledger} {owner : Address} {t : Trove}

theorem later (h : TrovesTold events troves) (helse : ∀ e ∈ more, e.topic ≠ .troves) :
    TrovesTold (events ++ more) troves := by
  intro owner
  rw [lastOf_append_silent fun e hmem => Event.standing?_eq_none (helse e hmem) owner]
  exact h owner

theorem insert (h : TrovesTold events troves) (htold : lastOf (Event.standing? owner) more = some t.standing)
    (habout : AboutTrove owner more) : TrovesTold (events ++ more) (troves.insert owner t) := by
  intro other
  rw [SortedMap.get?_insert]
  by_cases hsame : other = owner
  · rw [if_pos hsame, hsame, lastOf_append_eq_some htold, Option.map_some]
  · rw [if_neg hsame, lastOf_append_silent (habout other hsame)]
    exact h other

/-- A trove leaves, and the place of another one in the row is brought up to date, which no event tells. -/
theorem leave (h : TrovesTold events l.troves) (hl : l.InOrder) (hfound : l.activeTrove owner = .ok t) (e : EntireTrove)
    {status : TroveStatus} (htold : lastOf (Event.standing? owner) more = some (.emptied status))
    (habout : AboutTrove owner more) : TrovesTold (events ++ more) (l.leave owner e status).troves := by
  intro other
  by_cases hsame : other = owner
  · rw [hsame, lastOf_append_eq_some htold, Ledger.get?_leave_self (Ledger.get?_of_activeTrove hfound).1]
    rfl
  · rw [lastOf_append_silent (habout other hsame), ← h other, hl.get?_leave_of_ne hfound hsame, Option.map_map]
    rfl

end TrovesTold

/-! ## Deposits -/

/-- Every deposit is worth what the last event about it says; a deposit of nothing is none. -/
def DepositsTold (events : List Event) (deposits : SortedMap Address Deposit) : Prop :=
  ∀ depositor, (deposits.get? depositor).map Deposit.initial =
    (lastOf (Event.deposit? depositor) events).filter fun value => !value.isZero

namespace DepositsTold

variable {events more : List Event} {deposits : SortedMap Address Deposit}

theorem later (h : DepositsTold events deposits) (helse : ∀ e ∈ more, e.topic ≠ .deposits) :
    DepositsTold (events ++ more) deposits := by
  intro depositor
  rw [lastOf_append_silent fun e hmem => Event.deposit?_eq_none (helse e hmem) depositor]
  exact h depositor

theorem settles {s s' : StabilityPool} {paidIn : Nat} {change : DepositChange} {event : Event}
    (h : DepositsTold events s.deposits) (hsettles : StabilityPool.Settles s paidIn change s')
    (htold : ∀ depositor, event.deposit? depositor =
      if change.depositor = depositor then some change.deposit else none) :
    DepositsTold (events ++ [event]) s'.deposits := by
  intro depositor
  by_cases hsame : depositor = change.depositor
  · have hlast := htold depositor
    rw [if_pos hsame.symm] at hlast
    rw [lastOf_concat hlast, hsame, hsettles.get?_self, Option.filter_some]
    cases hzero : change.deposit.isZero with
    | true => rfl
    | false => rfl
  · have hsilent : ∀ e ∈ [event], e.deposit? depositor = none := fun e hmem => by
      rw [List.mem_singleton.1 hmem, htold, if_neg fun hdepositor => hsame hdepositor.symm]
    rw [lastOf_append_silent hsilent, ← h depositor, hsettles.get?_of_ne hsame]

end DepositsTold

/-! ## Surplus -/

/-- The balance of every account, with what it has claimed, is what was credited to it. -/
def SurplusTold (events : List Event) (s : Surplus) : Prop :=
  ∀ owner, (s.balance owner).units + (events.map (Event.claimedBy owner)).sum =
    (events.map (Event.creditedTo owner)).sum

namespace SurplusTold

variable {events more : List Event} {s s' : Surplus} {owner : Address} {amount : Amount}

theorem later (h : SurplusTold events s) (helse : ∀ e ∈ more, e.topic ≠ .surplus) :
    SurplusTold (events ++ more) s := by
  intro owner
  have hzero := fun e hmem => Event.claimed_credited_eq_zero (helse e hmem) owner
  rw [sum_append_silent fun e hmem => (hzero e hmem).1, sum_append_silent fun e hmem => (hzero e hmem).2]
  exact h owner

theorem credit (h : SurplusTold events s) (hbalanced : s.Balanced) (hfits : s.total.units + amount.units < 2 ^ 128) :
    SurplusTold (events ++ [.surplusCredited ⟨owner, amount⟩]) (s.credit owner amount) := by
  intro other
  have hbefore := h other
  rw [List.map_append, List.sum_append, List.map_append, List.sum_append, hbalanced.balance_credit owner hfits other,
    List.map_singleton, List.sum_singleton, List.map_singleton, List.sum_singleton]
  dsimp only [Event.claimedBy, Event.creditedTo]
  omega

theorem claim (h : SurplusTold events s) (hdone : Action.perform (Surplus.claim owner) s = (s', .ok amount)) :
    SurplusTold (events ++ [.surplusClaimed ⟨owner, amount⟩]) s' := by
  intro other
  have hbefore := h other
  have hpaid := Surplus.balance_claim hdone other
  rw [List.map_append, List.sum_append, List.map_append, List.sum_append, List.map_singleton, List.sum_singleton,
    List.map_singleton, List.sum_singleton]
  dsimp only [Event.claimedBy, Event.creditedTo]
  omega

end SurplusTold

/-! ## Levels, the basis of stakes, and the product -/

/-- The level of redistributions and the basis of new stakes are those of the last events that gave them. -/
structure RewardsTold (events : List Event) (r : Rewards) : Prop where
  level : r.level = (lastOf Event.level? events).getD .zero
  basis : (⟨r.stakesBasis, r.collateralBasis⟩ : Rebased) = (lastOf Event.basis? events).getD ⟨.zero, .zero⟩

namespace RewardsTold

variable {events more : List Event} {r r' : Rewards}

theorem later (h : RewardsTold events r) (hsame : r' = { r with totalStakes := r'.totalStakes })
    (helse : ∀ e ∈ more, e.topic ≠ .rewards) : RewardsTold (events ++ more) r' := by
  have hsilent := fun e hmem => Event.level?_basis?_eq_none (helse e hmem)
  rw [hsame]
  constructor
  · rw [lastOf_append_silent fun e hmem => (hsilent e hmem).1]
    exact h.level
  · rw [lastOf_append_silent fun e hmem => (hsilent e hmem).2]
    exact h.basis

theorem redistribute (h : RewardsTold events r) (d : Redistribution) :
    RewardsTold (events ++ [.levelUpdated d.level]) (r.redistribute d) := by
  have hlevel : Event.level? (.levelUpdated d.level) = some d.level := rfl
  constructor
  · rw [lastOf_concat hlevel]
    rfl
  · rw [lastOf_append_silent fun e hmem => by rw [List.mem_singleton.1 hmem]; rfl]
    exact h.basis

theorem rebase (h : RewardsTold events r) (collateral : Amount) :
    RewardsTold (events ++ [.rebased ⟨r.totalStakes, collateral⟩]) (r.rebase collateral) := by
  have hbasis : Event.basis? (.rebased ⟨r.totalStakes, collateral⟩) = some ⟨r.totalStakes, collateral⟩ := rfl
  constructor
  · rw [lastOf_append_silent fun e hmem => by rw [List.mem_singleton.1 hmem]; rfl]
    exact h.level
  · rw [lastOf_concat hbasis]
    rfl

end RewardsTold

/-- The product and the phase of a pool are those after the last offset. -/
def ProductTold (events : List Event) (s : StabilityPool) : Prop :=
  (s.product, s.phase) = (lastOf Event.product? events).getD (.one, .first)

theorem ProductTold.later {events more : List Event} {s s' : StabilityPool} (h : ProductTold events s)
    (hproduct : s'.product = s.product) (hphase : s'.phase = s.phase) (helse : ∀ e ∈ more, e.topic ≠ .product) :
    ProductTold (events ++ more) s' := by
  unfold ProductTold
  rw [lastOf_append_silent fun e hmem => Event.product?_eq_none (helse e hmem), hproduct, hphase]
  exact h

theorem productTold_applyOffset (events : List Event) (s : StabilityPool) (o : Offset) :
    ProductTold (events ++ [.poolOffset ⟨o.debtLoss, o.collateralGain, o.product, o.sum, o.phase⟩]) (s.applyOffset o) := by
  have hproduct : Event.product? (.poolOffset ⟨o.debtLoss, o.collateralGain, o.product, o.sum, o.phase⟩) =
    some (o.product, o.phase) := rfl
  unfold ProductTold
  rw [lastOf_concat hproduct]
  rfl

/-! ## Batches -/

/-- The events since the last batch was summed up. -/
def batchOf (events : List Event) : List Event := events.rtakeWhile fun e => !e.isLiquidation

/-- Totals are those of the troves that a batch liquidated and of what it credited to their owners. -/
structure SumsUp (e : BatchLiquidated) (batch : List Event) : Prop where
  debt : e.debt.units = (batch.map Event.liquidatedDebt).sum
  collateral : e.collateral.units = (batch.map Event.liquidatedCollateral).sum
  surplus : e.surplus.units = (batch.map Event.credited).sum

/-- Every event that sums a batch up has its totals. -/
def BatchesSummed (events : List Event) : Prop :=
  ∀ before e after, events = before ++ .liquidation e :: after → SumsUp e (batchOf before)

/-- Every batch is summed up, and outside of batches no trove is liquidated and nothing is credited. -/
structure Reconciled (events : List Event) : Prop where
  summed : BatchesSummed events
  outside : ∀ e ∈ batchOf events, e.isOfBatch = false

/-- Events that neither sum a batch up nor belong to one. -/
def Unbatched (events : List Event) : Prop := ∀ e ∈ events, e.isLiquidation = false ∧ e.isOfBatch = false

section Batch

variable {events more : List Event}

theorem batchOf_concat (events : List Event) {event : Event} (h : event.isLiquidation = false) :
    batchOf (events ++ [event]) = batchOf events ++ [event] :=
  List.rtakeWhile_concat_pos _ _ _ (by rw [h]; rfl)

theorem batchOf_concat_liquidation (events : List Event) (e : BatchLiquidated) :
    batchOf (events ++ [.liquidation e]) = [] := List.rtakeWhile_concat_neg _ _ _ Bool.false_ne_true

theorem batchOf_append (events : List Event) (h : ∀ e ∈ more, e.isLiquidation = false) :
    batchOf (events ++ more) = batchOf events ++ more := by
  induction more using List.reverseRecOn with
  | nil => rw [List.append_nil, List.append_nil]
  | append_singleton more event ih =>
      have hrest := ih fun e hmem => h e (List.mem_append_left _ hmem)
      have hlast := h event (List.mem_append_right _ (List.mem_singleton_self event))
      rw [← List.append_assoc, batchOf_concat _ hlast, hrest, List.append_assoc]

/-- One more event leaves what was summed up as it is, and is itself right if it sums up what came before it. -/
theorem BatchesSummed.concat {event : Event} (h : BatchesSummed events)
    (hnew : ∀ e, event = .liquidation e → SumsUp e (batchOf events)) : BatchesSummed (events ++ [event]) := by
  intro before e after hsplit
  rcases List.eq_nil_or_concat after with rfl | ⟨rest, last, rfl⟩
  · obtain ⟨rfl, hlast⟩ := List.append_inj' hsplit rfl
    exact hnew e (List.cons.inj hlast).1
  · rw [List.concat_eq_append, ← List.cons_append, ← List.append_assoc] at hsplit
    exact h before e rest (List.append_inj' hsplit rfl).1

theorem BatchesSummed.append (h : BatchesSummed events) (hnone : ∀ e ∈ more, e.isLiquidation = false) :
    BatchesSummed (events ++ more) := by
  induction more using List.reverseRecOn with
  | nil =>
      rw [List.append_nil]
      exact h
  | append_singleton more event ih =>
      have hlast := hnone event (List.mem_append_right _ (List.mem_singleton_self event))
      rw [← List.append_assoc]
      refine (ih fun e hmem => hnone e (List.mem_append_left _ hmem)).concat fun e hsame => ?_
      rw [hsame] at hlast
      cases hlast

theorem reconciled_nil : Reconciled [] :=
  ⟨fun before _ _ h => absurd h.symm (List.append_ne_nil_of_right_ne_nil before (List.cons_ne_nil _ _)),
    fun _ hmem => nomatch hmem⟩

theorem Reconciled.later (h : Reconciled events) (hmore : Unbatched more) : Reconciled (events ++ more) := by
  have hnone : ∀ e ∈ more, e.isLiquidation = false := fun e hmem => (hmore e hmem).1
  refine ⟨h.summed.append hnone, fun e hmem => ?_⟩
  rw [batchOf_append _ hnone] at hmem
  rcases List.mem_append.1 hmem with hearlier | hnew
  · exact h.outside e hearlier
  · exact (hmore e hnew).2

theorem Event.counts_zero {e : Event} (h : e.isOfBatch = false) :
    e.liquidatedDebt = 0 ∧ e.liquidatedCollateral = 0 ∧ e.credited = 0 := by
  cases e with
  | troveLiquidated | surplusCredited => cases h
  | _ => exact ⟨rfl, rfl, rfl⟩

/-- What happens outside of a batch does not count for it. -/
theorem SumsUp.pad {e : BatchLiquidated} {before after : List Event} (h : SumsUp e more)
    (hbefore : ∀ e ∈ before, e.isOfBatch = false) (hafter : ∀ e ∈ after, e.isOfBatch = false) :
    SumsUp e (before ++ (more ++ after)) := by
  have hzero := fun e hmem => Event.counts_zero (hbefore e hmem)
  have hzero' := fun e hmem => Event.counts_zero (hafter e hmem)
  constructor
  · rw [sum_silent_append fun e hmem => (hzero e hmem).1, sum_append_silent fun e hmem => (hzero' e hmem).1]
    exact h.debt
  · rw [sum_silent_append fun e hmem => (hzero e hmem).2.1, sum_append_silent fun e hmem => (hzero' e hmem).2.1]
    exact h.collateral
  · rw [sum_silent_append fun e hmem => (hzero e hmem).2.2, sum_append_silent fun e hmem => (hzero' e hmem).2.2]
    exact h.surplus

/-- A batch, and the event that sums it up. -/
theorem Reconciled.batch {e : BatchLiquidated} {after : List Event} (h : Reconciled events)
    (hnone : ∀ e ∈ more, e.isLiquidation = false) (hafter : Unbatched after) (hsums : SumsUp e more) :
    Reconciled (events ++ (more ++ after) ++ [.liquidation e]) := by
  have hopen : ∀ e ∈ more ++ after, e.isLiquidation = false := fun e hmem =>
    (List.mem_append.1 hmem).elim (hnone e) fun hmem => (hafter e hmem).1
  constructor
  · refine (h.summed.append hopen).concat fun e' hsame => ?_
    cases hsame
    rw [batchOf_append _ hopen]
    exact hsums.pad h.outside fun e hmem => (hafter e hmem).2
  · rw [batchOf_concat_liquidation]
    exact fun _ hmem => nomatch hmem

end Batch

end CollateralDebt
