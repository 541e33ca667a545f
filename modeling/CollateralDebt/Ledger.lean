import CollateralDebt.Action
import CollateralDebt.Rewards

/-!
The ledger of troves: every record, the row of active owners, the rewards, and the totals. Settled amounts of
active troves make up the active pool; what was redistributed and is still pending makes up the default pool; both
together are the debt and collateral of the whole system. Operations that the owner of a trove asks for are
actions: they check first and write last.
-/

namespace CollateralDebt

/-- Debt and collateral of the active and the default pool. -/
structure Pools where
  /-- Settled collateral of active troves. -/
  activeCollateral : Amount
  /-- Settled debt of active troves. -/
  activeDebt : Amount
  /-- Redistributed collateral that no trove has settled. -/
  defaultCollateral : Amount
  /-- Redistributed debt that no trove has settled. -/
  defaultDebt : Amount
  deriving DecidableEq, Repr

namespace Pools

def empty : Pools := ⟨.zero, .zero, .zero, .zero⟩

def collateral (p : Pools) : Amount := p.activeCollateral.plusClamped p.defaultCollateral

def debt (p : Pools) : Amount := p.activeDebt.plusClamped p.defaultDebt

/-- The pools after a trove settles what was pending for it. -/
def settle (p : Pools) (pending : Pending) : Pools where
  defaultCollateral := p.defaultCollateral.minusClamped pending.collateral
  defaultDebt := p.defaultDebt.minusClamped pending.debt
  activeCollateral := p.activeCollateral.plusClamped pending.collateral
  activeDebt := p.activeDebt.plusClamped pending.debt

end Pools

/-- A total that follows a part of it from one value to another. -/
def Amount.follow (total before after : Amount) : Except Error Amount :=
  if before ≤ after then do
    let growth ← after.minus before
    total.plus growth
  else do
    let loss ← before.minus after
    total.minus loss

/-- All troves, and the totals over them. -/
structure Ledger where
  troves : SortedMap Address Trove
  /-- The owners of active troves; the record of each has its place in this row. -/
  owners : List Address
  rewards : Rewards
  pools : Pools
  /-- All debt that was ever drawn. -/
  minted : Amount
  /-- All debt that was ever repaid or cancelled. -/
  burned : Amount
  deriving DecidableEq

namespace Ledger

def empty : Ledger := ⟨.empty, [], .empty, .empty, .zero, .zero⟩

instance : Inhabited Ledger := ⟨empty⟩

def status (l : Ledger) (owner : Address) : TroveStatus :=
  match l.troves.get? owner with
  | some trove => trove.status
  | none => .nonExistent

def isActive (l : Ledger) (owner : Address) : Bool := l.status owner = .active

def activeTrove (l : Ledger) (owner : Address) : Except Error Trove :=
  match l.troves.get? owner with
  | none => .error (.troveNotFound owner.text)
  | some trove => trove.requireActive.map fun _ => trove

def activeCount (l : Ledger) : Nat := l.owners.length

def pending (l : Ledger) (owner : Address) : Except Error Pending := do
  let trove ← l.activeTrove owner
  l.rewards.pending trove

def entire (l : Ledger) (owner : Address) : Except Error EntireTrove := do
  let trove ← l.activeTrove owner
  l.rewards.entire trove

/-- The place of an owner taken out of a row: the last owner moves there. -/
def takeOut (owners : List Address) (slot : Nat) : List Address :=
  match owners.getLast? with
  | none => []
  | some last => (owners.set slot last).dropLast

/-- The ledger without an owner in its row; the owner who moved has the new place on record. Nothing changes if
the record of the owner does not have the owner's place. -/
def removeOwner (l : Ledger) (owner : Address) : Ledger :=
  match l.troves.get? owner with
  | none => l
  | some trove =>
      if l.owners[trove.slot]? = some owner then
        let owners := takeOut l.owners trove.slot
        match owners[trove.slot]? with
        | none => { l with owners }
        | some moved => { l with owners, troves := l.troves.update moved fun t => { t with slot := trove.slot } }
      else l

/-- The ledger with the trove of an owner closed. -/
def markClosed (l : Ledger) (owner : Address) (status : TroveStatus) : Ledger :=
  { l with troves := l.troves.update owner fun t => t.closed status }

/-- A trove is opened. Its snapshot is the level now, and its stake follows the basis of the last liquidation. -/
def openTrove (owner : Address) (collateral debt : Amount) : Action Ledger Trove := do
  let l ← get
  if l.isActive owner then throw (.troveAlreadyActive owner.text)
  if collateral.isZero then throw .zeroAmount
  let stake ← l.rewards.newStake collateral
  let activeCollateral ← l.pools.activeCollateral.plus collateral
  let activeDebt ← l.pools.activeDebt.plus debt
  let minted ← l.minted.plus debt
  let rewards ← l.rewards.replaceStake .zero stake
  let trove : Trove :=
    { owner, debt, collateral, stake, status := .active, slot := l.owners.length, snapshot := l.rewards.level }
  set { l with
    rewards, minted
    pools := { l.pools with activeCollateral, activeDebt }
    owners := l.owners ++ [owner]
    troves := l.troves.insert owner trove }
  (← get).activeTrove owner

/-- An active trove settles what is pending for it: the amounts move from the default to the active pool, and the
trove's snapshot is the level now. A second time, nothing changes. -/
def settlePending (owner : Address) : Action Ledger Pending := do
  let l ← get
  let trove ← l.activeTrove owner
  let pending ← l.rewards.pending trove
  let collateral ← trove.collateral.plus pending.collateral
  let debt ← trove.debt.plus pending.debt
  set { l with
    troves := l.troves.update owner fun t => { t with collateral, debt, snapshot := l.rewards.level }
    pools := l.pools.settle pending }
  return pending

/-- An active trove's stake is computed again from its collateral. -/
def refreshStake (owner : Address) : Action Ledger Amount := do
  let l ← get
  let trove ← l.activeTrove owner
  let stake ← l.rewards.newStake trove.collateral
  let rewards ← l.rewards.replaceStake trove.stake stake
  set { l with rewards, troves := l.troves.update owner fun t => { t with stake } }
  return stake

def removeStake (owner : Address) : Action Ledger Unit := do
  let l ← get
  let trove ← l.activeTrove owner
  set { l with
    rewards := l.rewards.removeStake trove.stake
    troves := l.troves.update owner fun t => { t with stake := .zero } }

/-- What is minted and burned after a debt changes from one value to another. -/
def mintOrBurn (l : Ledger) (before after : Amount) : Except Error (Amount × Amount) :=
  if before ≤ after then do
    let drawn ← after.minus before
    let minted ← l.minted.plus drawn
    return (minted, l.burned)
  else do
    let repaid ← before.minus after
    let burned ← l.burned.plus repaid
    return (l.minted, burned)

/-- An active trove settles what is pending for it and has its entire amounts set. Pools and counters follow the
change of the entire amounts, and the stake follows the collateral. -/
def adjust (owner : Address) (collateral debt : Amount) : Action Ledger (Pending × Trove) := do
  let l ← get
  if collateral.isZero then throw .zeroAmount
  let trove ← l.activeTrove owner
  let entire ← l.rewards.entire trove
  let pools := l.pools.settle entire.pending
  let activeCollateral ← pools.activeCollateral.follow entire.collateral collateral
  let activeDebt ← pools.activeDebt.follow entire.debt debt
  let (minted, burned) ← l.mintOrBurn entire.debt debt
  let stake ← l.rewards.newStake collateral
  let rewards ← l.rewards.replaceStake entire.stake stake
  set { l with rewards, minted, burned, pools := { pools with activeCollateral, activeDebt } }
  match (← get).troves.get? owner with
  | none => throw (.troveNotFound owner.text)
  | some record =>
      let adjusted := { record with collateral, debt, stake, snapshot := l.rewards.level }
      modify fun l => { l with troves := l.troves.insert owner adjusted }
      return (entire.pending, adjusted)

/-- An active trove is closed by its owner, who repays its entire debt. The result is the record with the entire
amounts, as it was before. -/
def closeByOwner (owner : Address) : Action Ledger Trove := do
  let l ← get
  let trove ← l.activeTrove owner
  if l.owners.length ≤ 1 then throw .lastTrove
  let entire ← l.rewards.entire trove
  let pools := l.pools.settle entire.pending
  let activeCollateral ← pools.activeCollateral.minus entire.collateral
  let activeDebt ← pools.activeDebt.minus entire.debt
  let burned ← l.burned.plus entire.debt
  let paid := { l with
    burned
    pools := { pools with activeCollateral, activeDebt }
    rewards := l.rewards.removeStake entire.stake }
  set ((paid.removeOwner owner).markClosed owner .closedByOwner)
  return { trove with collateral := entire.collateral, debt := entire.debt }

/-- The ledger after a trove is taken by a liquidation: what was pending is settled, and then the entire amounts
leave the active pool. -/
def closeLiquidated (l : Ledger) (owner : Address) (entire : EntireTrove) : Ledger :=
  let pools := l.pools.settle entire.pending
  let taken := { l with
    pools := { pools with
      activeCollateral := pools.activeCollateral.minusClamped entire.collateral
      activeDebt := pools.activeDebt.minusClamped entire.debt }
    rewards := l.rewards.removeStake entire.stake }
  (taken.removeOwner owner).markClosed owner .closedByLiquidation

/-- The ledger after a redistribution whose amounts have left the active pool. -/
def addToDefault (l : Ledger) (d : Redistribution) : Ledger :=
  { l with
    rewards := l.rewards.redistribute d
    pools := { l.pools with
      defaultCollateral := l.pools.defaultCollateral.plusClamped d.collateral
      defaultDebt := l.pools.defaultDebt.plusClamped d.debt } }

/-- Collateral and debt leave the active pool and are redistributed over all stakes. -/
def redistribute (collateral debt : Amount) : Action Ledger Unit := do
  let l ← get
  match ← l.rewards.redistribution collateral debt l.rewards.totalStakes with
  | none => return ()
  | some d =>
      let activeCollateral ← l.pools.activeCollateral.minus collateral
      let activeDebt ← l.pools.activeDebt.minus debt
      set ({ l with pools := { l.pools with activeCollateral, activeDebt } }.addToDefault d)

def burn (l : Ledger) (debt : Amount) : Ledger := { l with burned := l.burned.plusClamped debt }

/-- The ledger with the basis of new stakes taken from the totals now. -/
def rebase (l : Ledger) : Ledger := { l with rewards := l.rewards.rebase l.pools.collateral }

/-- A quantity of each active trove, added up. -/
def sumOver (l : Ledger) (quantity : Address → Except Error Amount) : Except Error Amount :=
  l.owners.foldlM (fun sum owner => do
    let more ← quantity owner
    sum.plus more) Amount.zero

def sumEntireDebt (l : Ledger) : Except Error Amount := l.sumOver fun owner => (l.entire owner).map EntireTrove.debt

def sumStakes (l : Ledger) : Except Error Amount := l.sumOver fun owner => (l.activeTrove owner).map Trove.stake

/-- Each owner of a row, from a place on, has an active trove with that place on record. -/
def checkSlots (l : Ledger) : Nat → List Address → Except Error Unit
  | _, [] => .ok ()
  | place, owner :: rest => do
      let trove ← l.activeTrove owner
      if trove.slot = place then l.checkSlots (place + 1) rest
      else .error (.invalidParameter "ledger"
        (owner.text ++ " stored at " ++ toString place ++ " but indexed " ++ toString trove.slot))

/-- The ledger is in order: its debt is what was minted and not burned, every owner stands at the place on
record, and the total of stakes is their sum. -/
def check (l : Ledger) : Except Error Unit := do
  let outstanding ← l.minted.minus l.burned
  if l.pools.debt ≠ outstanding then
    throw (.invalidParameter "ledger" ("pool debt " ++ l.pools.debt.text ++ " != minted " ++ l.minted.text
      ++ " - burned " ++ l.burned.text))
  l.checkSlots 0 l.owners
  let stakes ← l.sumStakes
  if stakes ≠ l.rewards.totalStakes then
    throw (.invalidParameter "ledger" ("stakes " ++ stakes.text ++ " != total " ++ l.rewards.totalStakes.text))

end Ledger

end CollateralDebt
