import CollateralDebt.State.Basic

/-!
The state as bytes, and the digest that identifies it. Fields stand one after the other in a fixed order; maps
are written in the order of their keys, so that a state has one encoding.
-/

namespace CollateralDebt

def Params.format : Format Params :=
  (Format.amount.pair <| Format.amount.pair <| Format.word.pair <| Format.amount.pair <| Format.amount.pair <|
    Format.word.pair <| Format.word.pair Format.word).record
    (fun (a, b, c, d, e, f, g, h) => ⟨a, b, c, d, e, f, g, h⟩)
    (fun p => (p.minimumRatio, p.criticalRatio, p.gasDivisor, p.gasFloor, p.minimumDebt, p.productFloor,
      p.productFactor, p.historyLimit))
    (fun _ => rfl) (fun _ => rfl)

def Level.format : Format Level :=
  (Format.amount.pair Format.amount).record (fun (a, b) => ⟨a, b⟩) (fun l => (l.collateral, l.debt))
    (fun _ => rfl) (fun _ => rfl)

def TroveStatus.number : TroveStatus → Nat
  | .nonExistent => 0
  | .active => 1
  | .closedByOwner => 2
  | .closedByLiquidation => 3

def TroveStatus.ofNumber? : Nat → Option TroveStatus
  | 0 => some .nonExistent
  | 1 => some .active
  | 2 => some .closedByOwner
  | 3 => some .closedByLiquidation
  | _ => none

/-- A status as its number, in four bytes. -/
def TroveStatus.format : Format TroveStatus :=
  (Format.number 4).convert TroveStatus.ofNumber? TroveStatus.number (fun s => by cases s <;> rfl)
    (fun _ s _ _ => by cases s <;> (show _ < Nat.pow 256 4; decide))

def Trove.format : Format Trove :=
  (Format.address.pair <| Format.amount.pair <| Format.amount.pair <| Format.amount.pair <|
    TroveStatus.format.pair <| Format.count.pair Level.format).record
    (fun (a, b, c, d, e, f, g) => ⟨a, b, c, d, e, f, g⟩)
    (fun t => (t.owner, t.debt, t.collateral, t.stake, t.status, t.slot, t.snapshot))
    (fun _ => rfl) (fun _ => rfl)

def Rewards.format : Format Rewards :=
  (Level.format.pair <| Format.amount.pair <| Format.amount.pair <| Format.amount.pair <|
    Format.amount.pair Format.amount).record
    (fun (a, b, c, d, e, f) => ⟨a, b, c, d, e, f⟩)
    (fun r => (r.level, r.carriedCollateral, r.carriedDebt, r.totalStakes, r.stakesBasis, r.collateralBasis))
    (fun _ => rfl) (fun _ => rfl)

def Pools.format : Format Pools :=
  (Format.amount.pair <| Format.amount.pair <| Format.amount.pair Format.amount).record
    (fun (a, b, c, d) => ⟨a, b, c, d⟩)
    (fun p => (p.activeCollateral, p.activeDebt, p.defaultCollateral, p.defaultDebt))
    (fun _ => rfl) (fun _ => rfl)

def Ledger.format : Format Ledger :=
  ((Format.map Format.address Trove.format).pair <| Format.address.list.pair <| Rewards.format.pair <|
    Pools.format.pair <| Format.amount.pair Format.amount).record
    (fun (a, b, c, d, e, f) => ⟨a, b, c, d, e, f⟩)
    (fun l => (l.troves, l.owners, l.rewards, l.pools, l.minted, l.burned))
    (fun _ => rfl) (fun _ => rfl)

/-- A phase as bytes, the epoch first. -/
def Phase.format : Format Phase :=
  (Format.count.pair Format.count).record (fun (a, b) => ⟨a, b⟩) (fun p => (p.epoch, p.scale))
    (fun _ => rfl) (fun _ => rfl)

def DepositSnapshot.format : Format DepositSnapshot :=
  (Format.amount.pair <| RunningSum.format.pair Phase.format).record (fun (a, b, c) => ⟨a, b, c⟩)
    (fun s => (s.product, s.sum, s.phase)) (fun _ => rfl) (fun _ => rfl)

def Deposit.format : Format Deposit :=
  (Format.address.pair <| Format.amount.pair DepositSnapshot.format).record (fun (a, b, c) => ⟨a, b, c⟩)
    (fun d => (d.depositor, d.initial, d.snapshot)) (fun _ => rfl) (fun _ => rfl)

/-- A pool as bytes; of its phase, the scale stands first. -/
def StabilityPool.format : Format StabilityPool :=
  (Format.amount.pair <| Format.amount.pair <| Format.amount.pair <| Format.count.pair <| Format.count.pair <|
    (Format.map Phase.format RunningSum.format).pair <| Format.amount.pair <| Format.amount.pair <|
    (Format.map Format.address Deposit.format).pair <| Format.amount.pair <| Format.amount.pair <|
    Format.count.pair Format.amount).record
    (fun (a, b, c, scale, epoch, d, e, f, g, h, i, j, k) => ⟨a, b, c, ⟨epoch, scale⟩, d, e, f, g, h, i, j, k⟩)
    (fun s => (s.totalDeposits, s.collateral, s.product, s.phase.scale, s.phase.epoch, s.sums, s.carriedGain,
      s.carriedLoss, s.deposits, s.floor, s.factor, s.offsets, s.debtAbsorbed))
    (fun _ => rfl) (fun _ => rfl)

def Surplus.format : Format Surplus :=
  ((Format.map Format.address Format.amount).pair Format.amount).record (fun (a, b) => ⟨a, b⟩)
    (fun s => (s.balances, s.total)) (fun _ => rfl) (fun _ => rfl)

namespace State

/-- A state as bytes, the version first, in four bytes. -/
def format : Format State :=
  ((Format.number 4).pair <| Params.format.pair <| Ledger.format.pair <|
    StabilityPool.format.pair Surplus.format).record
    (fun (a, b, c, d, e) => ⟨a, b, c, d, e⟩)
    (fun s => (s.version, s.params, s.ledger, s.pool, s.surplus)) (fun _ => rfl) (fun _ => rfl)

def encode (s : State) : List UInt8 := format.write s

def unreadable : Error := .deserialization "not a state"

/-- The state that a row of bytes starts with, of the version that is read. -/
def decode (bytes : List UInt8) : Except Error State :=
  match format.decode? bytes with
  | none => .error unreadable
  | some s =>
      if s.version = currentVersion then .ok s
      else .error (.deserialization ("unsupported state version " ++ toString s.version))

/-- The state that a row of bytes starts with, whose parameters must make sense. -/
def load (bytes : List UInt8) : Except Error State := do
  let s ← decode bytes
  s.params.check
  return s

def digest (s : State) : Digest := Digest.sha256 s.encode

end State

end CollateralDebt
