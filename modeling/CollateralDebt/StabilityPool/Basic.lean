import CollateralDebt.Action
import CollateralDebt.Params.Basic
import CollateralDebt.Requirement
import CollateralDebt.StabilityPool.Sum

/-!
The stability pool: deposits of debt tokens that cancel the debt of liquidated troves and receive their
collateral in proportion. Deposits are never walked through. A running product tells what is left of a deposit
since its snapshot, and a running sum of collateral gains, weighted by the product, tells what it has gained.
When the product would fall below the floor it is multiplied by a factor and the scale goes up by one; when an
offset consumes the whole pool, a new epoch begins with the product at one. There is one running sum for each
epoch and scale.
-/

namespace CollateralDebt

/-- An epoch of the pool and a scale within it, in the order in which they come. -/
structure Phase where
  /-- How often the pool was consumed. -/
  epoch : Nat
  /-- How often the product was scaled up since. -/
  scale : Nat
  deriving DecidableEq, Repr

namespace Phase

def first : Phase := ⟨0, 0⟩

instance : LT Phase := ⟨fun a b => a.epoch < b.epoch ∨ a.epoch = b.epoch ∧ a.scale < b.scale⟩

instance : DecidableLT Phase := fun a b =>
  inferInstanceAs (Decidable (a.epoch < b.epoch ∨ a.epoch = b.epoch ∧ a.scale < b.scale))

theorem lt_iff {a b : Phase} : a < b ↔ a.epoch < b.epoch ∨ a.epoch = b.epoch ∧ a.scale < b.scale := Iff.rfl

instance : Key Phase where
  decidableLT := inferInstance
  irrefl a := by simp [lt_iff]
  trans := by simp only [lt_iff]; omega
  eq_of_not_lt {a b} h h' := by
    cases a; cases b
    simp only [lt_iff, Phase.mk.injEq] at *
    omega

/-- The same epoch, one scale on. -/
def nextScale (p : Phase) : Phase := ⟨p.epoch, p.scale + 1⟩

def nextEpoch (p : Phase) : Phase := ⟨p.epoch + 1, 0⟩

end Phase

/-- The pool as a deposit saw it when it was last settled. -/
structure DepositSnapshot where
  product : Amount
  sum : RunningSum
  phase : Phase
  deriving DecidableEq, Repr

/-- A deposit in the pool. -/
structure Deposit where
  depositor : Address
  /-- Its value when it was last settled. -/
  initial : Amount
  snapshot : DepositSnapshot
  deriving DecidableEq, Repr

/-- What an operation does to a deposit. -/
structure DepositChange where
  depositor : Address
  gain : Amount
  /-- What offsets took from the deposit since it was last settled. -/
  loss : Amount
  withdrawn : Amount
  deposit : Amount
  deriving DecidableEq, Repr

/-- The pool of deposits. -/
structure StabilityPool where
  totalDeposits : Amount
  collateral : Amount
  product : Amount
  phase : Phase
  /-- The running sum of each phase that has one. -/
  sums : SortedMap Phase RunningSum
  /-- What the last division of collateral left over. -/
  carriedGain : Amount
  /-- What the last division of debt charged too much. -/
  carriedLoss : Amount
  deposits : SortedMap Address Deposit
  /-- The product is scaled up when it would fall below this. -/
  floor : Amount
  /-- The factor, in units, that scales the product up. -/
  factor : Amount
  offsets : Nat
  debtAbsorbed : Amount
  deriving DecidableEq

namespace StabilityPool

/-- A pool without deposits, with a floor and a factor for its product. -/
def new (floor factor : Amount) : StabilityPool where
  totalDeposits := .zero
  collateral := .zero
  product := .one
  phase := .first
  sums := .empty
  carriedGain := .zero
  carriedLoss := .zero
  deposits := .empty
  floor
  factor
  offsets := 0
  debtAbsorbed := .zero

/-- A pool without deposits, with the floor and the factor of the parameters. -/
def ofParams (p : Params) : StabilityPool := new (.ofWord p.productFloor) (.ofWord p.productFactor)

def sumAt (s : StabilityPool) (phase : Phase) : RunningSum := (s.sums.get? phase).getD .zero

/-- A value below one in so many parts of the initial deposit is taken for nothing. -/
def negligibleParts : Nat := 1_000_000_000

/-- What is left of a deposit of a value since a snapshot. Across one change of scale the factor is divided out
again; across two, or into a new epoch, nothing is left. -/
def compounded (s : StabilityPool) (initial : Amount) (snapshot : DepositSnapshot) : Except Error Amount :=
  if initial.isZero || snapshot.phase.epoch < s.phase.epoch then .ok .zero
  else do
    let left ←
      match s.phase.scale - snapshot.phase.scale with
      | 0 => initial.mulDiv s.product snapshot.product .down
      | 1 => do
          let raised ← initial.mulDiv s.product snapshot.product .down
          pure (raised.dividedBy s.factor.units)
      | _ => pure .zero
    if left.units < initial.units / negligibleParts then return .zero
    return left

/-- The collateral that a deposit of a value has gained since a snapshot: from the snapshot's own phase, and from
the next scale, where gains weigh less by the factor. -/
def gained (s : StabilityPool) (initial : Amount) (snapshot : DepositSnapshot) : Except Error Amount :=
  if initial.isZero then .ok .zero
  else
    let sum := (s.sumAt snapshot.phase).units
    if sum < snapshot.sum.units then .error (.underflow .sumSinceSnapshot)
    else
      let growth := sum - snapshot.sum.units + (s.sumAt snapshot.phase.nextScale).units / s.factor.units
      if RunningSum.bound ≤ initial.units * growth then .error (.overflow .depositorGain)
      else Amount.narrow (initial.units * growth / snapshot.product.units / Amount.scale) .depositorGain

def compoundedDeposit (s : StabilityPool) (depositor : Address) : Except Error Amount :=
  match s.deposits.get? depositor with
  | some deposit => s.compounded deposit.initial deposit.snapshot
  | none => .ok .zero

def depositorGain (s : StabilityPool) (depositor : Address) : Except Error Amount :=
  match s.deposits.get? depositor with
  | some deposit => s.gained deposit.initial deposit.snapshot
  | none => .ok .zero

/-- Where an account stands in the pool. -/
structure Position where
  /-- The value of its deposit when it was last settled. -/
  initial : Amount
  left : Amount
  gain : Amount

def position (s : StabilityPool) (depositor : Address) : Except Error Position :=
  match s.deposits.get? depositor with
  | none => .ok ⟨.zero, .zero, .zero⟩
  | some deposit => do
      let left ← s.compounded deposit.initial deposit.snapshot
      let gain ← s.gained deposit.initial deposit.snapshot
      return ⟨deposit.initial, left, gain⟩

/-- The pool with the deposit of an account set to a value and settled now; a deposit of nothing is no deposit. -/
def setDeposit (s : StabilityPool) (depositor : Address) (value : Amount) : StabilityPool :=
  if value.isZero then { s with deposits := s.deposits.erase depositor }
  else
    let snapshot := ⟨s.product, s.sumAt s.phase, s.phase⟩
    { s with deposits := s.deposits.insert depositor ⟨depositor, value, snapshot⟩ }

/-- An account adds to its deposit, and is paid the collateral it has gained. -/
def provide (depositor : Address) (amount : Amount) : Action StabilityPool DepositChange := do
  let s ← get
  Requirement.positive amount
  let position ← s.position depositor
  let deposit ← position.left.plus amount
  let totalDeposits ← s.totalDeposits.plus amount
  let paid := { s with totalDeposits, collateral := s.collateral.minusClamped position.gain }
  set (paid.setDeposit depositor deposit)
  return {
    depositor, deposit
    gain := position.gain
    loss := position.initial.minusClamped position.left
    withdrawn := .zero }

/-- An account takes out of its deposit as much as it asks for and has, and is paid the collateral it has
gained. -/
def withdraw (depositor : Address) (amount : Amount) : Action StabilityPool DepositChange := do
  let s ← get
  if !s.deposits.contains depositor then throw (.depositNotFound depositor.text)
  let position ← s.position depositor
  let withdrawn := min amount position.left
  let deposit ← position.left.minus withdrawn
  let paid := { s with
    totalDeposits := s.totalDeposits.minusClamped withdrawn
    collateral := s.collateral.minusClamped position.gain }
  set (paid.setDeposit depositor deposit)
  return {
    depositor, deposit, withdrawn
    gain := position.gain
    loss := position.initial.minusClamped position.left }

end StabilityPool

end CollateralDebt
