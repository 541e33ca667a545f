import CollateralDebt.Proofs.Machine.AllOrNothing
import Mathlib.Algebra.BigOperators.Group.List.Basic
import Mathlib.Data.List.Infix

/-! Runs of the machine from a state without troves, deposits and surplus: any operations in any order, refused ones
among them, and prices set at any time. A transcript lists the operations that were done with what they gave, the
latest first. Whatever list of requests a new machine is handed, answering them in order is a run (`run_replay`). -/

open CollateralDebt.Action

namespace CollateralDebt

/-- Operations that were done, with what they gave, the latest first. -/
abbrev Transcript := List (Operation × OperationResult)

namespace Transcript

/-- How many troves settled what was pending in one operation. -/
def settlementsOf : Operation × OperationResult → Nat
  | (.adjustTrove .., _) | (.closeTrove _, _) => 1
  | (_, .liquidation outcome) => outcome.liquidated.length
  | _ => 0

/-- How much collateral one operation locked in a trove. -/
def lockedBy : Operation × OperationResult → Nat
  | (.openTrove _ collateral _, _) => collateral.units
  | (.adjustTrove _ (.increase amount) _, _) => amount.units
  | _ => 0

/-- How much collateral one operation gave back to the owner of a trove. -/
def returnedBy : Operation × OperationResult → Nat
  | (.adjustTrove _ (.decrease amount) _, _) => amount.units
  | (.closeTrove _, .closed collateral) => collateral.units
  | _ => 0

/-- How much collateral one operation paid to the caller of a liquidation. -/
def gasPaidBy : Operation × OperationResult → Nat
  | (_, .liquidation outcome) => outcome.totals.gasCompensation.units
  | _ => 0

/-- How much collateral the offset of one operation credited to the stability pool. -/
def gainedBy : Operation × OperationResult → Nat
  | (_, .liquidation outcome) => outcome.offset.elim 0 fun o => o.collateralGain.units
  | _ => 0

/-- How much surplus collateral one operation credited to former owners. -/
def creditedBy : Operation × OperationResult → Nat
  | (_, .liquidation outcome) => (outcome.liquidated.map fun v => v.surplus.units).sum
  | _ => 0

/-- How much surplus collateral one operation paid to a former owner. -/
def claimedBy : Operation × OperationResult → Nat
  | (_, .surplus amount) => amount.units
  | _ => 0

/-- How much collateral left all troves by one operation. -/
def releasedBy (step : Operation × OperationResult) : Nat :=
  returnedBy step + gasPaidBy step + gainedBy step + creditedBy step

def settlements (t : Transcript) : Nat := (t.map settlementsOf).sum

def locked (t : Transcript) : Nat := (t.map lockedBy).sum

def returned (t : Transcript) : Nat := (t.map returnedBy).sum

def gasPaid (t : Transcript) : Nat := (t.map gasPaidBy).sum

def gained (t : Transcript) : Nat := (t.map gainedBy).sum

def credited (t : Transcript) : Nat := (t.map creditedBy).sum

def claimed (t : Transcript) : Nat := (t.map claimedBy).sum

def released (t : Transcript) : Nat := (t.map releasedBy).sum

theorem locked_cons (step : Operation × OperationResult) (t : Transcript) :
    locked (step :: t) = lockedBy step + t.locked := rfl

/-- What a liquidation adds to what is credited. It pays no surplus out. -/
theorem credits_liquidation (operation : Operation) (outcome : LiquidationOutcome) (t : Transcript) :
    gained ((operation, .liquidation outcome) :: t) =
      (outcome.offset.elim 0 fun o => o.collateralGain.units) + t.gained ∧
    credited ((operation, .liquidation outcome) :: t) =
      (outcome.liquidated.map fun v => v.surplus.units).sum + t.credited ∧
    claimed ((operation, .liquidation outcome) :: t) = t.claimed := ⟨rfl, rfl, Nat.zero_add _⟩

theorem lockedBy_openTrove (owner : Address) (collateral debt : Amount) (result : OperationResult) :
    lockedBy (.openTrove owner collateral debt, result) = collateral.units := rfl

theorem lockedBy_unchanged (owner : Address) (debt : AmountChange) (result : OperationResult) :
    lockedBy (.adjustTrove owner .unchanged debt, result) = 0 := rfl

theorem released_eq (t : Transcript) : t.released = t.returned + t.gasPaid + t.gained + t.credited := by
  unfold released returned gasPaid gained credited
  rw [← List.sum_map_add, ← List.sum_map_add, ← List.sum_map_add]
  rfl

/-- What was locked and not released was an amount after each of the operations. -/
def InRange (t : Transcript) : Prop :=
  ∀ earlier ∈ t.tails, Transcript.locked earlier < Transcript.released earlier + 2 ^ 128

instance (t : Transcript) : Decidable t.InRange :=
  inferInstanceAs (Decidable (∀ earlier ∈ t.tails, Transcript.locked earlier < Transcript.released earlier + 2 ^ 128))

theorem InRange.locked_lt {t : Transcript} (h : t.InRange) : t.locked < t.released + 2 ^ 128 :=
  h t ((List.mem_tails _ _).2 (List.suffix_refl t))

theorem inRange_iff {t : Transcript} :
    t.InRange ↔ t.locked < t.released + 2 ^ 128 ∧ InRange t.tail := by
  cases t with
  | nil => exact ⟨fun h => ⟨h.locked_lt, h⟩, And.right⟩
  | cons step earlier =>
      unfold InRange
      rw [List.tails_cons, List.forall_mem_cons, List.tail_cons]

theorem InRange.tail {t : Transcript} (h : t.InRange) : InRange t.tail := (inRange_iff.1 h).2

/-- What was locked at any time is not more than what was locked in all. -/
theorem inRange_of_locked_lt {t : Transcript} (h : t.locked < 2 ^ 128) : t.InRange := by
  intro earlier hmem
  obtain ⟨later, rfl⟩ := (List.mem_tails _ _).1 hmem
  have hall : locked (later ++ earlier) = locked later + locked earlier := by
    unfold locked
    rw [List.map_append, List.sum_append]
  omega

end Transcript

namespace Machine

/-- A machine that was reached, for parameters, with what was done on the way. -/
inductive Run (p : Params) : Machine → Transcript → Prop where
  | start {feed : PriceFeed} {m : Machine} (h : create p feed = .ok m) : Run p m []
  | done {m m' : Machine} {t : Transcript} {operation : Operation} {result : OperationResult} (h : Run p m t)
      (hdone : perform (execute operation) m = (m', .ok result)) : Run p m' ((operation, result) :: t)
  | refused {m m' : Machine} {t : Transcript} {operation : Operation} {e : Error} (h : Run p m t)
      (hrefused : perform (execute operation) m = (m', .error e)) : Run p m' t
  | priced {m m' : Machine} {t : Transcript} {price : Amount} {result : Except Error Unit} (h : Run p m t)
      (hpriced : perform (setPrice price) m = (m', result)) : Run p m' t

end Machine

/-- What a machine can be asked from outside: an operation, or to take note of a price. -/
inductive Request where
  | operation (operation : Operation)
  | price (price : Amount)

namespace Machine

/-- The machine and the transcript after a request, refused or not. -/
def answer (reached : Machine × Transcript) : Request → Machine × Transcript
  | .operation operation =>
      match perform (execute operation) reached.1 with
      | (m, .ok result) => (m, (operation, result) :: reached.2)
      | (m, .error _) => (m, reached.2)
  | .price price => ((perform (setPrice price) reached.1).1, reached.2)

/-- The machine and the transcript after a list of requests. -/
def replay (m : Machine) (requests : List Request) : Machine × Transcript := requests.foldl answer (m, [])

theorem run_answer {p : Params} {reached : Machine × Transcript} (h : Run p reached.1 reached.2) (request : Request) :
    Run p (answer reached request).1 (answer reached request).2 := by
  unfold answer
  cases request with
  | operation operation =>
      dsimp only
      split
      · next m result hdone => exact h.done hdone
      · next m e hrefused => exact h.refused hrefused
  | price price => exact h.priced rfl

theorem run_replay {p : Params} {feed : PriceFeed} {m : Machine} (h : create p feed = .ok m)
    (requests : List Request) : Run p (replay m requests).1 (replay m requests).2 :=
  List.foldlRecOn (motive := fun reached => Run p reached.1 reached.2) requests answer (.start h)
    fun _ hreached request _ => run_answer hreached request

theorem create_eq_ok {p : Params} {feed : PriceFeed} {m : Machine} (h : create p feed = .ok m) :
    p.check = .ok () ∧ m.state = .empty p ∧ m.history = .new p.historyLimit.toNat ∧ m.log = .empty := by
  unfold create at h
  obtain ⟨state, hstate, h⟩ := except_bind_eq_ok.1 h
  obtain ⟨_, hcheck, rfl⟩ := except_map_eq_ok.1 hstate
  unfold resume at h
  obtain ⟨_, -, h⟩ := except_bind_eq_ok.1 h
  obtain ⟨_, -, h⟩ := except_bind_eq_ok.1 h
  cases h
  exact ⟨hcheck, rfl, rfl, rfl⟩

/-- A price that is set, or refused, changes nothing but the source of prices. -/
theorem setPrice_frame {m m' : Machine} {price : Amount} {result : Except Error Unit}
    (h : perform (setPrice price) m = (m', result)) : ∃ feed, m' = { m with feed } := by
  unfold setPrice at h
  rw [perform_onPart] at h
  obtain ⟨rfl, -⟩ := Prod.mk.inj h
  exact ⟨_, rfl⟩

/-- What holds at the start of every run and is kept by every operation holds of every machine reached. -/
theorem Run.induct {p : Params} {motive : Liquidator → Transcript → Prop}
    (hstart : motive ⟨.empty, .ofParams p, .empty, .new p.historyLimit.toNat⟩ [])
    (hstep : ∀ s s' t feed operation result, motive s t → Effect p feed s operation result s' →
      motive s' ((operation, result) :: t))
    {m : Machine} {t : Transcript} (h : Run p m t) : m.state.params = p ∧ motive m.liquidator t := by
  induction h with
  | start hcreate =>
      obtain ⟨-, hstate, hhistory, -⟩ := create_eq_ok hcreate
      rw [liquidator, hstate, hhistory]
      exact ⟨rfl, hstart⟩
  | done h hdone ih =>
      obtain ⟨heffect, hsetting⟩ := effect_of_execute hdone
      rw [ih.1] at heffect
      exact ⟨hsetting.params_eq.trans ih.1, hstep _ _ _ _ _ _ ih.2 heffect⟩
  | @refused m m' t operation e h hrefused ih =>
      -- Nothing is known of how far a refused operation came, but all of it is as it was.
      have hsame : m' = m := execute_allOrNothing _ _ _ _ hrefused
      rw [hsame]
      exact ih
  | priced h hpriced ih =>
      obtain ⟨feed, rfl⟩ := setPrice_frame hpriced
      exact ih

theorem Run.params_eq {p : Params} {m : Machine} {t : Transcript} (h : Run p m t) : m.state.params = p :=
  (Run.induct (motive := fun _ _ => True) trivial (fun _ _ _ _ _ _ _ _ => trivial) h).1

theorem create_sample : create .standard sampleFeed = .ok sampleStart := rfl

/-- Two of three troves are liquidated, with a deposit that does for the first one only; the third one settles in
between and a fourth is opened. A trove that does not exist is asked to be closed, and one is liquidated twice. -/
def sampleRequests : List Request := [
  .operation (.openTrove (.ofWord 1) (.ofWhole 20) (.ofWhole 2000)),
  .operation (.openTrove (.ofWord 2) (.ofWhole 1000) (.ofWhole 20000)),
  .operation (.openTrove (.ofWord 3) (.ofWhole 40) (.ofWhole 4000)),
  .operation (.provide (.ofWord 2) (.ofWhole 1500)),
  .price (.ofWhole 105),
  .operation (.liquidate (.ofWord 4) (.ofWord 1)),
  .operation (.adjustTrove (.ofWord 2) .unchanged (.decrease (.ofWhole 100))),
  .operation (.closeTrove (.ofWord 4)),
  .operation (.openTrove (.ofWord 5) (.ofWhole 1000) (.ofWhole 20000)),
  .operation (.liquidateBatch (.ofWord 4) [.ofWord 3, .ofWord 1])]

def sampleReached : Machine := (replay sampleStart sampleRequests).1

def sampleTranscript : Transcript := (replay sampleStart sampleRequests).2

theorem run_sample : Run .standard sampleReached sampleTranscript := run_replay create_sample sampleRequests

end Machine

end CollateralDebt
