import CollateralDebt.Proofs.Liquidation.Isolation
import CollateralDebt.Proofs.Machine.Order
import CollateralDebt.Proofs.Machine.Settlement

/-! Accounts do not get in each other's way. All troves share the levels, the pools and the total of stakes, and the row
of owners moves one of them when another leaves; and yet an operation of one owner shows in nobody else's record or
entire amounts, nor in the stability pool or in the surplus. A liquidation shows in what is pending for those who are
left, and there by their shares of what is redistributed. -/

open CollateralDebt.Action

namespace CollateralDebt

namespace Machine

variable {p : Params} {m m' : Machine} {t : Transcript} {operation : Operation} {result : OperationResult}
  {owner : Address}

theorem Run.ledger_sound (h : Run p m t) (hlocked : t.locked < 2 ^ 128) : m.state.ledger.Sound :=
  h.accounted.ledger_sound (Transcript.inRange_of_locked_lt hlocked)

/-- What an owner does to a trove is not seen by others, and touches neither the pool nor the surplus. -/
theorem alikeFor_of_effect {feed : PriceFeed} {s s' : Liquidator} (howner : operation.borrower? = some owner)
    (heffect : Effect p feed s operation result s') :
    (∀ other, other ≠ owner → s.ledger.AlikeFor s'.ledger other) ∧ s'.pool = s.pool ∧ s'.surplus = s.surplus := by
  cases heffect with
  | opened h =>
      cases howner
      exact ⟨fun other hne => (Ledger.openTrove_eq_ok h).1.alikeFor hne, rfl, rfl⟩
  | adjusted hentire hcollateral hdebt h =>
      cases howner
      obtain ⟨old, entire, hadjusted, -⟩ := Ledger.adjust_eq_ok h
      exact ⟨fun other hne => hadjusted.alikeFor hne, rfl, rfl⟩
  | closed h =>
      cases howner
      obtain ⟨old, entire, hrepaid, -⟩ := Ledger.closeByOwner_eq_ok h
      exact ⟨fun other hne => hrepaid.alikeFor hne, rfl, rfl⟩
  | provided | withdrawn | liquidated | batchLiquidated | claimed => cases howner

/-- **Operations are isolated between accounts.** What an owner does to a trove leaves every other account's record as it
was, but for its place in the row, and every other account's entire amounts, the stability pool and the surplus. A
liquidation, of one trove or of a batch, leaves the records of those it does not take in the same way, and every one of
them with an active trove keeps it. What is pending for each of those grows by the stake's part of the rise of the level,
rounded down, or by a unit more, and all this growth together is no more than what was redistributed and carried over,
and a unit for each trove that is left. -/
theorem Run.accounts_isolated (h : Run p m t) (hlocked : t.locked < 2 ^ 128)
    (hdone : perform (execute operation) m = (m', .ok result)) :
    (∀ owner, operation.borrower? = some owner →
      (∀ other, other ≠ owner → m.state.ledger.AlikeFor m'.state.ledger other) ∧
        m'.state.pool = m.state.pool ∧ m'.state.surplus = m.state.surplus) ∧
    ∀ outcome, result = .liquidation outcome → m.state.ledger.SharedOut m'.state.ledger outcome := by
  obtain ⟨heffect, -⟩ := effect_of_execute hdone
  refine ⟨fun owner howner => alikeFor_of_effect howner heffect, ?_⟩
  rintro outcome rfl
  obtain ⟨⟨plan, hfits, hcommitted⟩, hlocks⟩ := heffect.committed
  have hlocked' : Transcript.locked ((operation, .liquidation outcome) :: t) < 2 ^ 128 := by
    rw [Transcript.locked_cons, hlocks, Nat.zero_add]
    exact hlocked
  exact hcommitted.sharedOut hfits h.kept.1 (h.ledger_sound hlocked) ((h.done hdone).ledger_sound hlocked')

/-- Three troves are left of those that were opened, and one of them has something pending. -/
def sharingReached : Machine := (replay sampleStart (sampleRequests.take 9)).1

theorem run_sharing : Run .standard sharingReached (replay sampleStart (sampleRequests.take 9)).2 :=
  run_replay create_sample (sampleRequests.take 9)

def sharingRepayment : Operation := .adjustTrove (.ofWord 2) .unchanged (.decrease (.ofWhole 100))

def sharingBatch : Operation := .liquidateBatch (.ofWord 4) [.ofWord 3, .ofWord 1]

/-- One of the three repays, and the others do not notice; or else one is liquidated, and what it owed is pending for the
others, all but the fraction of a unit. -/
theorem Run.accounts_isolated_sharing :
    Transcript.locked (replay sampleStart (sampleRequests.take 9)).2 < 2 ^ 128 ∧
    (∃ m' result, perform (execute sharingRepayment) sharingReached = (m', .ok result) ∧
      sharingReached.state.ledger.AlikeFor m'.state.ledger (.ofWord 3) ∧
      sharingReached.state.ledger.AlikeFor m'.state.ledger (.ofWord 5)) ∧
    ∃ m' outcome, perform (execute sharingBatch) sharingReached = (m', .ok (.liquidation outcome)) ∧
      sharingReached.state.ledger.SharedOut m'.state.ledger outcome ∧
      m'.state.ledger.owners = [.ofWord 5, .ofWord 2] := by
  have hlocked : Transcript.locked (replay sampleStart (sampleRequests.take 9)).2 < 2 ^ 128 := by decide +kernel
  have hrepaid : (perform (execute sharingRepayment) sharingReached).2.isOk = true := by decide +kernel
  obtain ⟨result, hresult⟩ := exists_ok_of_isOk hrepaid
  have hdone := perform_eq_ok_of_snd hresult
  obtain ⟨halike, -, -⟩ := (Run.accounts_isolated run_sharing hlocked hdone).1 _ rfl
  have hliquidated : (perform (execute sharingBatch) sharingReached).2.isOk = true := by decide +kernel
  obtain ⟨result', hresult'⟩ := exists_ok_of_isOk hliquidated
  have hdone' := perform_eq_ok_of_snd hresult'
  obtain ⟨-, hshared⟩ := Run.accounts_isolated run_sharing hlocked hdone'
  have hkind : ∃ outcome, result' = .liquidation outcome := by
    obtain ⟨heffect, -⟩ := effect_of_execute hdone'
    cases heffect with
    | batchLiquidated => exact ⟨_, rfl⟩
  obtain ⟨outcome, rfl⟩ := hkind
  exact ⟨hlocked, ⟨_, result, hdone, halike _ (by decide), halike _ (by decide)⟩, _, outcome, hdone',
    hshared outcome rfl, by decide +kernel⟩

end Machine

end CollateralDebt
