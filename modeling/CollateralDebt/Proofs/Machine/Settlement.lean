import CollateralDebt.Proofs.Ledger.Redistribution
import CollateralDebt.Proofs.Liquidation.Settlement
import CollateralDebt.Proofs.Machine.Accounts

/-! Settling in every machine reached. The books of a ledger are sound as long as the collateral locked in all is an
amount, and that is all a settlement needs: it succeeds for every active trove, nobody sees a difference, and whatever
the owner or a liquidation does with the trove next would have settled it in the same way. How often a trove settles
while amounts are redistributed matters to nobody else, and to its owner no more than a unit each time. -/

open CollateralDebt.Action

namespace CollateralDebt

/-- While the transcript is in range, the ledger is sound. -/
theorem Ledger.Accounted.ledger_sound {l : Ledger} {t : Transcript} (h : l.Accounted t) (hrange : t.InRange) :
    l.Sound := by
  refine ⟨h.regular, fun a => ?_⟩
  obtain ⟨inflow, outflow, hinflow, hsound⟩ := h.sound hrange a
  exact ⟨inflow, outflow, 0, _, hinflow, hsound⟩

namespace Machine

variable {p : Params} {m : Machine} {t : Transcript} {owner : Address}

/-- **Settling what is pending is transparent and idempotent.** It succeeds for every active trove. Entire amounts and
stakes of all troves, the totals of the system and the counters are as before, and a second settlement finds nothing
and changes nothing. To adjust the trove, to close it, or to liquidate it in a batch has the same outcome, a refusal
included, whether it has settled before or not, and the ledger, the pool and the surplus end up the same. -/
theorem Run.settlePending_transparent (h : Run p m t) (hlocked : t.locked < 2 ^ 128)
    (hactive : m.state.ledger.isActive owner = true) : ∃ settled pending,
      perform (Ledger.settlePending owner) m.state.ledger = (settled, .ok pending) ∧
      m.state.ledger.SameWorth settled ∧
      perform (Ledger.settlePending owner) settled = (settled, .ok .zero) ∧
      (∀ collateral debt, Parallel (fun l₁ (r₁ : Pending × Trove) l₂ (r₂ : Pending × Trove) => l₂ = l₁ ∧ r₂.2 = r₁.2)
        (perform (Ledger.adjust owner collateral debt) m.state.ledger)
        (perform (Ledger.adjust owner collateral debt) settled)) ∧
      Parallel (fun l₁ (closed₁ : Trove) l₂ (closed₂ : Trove) =>
          l₂ = l₁ ∧ closed₂ = { closed₁ with snapshot := m.state.ledger.rewards.level })
        (perform (Ledger.closeByOwner owner) m.state.ledger) (perform (Ledger.closeByOwner owner) settled) ∧
      ∀ price borrowers, Parallel (Liquidator.SettledFirst owner)
        (perform (Liquidator.liquidateBatch p price borrowers) m.liquidator)
        (perform (Liquidator.liquidateBatch p price borrowers) { m.liquidator with ledger := settled }) := by
  have hsound : m.state.ledger.Sound := h.accounted.ledger_sound (Transcript.inRange_of_locked_lt hlocked)
  obtain ⟨r, hfound⟩ := Ledger.exists_activeTrove hactive
  obtain ⟨e, hentire⟩ := hsound.exists_entire hfound
  have hagain : perform (Ledger.settlePending owner) (m.state.ledger.settle owner e) =
      ((m.state.ledger.settle owner e).settle owner e.settled, .ok .zero) :=
    Ledger.settlePending_eq (Ledger.activeTrove_settle_self hfound e) (Ledger.entire_settle_self hentire owner)
  rw [Ledger.settle_settle] at hagain
  exact ⟨_, _, Ledger.settlePending_eq hfound hentire, hsound.sameWorth_settle hfound hentire, hagain,
    Ledger.parallel_adjust_settle hfound hentire, Ledger.parallel_closeByOwner_settle hfound hentire,
    Liquidator.parallel_liquidateBatch_settle (s := m.liquidator) hsound hfound hentire p⟩

/-- Two owners are left, and the second batch has added to the trove of each. -/
theorem Run.settlePending_transparent_sample :
    sampleTranscript.locked < 2 ^ 128 ∧
    sampleReached.state.ledger.isActive (.ofWord 2) = true ∧
    ∃ settled pending,
      perform (Ledger.settlePending (.ofWord 2)) sampleReached.state.ledger = (settled, .ok pending) ∧
      pending.isZero = false ∧
      sampleReached.state.ledger.SameWorth settled ∧
      perform (Ledger.settlePending (.ofWord 2)) settled = (settled, .ok .zero) := by
  have hlocked : sampleTranscript.locked < 2 ^ 128 := by decide +kernel
  have hactive : sampleReached.state.ledger.isActive (.ofWord 2) = true := by decide +kernel
  have hsome : (perform (Ledger.settlePending (.ofWord 2)) sampleReached.state.ledger).2.map Pending.isZero = .ok false := by
    decide +kernel
  obtain ⟨settled, pending, hdone, hsame, hagain, -⟩ := Run.settlePending_transparent run_sample hlocked hactive
  rw [hdone] at hsome
  exact ⟨hlocked, hactive, settled, pending, hdone, Except.ok.inj hsome, hsame, hagain⟩

/-- **Redistributions can be settled one by one or together.** If amounts can be redistributed over the troves of a
machine, and the trove of an owner can then settle once, it can settle after each of them as well. It then has no more
collateral and no more debt than if it settles once, and less of either by no more than one unit for each redistribution
but one. The level of redistributions and what all other troves have are the same. -/
theorem Run.redistributions_agree (h : Run p m t) {gifts : List (Amount × Amount)} (hsome : gifts ≠ []) {last : Ledger}
    {pending : Pending}
    (hlast : perform (do Ledger.redistributeAll gifts; Ledger.settlePending owner) m.state.ledger = (last, .ok pending)) :
    ∃ each, perform (Ledger.redistributeSettling owner gifts) m.state.ledger = (each, .ok ()) ∧
      each.FallsShort owner (gifts.length - 1) last :=
  Ledger.redistributeSettling_fallsShort h.accounted.regular hsome hlast

/-- Amounts of collateral and debt that the stakes do not divide. -/
def unevenGifts : List (Amount × Amount) :=
  [(.ofWhole 1, .ofWhole 100), (.ofWhole 2, .ofWhole 50), (.ofWhole 1, .ofWhole 7)]

def settledLast : Ledger :=
  (perform (do Ledger.redistributeAll unevenGifts; Ledger.settlePending (.ofWord 2)) sampleReached.state.ledger).1

/-- Of three redistributions the trove loses as many units of collateral as it can. -/
theorem Run.redistributions_agree_sample :
    unevenGifts ≠ [] ∧
    (∃ pending, perform (do Ledger.redistributeAll unevenGifts; Ledger.settlePending (.ofWord 2))
      sampleReached.state.ledger = (settledLast, .ok pending)) ∧
    ∃ each, perform (Ledger.redistributeSettling (.ofWord 2) unevenGifts) sampleReached.state.ledger = (each, .ok ()) ∧
      each.FallsShort (.ofWord 2) 2 settledLast ∧
      (each.activeTrove (.ofWord 2)).map (fun u => u.collateral.units + 2) =
        (settledLast.activeTrove (.ofWord 2)).map fun t => t.collateral.units := by
  have hsome : unevenGifts ≠ [] := List.cons_ne_nil _ _
  have hok : (perform (do Ledger.redistributeAll unevenGifts; Ledger.settlePending (.ofWord 2))
      sampleReached.state.ledger).2.isOk = true := by decide +kernel
  obtain ⟨pending, hgiven⟩ := exists_ok_of_isOk hok
  have hlast := perform_eq_ok_of_snd hgiven
  obtain ⟨each, heach, hshort⟩ := Run.redistributions_agree run_sample hsome hlast
  have hsame : each = (perform (Ledger.redistributeSettling (.ofWord 2) unevenGifts) sampleReached.state.ledger).1 :=
    (congrArg Prod.fst heach).symm
  exact ⟨hsome, ⟨pending, hlast⟩, each, heach, hshort, by rw [hsame]; decide +kernel⟩

end Machine

end CollateralDebt
