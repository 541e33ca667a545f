import CollateralDebt.Proofs.Machine.Accounts

/-! What the default pool holds, and what is pending of it. All that is due to active troves is there, and what is
there besides is dust: the remainder that the last division carried over, less than one unit for every settlement
so far, and less than one unit for every active trove, whose claim has a fraction too. -/

namespace CollateralDebt

/-- What is due to troves is what they claim, but for less than one unit each. -/
theorem Asset.sum_due (a : Asset) (level : Level) (troves : List Trove) :
    (troves.map (a.due level)).sum * Amount.scale ≤ (troves.map (a.claim level)).sum ∧
      (troves.map (a.claim level)).sum ≤
        (troves.map (a.due level)).sum * Amount.scale + troves.length * (Amount.scale - 1) := by
  induction troves with
  | nil => simp
  | cons t rest ih =>
      have hdue := a.due_mul_scale level t
      have hfraction := Nat.mod_lt (a.claim level t) (show 0 < Amount.scale by decide)
      simp only [List.map_cons, List.sum_cons, List.length_cons]
      rw [Nat.add_mul, Nat.succ_mul]
      omega

namespace Ledger

/-- The default pool covers what is due of an asset, and holds no more besides than is carried over and one unit's
fraction for each settlement and each active trove. -/
structure Covers (l : Ledger) (a : Asset) (settlements : Nat) : Prop where
  due_le : (l.activeTroves.map (a.due l.rewards.level)).sum ≤ (a.default l.pools).units
  dust_le : ((a.default l.pools).units - (l.activeTroves.map (a.due l.rewards.level)).sum) * Amount.scale ≤
    (a.carried l.rewards).units + (settlements + l.activeTroves.length) * (Amount.scale - 1)

variable {l : Ledger} {a : Asset}

theorem covers_of_sound {inflow outflow taken settlements : Nat}
    (hsound : (l.books a).Sound inflow outflow taken settlements) : l.Covers a settlements := by
  have hcovered : (l.activeTroves.map (a.claim l.rewards.level)).sum + (a.carried l.rewards).units ≤
      (a.default l.pools).units * Amount.scale := hsound.claims_le
  have hdust : (a.default l.pools).units * Amount.scale ≤ (l.activeTroves.map (a.claim l.rewards.level)).sum +
      (a.carried l.rewards).units + settlements * (Amount.scale - 1) := hsound.default_le
  obtain ⟨hlow, hhigh⟩ := a.sum_due l.rewards.level l.activeTroves
  constructor
  · exact Nat.le_of_mul_le_mul_right (c := Amount.scale) (by omega) (by decide)
  · rw [Nat.sub_mul, Nat.add_mul]
    omega

/-- What is due to a trove is an amount if the default pool covers it. -/
theorem Covers.due_lt {settlements : Nat} (h : l.Covers a settlements) {t : Trove} (hmem : t ∈ l.activeTroves) :
    a.due l.rewards.level t < 2 ^ 128 := by
  have hone : a.due l.rewards.level t ≤ (l.activeTroves.map (a.due l.rewards.level)).sum :=
    List.le_sum_of_mem (List.mem_map_of_mem hmem)
  have hall := h.due_le
  have hrange := (a.default l.pools).units_lt
  omega

end Ledger

namespace Machine

variable {p : Params} {m : Machine} {t : Transcript}

/-- **The default pool covers what is pending, up to counted dust.** For debt this holds of every machine reached,
where what is due to a trove is what is pending for it whenever that can be computed. For collateral it holds as
long as all collateral ever locked is an amount; what is pending for a trove can then always be computed. -/
theorem Run.default_covers_pending (h : Run p m t) :
    (m.state.ledger.Covers .debt t.settlements ∧
      ∀ trove ∈ m.state.ledger.activeTroves, ∀ pending, m.state.ledger.rewards.pending trove = .ok pending →
        pending.debt.units = Asset.debt.due m.state.ledger.rewards.level trove) ∧
    (t.locked < 2 ^ 128 → m.state.ledger.Covers .collateral t.settlements ∧
      ∀ trove ∈ m.state.ledger.activeTroves, ∃ pending, m.state.ledger.rewards.pending trove = .ok pending ∧
        pending.debt.units = Asset.debt.due m.state.ledger.rewards.level trove ∧
        pending.collateral.units = Asset.collateral.due m.state.ledger.rewards.level trove) := by
  have hdebt := Ledger.covers_of_sound h.accounted.debt
  refine ⟨⟨hdebt, fun trove hmem pending hpending => ?_⟩, fun hlocked => ?_⟩
  · exact Rewards.pending_units hpending (Ledger.mem_activeTroves hmem).2 .debt
  · obtain ⟨out, hsound⟩ := h.accounted.collateral hlocked
    have hcollateral := Ledger.covers_of_sound hsound
    refine ⟨hcollateral, fun trove hmem => ?_⟩
    obtain ⟨⟨owner, hentry⟩, hactive⟩ := Ledger.mem_activeTroves hmem
    obtain ⟨pending, hpending⟩ := Rewards.exists_pending (h.accounted.regular.snapshots _ hentry hactive) fun a => by
      cases a with
      | collateral => exact hcollateral.due_lt hmem
      | debt => exact hdebt.due_lt hmem
    have hunits := Rewards.pending_units hpending hactive
    exact ⟨pending, hpending, hunits .debt, hunits .collateral⟩

/-- After three settlements there is dust of both, and it is within the bound. -/
theorem Run.default_covers_pending_sample :
    sampleTranscript.settlements = 3 ∧ sampleTranscript.locked < 2 ^ 128 ∧
    (sampleReached.state.ledger.activeTroves.map
      (Asset.debt.due sampleReached.state.ledger.rewards.level)).sum = 4019230769230769230227 ∧
    sampleReached.state.ledger.pools.defaultDebt.units = 4019230769230769231000 ∧
    sampleReached.state.ledger.Covers .debt sampleTranscript.settlements ∧
    sampleReached.state.ledger.Covers .collateral sampleTranscript.settlements := by
  have hlocked : sampleTranscript.locked < 2 ^ 128 := by decide +kernel
  obtain ⟨⟨hdebt, -⟩, hcollateral⟩ := Run.default_covers_pending run_sample
  exact ⟨by decide +kernel, hlocked, by decide +kernel, by decide +kernel, hdebt, (hcollateral hlocked).1⟩

end Machine

end CollateralDebt
