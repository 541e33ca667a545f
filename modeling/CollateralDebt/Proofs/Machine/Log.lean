import CollateralDebt.Proofs.Ledger.Soundness
import CollateralDebt.Proofs.Machine.AllOrNothing

/-! What an operation logs. A refused one logs nothing. One that is done logs what it did to its part, in an order that
depends on the operation alone, and then at most that the mode has changed; nothing in the log before it is touched. -/

open CollateralDebt.Action

namespace CollateralDebt

def Event.isModeChange : Event → Bool
  | .recoveryEntered _ | .recoveryExited _ => true
  | _ => false

namespace Machine

/-- An action that gives a result and logs events, and after them at most changes of the mode. It leaves all else but
the tracked mode as it was. -/
def Logs {α : Type} (action : Action Machine α) (m : Machine) (a : α) (events : List Event) : Prop :=
  ∃ changes inRecovery, (∀ e ∈ changes, e.isModeChange = true) ∧
    perform action m = ({ m with log := ⟨m.log.events ++ events ++ changes⟩, inRecovery }, .ok a)

section Logs

variable {σ α β : Type} {m m' : Machine}

theorem perform_logAll (events : List Event) (m : Machine) :
    perform (logAll events) m = ({ m with log := ⟨m.log.events ++ events⟩ }, .ok ()) := by
  unfold logAll
  induction events generalizing m with
  | nil =>
      show (m, _) = _
      rw [List.append_nil]
  | cons event rest ih =>
      refine (ih { m with log := m.log.push event }).trans ?_
      dsimp only [EventLog.push]
      rw [List.append_assoc, List.singleton_append]

theorem logs_pure (a : α) (m : Machine) : Logs (pure a) m a [] := by
  refine ⟨[], m.inRecovery, fun _ hmem => (nomatch hmem), ?_⟩
  rw [List.append_nil, List.append_nil]
  rfl

theorem logs_logAll_bind {next : PUnit → Action Machine β} {b : β} {first rest : List Event}
    (h : ∀ m, Logs (next ()) m b rest) (m : Machine) : Logs (logAll first >>= next) m b (first ++ rest) := by
  obtain ⟨changes, inRecovery, hchanges, hdone⟩ := h { m with log := ⟨m.log.events ++ first⟩ }
  refine ⟨changes, inRecovery, hchanges, ?_⟩
  rw [perform_bind, perform_logAll]
  dsimp only
  rw [hdone, ← List.append_assoc m.log.events]

theorem logs_record_bind {next : PUnit → Action Machine β} {b : β} {event : Event} {rest : List Event}
    (h : ∀ m, Logs (next ()) m b rest) (m : Machine) : Logs (record event >>= next) m b (event :: rest) := by
  have hone : logAll [event] >>= next = record event >>= next := rfl
  rw [← hone]
  exact logs_logAll_bind h m

theorem logs_trackMode (price : Amount) (m : Machine) : Logs (trackMode price) m () [] := by
  unfold trackMode Logs
  rw [perform_get_bind, List.append_nil]
  dsimp only
  generalize m.state.params.isRecovery (m.state.ledger.systemRatio price) = now
  split
  · refine ⟨[if now then .recoveryEntered ⟨_, price⟩ else .recoveryExited ⟨_, price⟩], now, fun e hmem => ?_, rfl⟩
    rw [List.mem_singleton.1 hmem]
    cases now <;> rfl
  · exact ⟨[], m.inRecovery, fun _ hmem => (nomatch hmem), by rw [List.append_nil]; rfl⟩

theorem Logs.bind_pure {action : Action Machine α} {a : α} {events : List Event} (h : Logs action m a events) (b : β) :
    Logs (action >>= fun _ => pure b) m b events := by
  obtain ⟨changes, inRecovery, hchanges, hdone⟩ := h
  exact ⟨changes, inRecovery, hchanges, by rw [perform_bind, hdone]; rfl⟩

theorem logs_report (caller : Address) (price : Amount) (outcome : LiquidationOutcome) (m : Machine) :
    Logs (report caller price outcome) m () (eventsOf caller outcome m.state.ledger.rewards) := by
  have hall : Logs (logAll (eventsOf caller outcome m.state.ledger.rewards) >>= fun _ => trackMode price) m () _ :=
    logs_logAll_bind (fun m => logs_trackMode price m) m
  rw [List.append_nil] at hall
  exact hall

/-- From one machine to another some events were logged, and after them at most changes of the mode. -/
def Logged (m m' : Machine) (events : List Event) : Prop :=
  ∃ changes, (∀ e ∈ changes, e.isModeChange = true) ∧ m'.log.events = m.log.events ++ events ++ changes

/-- An operation of a part, and what is logged after it. -/
theorem perform_part_logs {part : Machine → σ} {putBack : σ → Machine → Machine} {action : Action σ α}
    {next : α → Action Machine β} {result : α → β} {report : α → Machine → List Event} {b : β}
    (h : perform (onPart part putBack action >>= next) m = (m', .ok b))
    (hlogs : ∀ a m, Logs (next a) m (result a) (report a m)) (hkept : ∀ state, (putBack state m).log = m.log) :
    ∃ a state, perform action (part m) = (state, .ok a) ∧ b = result a ∧ m'.state = (putBack state m).state ∧
      Logged m m' (report a (putBack state m)) := by
  obtain ⟨a, m₁, hpart, hthen⟩ := perform_bind_eq_ok.1 h
  rw [perform_onPart] at hpart
  obtain ⟨rfl, hresult⟩ := Prod.mk.inj hpart
  obtain ⟨changes, inRecovery, hchanges, hdone⟩ := hlogs a (putBack (perform action (part m)).1 m)
  rw [hdone, hkept] at hthen
  obtain ⟨rfl, hb⟩ := Prod.mk.inj hthen
  exact ⟨a, _, Prod.ext rfl hresult, (Except.ok.inj hb).symm, rfl, changes, hchanges, rfl⟩

end Logs

/-- What an operation with a result logs, as it goes from one state to another. -/
inductive Reported (s s' : Liquidator) : Operation → OperationResult → List Event → Prop where
  | opened {owner collateral debt trove} :
      Reported s s' (.openTrove owner collateral debt) (.trove trove) [updateOf trove .opened]
  | adjusted {owner collateral debt entire trove} (hentire : s.ledger.entire owner = .ok entire) :
      Reported s s' (.adjustTrove owner collateral debt) (.trove trove)
        (settlementOf owner entire entire.pending ++ [updateOf trove .adjusted])
  | closed {owner collateral entire} (hentire : s.ledger.entire owner = .ok entire) :
      Reported s s' (.closeTrove owner) (.closed collateral)
        (settlementOf owner entire entire.pending ++ [.troveUpdated ⟨owner, .zero, .zero, .zero, .closed⟩])
  | provided {depositor amount change} :
      Reported s s' (.provide depositor amount) (.deposit change)
        [.deposited ⟨depositor, amount, change.deposit, change.gain⟩]
  | withdrawn {depositor amount change} :
      Reported s s' (.withdraw depositor amount) (.deposit change)
        [.withdrawn ⟨depositor, change.withdrawn, change.deposit, change.gain⟩]
  | liquidated {caller borrower outcome} :
      Reported s s' (.liquidate caller borrower) (.liquidation outcome) (eventsOf caller outcome s'.ledger.rewards)
  | batchLiquidated {caller borrowers outcome} :
      Reported s s' (.liquidateBatch caller borrowers) (.liquidation outcome)
        (eventsOf caller outcome s'.ledger.rewards)
  | claimed {owner amount} :
      Reported s s' (.claimSurplus owner) (.surplus amount) [.surplusClaimed ⟨owner, amount⟩]

variable {m m' : Machine}

theorem liquidated_logged {action : Action Liquidator LiquidationOutcome} {caller : Address} {price : Amount}
    {outcome : LiquidationOutcome} (h : perform (do
      let outcome ← onLiquidator action
      report caller price outcome
      return outcome) m = (m', .ok outcome)) : Logged m m' (eventsOf caller outcome m'.state.ledger.rewards) := by
  obtain ⟨_, s, -, rfl, hstate, hlogged⟩ := perform_part_logs h (fun outcome m =>
    (logs_report caller price outcome m).bind_pure outcome) fun _ => rfl
  rw [hstate]
  exact hlogged

/-- An operation that logs one event after what it does to a part. -/
theorem logged_one {σ α : Type} {part : Machine → σ} {putBack : σ → Machine → Machine} {action : Action σ α}
    {f : α → Event} {a : α} (h : perform (do
      let result ← onPart part putBack action
      record (f result)
      return result) m = (m', .ok a)) (hkept : ∀ state, (putBack state m).log = m.log) : Logged m m' [f a] := by
  obtain ⟨_, state, -, rfl, -, hlogged⟩ := perform_part_logs h (fun result m =>
    logs_record_bind (fun m => logs_pure result m) m) hkept
  exact hlogged

/-- **An operation with a result logs what it did**, and after that at most that the mode has changed. -/
theorem reported_of_execute {operation : Operation} {result : OperationResult}
    (h : perform (execute operation) m = (m', .ok result)) :
    ∃ events, Reported m.liquidator m'.liquidator operation result events ∧ Logged m m' events := by
  cases executed_of_execute h with
  | openTrove hprice hpasses hpart =>
      obtain ⟨t, ledger, -, rfl, -, hlogged⟩ := perform_part_logs hpart (fun t m =>
        logs_record_bind (fun m => (logs_trackMode _ m).bind_pure t) m) fun _ => rfl
      exact ⟨_, .opened, hlogged⟩
  | @adjustTrove owner collateral debt price entire newCollateral newDebt trove _ hentire _ _ _ hpart =>
      obtain ⟨⟨pending, t⟩, ledger, hdone, rfl, -, hlogged⟩ := perform_part_logs hpart (fun adjusted m =>
        logs_logAll_bind (fun m => logs_record_bind (fun m => (logs_trackMode _ m).bind_pure adjusted.2) m) m) fun _ => rfl
      obtain ⟨old, e, hadjusted, rfl, -⟩ := Ledger.adjust_eq_ok hdone
      have hsame : e = entire := Except.ok.inj (hadjusted.entire_before.symm.trans hentire)
      rw [hsame] at hlogged
      exact ⟨_, .adjusted hentire, hlogged⟩
  | closeTrove hprice hentire hclosable hpart =>
      obtain ⟨t, ledger, -, rfl, -, hlogged⟩ := perform_part_logs hpart (fun t m =>
        logs_logAll_bind (fun m => logs_record_bind (fun m => (logs_trackMode _ m).bind_pure t.collateral) m) m)
          fun _ => rfl
      exact ⟨_, .closed hentire, hlogged⟩
  | provide hpart =>
      have hlogged := logged_one hpart fun _ => rfl
      exact ⟨_, .provided, hlogged⟩
  | withdraw hpart =>
      have hlogged := logged_one hpart fun _ => rfl
      exact ⟨_, .withdrawn, hlogged⟩
  | liquidate hprice hpart => exact ⟨_, .liquidated, liquidated_logged hpart⟩
  | liquidateBatch hprice hpart => exact ⟨_, .batchLiquidated, liquidated_logged hpart⟩
  | claimSurplus hpart =>
      have hlogged := logged_one hpart fun _ => rfl
      exact ⟨_, .claimed, hlogged⟩

end Machine

end CollateralDebt
