import CollateralDebt.Proofs.Machine.Collateral
import CollateralDebt.Proofs.Machine.Log

/-! The mode that a machine tracks, and what its events tell of it. An operation at a price ends with a look at the
mode of the system: if it is not the one tracked so far, that is tracked from then on and logged. Nothing else logs a
change of the mode or touches what is tracked. So all events ever logged, whether they were taken from the log in the
meantime or not, tell in turn that Recovery Mode was entered and left, and the last of them is what is tracked. -/

open CollateralDebt.Action

namespace CollateralDebt

namespace Event

/-- Whether Recovery Mode was entered (`true`) or left, if the event tells that. -/
def enters? : Event → Option Bool
  | .recoveryEntered _ => some true
  | .recoveryExited _ => some false
  | _ => none

/-- What events tell of the mode, in order. -/
def modeChanges (events : List Event) : List Bool := events.filterMap enters?

theorem modeChanges_append (events more : List Event) : modeChanges (events ++ more) = modeChanges events ++ modeChanges more :=
  List.filterMap_append

end Event

/-- Whether an operation is done at a price, so that the mode is tracked after it. -/
def Operation.isPriced : Operation → Bool
  | .provide .. | .withdraw .. | .claimSurplus _ => false
  | _ => true

/-- The mode was entered and left in turn, entered first, and it is now as the last change left it. -/
structure InTurn (changes : List Bool) (now : Bool) : Prop where
  alternates : ∀ place change, changes[place]? = some change → change = (place % 2 == 0)
  now_eq : now = (changes.length % 2 == 1)

namespace InTurn

variable {changes : List Bool} {now next : Bool}

theorem start : InTurn [] false := ⟨fun _ _ h => (nomatch h), rfl⟩

/-- A change in the other direction comes next in turn. -/
theorem concat (h : InTurn changes now) (hne : next ≠ now) : InTurn (changes ++ [next]) next := by
  have hnow := h.now_eq
  have hparity := Nat.mod_two_eq_zero_or_one changes.length
  have hnext : next = (changes.length % 2 == 0) := by
    rw [Bool.eq_not_of_ne hne, hnow]
    rcases hparity with hp | hp <;> simp [hp]
  constructor
  · intro place change hplace
    rw [List.getElem?_append] at hplace
    split at hplace
    · exact h.alternates place change hplace
    · next hafter =>
        obtain ⟨hlast, hchange⟩ := List.getElem?_eq_some_iff.1 hplace
        rw [List.length_singleton] at hlast
        have hend : place = changes.length := by omega
        rw [List.getElem_singleton] at hchange
        rw [← hchange, hend, hnext]
  · rw [List.length_append, List.length_singleton, hnext]
    rcases hparity with hp | hp <;> simp [hp, Nat.add_mod]

theorem now_iff (h : InTurn changes now) : now = true ↔ changes.getLast? = some true := by
  rw [h.now_eq, List.getLast?_eq_getElem?, beq_iff_eq]
  constructor
  · intro hodd
    have hlast : changes.length - 1 < changes.length := by omega
    have hchange := h.alternates _ _ (List.getElem?_eq_getElem hlast)
    rw [List.getElem?_eq_getElem hlast, hchange, show (changes.length - 1) % 2 = 0 by omega]
    rfl
  · intro hlast
    have hinside := (List.getElem?_eq_some_iff.1 hlast).1
    have heven := eq_of_beq (h.alternates _ _ hlast).symm
    omega

end InTurn

namespace Machine

variable {α β σ : Type} {m m' m₁ : Machine} {price : Amount} {operation : Operation}

/-- What is logged from one machine to another tells the change of what is tracked, and nothing else of the mode. -/
def TellsMode (m m' : Machine) : Prop :=
  Event.modeChanges m'.log.events =
    Event.modeChanges m.log.events ++ if m'.inRecovery = m.inRecovery then [] else [m'.inRecovery]

/-- What is tracked stays, and no event tells otherwise. -/
structure KeepsMode (m m' : Machine) : Prop where
  inRecovery_eq : m'.inRecovery = m.inRecovery
  silent : Event.modeChanges m'.log.events = Event.modeChanges m.log.events

/-- The mode of the system at a price is tracked. -/
structure TracksMode (m m' : Machine) (price : Amount) : Prop where
  inRecovery_eq : m'.inRecovery = m'.state.ledger.inRecovery m'.state.params price
  tells : TellsMode m m'

theorem KeepsMode.tells (h : KeepsMode m m') : TellsMode m m' := by
  rw [TellsMode, if_pos h.inRecovery_eq, List.append_nil]
  exact h.silent

theorem KeepsMode.tracks (h : KeepsMode m m₁) (hlater : TracksMode m₁ m' price) : TracksMode m m' price := by
  have htells := hlater.tells
  rw [TellsMode, h.silent, h.inRecovery_eq] at htells
  exact ⟨hlater.inRecovery_eq, htells⟩

theorem TellsMode.inTurn {taken : List Event} (h : TellsMode m m')
    (hm : InTurn (Event.modeChanges (taken ++ m.log.events)) m.inRecovery) :
    InTurn (Event.modeChanges (taken ++ m'.log.events)) m'.inRecovery := by
  rw [Event.modeChanges_append] at hm ⊢
  rw [h, ← List.append_assoc]
  split
  · next hsame =>
      rw [List.append_nil, hsame]
      exact hm
  · next hchanged => exact hm.concat hchanged

/-! ## What is logged after an operation of a part -/

theorem tracksMode_trackMode {a : Unit} (h : perform (trackMode price) m = (m', .ok a)) : TracksMode m m' price := by
  unfold trackMode at h
  rw [perform_get_bind] at h
  dsimp only at h
  split at h
  · next hchanged =>
      rw [perform_set_bind] at h
      obtain ⟨rfl, -⟩ := Prod.mk.inj h
      refine ⟨rfl, ?_⟩
      show Event.modeChanges (m.log.events ++ [_]) = Event.modeChanges m.log.events ++ _
      rw [if_neg hchanged, Event.modeChanges_append]
      cases m.state.params.isRecovery (m.state.ledger.systemRatio price) <;> rfl
  · next hsame =>
      obtain ⟨rfl, -⟩ := Prod.mk.inj h
      exact ⟨(not_not.1 hsame).symm, KeepsMode.tells ⟨rfl, rfl⟩⟩

theorem keepsMode_logAll {events : List Event} (hsilent : Event.modeChanges events = []) :
    KeepsMode m { m with log := ⟨m.log.events ++ events⟩ } := by
  refine ⟨rfl, ?_⟩
  rw [Event.modeChanges_append, hsilent, List.append_nil]

/-- An action that ends by tracking the mode at a price, with nothing told of it before. -/
def EndsTracking (action : Action Machine α) (price : Amount) : Prop :=
  ∀ m m' a, perform action m = (m', .ok a) → TracksMode m m' price

theorem endsTracking_trackMode_bind (price : Amount) (b : β) : EndsTracking (trackMode price >>= fun _ => pure b) price := by
  intro m m' a h
  obtain ⟨_, m₁, htracked, hlast⟩ := perform_bind_eq_ok.1 h
  obtain ⟨rfl, -⟩ := Prod.mk.inj hlast
  exact tracksMode_trackMode htracked

theorem endsTracking_logAll_bind {events : List Event} {next : PUnit → Action Machine β}
    (hsilent : Event.modeChanges events = []) (hnext : EndsTracking (next ()) price) :
    EndsTracking (logAll events >>= next) price := by
  intro m m' a h
  rw [perform_bind, perform_logAll] at h
  exact (keepsMode_logAll hsilent).tracks (hnext _ _ _ h)

theorem endsTracking_record_bind {event : Event} {next : PUnit → Action Machine β} (hsilent : event.enters? = none)
    (hnext : EndsTracking (next ()) price) : EndsTracking (record event >>= next) price := by
  have hnone : Event.modeChanges [event] = [] := List.filterMap_cons_none hsilent
  exact endsTracking_logAll_bind hnone hnext

theorem modeChanges_settlementOf (owner : Address) (entire : EntireTrove) (pending : Pending) :
    Event.modeChanges (settlementOf owner entire pending) = [] := by
  unfold settlementOf
  split <;> rfl

theorem modeChanges_liquidationOf (v : LiquidationValues) : Event.modeChanges (liquidationOf v) = [] := by
  unfold liquidationOf
  split <;> rfl

/-- A batch reports much, but the mode only by tracking it. -/
theorem modeChanges_eventsOf (caller : Address) (outcome : LiquidationOutcome) (rewards : Rewards) :
    Event.modeChanges (eventsOf caller outcome rewards) = [] := by
  have hliquidated : Event.modeChanges (outcome.liquidated.flatMap liquidationOf) = [] := by
    induction outcome.liquidated with
    | nil => rfl
    | cons v rest ih => rw [List.flatMap_cons, Event.modeChanges_append, modeChanges_liquidationOf, ih, List.append_nil]
  unfold eventsOf
  rw [Event.modeChanges_append, Event.modeChanges_append, Event.modeChanges_append, hliquidated]
  cases outcome.redistribution <;> cases outcome.offset <;> rfl

theorem endsTracking_report_bind (caller : Address) (price : Amount) (outcome : LiquidationOutcome) :
    EndsTracking (report caller price outcome >>= fun _ => pure outcome) price := by
  intro m m' a h
  obtain ⟨_, m₁, hreported, hlast⟩ := perform_bind_eq_ok.1 h
  obtain ⟨rfl, -⟩ := Prod.mk.inj hlast
  unfold report at hreported
  rw [perform_get_bind, perform_bind, perform_logAll] at hreported
  exact (keepsMode_logAll (modeChanges_eventsOf _ _ _)).tracks (tracksMode_trackMode hreported)

/-- What a part does is not seen in the log, nor in what is tracked. -/
theorem perform_part_tracks {part : Machine → σ} {putBack : σ → Machine → Machine} {action : Action σ α}
    {next : α → Action Machine β} {b : β} (h : perform (onPart part putBack action >>= next) m = (m', .ok b))
    (hnext : ∀ a, EndsTracking (next a) price)
    (hkept : ∀ state, (putBack state m).log = m.log ∧ (putBack state m).inRecovery = m.inRecovery) :
    TracksMode m m' price := by
  obtain ⟨a, m₁, hpart, hthen⟩ := perform_bind_eq_ok.1 h
  rw [perform_onPart] at hpart
  obtain ⟨rfl, -⟩ := Prod.mk.inj hpart
  obtain ⟨hlog, hmode⟩ := hkept (perform action (part m)).1
  have hkeeps : KeepsMode m (putBack (perform action (part m)).1 m) :=
    ⟨hmode, congrArg (fun log => Event.modeChanges log.events) hlog⟩
  exact hkeeps.tracks (hnext a _ _ _ hthen)

/-- An operation that logs one event after what it does to a part, and does not look at the mode. -/
theorem keepsMode_one {part : Machine → σ} {putBack : σ → Machine → Machine} {action : Action σ α} {f : α → Event} {a : α}
    (h : perform (do
      let result ← onPart part putBack action
      record (f result)
      return result) m = (m', .ok a)) (hsilent : ∀ a, (f a).enters? = none)
    (hkept : ∀ state, (putBack state m).log = m.log ∧ (putBack state m).inRecovery = m.inRecovery) : KeepsMode m m' := by
  obtain ⟨result, m₁, hpart, hthen⟩ := perform_bind_eq_ok.1 h
  rw [perform_onPart] at hpart
  obtain ⟨rfl, -⟩ := Prod.mk.inj hpart
  obtain ⟨rfl, -⟩ := Prod.mk.inj hthen
  obtain ⟨hlog, hmode⟩ := hkept (perform action (part m)).1
  refine ⟨hmode, ?_⟩
  show Event.modeChanges (_ ++ [f result]) = _
  rw [Event.modeChanges_append, hlog, show Event.modeChanges [f result] = [] from List.filterMap_cons_none (hsilent result),
    List.append_nil]

/-! ## Operations -/

/-- **An operation at a price leaves the mode of the system at that price tracked**, and tells if it has changed. -/
theorem tracks_of_execute {result : OperationResult} (hpriced : operation.isPriced = true)
    (h : perform (execute operation) m = (m', .ok result)) :
    ∃ price, m.feed.fetch = .ok price ∧ TracksMode m m' price := by
  cases executed_of_execute h with
  | openTrove hprice hpasses hpart =>
      exact ⟨_, hprice, perform_part_tracks hpart (fun t => endsTracking_record_bind rfl
        (endsTracking_trackMode_bind _ t)) fun _ => ⟨rfl, rfl⟩⟩
  | adjustTrove hprice hentire hcollateral hdebt hpasses hpart =>
      exact ⟨_, hprice, perform_part_tracks hpart (fun adjusted => endsTracking_logAll_bind
        (modeChanges_settlementOf _ _ _) (endsTracking_record_bind rfl (endsTracking_trackMode_bind _ adjusted.2)))
        fun _ => ⟨rfl, rfl⟩⟩
  | closeTrove hprice hentire hclosable hpart =>
      exact ⟨_, hprice, perform_part_tracks hpart (fun t => endsTracking_logAll_bind
        (modeChanges_settlementOf _ _ _) (endsTracking_record_bind rfl (endsTracking_trackMode_bind _ t.collateral)))
        fun _ => ⟨rfl, rfl⟩⟩
  | @liquidate caller _ price _ hprice hpart =>
      exact ⟨_, hprice, perform_part_tracks hpart (endsTracking_report_bind caller price) fun _ => ⟨rfl, rfl⟩⟩
  | @liquidateBatch caller _ price _ hprice hpart =>
      exact ⟨_, hprice, perform_part_tracks hpart (endsTracking_report_bind caller price) fun _ => ⟨rfl, rfl⟩⟩
  | provide | withdraw | claimSurplus => cases hpriced

/-- An operation of a depositor or a former owner leaves what is tracked alone. -/
theorem keeps_of_execute {result : OperationResult} (hunpriced : operation.isPriced = false)
    (h : perform (execute operation) m = (m', .ok result)) : KeepsMode m m' := by
  cases executed_of_execute h with
  | provide hpart => exact keepsMode_one hpart (fun _ => rfl) fun _ => ⟨rfl, rfl⟩
  | withdraw hpart => exact keepsMode_one hpart (fun _ => rfl) fun _ => ⟨rfl, rfl⟩
  | claimSurplus hpart => exact keepsMode_one hpart (fun _ => rfl) fun _ => ⟨rfl, rfl⟩
  | openTrove | adjustTrove | closeTrove | liquidate | liquidateBatch => cases hunpriced

theorem tells_of_execute {result : Except Error OperationResult} (h : perform (execute operation) m = (m', result)) :
    TellsMode m m' := by
  cases result with
  | error e =>
      have hsame : m' = m := execute_allOrNothing _ _ _ _ h
      rw [hsame]
      exact KeepsMode.tells ⟨rfl, rfl⟩
  | ok result =>
      cases hpriced : operation.isPriced with
      | true =>
          obtain ⟨price, -, htracks⟩ := tracks_of_execute hpriced h
          exact htracks.tells
      | false => exact (keeps_of_execute hpriced h).tells

/-! ## Runs with their events -/

theorem perform_drainEvents (m : Machine) :
    perform drainEvents m = ({ m with log := .empty }, .ok m.log.events) := rfl

/-- A machine that was reached, with the events that were taken from its log on the way. -/
inductive Watched (p : Params) : Machine → List Event → Prop where
  | start {feed : PriceFeed} {m : Machine} (h : create p feed = .ok m) : Watched p m []
  | asked {m m' : Machine} {taken : List Event} {operation : Operation} {result : Except Error OperationResult}
      (h : Watched p m taken) (hasked : perform (execute operation) m = (m', result)) : Watched p m' taken
  | priced {m m' : Machine} {taken : List Event} {price : Amount} {result : Except Error Unit} (h : Watched p m taken)
      (hpriced : perform (setPrice price) m = (m', result)) : Watched p m' taken
  | drained {m m' : Machine} {taken events : List Event} (h : Watched p m taken)
      (hdrained : perform drainEvents m = (m', .ok events)) : Watched p m' (taken ++ events)

theorem Run.watched {p : Params} {t : Transcript} (h : Run p m t) : Watched p m [] := by
  induction h with
  | start hcreate => exact .start hcreate
  | done _ hdone ih => exact ih.asked hdone
  | refused _ hrefused ih => exact ih.asked hrefused
  | priced _ hpriced ih => exact ih.priced hpriced

theorem create_inRecovery {p : Params} {feed : PriceFeed} (h : create p feed = .ok m) : m.inRecovery = false := by
  unfold create at h
  obtain ⟨state, hstate, h⟩ := except_bind_eq_ok.1 h
  obtain ⟨_, -, rfl⟩ := except_map_eq_ok.1 hstate
  unfold resume at h
  obtain ⟨_, -, h⟩ := except_bind_eq_ok.1 h
  cases h
  rfl

/-- **The events of a machine tell the mode in turn**, and what is tracked is the last of it. -/
theorem Watched.inTurn {p : Params} {taken : List Event} (h : Watched p m taken) :
    InTurn (Event.modeChanges (taken ++ m.log.events)) m.inRecovery := by
  induction h with
  | start hcreate =>
      obtain ⟨-, -, -, hlog⟩ := create_eq_ok hcreate
      rw [hlog, create_inRecovery hcreate]
      exact .start
  | asked _ hasked ih => exact (tells_of_execute hasked).inTurn ih
  | priced _ hpriced ih =>
      obtain ⟨feed, rfl⟩ := setPrice_frame hpriced
      exact ih
  | drained _ hdrained ih =>
      rw [perform_drainEvents] at hdrained
      obtain ⟨rfl, hevents⟩ := Prod.mk.inj hdrained
      cases hevents
      show InTurn (Event.modeChanges ((_ ++ _) ++ [])) _
      rw [List.append_nil]
      exact ih

/-- **Events of Recovery Mode follow the mode that is tracked.** Over all events of a machine, those taken from its log
first, Recovery Mode is entered at the first, third, … change of the mode and left at the others. It is what is tracked
exactly if the last change entered it. After each operation at a price, that is the mode of the system at that price;
operations of depositors and former owners, and all that are refused, leave it as it was. -/
theorem Watched.mode_told {p : Params} {taken : List Event} (h : Watched p m taken) :
    (∀ place change, (Event.modeChanges (taken ++ m.log.events))[place]? = some change → change = (place % 2 == 0)) ∧
    (m.inRecovery = true ↔ (Event.modeChanges (taken ++ m.log.events)).getLast? = some true) ∧
    (∀ operation m' result, perform (execute operation) m = (m', .ok result) → operation.isPriced = true →
      ∃ price, m.feed.fetch = .ok price ∧ m'.inRecovery = m'.state.ledger.inRecovery m'.state.params price ∧
        (m'.inRecovery = true ↔ (Event.modeChanges (taken ++ m'.log.events)).getLast? = some true)) ∧
    (∀ operation m' result, perform (execute operation) m = (m', .ok result) → operation.isPriced = false →
      m'.inRecovery = m.inRecovery) ∧
    ∀ operation m' e, perform (execute operation) m = (m', .error e) → m'.inRecovery = m.inRecovery := by
  refine ⟨h.inTurn.alternates, h.inTurn.now_iff, fun operation m' result hdone hpriced => ?_,
    fun operation m' result hdone hunpriced => (keeps_of_execute hunpriced hdone).inRecovery_eq,
    fun operation m' e hrefused => ?_⟩
  · obtain ⟨price, hprice, htracks⟩ := tracks_of_execute hpriced hdone
    exact ⟨price, hprice, htracks.inRecovery_eq, (h.asked hdone).inTurn.now_iff⟩
  · have hsame : m' = m := execute_allOrNothing _ _ _ _ hrefused
    rw [hsame]

/-- After the fall and the recovery of the price the events are taken, and the price falls again. -/
def relapsedStart : Machine := (perform (setPrice (.ofWhole 100)) { recoveredReached with log := .empty }).1

theorem watched_relapsed : Watched .standard relapsedStart recoveredReached.log.events := by
  have hdrained := run_recovered.watched.drained (perform_drainEvents recoveredReached)
  rw [List.nil_append] at hdrained
  exact hdrained.priced Prod.mk.eta.symm

def relapsedOpening : Operation := .openTrove (.ofWord 7) (.ofWhole 40) (.ofWhole 2000)

/-- A trove that is opened after the second fall does not bring the system out of it, and the mode is entered again. -/
theorem Watched.mode_told_relapsed :
    ∃ m' result price, perform (execute relapsedOpening) relapsedStart = (m', .ok result) ∧
      relapsedOpening.isPriced = true ∧ relapsedStart.feed.fetch = .ok price ∧
      relapsedStart.inRecovery = false ∧ m'.inRecovery = m'.state.ledger.inRecovery m'.state.params price ∧
      m'.inRecovery = true ∧
      Event.modeChanges (recoveredReached.log.events ++ m'.log.events) = [true, false, true] := by
  have hisOk : (perform (execute relapsedOpening) relapsedStart).2.isOk = true := by decide +kernel
  obtain ⟨result, hresult⟩ := exists_ok_of_isOk hisOk
  have hdone := perform_eq_ok_of_snd hresult
  obtain ⟨-, -, hpriced, -, -⟩ := Watched.mode_told watched_relapsed
  obtain ⟨price, hprice, hmode, -⟩ := hpriced _ _ _ hdone rfl
  exact ⟨_, result, price, hdone, rfl, hprice, by decide +kernel, hmode, by decide +kernel, by decide +kernel⟩

end Machine

end CollateralDebt
