import CollateralDebt.Params.File
import CollateralDebt.Proofs.Json.Record
import CollateralDebt.Proofs.Json.RoundTrip

/-! Parameter files. A file is a record of settings, each with a name, a value that is written for it and a reading of that
value. What is read is the settings that are there, and for the rest the standard ones (`merged`); the combination is what
has to make sense, so a setting that is fine with some others may be refused without them. Fields that are no settings do
not matter, nor does the order. -/

namespace CollateralDebt

namespace Params

/-- The settings of a parameter file. -/
inductive Setting where
  | minimumRatio
  | criticalRatio
  | gasDivisor
  | gasFloor
  | minimumDebt
  | productFloor
  | productFactor
  | historyLimit
  deriving DecidableEq, Repr

namespace Setting

/-- In the order in which they are written. -/
def all : List Setting :=
  [minimumRatio, criticalRatio, gasDivisor, gasFloor, minimumDebt, productFloor, productFactor, historyLimit]

def name : Setting → String
  | minimumRatio => "mcr"
  | criticalRatio => "ccr"
  | gasDivisor => "gas_compensation_divisor"
  | gasFloor => "gas_compensation_floor"
  | minimumDebt => "min_debt"
  | productFloor => "p_precision_floor"
  | productFactor => "p_scale_factor"
  | historyLimit => "max_history"

/-- What is written for a setting: amounts as texts, counts as numbers. -/
def written (p : Params) : Setting → Json
  | minimumRatio => .ofText p.minimumRatio.text
  | criticalRatio => .ofText p.criticalRatio.text
  | gasDivisor => .ofNat p.gasDivisor.toNat
  | gasFloor => .ofText p.gasFloor.text
  | minimumDebt => .ofText p.minimumDebt.text
  | productFloor => .ofNat p.productFloor.toNat
  | productFactor => .ofNat p.productFactor.toNat
  | historyLimit => .ofNat p.historyLimit.toNat

/-- A value holds a setting of parameters, as it is written or in another way. -/
def Holds (p : Params) (value : Json) : Setting → Prop
  | minimumRatio => value.amount? = some p.minimumRatio
  | criticalRatio => value.amount? = some p.criticalRatio
  | gasDivisor => value.word? = some p.gasDivisor
  | gasFloor => value.amount? = some p.gasFloor
  | minimumDebt => value.amount? = some p.minimumDebt
  | productFloor => value.word? = some p.productFloor
  | productFactor => value.word? = some p.productFactor
  | historyLimit => value.word? = some p.historyLimit

end Setting

/-- The parameters with the settings that are present, and the standard ones for the rest. -/
def merged (p : Params) (present : Setting → Prop) [DecidablePred present] : Params where
  minimumRatio := if present .minimumRatio then p.minimumRatio else standard.minimumRatio
  criticalRatio := if present .criticalRatio then p.criticalRatio else standard.criticalRatio
  gasDivisor := if present .gasDivisor then p.gasDivisor else standard.gasDivisor
  gasFloor := if present .gasFloor then p.gasFloor else standard.gasFloor
  minimumDebt := if present .minimumDebt then p.minimumDebt else standard.minimumDebt
  productFloor := if present .productFloor then p.productFloor else standard.productFloor
  productFactor := if present .productFactor then p.productFactor else standard.productFactor
  historyLimit := if present .historyLimit then p.historyLimit else standard.historyLimit

/-- A setting is among the fields of an object. -/
def Present (fields : List (String × Json)) (s : Setting) : Prop := s.name ∈ fields.map Prod.fst

instance (fields : List (String × Json)) : DecidablePred (Present fields) :=
  fun s => inferInstanceAs (Decidable (s.name ∈ fields.map Prod.fst))

/-- The fields of an object hold settings of parameters, each at most once, whatever else they are. -/
structure HeldBy (p : Params) (fields : List (String × Json)) : Prop where
  once : ∀ s : Setting, (fields.map Prod.fst).count s.name ≤ 1
  holds : ∀ (s : Setting) (value : Json), (s.name, value) ∈ fields → s.Holds p value

variable {p : Params} {fields : List (String × Json)}

/-- What is written for a setting holds it. -/
theorem Setting.holds_written (p : Params) (s : Setting) : s.Holds p (s.written p) := by
  cases s with
  | minimumRatio | criticalRatio | gasFloor | minimumDebt => exact Amount.amount?_toJson _
  | gasDivisor | productFloor | productFactor | historyLimit => exact Json.word?_ofNat _

theorem Setting.plain_written (p : Params) (s : Setting) : (s.written p).Plain := by
  cases s with
  | minimumRatio | criticalRatio | gasFloor | minimumDebt => exact Json.plain_ofText _
  | gasDivisor | productFloor | productFactor | historyLimit => exact .count _

/-! ## What is read -/

/-- The value of a setting is the one that is held, or the standard one if it is missing. -/
theorem fieldOr_lookup {α : Type} {read : Json → Option α} {value : α} (s : Setting) (standard : α)
    (h : ∀ json, (s.name, json) ∈ fields → read json = some value) :
    fieldOr read standard (fields.lookup s.name) = some (if Present fields s then value else standard) := by
  cases hfound : fields.lookup s.name with
  | none =>
      have hmissing : ¬Present fields s := by
        intro hpresent
        obtain ⟨field, hmem, hname⟩ := List.mem_map.1 hpresent
        have hne := List.lookup_eq_none_iff.1 hfound field hmem
        rw [hname, bne_self_eq_false] at hne
        cases hne
      rw [if_neg hmissing]
      rfl
  | some json =>
      obtain ⟨before, after, hfields, -⟩ := List.lookup_eq_some_iff.1 hfound
      have hmem : (s.name, json) ∈ fields := by
        rw [hfields]
        exact List.mem_append_right _ List.mem_cons_self
      have hpresent : Present fields s := List.mem_map_of_mem hmem
      rw [if_pos hpresent]
      exact h json hmem

/-- **An object is read as the settings that it holds**, with the standard ones for the rest. -/
theorem HeldBy.ofJson?_eq (h : p.HeldBy fields) : ofJson? (.ofFields fields) = some (p.merged (Present fields)) := by
  have hrecord : Json.record? (Setting.all.map Setting.name) (.ofFields fields) =
      some ((Setting.all.map Setting.name).map fun name => fields.lookup name) := by
    refine Json.record?_ofFields fun name hmem => ?_
    obtain ⟨s, -, rfl⟩ := List.mem_map.1 hmem
    exact h.once s
  have hnames : Setting.all.map Setting.name = ["mcr", "ccr", "gas_compensation_divisor", "gas_compensation_floor",
      "min_debt", "p_precision_floor", "p_scale_factor", "max_history"] := rfl
  rw [ofJson?, ← hnames, hrecord]
  simp only [Setting.all, List.map_cons, List.map_nil]
  rw [fieldOr_lookup _ _ (h.holds .minimumRatio), fieldOr_lookup _ _ (h.holds .criticalRatio),
    fieldOr_lookup _ _ (h.holds .gasDivisor), fieldOr_lookup _ _ (h.holds .gasFloor),
    fieldOr_lookup _ _ (h.holds .minimumDebt), fieldOr_lookup _ _ (h.holds .productFloor),
    fieldOr_lookup _ _ (h.holds .productFactor), fieldOr_lookup _ _ (h.holds .historyLimit)]
  rfl

theorem load_of_ofJson? {text : String} {j : Json} (hparse : Json.parse text = some j) (hread : ofJson? j = some p) :
    load text = p.check.map fun _ => p := by
  rw [load, hparse, Option.bind_some, hread]

/-! ## What is saved -/

theorem Setting.mem_all (s : Setting) : s ∈ all := by
  cases s <;> decide

theorem Setting.nodup_names : (all.map name).Nodup := by decide

/-- The fields of a file that is saved. -/
def saved (p : Params) : List (String × Json) := Setting.all.map fun s => (s.name, s.written p)

theorem toJson_eq (p : Params) : p.toJson = .ofFields p.saved := rfl

theorem map_fst_saved (p : Params) : p.saved.map Prod.fst = Setting.all.map Setting.name := rfl

theorem heldBy_saved (p : Params) : p.HeldBy p.saved := by
  constructor
  · intro s
    rw [map_fst_saved]
    exact List.nodup_iff_count_le_one.1 Setting.nodup_names s.name
  · intro s value hmem
    obtain ⟨other, hother, hsame⟩ := List.mem_map.1 hmem
    obtain ⟨hname, rfl⟩ := Prod.mk.inj hsame
    rw [List.inj_on_of_nodup_map Setting.nodup_names hother s.mem_all hname]
    exact s.holds_written p

theorem merged_of_forall {present : Setting → Prop} [DecidablePred present] (h : ∀ s, present s) : p.merged present = p := by
  unfold merged
  simp only [if_pos (h _)]

theorem merged_saved (p : Params) : p.merged (Present p.saved) = p :=
  merged_of_forall fun s => List.mem_map_of_mem s.mem_all

theorem parse_save (p : Params) : Json.parse p.save = some p.toJson := by
  have hplain : ∀ field ∈ p.saved, field.2.Plain := by
    intro field hmem
    obtain ⟨s, -, rfl⟩ := List.mem_map.1 hmem
    exact s.plain_written p
  rw [save, toJson_eq, (Json.plain_ofFields hplain).parse_pretty]

/-- **Parameters are read back from the file that they are saved in**, if they make sense, and are refused as they are
otherwise. Of an object that holds some of their settings, each once, in any order and among fields that are no settings,
those settings are taken and the standard ones for the rest, and the combination is accepted if it makes sense. -/
theorem load_roundTrip (p : Params) :
    load p.save = (p.check.map fun _ => p) ∧
    ∀ text fields, Json.parse text = some (.ofFields fields) → p.HeldBy fields →
      load text = (p.merged (Present fields)).check.map fun _ => p.merged (Present fields) := by
  have hfile : ∀ text fields, Json.parse text = some (.ofFields fields) → p.HeldBy fields →
      load text = (p.merged (Present fields)).check.map fun _ => p.merged (Present fields) :=
    fun text fields hparse hheld => load_of_ofJson? hparse hheld.ofJson?_eq
  have hsaved := hfile p.save p.saved p.parse_save p.heldBy_saved
  rw [merged_saved] at hsaved
  exact ⟨hsaved, hfile⟩

/-- Higher ratios than the standard ones, and as many liquidations remembered as can be. -/
def stricter : Params :=
  { standard with minimumRatio := .ofBasisPoints 16000, criticalRatio := .ofBasisPoints 18000, historyLimit := 0 - 1 }

/-- Both ratios, the larger one first and with a zero too many, and a field that is no setting. -/
def ratioFields : List (String × Json) :=
  [("ccr", .ofText "1.80"), ("note", .array [.null, .ofNat 7]), ("mcr", .ofText "1.6")]

/-- The smaller ratio, which does not go with the larger one of the standard. -/
def loneFields : List (String × Json) := [("mcr", .ofText "1.6")]

theorem holds_smaller : Setting.minimumRatio.Holds stricter (.ofText "1.6") := by
  show Json.amount? _ = some _
  decide +kernel

theorem heldBy_ratioFields : stricter.HeldBy ratioFields := by
  have hlarger : Setting.criticalRatio.Holds stricter (.ofText "1.80") := by
    show Json.amount? _ = some _
    decide +kernel
  refine ⟨fun s => by cases s <;> decide, fun s value hmem => ?_⟩
  cases s <;> simp [ratioFields, Setting.name] at hmem <;> subst hmem
  · exact holds_smaller
  · exact hlarger

theorem heldBy_loneFields : stricter.HeldBy loneFields := by
  refine ⟨fun s => by cases s <;> decide, fun s value hmem => ?_⟩
  cases s <;> simp [loneFields, Setting.name] at hmem
  subst hmem
  exact holds_smaller

/-- Saved parameters are read back. The smaller ratio is accepted with the larger one beside it, whatever else is there, and
alone it is not. -/
theorem load_roundTrip_stricter :
    load stricter.save = .ok stricter ∧
    stricter.HeldBy ratioFields ∧
    load (Json.ofFields ratioFields).pretty =
      .ok { standard with minimumRatio := .ofBasisPoints 16000, criticalRatio := .ofBasisPoints 18000 } ∧
    stricter.HeldBy loneFields ∧
    load (Json.ofFields loneFields).pretty = .error (.config "CCR 1.5 must exceed MCR 1.6") := by
  have hratios : (Json.ofFields ratioFields).Plain := by
    have hnote : (Json.array [.null, .ofNat 7]).Plain := .array (by simp [Json.Plain.null, Json.Plain.count])
    exact Json.plain_ofFields (by simp [ratioFields, Json.plain_ofText, hnote])
  have hlone : (Json.ofFields loneFields).Plain :=
    Json.plain_ofFields (by simp [loneFields, Json.plain_ofText])
  obtain ⟨hsaved, hfile⟩ := load_roundTrip stricter
  exact ⟨hsaved.trans (by decide +kernel), heldBy_ratioFields,
    (hfile _ _ hratios.parse_pretty heldBy_ratioFields).trans (by decide +kernel), heldBy_loneFields,
    (hfile _ _ hlone.parse_pretty heldBy_loneFields).trans (by decide +kernel)⟩

end Params

end CollateralDebt
