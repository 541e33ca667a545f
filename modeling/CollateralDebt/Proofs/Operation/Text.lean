import CollateralDebt.Operation.Text
import CollateralDebt.Proofs.Json.Record
import CollateralDebt.Proofs.Json.RoundTrip

/-! Operations as text. The JSON of an operation is a choice of a record, and every field of it is read back: an address
and an amount from their texts, a change of an amount as a choice of its own, and borrowers one by one. The text is the JSON
on one line, and is read back with white space around it. -/

namespace CollateralDebt

namespace AmountChange

theorem ofJson?_toJson (change : AmountChange) : ofJson? change.toJson = some change := by
  cases change with
  | unchanged => rfl
  | increase amount =>
      show amount.toJson.amount?.map increase = _
      rw [amount.amount?_toJson]
      rfl
  | decrease amount =>
      show amount.toJson.amount?.map decrease = _
      rw [amount.amount?_toJson]
      rfl

theorem plain_toJson (change : AmountChange) : change.toJson.Plain := by
  cases change with
  | unchanged => exact Json.plain_ofText _
  | increase | decrease =>
      refine Json.plain_ofFields fun field hmem => ?_
      rw [List.mem_singleton.1 hmem]
      exact Json.plain_ofText _

end AmountChange

namespace Operation

theorem mapM_address?_toJson (borrowers : List Address) : (borrowers.map Address.toJson).mapM Json.address? = some borrowers := by
  induction borrowers with
  | nil => rfl
  | cons borrower rest ih =>
      rw [List.map_cons, List.mapM_cons, borrower.address?_toJson, ih]
      rfl

theorem readOwner_own (owner : Address) : readOwner Json.record? (.ofFields [("owner", owner.toJson)]) = some owner := by
  have hrecord : Json.record? ["owner"] (.ofFields [("owner", owner.toJson)]) = some [some owner.toJson] :=
    Json.record?_own rfl (by decide)
  rw [readOwner, hrecord]
  exact owner.address?_toJson

theorem readDeposit_own (depositor : Address) (amount : Amount) :
    readDeposit Json.record? (.ofFields [("depositor", depositor.toJson), ("amount", amount.toJson)]) =
      some (depositor, amount) := by
  have hrecord : Json.record? ["depositor", "amount"]
      (.ofFields [("depositor", depositor.toJson), ("amount", amount.toJson)]) =
        some [some depositor.toJson, some amount.toJson] := Json.record?_own rfl (by decide)
  rw [readDeposit, hrecord]
  dsimp only
  rw [depositor.address?_toJson, amount.amount?_toJson]
  rfl

/-- The record of a change of a trove, for amounts and for changes of amounts. -/
theorem record?_trove (owner collateral debt : Json) : Json.record? ["owner", "collateral", "debt"]
    (.ofFields [("owner", owner), ("collateral", collateral), ("debt", debt)]) =
      some [some owner, some collateral, some debt] :=
  Json.record?_own rfl (by decide)

/-- **The JSON of an operation is read back**, its fields under their names. -/
theorem read_toJson (o : Operation) : read Json.record? o.toJson = some o := by
  cases o with
  | openTrove owner collateral debt =>
      show readOpening Json.record? (.ofFields (fields (openTrove owner collateral debt))) = _
      rw [readOpening, fields, record?_trove]
      dsimp only
      rw [owner.address?_toJson, collateral.amount?_toJson, debt.amount?_toJson]
      rfl
  | adjustTrove owner collateral debt =>
      show readAdjustment Json.record? (.ofFields (fields (adjustTrove owner collateral debt))) = _
      rw [readAdjustment, fields, record?_trove]
      dsimp only
      rw [owner.address?_toJson, collateral.ofJson?_toJson, debt.ofJson?_toJson]
      rfl
  | closeTrove owner =>
      show (readOwner Json.record? (.ofFields [("owner", owner.toJson)])).map closeTrove = _
      rw [readOwner_own]
      rfl
  | provide depositor amount =>
      show (readDeposit Json.record? (.ofFields [("depositor", depositor.toJson), ("amount", amount.toJson)])).map _ = _
      rw [readDeposit_own]
      rfl
  | withdraw depositor amount =>
      show (readDeposit Json.record? (.ofFields [("depositor", depositor.toJson), ("amount", amount.toJson)])).map _ = _
      rw [readDeposit_own]
      rfl
  | liquidate caller borrower =>
      have hrecord : Json.record? ["caller", "borrower"] (.ofFields (fields (liquidate caller borrower))) =
          some [some caller.toJson, some borrower.toJson] := Json.record?_own rfl (by decide)
      show readLiquidation Json.record? (.ofFields (fields (liquidate caller borrower))) = _
      rw [readLiquidation, hrecord]
      dsimp only
      rw [caller.address?_toJson, borrower.address?_toJson]
      rfl
  | liquidateBatch caller borrowers =>
      have hrecord : Json.record? ["caller", "borrowers"] (.ofFields (fields (liquidateBatch caller borrowers))) =
          some [some caller.toJson, some (.array (borrowers.map Address.toJson))] := Json.record?_own rfl (by decide)
      show readBatch Json.record? (.ofFields (fields (liquidateBatch caller borrowers))) = _
      rw [readBatch, hrecord]
      dsimp only
      rw [caller.address?_toJson]
      show ((borrowers.map Address.toJson).mapM Json.address?).bind _ = _
      rw [mapM_address?_toJson]
      rfl
  | claimSurplus owner =>
      show (readOwner Json.record? (.ofFields [("owner", owner.toJson)])).map claimSurplus = _
      rw [readOwner_own]
      rfl

theorem plain_fields (o : Operation) : ∀ field ∈ o.fields, field.2.Plain := by
  have haddress : ∀ a : Address, a.toJson.Plain := fun a => Json.plain_ofText _
  have hamount : ∀ a : Amount, a.toJson.Plain := fun a => Json.plain_ofText _
  cases o with
  | openTrove | adjustTrove | closeTrove | provide | withdraw | liquidate | claimSurplus =>
      simp [fields, haddress, hamount, AmountChange.plain_toJson]
  | liquidateBatch caller borrowers =>
      have hborrowers : (Json.array (borrowers.map Address.toJson)).Plain := by
        refine .array fun item hmem => ?_
        obtain ⟨borrower, -, rfl⟩ := List.mem_map.1 hmem
        exact haddress borrower
      simp [fields, haddress, hborrowers]

theorem plain_toJson (o : Operation) : o.toJson.Plain := by
  refine Json.plain_ofFields fun field hmem => ?_
  rw [List.mem_singleton.1 hmem]
  exact Json.plain_ofFields o.plain_fields

/-- **The text of every operation is read back**, with white space around it; and so is the text of an operation that some
other text was read as. -/
theorem text_roundTrip (o : Operation) :
    (∀ before after : String, before.toList.all Json.isSpace = true → after.toList.all Json.isSpace = true →
      parse (before ++ o.text ++ after) = some o) ∧
    ∀ other, parse other = some o → parse o.text = some o := by
  have hread : ∀ before after : String, before.toList.all Json.isSpace = true → after.toList.all Json.isSpace = true →
      parse (before ++ o.text ++ after) = some o := by
    intro before after hbefore hafter
    rw [parse, text, o.plain_toJson.parse_compact hbefore hafter]
    exact o.read_toJson
  refine ⟨hread, fun _ _ => ?_⟩
  have hplain := hread "" "" rfl rfl
  rwa [String.empty_append, String.append_empty] at hplain

/-- A batch of two borrowers, one of them named twice. -/
def repeatedBatch : Operation := .liquidateBatch (.ofWord 4) [.ofWord 3, .ofWord 1, .ofWord 3]

def lastClosing : Operation := .closeTrove (.ofWord 3)

/-- A closing whose record is an array, with white space in it and an address without its mark. -/
def closingText : String := "\x7b \x22CloseTrove\x22 : [ \x220000000000000000000000000000000000000003\x22 ] \x7d"

theorem parse_closingText : parse closingText = some lastClosing := by decide +kernel

/-- The batch is read from its text among white space, and the closing from its own text after it was read from an array. -/
theorem text_roundTrip_repeated :
    "\n\t".toList.all Json.isSpace = true ∧ " \r".toList.all Json.isSpace = true ∧
    parse ("\n\t" ++ repeatedBatch.text ++ " \r") = some repeatedBatch ∧
    parse closingText = some lastClosing ∧ parse lastClosing.text = some lastClosing := by
  have hbefore : "\n\t".toList.all Json.isSpace = true := by decide
  have hafter : " \r".toList.all Json.isSpace = true := by decide
  exact ⟨hbefore, hafter, (text_roundTrip repeatedBatch).1 _ _ hbefore hafter, parse_closingText,
    (text_roundTrip lastClosing).2 _ parse_closingText⟩

end Operation

end CollateralDebt
