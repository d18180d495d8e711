import NewOrbit.Bonds.Builder
import NewOrbit.Bonds.Collection

/-!
# `Bonds.Verifier` — the verifier

`buildMongoDocument` with the verifier's conversions, `checkDocument`, and `main`: each document of the
collection is compared with the document built from the CSV line of its position. The conversion to `Decimal128`
and the text of a value (`toString`) are parameters.
-/

namespace NewOrbit.Bonds.Verifier

/-! ## `buildMongoDocument` -/

/-- The value of a mapped column. -/
def convert (decimal128 : BigDecimal → Except JavaException Decimal128) (field : String × MongoDataType)
    (_csvFieldName csvValue : String) : Except JavaException Value :=
  if field.1 = "isFloat" then .ok (.bool (csvValue ≠ "FIXED"))
  else if field.2 = .date then dateValue csvValue
  else if field.1 = "endOfMonthRule" then .ok (.bool (csvValue = "Y"))
  else switchValue decimal128 field.2 csvValue

def buildMongoDocument (decimal128 : BigDecimal → Except JavaException Decimal128) :
    List String → List String → Int → Except JavaException Document :=
  Bonds.buildMongoDocument id fun _ => convert decimal128

theorem buildMongoDocument_built {decimal128 : BigDecimal → Except JavaException Decimal128}
    {csvLine csvFieldNames : List String} {recurseLevel : Int} {d : Document}
    (h : buildMongoDocument decimal128 csvLine csvFieldNames recurseLevel = .ok d) : Value.Built (.document d) := by
  apply Bonds.buildMongoDocument_built _ h
  intro line field csvFieldName csvValue v hv
  unfold convert at hv
  split at hv
  · exact Except.ok.inj hv ▸ .bool _
  · split at hv
    · exact dateValue_built hv
    · split at hv
      · exact Except.ok.inj hv ▸ .bool _
      · exact switchValue_built hv

/-! ## `checkDocument` -/

/-- A loop that returns the first message it meets, or null at its end. -/
def firstError {α : Type} (check : α → Except JavaException (Option String)) :
    List α → Except JavaException (Option String)
  | []      => .ok none
  | a :: as =>
      match check a with
      | .error e         => .error e
      | .ok (some msg)   => .ok (some msg)
      | .ok none         => firstError check as

/-- `document.get(key)` as a receiver of a method. -/
def receiver : Option Value → Except JavaException Value
  | none       => .error .NullPointerException
  | some .null => .error .NullPointerException
  | some v     => .ok v

section Check
variable (text : Value → String)

/-- The comparison of a value that is not descended into. -/
def checkValue (value : Value) (csvDocument : Document) (documentName key : String) :
    Except JavaException (Option String) :=
  if key ≠ "_id" ∧ (csvDocument.get key).all (fun v => !value.equals v) then do
    let expected ← receiver (csvDocument.get key)
    return some ("Wrong value for key: " ++ (if documentName = "" then "" else documentName ++ ".") ++
      key ++ "; Expected " ++ text expected ++ ", Actual " ++ text value)
  else .ok none

mutual

/-- `checkDocument`: an error message, null if everything is correct. -/
def checkDocument : Document → Document → String → Except JavaException (Option String)
  | ⟨keys, _, value⟩, csvDocument, documentName =>
      if documentName = "" ∧ (csvDocument.size : Int) ≠ keys.length - 1 then
        .ok (some "Wrong number of fields")
      else if documentName ≠ "" ∧ csvDocument.size ≠ keys.length then
        .ok (some ("Key " ++ documentName ++ ": Wrong number of fields"))
      else
        firstError (fun ⟨key, h⟩ => checkEntry (value key h) csvDocument documentName key) keys.attach

/-- One entry of the Mongo document. Where both values are documents, the inner fields are compared. -/
def checkEntry : Value → Document → String → String → Except JavaException (Option String)
  -- `entry.getValue().getClass()` of a null.
  | .null, _, _, _ => .error .NullPointerException
  | .document inner, csvDocument, documentName, key =>
      match receiver (csvDocument.get key) with
      | .error e                  => .error e
      | .ok (.document csvInner)  => checkDocument inner csvInner key
      | .ok _                     => checkValue text (.document inner) csvDocument documentName key
  | value, csvDocument, documentName, key => checkValue text value csvDocument documentName key

end

/-! ### When nothing is found wrong

For each check there is a lemma that says when it returns null; the one about documents needs those of their entries,
and is proved together with them. -/

theorem firstError_eq_none {α : Type} {check : α → Except JavaException (Option String)} {as : List α} :
    firstError check as = .ok none ↔ ∀ a ∈ as, check a = .ok none := by
  induction as with
  | nil => simp [firstError]
  | cons a as ih =>
      rw [firstError, List.forall_mem_cons]
      split
      · next h => simp [h]
      · next h => simp [h]
      · next h => simp [h, ih]

theorem receiver_eq_ok {o : Option Value} {v : Value} : receiver o = .ok v ↔ o = some v ∧ v ≠ .null := by
  constructor
  · intro h
    unfold receiver at h
    split at h
    · cases h
    · cases h
    · next hnull =>
        cases h
        exact ⟨rfl, hnull⟩
  · rintro ⟨rfl, hnull⟩
    unfold receiver
    split
    · next h => cases h
    · next h => exact absurd (Option.some.inj h) hnull
    · next h => rw [Option.some.inj h]

variable {text}

theorem checkValue_eq_none {value : Value} {csvDocument : Document} {documentName key : String} :
    checkValue text value csvDocument documentName key = .ok none ↔
      key = "_id" ∨ ∃ v, csvDocument.get key = some v ∧ value.equals v = true := by
  unfold checkValue
  split
  · next h =>
      have hno : ¬ ∃ v, csvDocument.get key = some v ∧ value.equals v = true := by
        rintro ⟨v, hv, heq⟩
        simp [hv, heq] at h
      constructor
      · intro hcheck
        obtain ⟨expected, -, hmsg⟩ := bind_eq_ok.mp hcheck
        cases hmsg
      · rintro (hid | hequal)
        · exact absurd hid h.1
        · exact absurd hequal hno
  · next h =>
      refine ⟨fun _ => ?_, fun _ => rfl⟩
      by_cases hid : key = "_id"
      · exact Or.inl hid
      · cases hget : csvDocument.get key with
        | none => simp [hid, hget] at h
        | some v => simpa [hid, hget] using h

/-- Nothing is wrong with a document of the right size whose entries are right. -/
theorem checkDocument_eq_none {d csvDocument : Document} {documentName : String} :
    checkDocument text d csvDocument documentName = .ok none ↔
      csvDocument.size + (if documentName = "" then 1 else 0) = d.size ∧
        ∀ key v, d.get key = some v → checkEntry text v csvDocument documentName key = .ok none := by
  have hwalk : firstError (fun key : {k // k ∈ d.keys} =>
        checkEntry text (d.value key.1 key.2) csvDocument documentName key.1) d.keys.attach = .ok none ↔
      ∀ key v, d.get key = some v → checkEntry text v csvDocument documentName key = .ok none := by
    rw [firstError_eq_none]
    constructor
    · intro h key v hv
      have hkey := LinkedMap.mem_keys_of_get hv
      rw [LinkedMap.get_of_mem hkey] at hv
      exact Option.some.inj hv ▸ h ⟨key, hkey⟩ (List.mem_attach _ _)
    · intro h key _
      exact h key.1 _ (LinkedMap.get_of_mem key.2)
  -- The walk is common to both levels; what is left is the size each level asks for.
  rw [← hwalk]
  obtain ⟨keys, hnodup, value⟩ := d
  have hlen : LinkedMap.size ⟨keys, hnodup, value⟩ = keys.length := rfl
  rw [checkDocument]
  split
  · next h =>
      rw [if_pos h.1, hlen]
      constructor
      · intro h'
        cases h'
      · intro h'
        exact absurd (by omega) h.2
  · next htop =>
      split
      · next h =>
          rw [if_neg h.1, hlen]
          constructor
          · intro h'
            cases h'
          · intro h'
            exact absurd h'.1 h.2
      · next hnested =>
          have hsize : csvDocument.size + (if documentName = "" then 1 else 0) = keys.length := by
            by_cases hname : documentName = ""
            · have := not_and.mp htop hname
              rw [if_pos hname]
              omega
            · have := not_and.mp hnested hname
              rw [if_neg hname]
              omega
          exact ⟨fun h => ⟨hsize, h⟩, fun h => h.2⟩

/-- Nothing is wrong with an entry where the CSV document has an equal value, or a nested document in which
    nothing is wrong. `_id` is not compared. -/
theorem checkEntry_eq_none {v : Value} {csvDocument : Document} {documentName key : String} (hid : key ≠ "_id")
    (h : checkEntry text v csvDocument documentName key = .ok none) :
    ∃ w, csvDocument.get key = some w ∧
      (v.equals w = true ∨ ∃ d e, v = .document d ∧ w = .document e ∧ checkDocument text d e key = .ok none) := by
  have hvalue : checkValue text v csvDocument documentName key = .ok none →
      ∃ w, csvDocument.get key = some w ∧ (v.equals w = true ∨
        ∃ d e, v = .document d ∧ w = .document e ∧ checkDocument text d e key = .ok none) := by
    intro hcheck
    obtain ⟨w, hw, heq⟩ := (checkValue_eq_none.mp hcheck).resolve_left hid
    exact ⟨w, hw, Or.inl heq⟩
  cases v with
  | null => cases h
  | document d =>
      rw [checkEntry] at h
      split at h
      · cases h
      · next e he => exact ⟨.document e, (receiver_eq_ok.mp he).1, Or.inr ⟨d, e, rfl, rfl, h⟩⟩
      · exact hvalue h
  | _ => exact hvalue h

end Check

/-! ## `main`

The documents and the lines are walked side by side, and the messages come in their order. -/

section Programs
variable (decimal128 : BigDecimal → Except JavaException Decimal128) (text : Value → String)

/-- The loop over the documents of the collection, from document `i` on: the error messages. -/
def checkDocuments (csvFieldNames : List String) (csvData : List (List String)) :
    Nat → List Stored → Except JavaException (List String)
  | _, []                  => .ok []
  | i, document :: documents => do
      let csvLine ← orThrow .IndexOutOfBoundsException csvData[i]?
      let csvDocument ← buildMongoDocument decimal128 csvLine csvFieldNames 1
      let errorMsg ← checkDocument text document.read csvDocument ""
      let errorMessages ← checkDocuments csvFieldNames csvData (i + 1) documents
      return (errorMsg.map fun msg => "Document " ++ toString i ++ " is incorrect: " ++ msg).toList ++ errorMessages

/-- What `main` prints, for the file and the documents `bonds.find()` returns. -/
def main (file : CsvFile) (documents : List Stored) : Except JavaException (List String) := do
  let csvFieldNames ← getBondCsvFieldNames file
  let csvData ← getBondCsvData file
  let errorMessages ← checkDocuments decimal128 text csvFieldNames csvData 0 documents
  return if errorMessages.length = 0 then ["All documents are correct!"] else errorMessages

variable {decimal128 text}

/-- The loop reports nothing where each document has a CSV line at its position and is correct. -/
theorem checkDocuments_eq_nil {csvFieldNames : List String} {csvData : List (List String)} {i : Nat}
    {documents : List Stored} :
    checkDocuments decimal128 text csvFieldNames csvData i documents = .ok [] ↔
      List.Forall₂ (fun csvLine document => ∃ d, buildMongoDocument decimal128 csvLine csvFieldNames 1 = .ok d ∧
        checkDocument text document.read d "" = .ok none) ((csvData.drop i).take documents.length) documents := by
  induction documents generalizing i with
  | nil => simp [checkDocuments]
  | cons document documents ih =>
      rw [checkDocuments]
      constructor
      · intro h
        obtain ⟨csvLine, hline, h⟩ := bind_eq_ok.mp h
        obtain ⟨d, hbuild, h⟩ := bind_eq_ok.mp h
        obtain ⟨errorMsg, hcheck, h⟩ := bind_eq_ok.mp h
        obtain ⟨errorMessages, hrest, h⟩ := bind_eq_ok.mp h
        obtain ⟨hmsg, rfl⟩ := List.append_eq_nil_iff.mp (Except.ok.inj h)
        -- A message of this document would be the first of the list.
        have hnone : errorMsg = none := by
          cases errorMsg with
          | none => rfl
          | some msg => cases hmsg
        subst hnone
        obtain ⟨hi, rfl⟩ := List.getElem?_eq_some_iff.mp (orThrow_eq_ok.mp hline)
        rw [List.drop_eq_getElem_cons hi, List.length_cons, List.take_succ_cons]
        exact .cons ⟨d, hbuild, hcheck⟩ (ih.mp hrest)
      · intro h
        by_cases hi : i < csvData.length
        · rw [List.drop_eq_getElem_cons hi, List.length_cons, List.take_succ_cons] at h
          cases h with
          | cons hrow hrest =>
              obtain ⟨d, hbuild, hcheck⟩ := hrow
              apply bind_eq_ok.mpr ⟨_, orThrow_eq_ok.mpr (List.getElem?_eq_getElem hi), _⟩
              apply bind_eq_ok.mpr ⟨d, hbuild, _⟩
              apply bind_eq_ok.mpr ⟨none, hcheck, _⟩
              exact bind_eq_ok.mpr ⟨[], ih.mpr hrest, rfl⟩
        · rw [List.drop_eq_nil_of_le (not_lt.mp hi), List.take_nil] at h
          cases h

/-- Every error message says of which document it is. -/
theorem checkDocuments_messages {csvFieldNames : List String} {csvData : List (List String)} {i : Nat}
    {documents : List Stored} {errorMessages : List String}
    (h : checkDocuments decimal128 text csvFieldNames csvData i documents = .ok errorMessages) :
    ∀ msg ∈ errorMessages, msg.toList.head? = some 'D' := by
  induction documents generalizing i errorMessages with
  | nil =>
      rw [← Except.ok.inj h]
      intro msg hmsg
      cases hmsg
  | cons document documents ih =>
      rw [checkDocuments] at h
      obtain ⟨csvLine, -, h⟩ := bind_eq_ok.mp h
      obtain ⟨d, -, h⟩ := bind_eq_ok.mp h
      obtain ⟨errorMsg, -, h⟩ := bind_eq_ok.mp h
      obtain ⟨rest, hrest, h⟩ := bind_eq_ok.mp h
      rw [← Except.ok.inj h]
      intro msg hmsg
      rcases List.mem_append.mp hmsg with hfirst | hlater
      · cases errorMsg with
        | none => cases hfirst
        | some text =>
            rw [List.mem_singleton.mp hfirst]
            simp [String.toList_append]
      · exact ih hrest msg hlater

/-- `main` says that all is correct where the loop reports nothing. -/
theorem main_eq_correct {file : CsvFile} {documents : List Stored} :
    main decimal128 text file documents = .ok ["All documents are correct!"] ↔
      ∃ csvFieldNames csvData, getBondCsvFieldNames file = .ok csvFieldNames ∧
        getBondCsvData file = .ok csvData ∧
        checkDocuments decimal128 text csvFieldNames csvData 0 documents = .ok [] := by
  constructor
  · intro h
    obtain ⟨csvFieldNames, hnames, h⟩ := bind_eq_ok.mp h
    obtain ⟨csvData, hdata, h⟩ := bind_eq_ok.mp h
    obtain ⟨errorMessages, hchecks, h⟩ := bind_eq_ok.mp h
    refine ⟨csvFieldNames, csvData, hnames, hdata, ?_⟩
    -- A list of messages is printed as it is, and none of them reads like the text for an empty list.
    cases errorMessages with
    | nil => exact hchecks
    | cons msg rest =>
        have hmsg : msg = "All documents are correct!" := (List.cons.inj (Except.ok.inj h)).1
        have hhead := checkDocuments_messages hchecks msg List.mem_cons_self
        rw [hmsg] at hhead
        exact absurd hhead (by decide)
  · rintro ⟨csvFieldNames, csvData, hnames, hdata, hchecks⟩
    exact bind_eq_ok.mpr ⟨_, hnames, bind_eq_ok.mpr ⟨_, hdata, bind_eq_ok.mpr ⟨[], hchecks, rfl⟩⟩⟩

end Programs

end NewOrbit.Bonds.Verifier
