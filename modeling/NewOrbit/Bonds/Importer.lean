import NewOrbit.Bonds.Builder
import NewOrbit.Bonds.Collection

/-!
# `Bonds.Importer` — the importer

`buildMongoDocument` with the importer's conversions, `updateDatabase`, and the startup scan of `main`. The
conversion to `Decimal128` (the `bson` driver) and the Mongo server are parameters. A program that throws has
done its writes up to then, so a run returns the collection beside the exception.
-/

namespace NewOrbit.Bonds.Importer

/-! ## `buildMongoDocument` -/

/-- Why there is no document: an exception, or a null after a message to `failedDocumentErrorMsgs`. -/
inductive Refusal where
  | thrown (e : JavaException)
  | refused (errorMsg : String)
  deriving DecidableEq, Repr

/-- `try { x } catch (e) { handler }`. -/
def catching (e : JavaException) (handler : Except Refusal Value) : Except JavaException Value → Except Refusal Value
  | .ok v     => .ok v
  | .error e' => if e' = e then handler else .error (.thrown e')

/-- The value of a mapped column. The text of a message is put together, ISIN cell included, before it is known
    whether one is needed. -/
def convert (decimal128 : BigDecimal → Except JavaException Decimal128) (csvLine : List String)
    (field : String × MongoDataType) (csvFieldName csvValue : String) : Except Refusal Value :=
  match csvLine[1]? with
  | none      => .error (.thrown .IndexOutOfBoundsException)
  | some isin =>
      let invalid (rule : String) : Except Refusal Value :=
        .error (.refused ("Failed to build Mongo document from bond with ISIN " ++ isin ++ ". " ++
          "CSV value for field " ++ csvFieldName ++ rule ++ " Current value is " ++ csvValue))
      if field.1 = "isFloat" then
        if csvValue = "FLOAT" then .ok (.bool true)
        else if csvValue = "FIXED" then .ok (.bool false)
        else invalid " should either be FIXED or FLOAT."
      else match field.2 with
        | .date =>
            catching .DateTimeParseException
              (invalid " is not in the required date time format of dd/MM/yyyy HH:mm.") (dateValue csvValue)
        | .bool =>
            if csvValue = "Y" then .ok (.bool true)
            else if csvValue = "N" then .ok (.bool false)
            else invalid " should either be Y or N."
        | mongoDataType =>
            catching .NumberFormatException (invalid " could not be converted into numeric datatype.")
              (switchValue decimal128 mongoDataType csvValue)

def buildMongoDocument (decimal128 : BigDecimal → Except JavaException Decimal128) :
    List String → List String → Int → Except Refusal Document :=
  Bonds.buildMongoDocument .thrown (convert decimal128)

section Build
variable {decimal128 : BigDecimal → Except JavaException Decimal128}

theorem catching_eq_ok {e : JavaException} {r : Refusal} {x : Except JavaException Value} {v : Value} :
    catching e (.error r) x = .ok v ↔ x = .ok v := by
  cases x with
  | ok w => simp [catching]
  | error e' =>
      rw [catching]
      split <;> simp

/-- What the importer converts, and to what. -/
theorem convert_cases {csvLine : List String} {field : String × MongoDataType} {csvFieldName csvValue : String}
    {v : Value} (h : convert decimal128 csvLine field csvFieldName csvValue = .ok v) :
    (field.1 = "isFloat" ∧ (csvValue = "FLOAT" ∧ v = .bool true ∨ csvValue = "FIXED" ∧ v = .bool false)) ∨
    (field.1 ≠ "isFloat" ∧ field.2 = .date ∧ dateValue csvValue = .ok v) ∨
    (field.1 ≠ "isFloat" ∧ field.2 = .bool ∧ (csvValue = "Y" ∧ v = .bool true ∨ csvValue = "N" ∧ v = .bool false)) ∨
    (field.1 ≠ "isFloat" ∧ field.2 ≠ .date ∧ field.2 ≠ .bool ∧ switchValue decimal128 field.2 csvValue = .ok v) := by
  unfold convert at h
  split at h
  · cases h
  · split at h
    · next hfloat =>
        refine Or.inl ⟨hfloat, ?_⟩
        split at h
        · next hv => exact Or.inl ⟨hv, (Except.ok.inj h).symm⟩
        · split at h
          · next hv => exact Or.inr ⟨hv, (Except.ok.inj h).symm⟩
          · cases h
    · next hfloat =>
        apply Or.inr
        split at h
        · next htype => exact Or.inl ⟨hfloat, htype, catching_eq_ok.mp h⟩
        · next htype =>
            refine Or.inr (Or.inl ⟨hfloat, htype, ?_⟩)
            split at h
            · next hv => exact Or.inl ⟨hv, (Except.ok.inj h).symm⟩
            · split at h
              · next hv => exact Or.inr ⟨hv, (Except.ok.inj h).symm⟩
              · cases h
        · next hdate hbool => exact Or.inr (Or.inr ⟨hfloat, hdate, hbool, catching_eq_ok.mp h⟩)

variable {csvLine csvFieldNames : List String} {recurseLevel : Int} {d : Document}

theorem buildMongoDocument_built (h : buildMongoDocument decimal128 csvLine csvFieldNames recurseLevel = .ok d) :
    Value.Built (.document d) := by
  apply Bonds.buildMongoDocument_built _ h
  intro line field csvFieldName csvValue v hv
  rcases convert_cases hv with
    ⟨-, ⟨-, rfl⟩ | ⟨-, rfl⟩⟩ | ⟨-, -, hdate⟩ | ⟨-, -, ⟨-, rfl⟩ | ⟨-, rfl⟩⟩ | ⟨-, -, -, hswitch⟩
  · exact .bool true
  · exact .bool false
  · exact dateValue_built hdate
  · exact .bool true
  · exact .bool false
  · exact switchValue_built hswitch

theorem buildMongoDocument_isin (h : buildMongoDocument decimal128 csvLine csvFieldNames recurseLevel = .ok d) :
    ∀ v, d.get "isin" = some v → ∃ s, v = .string s := by
  apply Bonds.buildMongoDocument_isin _ h
  intro line field csvFieldName csvValue v hisin hstring hv
  rcases convert_cases hv with ⟨hfloat, -⟩ | ⟨-, hdate, -⟩ | ⟨-, hbool, -⟩ | ⟨-, -, -, hswitch⟩
  · rw [hisin] at hfloat
    exact absurd hfloat (by decide)
  · rw [hstring] at hdate
    cases hdate
  · rw [hstring] at hbool
    cases hbool
  · rw [hstring] at hswitch
    exact ⟨csvValue, (Except.ok.inj hswitch).symm⟩

end Build

/-! ## `updateDatabase` -/

/-- The collection and the counts while a file is processed. -/
structure Import where
  collection              : List Stored
  numUpdated              : Nat
  numInserted             : Nat
  numFailed               : Nat
  failedDocumentErrorMsgs : List String

def Import.start (c : List Stored) : Import := ⟨c, 0, 0, 0, []⟩

def Import.fail (errorMsg : String) (s : Import) : Import :=
  { s with numFailed := s.numFailed + 1, failedDocumentErrorMsgs := s.failedDocumentErrorMsgs ++ [errorMsg] }

/-- The text of `document.get("isin")` in a message. -/
def isinText : Option Value → String
  | some (.string s) => s
  | _                => "null"

/-- A built document goes to the first document with its ISIN, or is inserted. -/
def Import.write (mongo : Mongo) (document : Document) (s : Import) : Import :=
  let isin := document.get "isin"
  let failed (message : String) : Import :=
    s.fail ("Could not write bond with ISIN " ++ isinText isin ++ " to the database. Reason: " ++ message)
  if s.collection.any (Stored.hasIsin isin) then
    match mongo.refuses s.collection document with
    | some message => failed message
    | none         => { s with collection := updateOne isin document s.collection, numUpdated := s.numUpdated + 1 }
  else
    match mongo.refuses s.collection document with
    | some message => failed message
    | none         => { s with collection := insertOne mongo document s.collection, numInserted := s.numInserted + 1 }

section Programs
variable (decimal128 : BigDecimal → Except JavaException Decimal128) (mongo : Mongo)

/-- One row of a file. -/
def updateRow (csvFieldNames csvLine : List String) (s : Import) : Except JavaException Import :=
  match buildMongoDocument decimal128 csvLine csvFieldNames 1 with
  | .error (.thrown e)         => .error e
  | .error (.refused errorMsg) => .ok (s.fail errorMsg)
  | .ok document               => .ok (s.write mongo document)

/-- The rows of a file, up to the first that throws. -/
def updateRows (csvFieldNames : List String) : List (List String) → Import → Import × Option JavaException
  | [],                 s => (s, none)
  | csvLine :: csvData, s =>
      match updateRow decimal128 mongo csvFieldNames csvLine s with
      -- Nothing is caught: the rows before this one are written, those after it are not read.
      | .error e => (s, some e)
      | .ok s    => updateRows csvFieldNames csvData s

/-- `updateDatabase`: the collection and the counts it leaves, and the exception it ends with, if any. -/
def updateDatabase (file : CsvFile) (bonds : List Stored) : Import × Option JavaException :=
  match getBondCsvFieldNames file, getBondCsvData file with
  | .ok csvFieldNames, .ok csvData => updateRows decimal128 mongo csvFieldNames csvData (.start bonds)
  | .ok _,             .error e    => (.start bonds, some e)
  | .error e,          _           => (.start bonds, some e)

def isCsvFile (fileName : String) : Bool := contains fileName ".csv" && length fileName == 12

/-- The startup scan of `main`, over the files of the folder in the order `listFiles` returns them. -/
def startupScan : List (String × CsvFile) → List Stored → List Stored × Option JavaException
  | [],                  bonds => (bonds, none)
  | (name, file) :: files, bonds =>
      if isCsvFile name then
        match updateDatabase decimal128 mongo file bonds with
        -- `main` ends here, and what was written up to the exception stays.
        | (s, some e) => (s.collection, some e)
        | (s, none)   => startupScan files s.collection
      else startupScan files bonds

/-! ## What a file does to the collection

Rows that fail are counted and passed over, and a row that throws ends the import. In both cases the collection is
that of the documents built before, written in file order. -/

/-- The documents of the rows that can be built. -/
def builtDocuments (csvFieldNames : List String) (csvData : List (List String)) : List Document :=
  csvData.filterMap fun csvLine => (buildMongoDocument decimal128 csvLine csvFieldNames 1).toOption

/-- The documents of a file, none where it cannot be read. -/
def fileDocuments (file : CsvFile) : List Document :=
  match getBondCsvFieldNames file, getBondCsvData file with
  | .ok csvFieldNames, .ok csvData => builtDocuments decimal128 csvFieldNames csvData
  | _,                 _           => []

/-- The documents of a file of the folder. -/
def scannedDocuments (file : String × CsvFile) : List Document :=
  if isCsvFile file.1 then fileDocuments decimal128 file.2 else []

/-- The exception a row ends with, if it does. -/
def rowStop (csvFieldNames csvLine : List String) : Option JavaException :=
  match buildMongoDocument decimal128 csvLine csvFieldNames 1 with
  | .error (.thrown e) => some e
  | _                  => none

variable {decimal128} {mongo}

/-- Rows that can all be built are built into `builtDocuments`. -/
theorem built_of_accepted {csvFieldNames : List String} {csvData : List (List String)}
    (h : ∀ csvLine ∈ csvData, (buildMongoDocument decimal128 csvLine csvFieldNames 1).toOption.isSome = true) :
    List.Forall₂ (fun csvLine d => buildMongoDocument decimal128 csvLine csvFieldNames 1 = .ok d) csvData
      (builtDocuments decimal128 csvFieldNames csvData) := by
  induction csvData with
  | nil => exact .nil
  | cons csvLine csvData ih =>
      rw [List.forall_mem_cons] at h
      rw [builtDocuments, List.filterMap_cons]
      cases hbuild : buildMongoDocument decimal128 csvLine csvFieldNames 1 with
      | ok d => exact .cons hbuild (ih h.2)
      | error e =>
          rw [hbuild] at h
          cases h.1

theorem mem_builtDocuments {csvFieldNames : List String} {csvData : List (List String)} {d : Document} :
    d ∈ builtDocuments decimal128 csvFieldNames csvData ↔
      ∃ csvLine ∈ csvData, buildMongoDocument decimal128 csvLine csvFieldNames 1 = .ok d := by
  rw [builtDocuments, List.mem_filterMap]
  constructor
  · rintro ⟨csvLine, hline, hsome⟩
    cases hbuild : buildMongoDocument decimal128 csvLine csvFieldNames 1 with
    | ok d' =>
        rw [hbuild] at hsome
        exact ⟨csvLine, hline, hbuild.trans (congrArg _ (Option.some.inj hsome))⟩
    | error e =>
        rw [hbuild] at hsome
        cases hsome
  · rintro ⟨csvLine, hline, hbuild⟩
    exact ⟨csvLine, hline, by rw [hbuild]; rfl⟩

theorem builtDocuments_of_built {csvFieldNames : List String} {csvData : List (List String)} {docs : List Document}
    (h : List.Forall₂ (fun csvLine d => buildMongoDocument decimal128 csvLine csvFieldNames 1 = .ok d) csvData docs) :
    builtDocuments decimal128 csvFieldNames csvData = docs := by
  induction h with
  | nil => rfl
  | cons hbuild _ ih =>
      rw [builtDocuments, List.filterMap_cons, hbuild]
      exact congrArg _ ih

theorem fileDocuments_of_read {file : CsvFile} {csvFieldNames : List String} {csvData : List (List String)}
    (hnames : getBondCsvFieldNames file = .ok csvFieldNames) (hdata : getBondCsvData file = .ok csvData) :
    fileDocuments decimal128 file = builtDocuments decimal128 csvFieldNames csvData := by
  rw [fileDocuments, hnames, hdata]

theorem write_collection (haccepts : ∀ c d, mongo.refuses c d = none) (document : Document) (s : Import) :
    (s.write mongo document).collection = upsert mongo s.collection document := by
  simp only [Import.write, upsert, haccepts]
  split <;> rfl

/-- **A file is given up at the first row that throws**, whatever the collection. -/
theorem updateRows_stop (csvFieldNames : List String) (csvData : List (List String)) (s : Import) :
    (updateRows decimal128 mongo csvFieldNames csvData s).2 =
      csvData.findSome? (rowStop decimal128 csvFieldNames) := by
  induction csvData generalizing s with
  | nil => rfl
  | cons csvLine csvData ih =>
      rw [updateRows, updateRow, List.findSome?_cons, rowStop]
      cases hbuild : buildMongoDocument decimal128 csvLine csvFieldNames 1 with
      | ok document => exact ih _
      | error refusal =>
          cases refusal with
          | thrown e => rfl
          | refused errorMsg => exact ih _

theorem updateRows_returns {csvFieldNames : List String} {csvData : List (List String)}
    (hbuilds : ∀ csvLine ∈ csvData, ∀ e,
      buildMongoDocument decimal128 csvLine csvFieldNames 1 ≠ .error (.thrown e)) (s : Import) :
    (updateRows decimal128 mongo csvFieldNames csvData s).2 = none := by
  rw [updateRows_stop, List.findSome?_eq_none_iff]
  intro csvLine hline
  unfold rowStop
  split
  · next e he => exact absurd he (hbuilds csvLine hline e)
  · rfl

/-- A file of accepted rows is processed to its end. -/
theorem updateDatabase_returns {file : CsvFile} {csvFieldNames : List String} {csvData : List (List String)}
    (hnames : getBondCsvFieldNames file = .ok csvFieldNames) (hdata : getBondCsvData file = .ok csvData)
    (haccepted : ∀ csvLine ∈ csvData,
      (buildMongoDocument decimal128 csvLine csvFieldNames 1).toOption.isSome = true) (bonds : List Stored) :
    (updateDatabase decimal128 mongo file bonds).2 = none := by
  rw [updateDatabase, hnames, hdata]
  apply updateRows_returns
  intro csvLine hline e he
  have hsome := haccepted csvLine hline
  rw [he] at hsome
  cases hsome

/-- **Rows that are all processed write the documents built from them**, one after the other. -/
theorem updateRows_collection (haccepts : ∀ c d, mongo.refuses c d = none) {csvFieldNames : List String}
    {csvData : List (List String)} {s : Import}
    (hreturns : (updateRows decimal128 mongo csvFieldNames csvData s).2 = none) :
    (updateRows decimal128 mongo csvFieldNames csvData s).1.collection =
      (builtDocuments decimal128 csvFieldNames csvData).foldl (upsert mongo) s.collection := by
  induction csvData generalizing s with
  | nil => rfl
  | cons csvLine csvData ih =>
      rw [updateRows, updateRow] at hreturns ⊢
      rw [builtDocuments, List.filterMap_cons]
      cases hbuild : buildMongoDocument decimal128 csvLine csvFieldNames 1 with
      | ok document =>
          rw [hbuild] at hreturns
          have h := ih hreturns
          rw [write_collection haccepts] at h
          exact h
      | error refusal =>
          rw [hbuild] at hreturns
          cases refusal with
          | thrown e => cases hreturns
          -- A refused row is counted and writes nothing, as it has no document in `builtDocuments`.
          | refused errorMsg => exact ih hreturns

theorem updateDatabase_collection (haccepts : ∀ c d, mongo.refuses c d = none) {file : CsvFile}
    {bonds : List Stored} (hreturns : (updateDatabase decimal128 mongo file bonds).2 = none) :
    (updateDatabase decimal128 mongo file bonds).1.collection =
      (fileDocuments decimal128 file).foldl (upsert mongo) bonds := by
  rw [updateDatabase] at hreturns ⊢
  rw [fileDocuments]
  cases hnames : getBondCsvFieldNames file with
  | error e =>
      rw [hnames] at hreturns
      cases hreturns
  | ok csvFieldNames =>
      rw [hnames] at hreturns
      cases hdata : getBondCsvData file with
      | error e =>
          rw [hdata] at hreturns
          cases hreturns
      | ok csvData =>
          rw [hdata] at hreturns
          exact updateRows_collection haccepts hreturns

/-- **The startup scan writes the documents of the files in the order they are listed.** -/
theorem startupScan_collection (haccepts : ∀ c d, mongo.refuses c d = none) {files : List (String × CsvFile)}
    (hreturns : ∀ file ∈ files, isCsvFile file.1 = true → ∀ bonds,
      (updateDatabase decimal128 mongo file.2 bonds).2 = none) (bonds : List Stored) :
    startupScan decimal128 mongo files bonds =
      ((files.flatMap (scannedDocuments decimal128)).foldl (upsert mongo) bonds, none) := by
  induction files generalizing bonds with
  | nil => rfl
  | cons file files ih =>
      obtain ⟨name, file⟩ := file
      rw [List.forall_mem_cons] at hreturns
      rw [startupScan, List.flatMap_cons, List.foldl_append, scannedDocuments]
      by_cases hname : isCsvFile name = true
      · have hnone := hreturns.1 hname bonds
        have hcollection := updateDatabase_collection haccepts hnone
        rw [if_pos hname, if_pos hname, ← hcollection]
        generalize hupdate : updateDatabase decimal128 mongo file bonds = result at hnone ⊢
        obtain ⟨s, exception⟩ := result
        subst hnone
        exact ih hreturns.2 s.collection
      · rw [if_neg hname, if_neg hname]
        exact ih hreturns.2 bonds

end Programs

/-! ## A driver and a server to run with -/

/-- `new Decimal128(d)` for a number from 0 to below `2 ^ 63` with an exponent in range: the coefficient in the
    low half, the biased exponent in the high half. -/
def plainDecimal128 (d : BigDecimal) : Except JavaException Decimal128 :=
  if 0 ≤ d.unscaledValue ∧ d.unscaledValue < 2 ^ 63 ∧ -6111 ≤ d.scale ∧ d.scale ≤ 6176 then
    .ok ⟨BitVec.ofInt 64 ((6176 - d.scale) * 2 ^ 49), BitVec.ofInt 64 d.unscaledValue⟩
  else .error .NumberFormatException

/-- A server that refuses nothing, and a driver that counts. -/
def plainMongo : Mongo where
  newObjectId := fun c => BitVec.ofNat 96 c.length
  refuses     := fun _ _ => none

end NewOrbit.Bonds.Importer
