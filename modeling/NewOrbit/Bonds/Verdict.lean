import NewOrbit.Bonds.RoundTrip

/-!
# `Bonds.Verdict` — what it means that all documents are correct

The verifier walks over the documents of the collection, each beside the CSV line of its position. A walk that
ends without a message says that these documents are the ones built from the first lines; it does not look at
lines after the last document, and below the top level it does not look at a field `_id`
(`all_correct_of_missing_bond`).
-/

namespace NewOrbit.Bonds

/-- No document inside the value has a field `_id`. -/
def Value.NoId : Value → Prop
  | .document ⟨keys, _, value⟩ => "_id" ∉ keys ∧ ∀ k h, (value k h).NoId
  | _                          => True

theorem Value.noId_document {d : Document} (h : (Value.document d).NoId) :
    "_id" ∉ d.keys ∧ ∀ k h, (d.value k h).NoId := h

section Check
variable {decimal128 : BigDecimal → Except JavaException Decimal128} {text : Value → String}

/-- **An entry in which nothing is wrong says what the CSV document says.** -/
theorem meaning_of_checkEntry (v : Value) :
    ∀ {csvDocument : Document} {documentName key : String}, key ≠ "_id" → v.NoId →
      Value.Built (.document csvDocument) →
      Verifier.checkEntry text v csvDocument documentName key = .ok none →
      ∃ w, csvDocument.get key = some w ∧ v.meaning = w.meaning := by
  induction v using Value.induct with
  | document d ih =>
      intro csvDocument documentName key hid hno hbuilt hcheck
      obtain ⟨w, hw, heq | ⟨_, e, ⟨⟩, rfl, hinner⟩⟩ := Verifier.checkEntry_eq_none hid hcheck
      · exact ⟨w, hw, Value.meaning_eq_of_equals _ w heq⟩
      · -- Both are documents: as many fields, and each field of the one says what the other's does.
        cases hbuilt with
        | document _ hvalue _ hempty =>
            have hkey : key ≠ "" := fun h => hempty (h ▸ LinkedMap.mem_keys_of_get hw)
            obtain ⟨hsize, hentries⟩ := Verifier.checkDocument_eq_none.mp hinner
            rw [if_neg hkey] at hsize
            refine ⟨_, hw, ?_⟩
            rw [Value.meaning_document, Value.meaning_document]
            congr 1
            apply Document.meaning_eq_of_walk (Nat.le_of_eq hsize)
            intro k hk
            have hk' : k ≠ "_id" := fun h => (Value.noId_document hno).1 (h ▸ hk)
            exact ih k hk hk' ((Value.noId_document hno).2 k hk) (hvalue key _ hw)
              (hentries k _ (LinkedMap.get_of_mem hk))
  | _ =>
      intro csvDocument documentName key hid _ _ hcheck
      obtain ⟨w, hw, heq | ⟨_, _, hd, -, -⟩⟩ := Verifier.checkEntry_eq_none hid hcheck
      · exact ⟨w, hw, Value.meaning_eq_of_equals _ w heq⟩
      · cases hd

/-- **A document of the collection in which nothing is wrong says, without its `_id`, what the CSV document
    says.** -/
theorem meaning_of_checkDocument {s : Stored} {csvDocument : Document} (hbuilt : Value.Built (.document csvDocument))
    (hno : ∀ key v, s.fields.get key = some v → v.NoId)
    (hcheck : Verifier.checkDocument text s.read csvDocument "" = .ok none) :
    s.fields.meaning = csvDocument.meaning := by
  obtain ⟨hsize, hentries⟩ := Verifier.checkDocument_eq_none.mp hcheck
  rw [if_pos rfl, Stored.size_read] at hsize
  apply Document.meaning_eq_of_walk (Nat.le_of_eq (Nat.succ.inj hsize))
  intro k hk
  have hk' : k ≠ "_id" := fun h => s.no_id (h ▸ hk)
  have hget : s.fields.get k = some (s.fields.value k hk) := LinkedMap.get_of_mem hk
  -- The entry of `_id` adds one to the size and is not compared.
  have hentry := hentries k (s.fields.value k hk) (by rw [Stored.get_read, if_neg hk', hget])
  exact meaning_of_checkEntry _ hk' (hno k _ hget) hbuilt hentry

end Check

section Main
variable (decimal128 : BigDecimal → Except JavaException Decimal128) (text : Value → String)

/-- The documents are, without their `_id`, those built from the lines, one for one. -/
def Describes (csvFieldNames : List String) (csvData : List (List String)) (documents : List Stored) : Prop :=
  List.Forall₂ (fun csvLine s => ∃ d, Verifier.buildMongoDocument decimal128 csvLine csvFieldNames 1 = .ok d ∧
    s.fields.meaning = d.meaning) csvData documents

/-- **All documents are correct** only where the collection has no more documents than the file has lines, and
    its documents are the ones built from the first lines. -/
theorem describes_of_all_correct (file : CsvFile) (documents : List Stored)
    (hno : ∀ s ∈ documents, ∀ key v, s.fields.get key = some v → v.NoId)
    (h : Verifier.main decimal128 text file documents = .ok ["All documents are correct!"]) :
    ∃ csvFieldNames csvData, getBondCsvFieldNames file = .ok csvFieldNames ∧
      getBondCsvData file = .ok csvData ∧ documents.length ≤ csvData.length ∧
      Describes decimal128 csvFieldNames (csvData.take documents.length) documents := by
  obtain ⟨csvFieldNames, csvData, hnames, hdata, hchecks⟩ := Verifier.main_eq_correct.mp h
  rw [Verifier.checkDocuments_eq_nil, List.drop_zero] at hchecks
  refine ⟨csvFieldNames, csvData, hnames, hdata, ?_, ?_⟩
  · have hlen := hchecks.length_eq
    rw [List.length_take] at hlen
    omega
  · rw [Describes, List.forall₂_iff_get]
    refine ⟨hchecks.length_eq, ?_⟩
    intro i hi hi'
    obtain ⟨d, hbuild, hcheck⟩ := hchecks.get hi hi'
    exact ⟨d, hbuild, meaning_of_checkDocument (Verifier.buildMongoDocument_built hbuild)
      (hno _ (List.get_mem documents ⟨i, hi'⟩)) hcheck⟩

/-! ### The first of two bonds -/

def firstBuild : Except JavaException Document :=
  Verifier.buildMongoDocument Importer.plainDecimal128 (twoBonds.getD 1 [])
    ("number_of_trades" :: (twoBonds.getD 0 []).tail) 1

/-- The document built from the first line of `twoBonds`. -/
def firstBond : Document := firstBuild.toOption.getD .empty

/-- The first bond as a document whose nested `dayCount` has a field `_id` in place of `funding`. -/
def firstBondNestedId : Document :=
  firstBond.put "dayCount" (.document
    (((LinkedMap.empty.put "default" (.string "ACT/ACT_ISMA")).put "discount" (.string "ACT/ACT_ISMA")).put "_id"
      (.int 1)))

theorem built_firstBond : Value.Built (.document firstBond) := by
  have hsome : firstBuild.toOption.isSome = true := by decide +kernel
  rw [firstBond]
  cases hbuild : firstBuild with
  | ok d => exact Verifier.buildMongoDocument_built hbuild
  | error e =>
      rw [hbuild] at hsome
      cases hsome

theorem Value.Built.noId_stored {v : Value} (h : v.Built) : v.stored.NoId := by
  induction h with
  | document d _ hid _ ih =>
      refine ⟨hid, ?_⟩
      intro k hk
      exact ih k _ (LinkedMap.get_of_mem (m := d) hk)
  | _ => trivial

theorem describes_of_all_correct_firstBond :
    ∃ csvFieldNames csvData, getBondCsvFieldNames (.ok twoBonds) = .ok csvFieldNames ∧
      getBondCsvData (.ok twoBonds) = .ok csvData ∧ 1 ≤ csvData.length ∧
      Describes Importer.plainDecimal128 csvFieldNames (csvData.take 1) [Stored.ofDocument 0 firstBond] := by
  apply describes_of_all_correct Importer.plainDecimal128 (Importer.isinText ∘ some) (.ok twoBonds)
    [Stored.ofDocument 0 firstBond]
  · intro s hs key v hv
    cases built_firstBond with
    | document _ hvalue hid _ =>
        rw [List.mem_singleton.mp hs, Stored.ofDocument_fields hid, LinkedMap.get_map] at hv
        obtain ⟨w, hw, rfl⟩ := Option.map_eq_some_iff.mp hv
        exact (hvalue key w hw).noId_stored
  · decide +kernel

/-- Whether a nested `dayCount` says anything of `funding`. -/
def saysFunding (entry : String → Option Value.Meaning) : Bool :=
  match entry "dayCount" with
  | some (.document inner) => (inner "funding").isSome
  | _                      => false

/-- All documents are correct where the second bond is missing; and, below the top level, where a field `_id`
    stands for one that is missing. -/
theorem all_correct_of_missing_bond :
    (Verifier.main Importer.plainDecimal128 (Importer.isinText ∘ some) (.ok twoBonds)
        [Stored.ofDocument 0 firstBond] = .ok ["All documents are correct!"] ∧
      ∀ csvFieldNames csvData, getBondCsvFieldNames (.ok twoBonds) = .ok csvFieldNames →
        getBondCsvData (.ok twoBonds) = .ok csvData →
        ¬ Describes Importer.plainDecimal128 csvFieldNames csvData [Stored.ofDocument 0 firstBond]) ∧
    (Verifier.main Importer.plainDecimal128 (Importer.isinText ∘ some) (.ok (twoBonds.take 2))
        [Stored.ofDocument 0 firstBondNestedId] = .ok ["All documents are correct!"] ∧
      ∀ csvFieldNames csvData, getBondCsvFieldNames (.ok (twoBonds.take 2)) = .ok csvFieldNames →
        getBondCsvData (.ok (twoBonds.take 2)) = .ok csvData →
        ¬ Describes Importer.plainDecimal128 csvFieldNames csvData [Stored.ofDocument 0 firstBondNestedId]) := by
  refine ⟨⟨by decide +kernel, ?_⟩, by decide +kernel, ?_⟩
  · intro csvFieldNames csvData _ hdata h
    have hlen : csvData.length = 1 := h.length_eq
    rw [← Except.ok.inj hdata] at hlen
    exact absurd hlen (by decide)
  · intro csvFieldNames csvData hnames hdata h
    have hread : getBondCsvFieldNames (.ok (twoBonds.take 2)) =
        .ok ("number_of_trades" :: (twoBonds.getD 0 []).tail) := by decide +kernel
    rw [hread] at hnames
    rw [← Except.ok.inj hdata, ← Except.ok.inj hnames] at h
    obtain ⟨⟨d, hbuild, hmeaning⟩, -⟩ := List.forall₂_cons.mp h
    have hfirst : firstBuild = .ok d := hbuild
    -- The document of the line says something of `funding`; the stored one does not.
    have hd : firstBuild.toOption.map (fun d => saysFunding d.meaning) = some true := by decide +kernel
    have hs : saysFunding (Stored.ofDocument 0 firstBondNestedId).fields.meaning = false := by decide +kernel
    rw [hmeaning] at hs
    rw [hfirst, Except.toOption, Option.map_some, hs] at hd
    cases hd

end Main

end NewOrbit.Bonds
