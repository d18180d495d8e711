import NewOrbit.Bonds.Importer
import NewOrbit.Bonds.Verifier

/-!
# `Bonds.RoundTrip` — the verifier confirms what the importer stored

The two programs build the same document from a line the importer accepts (`buildMongoDocument_of_importer`).
Into an empty collection, rows with distinct ISINs are inserted one by one (`foldl_upsert_inserts`). A document
compared with itself as it comes back from Mongo is correct (`checkDocument_stored`). Together: after an import
the verifier finds nothing to report.
-/

namespace NewOrbit.Bonds

/-! ## One document in two programs -/

section Build
variable {decimal128 : BigDecimal → Except JavaException Decimal128}

/-- What the importer converts, the verifier converts alike. It treats two columns by their name that the
    importer treats by their type; in the table they are the same. -/
theorem convert_of_importer {csvLine : List String} {field : String × MongoDataType}
    {csvFieldName csvValue : String} {v : Value} (hfield : getMapping csvFieldName = some field)
    (h : Importer.convert decimal128 csvLine field csvFieldName csvValue = .ok v) :
    Verifier.convert decimal128 field csvFieldName csvValue = .ok v := by
  have hbool := getMapping_bool hfield
  rw [Verifier.convert]
  rcases Importer.convert_cases h with
    ⟨hfloat, hv⟩ | ⟨hfloat, hdate, hv⟩ | ⟨hfloat, htype, hv⟩ | ⟨hfloat, hdate, htype, hv⟩
  · rw [if_pos hfloat]
    rcases hv with ⟨rfl, rfl⟩ | ⟨rfl, rfl⟩ <;> simp
  · rw [if_neg hfloat, if_pos hdate, hv]
  · have hname : field.1 = "endOfMonthRule" := (hbool.mp htype).resolve_left hfloat
    rw [if_neg hfloat, if_neg (by simp [htype]), if_pos hname]
    rcases hv with ⟨rfl, rfl⟩ | ⟨rfl, rfl⟩ <;> simp
  · have hname : field.1 ≠ "endOfMonthRule" := fun hname => htype (hbool.mpr (Or.inr hname))
    rw [if_neg hfloat, if_neg hdate, if_neg hname, hv]

/-- **The programs agree**: a document the importer builds, the verifier builds too. -/
theorem buildMongoDocument_of_importer {csvLine csvFieldNames : List String} {recurseLevel : Int} {d : Document}
    (h : Importer.buildMongoDocument decimal128 csvLine csvFieldNames recurseLevel = .ok d) :
    Verifier.buildMongoDocument decimal128 csvLine csvFieldNames recurseLevel = .ok d :=
  buildMongoDocument_mono (fun _ _ _ _ _ hfield hv => convert_of_importer hfield hv) h

/-- A bond with its `dayCount` columns, built by the verifier as by the importer. -/
theorem buildMongoDocument_of_importer_dayCount :
    (Verifier.buildMongoDocument Importer.plainDecimal128 ["7", "XS1", "ACT/360", "ACT/360", "30/360"]
      ["number_of_trades", "ISIN", "dayCount", "dayCountDiscount", "dayCountFunding"] 1).toOption.isSome = true := by
  have hsome : (Importer.buildMongoDocument Importer.plainDecimal128 ["7", "XS1", "ACT/360", "ACT/360", "30/360"]
      ["number_of_trades", "ISIN", "dayCount", "dayCountDiscount", "dayCountFunding"] 1).toOption.isSome = true := by
    decide +kernel
  cases hbuild : Importer.buildMongoDocument Importer.plainDecimal128 ["7", "XS1", "ACT/360", "ACT/360", "30/360"]
      ["number_of_trades", "ISIN", "dayCount", "dayCountDiscount", "dayCountFunding"] 1 with
  | ok d =>
      rw [buildMongoDocument_of_importer hbuild]
      rfl
  | error e =>
      rw [hbuild] at hsome
      cases hsome

end Build

/-! ## Import into an empty collection -/

/-- Documents with distinct ISINs that the collection does not have are all inserted, in their order. -/
theorem foldl_upsert_inserts (mongo : Mongo) {docs : List Document} (hid : ∀ d ∈ docs, "_id" ∉ d.keys)
    (hisin : ∀ d ∈ docs, ∀ v, d.get "isin" = some v → ∃ s, v = .string s)
    (hdistinct : (docs.map (·.get "isin")).Nodup) {c : List Stored}
    (hnew : ∀ d ∈ docs, c.any (Stored.hasIsin (d.get "isin")) = false) :
    ∃ new, docs.foldl (upsert mongo) c = c ++ new ∧
      List.Forall₂ (fun d s => ∃ newId, s = Stored.ofDocument newId d) docs new := by
  induction docs generalizing c with
  | nil => exact ⟨[], (List.append_nil c).symm, .nil⟩
  | cons d docs ih =>
      rw [List.forall_mem_cons] at hid hisin hnew
      rw [List.map_cons, List.nodup_cons] at hdistinct
      let s := Stored.ofDocument (mongo.newObjectId c) d
      have hupsert : upsert mongo c d = c ++ [s] := by
        rw [upsert, hnew.1]
        rfl
      -- The document just inserted has an ISIN that no later one has, so the later ones are still not found.
      have hnew' : ∀ d' ∈ docs, (c ++ [s]).any (Stored.hasIsin (d'.get "isin")) = false := by
        intro d' hd'
        rw [List.any_append, hnew.2 d' hd', Bool.false_or, List.any_cons, List.any_nil, Bool.or_false,
          Bool.eq_false_iff]
        intro hmatch
        have hget : s.fields.get "isin" = d.get "isin" := by
          rw [Stored.ofDocument_fields hid.1, LinkedMap.get_map]
          cases hd : d.get "isin" with
          | none => rfl
          | some v =>
              obtain ⟨t, rfl⟩ := hisin.1 v hd
              rfl
        rw [Stored.hasIsin, hget, Stored.matchesIsin_iff (hisin.2 d' hd') hisin.1] at hmatch
        exact hdistinct.1 (hmatch ▸ List.mem_map_of_mem hd')
      obtain ⟨new, hfold, hall⟩ := ih hid.2 hisin.2 hdistinct.2 hnew'
      refine ⟨s :: new, ?_, .cons ⟨_, rfl⟩ hall⟩
      rw [List.foldl_cons, hupsert, hfold, List.append_assoc, List.singleton_append]

/-! ## Comparison with the stored document -/

section Check
variable {text : Value → String}

/-- A built value that is no document equals itself as it is read back. -/
theorem checkEntry_stored {v : Value} (hv : v.Built) {csvDocument : Document} {documentName key : String}
    (hkey : key ≠ "") (hget : csvDocument.get key = some v) :
    Verifier.checkEntry text v.stored csvDocument documentName key = .ok none := by
  induction hv generalizing csvDocument documentName key with
  | document d _ _ hempty ih =>
      have hreceiver : Verifier.receiver (csvDocument.get key) = .ok (.document d) :=
        Verifier.receiver_eq_ok.mpr ⟨hget, nofun⟩
      rw [Value.stored_document, Verifier.checkEntry, hreceiver]
      apply Verifier.checkDocument_eq_none.mpr
      rw [if_neg hkey]
      refine ⟨rfl, ?_⟩
      intro k v hv
      rw [LinkedMap.get_map] at hv
      obtain ⟨w, hw, rfl⟩ := Option.map_eq_some_iff.mp hv
      have hk : k ≠ "" := by
        rintro rfl
        exact hempty (LinkedMap.mem_keys_of_get hw)
      exact ih k w hw hk hw
  | _ => exact Verifier.checkValue_eq_none.mpr (Or.inr ⟨_, hget, by simp [Value.stored, Value.equals]⟩)

/-- **A stored document is found correct** when it is compared with the one it was made from. -/
theorem checkDocument_stored {d : Document} (hd : Value.Built (.document d)) (newId : BitVec 96) :
    Verifier.checkDocument text (Stored.ofDocument newId d).read d "" = .ok none := by
  cases hd with
  | document _ hvalue hid hempty =>
      apply Verifier.checkDocument_eq_none.mpr
      rw [if_pos rfl, Stored.size_read, Stored.ofDocument_fields hid, LinkedMap.size_map]
      refine ⟨rfl, ?_⟩
      intro k v hv
      rw [Stored.get_read, Stored.ofDocument_fields hid, LinkedMap.get_map] at hv
      split at hv
      · next hk =>
          rw [← Option.some.inj hv, Stored.ofDocument, LinkedMap.get_of_notMem hid]
          exact Verifier.checkValue_eq_none.mpr (Or.inl hk)
      · obtain ⟨w, hw, rfl⟩ := Option.map_eq_some_iff.mp hv
        have hk : k ≠ "" := by
          rintro rfl
          exact hempty (LinkedMap.mem_keys_of_get hw)
        exact checkEntry_stored (hvalue k w hw) hk hw

end Check

/-! ## The verifier after the importer -/

section Main
variable {decimal128 : BigDecimal → Except JavaException Decimal128} {text : Value → String}

/-- **What was imported verifies.** Import a file of accepted rows with distinct ISINs into an empty collection,
    and the verifier finds all documents correct. -/
theorem verifier_confirms_import (mongo : Mongo) (text : Value → String)
    (haccepts : ∀ c d, mongo.refuses c d = none) (file : CsvFile) (csvFieldNames : List String)
    (csvData : List (List String)) (docs : List Document)
    (hnames : getBondCsvFieldNames file = .ok csvFieldNames) (hdata : getBondCsvData file = .ok csvData)
    (hbuilt : List.Forall₂ (fun csvLine d =>
      Importer.buildMongoDocument decimal128 csvLine csvFieldNames 1 = .ok d) csvData docs)
    (hdistinct : (docs.map (·.get "isin")).Nodup) :
    (Importer.updateDatabase decimal128 mongo file []).2 = none ∧
      Verifier.main decimal128 text file (Importer.updateDatabase decimal128 mongo file []).1.collection =
        .ok ["All documents are correct!"] := by
  have hbuilds : ∀ csvLine ∈ csvData, ∃ d,
      Importer.buildMongoDocument decimal128 csvLine csvFieldNames 1 = .ok d := by
    intro csvLine hline
    obtain ⟨i, hi, rfl⟩ := List.getElem_of_mem hline
    exact ⟨_, hbuilt.get hi (hbuilt.length_eq ▸ hi)⟩
  have hdocs : ∀ d ∈ docs, ∃ csvLine, Importer.buildMongoDocument decimal128 csvLine csvFieldNames 1 = .ok d := by
    intro d hd
    obtain ⟨i, hi, rfl⟩ := List.getElem_of_mem hd
    exact ⟨_, hbuilt.get (hbuilt.length_eq ▸ hi) hi⟩
  have hvalue : ∀ d ∈ docs, Value.Built (.document d) := by
    intro d hd
    obtain ⟨csvLine, hbuild⟩ := hdocs d hd
    exact Importer.buildMongoDocument_built hbuild
  have hid : ∀ d ∈ docs, "_id" ∉ d.keys := by
    intro d hd
    cases hvalue d hd with
    | document _ _ hid _ => exact hid
  have hisin : ∀ d ∈ docs, ∀ v, d.get "isin" = some v → ∃ s, v = .string s := by
    intro d hd
    obtain ⟨csvLine, hbuild⟩ := hdocs d hd
    exact Importer.buildMongoDocument_isin hbuild
  have hnone : (Importer.updateDatabase decimal128 mongo file []).2 = none := by
    apply Importer.updateDatabase_returns hnames hdata
    intro csvLine hline
    obtain ⟨d, hd⟩ := hbuilds csvLine hline
    rw [hd]
    rfl
  obtain ⟨new, hfold, hall⟩ := foldl_upsert_inserts mongo hid hisin hdistinct (c := []) (fun _ _ => rfl)
  have hcollection := Importer.updateDatabase_collection haccepts hnone
  rw [Importer.fileDocuments_of_read hnames hdata, Importer.builtDocuments_of_built hbuilt, hfold,
    List.nil_append] at hcollection
  refine ⟨hnone, ?_⟩
  rw [hcollection]
  have hchecks : Verifier.checkDocuments decimal128 text csvFieldNames csvData 0 new = .ok [] := by
    have hlen : csvData.length = new.length := hbuilt.length_eq.trans hall.length_eq
    rw [Verifier.checkDocuments_eq_nil, List.drop_zero, List.take_of_length_le (Nat.le_of_eq hlen),
      List.forall₂_iff_get]
    -- Line `i` was built into document `i`, which was inserted as the `i`-th of the collection.
    refine ⟨hlen, ?_⟩
    intro i hi hi'
    have hi'' : i < docs.length := hbuilt.length_eq ▸ hi
    obtain ⟨newId, hnew⟩ := hall.get hi'' hi'
    have hbuild : Verifier.buildMongoDocument decimal128 (csvData.get ⟨i, hi⟩) csvFieldNames 1 =
        .ok (docs.get ⟨i, hi''⟩) :=
      buildMongoDocument_mono (fun _ _ _ _ _ hfield hv => convert_of_importer hfield hv) (hbuilt.get hi hi'')
    refine ⟨docs.get ⟨i, hi''⟩, hbuild, ?_⟩
    rw [hnew]
    exact checkDocument_stored (hvalue _ (List.get_mem docs _)) newId
  exact Verifier.main_eq_correct.mpr ⟨csvFieldNames, csvData, hnames, hdata, hchecks⟩

/-- Two bonds with a column of every type. -/
def twoBonds : List (List String) :=
  [["\uFEFFnumber_of_trades", "ISIN", "instrumentId", "instrumentType", "detailedCouponValue", "maturityDate",
    "parAmount", "endOfMonthRule", "dayCount", "dayCountDiscount", "dayCountFunding"],
   ["1", "DE0001141794", "24155431", "BOND", "FIXED", "05/04/2024 00:00", "0.01", "Y", "ACT/ACT_ISMA",
    "ACT/ACT_ISMA", "ACT/360"],
   ["2", "DE0001141760", "23249870", "BOND", "FLOAT", "07/10/2022 00:00", "5000", "N", "GERMAN30/360",
    "GERMAN30/360", "ACT/360"]]

theorem verifier_confirms_import_of_two_bonds :
    (Importer.updateDatabase Importer.plainDecimal128 Importer.plainMongo (.ok twoBonds) []).2 = none ∧
      Verifier.main Importer.plainDecimal128 (Importer.isinText ∘ some) (.ok twoBonds)
        (Importer.updateDatabase Importer.plainDecimal128 Importer.plainMongo (.ok twoBonds) []).1.collection =
        .ok ["All documents are correct!"] := by
  let csvFieldNames := "number_of_trades" :: (twoBonds.head (by decide)).tail
  let docs := Importer.builtDocuments Importer.plainDecimal128 csvFieldNames twoBonds.tail
  have hdistinct : (docs.map (·.get "isin")).Nodup := by
    apply List.Nodup.of_map Importer.isinText
    decide +kernel
  exact verifier_confirms_import Importer.plainMongo _ (fun _ _ => rfl) (.ok twoBonds) csvFieldNames twoBonds.tail
    docs (by decide +kernel) (by decide +kernel) (Importer.built_of_accepted (by decide +kernel)) hdistinct

end Main

end NewOrbit.Bonds
