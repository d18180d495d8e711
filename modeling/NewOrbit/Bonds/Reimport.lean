import NewOrbit.Bonds.Merge

/-!
# `Bonds.Reimport` — the same file twice

One copy of a file into the folder raises two events, so it is imported twice. The second import changes nothing:
it writes to the bonds the first has left for its ISINs, and these have the last values already
(`reimport_unchanged`). A row without an ISIN goes to the first bond with none, which must not be found by a string
too: where an array has null and a string in it, a later row of the file takes the bond away from the first.
-/

namespace NewOrbit.Bonds

/-- Documents of which some may have no ISIN. -/
def nullKeys {docs : List Document} (hdocs : ∀ d ∈ docs, d.IsBond) : IsinKeys (Option String) docs where
  query q := q.map .string
  key d   := d.1.isin
  inj     := Option.map_injective fun _ _ h => Value.string.inj h
  text    := by
    intro q v h
    obtain ⟨t, -, rfl⟩ := Option.map_eq_some_iff.mp h
    exact ⟨t, rfl⟩
  isin d  := (hdocs d.1 d.2).get_isin

/-- **Writing the same documents again changes no field.** -/
theorem foldl_upsert_again (mongo : Mongo) {docs : List Document} (hdocs : ∀ d ∈ docs, d.IsBond)
    {bonds : List Stored}
    (hnull : ∀ s ∈ bonds, NullApart docs s) :
    (docs.foldl (upsert mongo) (docs.foldl (upsert mongo) bonds)).map (·.read.get) =
      (docs.foldl (upsert mongo) bonds).map (·.read.get) := by
  rw [foldl_upsert_eq_run mongo (nullKeys hdocs), foldl_upsert_eq_run mongo (nullKeys hdocs)]
  exact Upsert.run_run (isinSchema_lawful mongo (nullKeys hdocs) fun d hd => (hdocs d hd).1) hnull docs.attach

namespace Importer

section Reimport
variable {decimal128 : BigDecimal → Except JavaException Decimal128} {mongo : Mongo}

theorem isBond_of_file {file : CsvFile} : ∀ d ∈ fileDocuments decimal128 file, d.IsBond := by
  intro d hd
  rw [fileDocuments] at hd
  split at hd
  · obtain ⟨csvLine, -, hbuild⟩ := mem_builtDocuments.mp hd
    exact isBond_of_built hbuild
  · cases hd

/-- What a file throws does not depend on the collection. -/
theorem updateDatabase_stop (file : CsvFile) (bonds bonds' : List Stored) :
    (updateDatabase decimal128 mongo file bonds).2 = (updateDatabase decimal128 mongo file bonds').2 := by
  rw [updateDatabase, updateDatabase]
  cases getBondCsvFieldNames file with
  | error e => rfl
  | ok csvFieldNames =>
      cases getBondCsvData file with
      | error e => rfl
      | ok csvData =>
          show (updateRows decimal128 mongo csvFieldNames csvData (.start bonds)).2 =
            (updateRows decimal128 mongo csvFieldNames csvData (.start bonds')).2
          rw [updateRows_stop, updateRows_stop]

/-- **Importing a file a second time changes no document**, where no array that is an `isin` has both null and a
    string in it; the arrays matter only if the file has a row without an ISIN. -/
theorem reimport_unchanged (decimal128 : BigDecimal → Except JavaException Decimal128) (mongo : Mongo)
    (haccepts : ∀ c d, mongo.refuses c d = none) (file : CsvFile) (bonds : List Stored)
    (hnull : ∀ s ∈ bonds, NullApart (fileDocuments decimal128 file) s)
    (hreturns : (updateDatabase decimal128 mongo file bonds).2 = none) :
    let once := (updateDatabase decimal128 mongo file bonds).1.collection
    (updateDatabase decimal128 mongo file once).2 = none ∧
      (updateDatabase decimal128 mongo file once).1.collection.map (·.read.get) = once.map (·.read.get) := by
  intro once
  have hagain : (updateDatabase decimal128 mongo file once).2 = none :=
    (updateDatabase_stop file once bonds).trans hreturns
  refine ⟨hagain, ?_⟩
  have honce : once = (fileDocuments decimal128 file).foldl (upsert mongo) bonds :=
    updateDatabase_collection haccepts hreturns
  rw [updateDatabase_collection haccepts hagain, honce]
  exact foldl_upsert_again mongo isBond_of_file hnull

/-- Rows for one ISIN that set different fields, the last of them not all. -/
def unevenFile : CsvFile :=
  .ok [["\uFEFFnumber_of_trades", "ISIN", "currency"], ["5", "XS1"], ["6", "XS1", "EUR"], ["7", "XS1"],
    ["8", "XS2"]]

theorem reimport_unchanged_unevenFile :
    let once := (updateDatabase plainDecimal128 plainMongo unevenFile [stringIsinBond]).1.collection
    (updateDatabase plainDecimal128 plainMongo unevenFile once).2 = none ∧
      (updateDatabase plainDecimal128 plainMongo unevenFile once).1.collection.map (·.read.get) =
        once.map (·.read.get) := by
  apply reimport_unchanged plainDecimal128 plainMongo (fun _ _ => rfl)
  · rw [List.forall_mem_singleton]
    intro _ hnull
    cases hnull
  · decide +kernel

/-- A bond whose `isin` is an array with null and a string in it. -/
def nullArrayBond : Stored where
  id     := .objectId 0
  fields := LinkedMap.empty.put "isin" (.array 2 fun i => if i.val = 0 then .null else .string "XS1")
  no_id  := by decide

/-- The first row has no ISIN and goes to the bond, which the second row makes one of its own ISIN; the second time
    there is no bond without an ISIN left, and one is inserted. -/
theorem not_always_unchanged :
    ¬ ∀ (file : CsvFile) (bonds : List Stored), (updateDatabase plainDecimal128 plainMongo file bonds).2 = none →
      let once := (updateDatabase plainDecimal128 plainMongo file bonds).1.collection
      (updateDatabase plainDecimal128 plainMongo file once).1.collection.map (·.read.get) =
        once.map (·.read.get) := by
  intro hall
  have hsame := hall (.ok [["\uFEFFnumber_of_trades", "currency", "ISIN"], ["5", "USD"], ["6", "EUR", "XS1"]])
    [nullArrayBond] (by decide +kernel)
  have hlength := congrArg List.length hsame
  rw [List.length_map, List.length_map] at hlength
  exact absurd hlength (by decide +kernel)

end Reimport

end Importer

end NewOrbit.Bonds
