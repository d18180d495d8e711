import NewOrbit.Bonds.Columns

/-!
# `Bonds.Isolation` — bad rows among good ones

A row that is refused is counted, and the rows after it are processed as if it were not there
(`updateRows_skip`). A row that throws ends the whole file. So `updateDatabase` isolates the bad rows of a file
exactly when none of its rows throws (`isolates_iff`).
-/

namespace NewOrbit.Bonds.Importer

section Isolation
variable (decimal128 : BigDecimal → Except JavaException Decimal128) (mongo : Mongo)

/-- `s` is `t`, with one failed row and its message more. -/
structure OneMoreFailed (s t : Import) : Prop where
  collection              : s.collection = t.collection
  numUpdated              : s.numUpdated = t.numUpdated
  numInserted             : s.numInserted = t.numInserted
  numFailed               : s.numFailed = t.numFailed + 1
  failedDocumentErrorMsgs : ∃ before errorMsg after,
    s.failedDocumentErrorMsgs = before ++ errorMsg :: after ∧ t.failedDocumentErrorMsgs = before ++ after

/-- `updateDatabase` on a header line and rows. -/
def updateDatabaseRows (header : List String) (csvData : List (List String)) (bonds : List Stored) :
    Import × Option JavaException :=
  updateDatabase decimal128 mongo (.ok (header :: csvData)) bonds

/-- `updateDatabase` returns, and leaves what it leaves without a row that cannot be built, but for the count of
    the failed rows. -/
def Isolates (header : List String) (csvData : List (List String)) (bonds : List Stored) : Prop :=
  (updateDatabaseRows decimal128 mongo header csvData bonds).2 = none ∧
  ∀ csvFieldNames before csvLine after, getBondCsvFieldNames (.ok (header :: csvData)) = .ok csvFieldNames →
    csvData = before ++ csvLine :: after →
    (∀ document, buildMongoDocument decimal128 csvLine csvFieldNames 1 ≠ .ok document) →
    OneMoreFailed (updateDatabaseRows decimal128 mongo header csvData bonds).1
      (updateDatabaseRows decimal128 mongo header (before ++ after) bonds).1

variable {decimal128} {mongo}

/-! ## One failed row more

Two imports that differ by one failed row go on alike, as no row looks at the counts. -/

theorem OneMoreFailed.fail {s t : Import} (h : OneMoreFailed s t) (errorMsg : String) :
    OneMoreFailed (s.fail errorMsg) (t.fail errorMsg) := by
  obtain ⟨before, msg, after, hs, ht⟩ := h.failedDocumentErrorMsgs
  refine ⟨h.collection, h.numUpdated, h.numInserted, congrArg (· + 1) h.numFailed, before, msg,
    after ++ [errorMsg], ?_, ?_⟩
  · show s.failedDocumentErrorMsgs ++ [errorMsg] = _
    rw [hs, List.append_assoc, List.cons_append]
  · show t.failedDocumentErrorMsgs ++ [errorMsg] = _
    rw [ht, List.append_assoc]

theorem OneMoreFailed.write {s t : Import} (h : OneMoreFailed s t) (document : Document) :
    OneMoreFailed (s.write mongo document) (t.write mongo document) := by
  -- Whether there is a bond to update, and whether the server refuses, depends on the collection alone.
  rw [Import.write, Import.write, h.collection]
  split
  · split
    · exact h.fail _
    · exact ⟨rfl, congrArg (· + 1) h.numUpdated, h.numInserted, h.numFailed, h.failedDocumentErrorMsgs⟩
  · split
    · exact h.fail _
    · exact ⟨rfl, h.numUpdated, congrArg (· + 1) h.numInserted, h.numFailed, h.failedDocumentErrorMsgs⟩

/-- A failed row more makes no difference to the rows after it. -/
theorem OneMoreFailed.updateRows {s t : Import} (h : OneMoreFailed s t) (csvFieldNames : List String)
    (csvData : List (List String)) :
    OneMoreFailed (updateRows decimal128 mongo csvFieldNames csvData s).1
      (updateRows decimal128 mongo csvFieldNames csvData t).1 := by
  induction csvData generalizing s t with
  | nil => exact h
  | cons csvLine csvData ih =>
      rw [Importer.updateRows, Importer.updateRows, updateRow, updateRow]
      cases buildMongoDocument decimal128 csvLine csvFieldNames 1 with
      | ok document => exact ih (h.write document)
      | error refusal =>
          cases refusal with
          | thrown e => exact h
          | refused errorMsg => exact ih (h.fail errorMsg)

/-! ## Files -/

/-- **A row that is refused is as good as absent**, where no row before it throws. -/
theorem updateRows_skip {csvFieldNames csvLine : List String} {before after : List (List String)}
    {errorMsg : String}
    (hbefore : ∀ line ∈ before, ¬ RowThrows decimal128 line csvFieldNames)
    (hrefused : buildMongoDocument decimal128 csvLine csvFieldNames 1 = .error (.refused errorMsg)) (s : Import) :
    OneMoreFailed (updateRows decimal128 mongo csvFieldNames (before ++ csvLine :: after) s).1
      (updateRows decimal128 mongo csvFieldNames (before ++ after) s).1 := by
  induction before generalizing s with
  | nil =>
      rw [List.nil_append, List.nil_append, updateRows, updateRow, hrefused]
      have hfail : OneMoreFailed (s.fail errorMsg) s :=
        ⟨rfl, rfl, rfl, rfl, s.failedDocumentErrorMsgs, errorMsg, [], rfl, (List.append_nil _).symm⟩
      exact hfail.updateRows csvFieldNames after
  | cons line before ih =>
      rw [List.forall_mem_cons] at hbefore
      rw [List.cons_append, List.cons_append, updateRows, updateRows, updateRow]
      cases hbuild : buildMongoDocument decimal128 line csvFieldNames 1 with
      | ok document => exact ih hbefore.2 _
      | error refusal =>
          cases refusal with
          | thrown e => exact absurd ((buildMongoDocument_throws_iff _ _).mp ⟨e, hbuild⟩) hbefore.1
          | refused errorMsg' => exact ih hbefore.2 _

theorem getBondCsvFieldNames_rows (header : List String) (csvData csvData' : List (List String)) :
    getBondCsvFieldNames (.ok (header :: csvData)) = getBondCsvFieldNames (.ok (header :: csvData')) := by
  cases header <;> rfl

theorem updateDatabaseRows_of_header {header csvFieldNames : List String} {csvData : List (List String)}
    (hnames : getBondCsvFieldNames (.ok (header :: csvData)) = .ok csvFieldNames) (bonds : List Stored) :
    updateDatabaseRows decimal128 mongo header csvData bonds =
      updateRows decimal128 mongo csvFieldNames csvData (.start bonds) := by
  rw [updateDatabaseRows, updateDatabase, hnames]
  rfl

/-- A file is processed to its end exactly when its header line has field names and none of its rows throws. -/
theorem updateDatabaseRows_returns_iff {header : List String} {csvData : List (List String)}
    {bonds : List Stored} :
    (updateDatabaseRows decimal128 mongo header csvData bonds).2 = none ↔
      ∃ first names firstName, header = first :: names ∧ substring1 first = .ok firstName ∧
        ∀ csvLine ∈ csvData, ¬ RowThrows decimal128 csvLine (firstName :: names) := by
  constructor
  · intro hreturns
    cases hnames : getBondCsvFieldNames (.ok (header :: csvData)) with
    | error e =>
        rw [updateDatabaseRows, updateDatabase, hnames] at hreturns
        cases hreturns
    | ok csvFieldNames =>
        obtain ⟨first, names, records, firstName, hfile, hfirst, rfl⟩ := getBondCsvFieldNames_eq_ok.mp hnames
        obtain ⟨rfl, rfl⟩ := List.cons.inj (Except.ok.inj hfile)
        rw [updateDatabaseRows_of_header hnames, updateRows_stop, List.findSome?_eq_none_iff] at hreturns
        refine ⟨first, names, firstName, rfl, hfirst, ?_⟩
        exact fun csvLine hline => rowStop_eq_none_iff.mp (hreturns csvLine hline)
  · rintro ⟨first, names, firstName, rfl, hfirst, hrows⟩
    have hnames : getBondCsvFieldNames (.ok ((first :: names) :: csvData)) = .ok (firstName :: names) :=
      getBondCsvFieldNames_eq_ok.mpr ⟨first, names, csvData, firstName, rfl, hfirst, rfl⟩
    rw [updateDatabaseRows_of_header hnames, updateRows_stop, List.findSome?_eq_none_iff]
    exact fun csvLine hline => rowStop_eq_none_iff.mpr (hrows csvLine hline)

/-- **The bad rows of a file are isolated exactly when none of its rows throws**, and its header line has field
    names. -/
theorem isolates_iff (decimal128 : BigDecimal → Except JavaException Decimal128) (mongo : Mongo)
    (header : List String) (csvData : List (List String)) (bonds : List Stored) :
    Isolates decimal128 mongo header csvData bonds ↔
      ∃ first names firstName, header = first :: names ∧ substring1 first = .ok firstName ∧
        ∀ csvLine ∈ csvData, ¬ RowThrows decimal128 csvLine (firstName :: names) := by
  rw [Isolates, updateDatabaseRows_returns_iff]
  apply and_iff_left_of_imp
  rintro ⟨first, names, firstName, rfl, hfirst, hrows⟩ csvFieldNames before csvLine after hnames rfl hbad
  have hread : getBondCsvFieldNames (.ok ((first :: names) :: (before ++ csvLine :: after))) =
      .ok (firstName :: names) :=
    getBondCsvFieldNames_eq_ok.mpr ⟨first, names, _, firstName, rfl, hfirst, rfl⟩
  obtain rfl : firstName :: names = csvFieldNames := Except.ok.inj (hread.symm.trans hnames)
  -- The row does not throw and is not built, so it is refused.
  obtain ⟨errorMsg, hrefused⟩ : ∃ errorMsg, buildMongoDocument decimal128 csvLine (firstName :: names) 1 =
      .error (.refused errorMsg) := by
    cases hbuild : buildMongoDocument decimal128 csvLine (firstName :: names) 1 with
    | ok document => exact absurd hbuild (hbad document)
    | error refusal =>
        cases refusal with
        | thrown e => exact absurd ((buildMongoDocument_throws_iff _ _).mp ⟨e, hbuild⟩) (hrows csvLine (by simp))
        | refused errorMsg => exact ⟨errorMsg, rfl⟩
  rw [updateDatabaseRows_of_header hnames,
    updateDatabaseRows_of_header ((getBondCsvFieldNames_rows _ _ _).trans hnames)]
  exact updateRows_skip (fun line hline => hrows line (List.mem_append_left _ hline)) hrefused _

/-- A blank line between two bonds is not isolated: the second bond is never read. -/
theorem not_always_isolates :
    ¬ ∀ header csvData bonds, Isolates plainDecimal128 plainMongo header csvData bonds := by
  intro hall
  have hreturns := (hall ["\uFEFFnumber_of_trades", "ISIN"] [["1", "XS1"], [""], ["2", "XS2"]] []).1
  exact absurd hreturns (by decide +kernel)

end Isolation

end NewOrbit.Bonds.Importer
