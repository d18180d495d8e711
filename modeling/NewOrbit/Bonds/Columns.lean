import NewOrbit.Bonds.Importer

/-!
# `Bonds.Columns` — which rows make the build throw

The loop of `buildMongoDocument` ends early at the first column that throws or is refused, the columns of a
`dayCount` group taken one by one. `columns` lists what it goes through, without converting anything; a row throws
iff it has a column that does and none before it is refused (`buildMongoDocument_throws_iff`).
-/

namespace NewOrbit.Bonds

/-! ## The columns of a row -/

/-- A column the loop comes to: one that is converted, from the line or nested line it is in; or one where an index
    of `get` or `subList` is out of bounds. -/
inductive Column where
  | outOfBounds
  | mapped (csvLine : List String) (field : String × MongoDataType) (csvFieldName csvValue : String)

/-- A column that is not in the table is left out. -/
def column (csvLine : List String) (cell header : String) : List Column :=
  match getMapping (trim header) with
  | none       => []
  | some field => [.mapped csvLine field (trim header) (trim cell)]

/-- The columns of a line at recurse level 0. -/
def nestedColumns (csvLine : List String) : List String → List String → List Column
  | [],            _                 => []
  | _ :: _,        []                => [.outOfBounds]
  | cell :: cells, header :: headers => column csvLine cell header ++ nestedColumns csvLine cells headers

/-- The columns of a line at recurse level 1. -/
def columns (csvLine : List String) : List String → List String → List Column
  | [],            _                 => []
  | _ :: _,        []                => [.outOfBounds]
  | cell :: cells, header :: headers =>
      if trim header = "dayCount" then
        match cells, headers with
        | cell₁ :: cell₂ :: cells, header₁ :: header₂ :: headers =>
            nestedColumns [cell, cell₁, cell₂] [cell, cell₁, cell₂] [header, header₁, header₂]
              ++ columns csvLine cells headers
        | _, _ => [.outOfBounds]
      else column csvLine cell header ++ columns csvLine cells headers

section Failure
variable {ε : Type} (thrown : JavaException → ε)
  (convert : List String → String × MongoDataType → String → String → Except ε Value)

/-- Why the loop ends at a column, if it does. -/
def Column.failure : Column → Option ε
  | .outOfBounds => some (thrown .IndexOutOfBoundsException)
  | .mapped csvLine field csvFieldName csvValue =>
      match convert csvLine field csvFieldName csvValue with
      | .error e => some e
      | .ok _    => none

/-- The end of a build that fails. -/
def failed {α : Type} : Except ε α → Option ε
  | .error e => some e
  | .ok _    => none

variable {thrown convert} {csvLine : List String}

/-- One column, and a rest of the loop that fails as the columns after it. -/
theorem failed_column {rest : Document → Except ε Document} {cs : List Column}
    (hrest : ∀ d, failed (rest d) = cs.findSome? (Column.failure thrown convert)) (cell header : String)
    (d : Document) :
    failed (match getMapping (trim header) with
      | none       => rest d
      | some field =>
        match convert csvLine field (trim header) (trim cell) with
        | .error e => .error e
        | .ok v    => rest (d.put field.1 v)) =
      (column csvLine cell header ++ cs).findSome? (Column.failure thrown convert) := by
  rw [column]
  cases getMapping (trim header) with
  | none => exact hrest d
  | some field =>
      rw [List.singleton_append, List.findSome?_cons, Column.failure]
      show failed (match convert csvLine field (trim header) (trim cell) with
        | .error e => .error e
        | .ok v    => rest (d.put field.1 v)) = _
      cases convert csvLine field (trim header) (trim cell) with
      | error e => rfl
      | ok v => exact hrest _

/-- **A build at level 0 fails as its first failing column.** -/
theorem failed_nested (cells headers : List String) (d : Document) :
    failed (buildColumns thrown (convert csvLine) none cells headers d) =
      (nestedColumns csvLine cells headers).findSome? (Column.failure thrown convert) := by
  induction cells generalizing headers d with
  | nil =>
      rw [buildColumns, nestedColumns]
      rfl
  | cons cell cells ih =>
      cases headers with
      | nil =>
          rw [buildColumns, nestedColumns]
          rfl
      | cons header headers =>
          rw [buildColumns, nestedColumns]
          simp only [ite_self]
          exact failed_column (ih headers) cell header d

/-- **A build at level 1 fails as its first failing column**, those of the nested documents included. -/
theorem failed_columns (cells headers : List String) (d : Document) :
    failed (buildColumns thrown (convert csvLine)
        (some fun line names => buildColumns thrown (convert line) none line names .empty) cells headers d) =
      (columns csvLine cells headers).findSome? (Column.failure thrown convert) := by
  fun_induction columns csvLine cells headers generalizing d with
  | case1 headers =>
      rw [buildColumns]
      rfl
  | case2 =>
      rw [buildColumns]
      rfl
  | case3 cell header hname cell₁ cell₂ cells header₁ header₂ headers ih =>
      rw [buildColumns, List.findSome?_append, ← failed_nested _ _ .empty]
      simp only [if_pos hname]
      cases buildColumns thrown (convert [cell, cell₁, cell₂]) none [cell, cell₁, cell₂] [header, header₁, header₂]
        .empty with
      | error e => rfl
      | ok n => exact ih _
  | case4 cell cells header headers hname hshort =>
      rw [buildColumns]
      simp only [if_pos hname]
      rfl
  | case5 cell cells header headers hname ih =>
      rw [buildColumns]
      simp only [if_neg hname]
      exact failed_column ih cell header d

end Failure

namespace Importer

section Throws
variable (decimal128 : BigDecimal → Except JavaException Decimal128)

/-! ## The importer's columns -/

/-- The number is one that the driver fails on in another way than by refusing it. -/
def DecimalThrows (field : String × MongoDataType) (csvValue : String) : Prop :=
  field.1 ≠ "isFloat" ∧ field.2 = .decimal ∧
    ∃ d e, bigDecimal csvValue = .ok d ∧ decimal128 d = .error e ∧ e ≠ .NumberFormatException

/-- The text is none of those the data type has. -/
def Unreadable (field : String × MongoDataType) (csvValue : String) : Prop :=
  if field.1 = "isFloat" then csvValue ≠ "FLOAT" ∧ csvValue ≠ "FIXED"
  else match field.2 with
    | .date         => parseLocalDateTime csvValue = .error .DateTimeParseException
    | .bool         => csvValue ≠ "Y" ∧ csvValue ≠ "N"
    | mongoDataType => switchValue decimal128 mongoDataType csvValue = .error .NumberFormatException

/-- A message about the column begins with the second cell of its line, which is read before it is known whether
    a message is needed. -/
def Column.Throws : Column → Prop
  | .outOfBounds                     => True
  | .mapped csvLine field _ csvValue => csvLine.length < 2 ∨ DecimalThrows decimal128 field csvValue

def Column.Refused : Column → Prop
  | .outOfBounds                     => False
  | .mapped csvLine field _ csvValue => 2 ≤ csvLine.length ∧ Unreadable decimal128 field csvValue

/-- A column of the row throws, and none before it is refused. -/
def RowThrows (csvLine csvFieldNames : List String) : Prop :=
  ∃ before c after, columns csvLine csvLine csvFieldNames = before ++ c :: after ∧
    Column.Throws decimal128 c ∧ ∀ c' ∈ before, ¬ Column.Refused decimal128 c'

variable {decimal128}

theorem catching_eq_thrown {e e' : JavaException} {errorMsg : String} {x : Except JavaException Value} :
    catching e (.error (.refused errorMsg)) x = .error (.thrown e') ↔ x = .error e' ∧ e' ≠ e := by
  cases x with
  | ok w => simp [catching]
  | error e₁ =>
      rw [catching]
      split
      · next h => simp [h]; rintro rfl; rfl
      · next h => simp; rintro rfl; exact h

theorem catching_eq_refused {e : JavaException} {errorMsg errorMsg' : String} {x : Except JavaException Value} :
    catching e (.error (.refused errorMsg)) x = .error (.refused errorMsg') ↔
      x = .error e ∧ errorMsg = errorMsg' := by
  cases x with
  | ok w => simp [catching]
  | error e₁ =>
      rw [catching]
      split
      · next h => simp [h]
      · next h => simp [h]

/-- What goes wrong in the `switch`, other than a number that cannot be read. -/
theorem switchValue_throws_iff {mongoDataType : MongoDataType} {csvValue : String} {e : JavaException} :
    switchValue decimal128 mongoDataType csvValue = .error e ∧ e ≠ .NumberFormatException ↔
      mongoDataType = .decimal ∧ ∃ d, bigDecimal csvValue = .ok d ∧ decimal128 d = .error e ∧
        e ≠ .NumberFormatException := by
  cases mongoDataType with
  | int =>
      rw [switchValue, map_eq_error]
      exact ⟨fun h => absurd (parseSigned_error h.1) h.2, fun h => nomatch h.1⟩
  | long =>
      rw [switchValue, map_eq_error]
      exact ⟨fun h => absurd (parseSigned_error h.1) h.2, fun h => nomatch h.1⟩
  | decimal =>
      rw [switchValue, map_eq_error, bind_eq_error]
      constructor
      · rintro ⟨h | ⟨d, hd, he⟩, hne⟩
        · exact absurd (orThrow_error h) hne
        · exact ⟨rfl, d, hd, he, hne⟩
      · rintro ⟨-, d, hd, he, hne⟩
        exact ⟨Or.inr ⟨d, hd, he⟩, hne⟩
  | _ => exact ⟨(fun h => nomatch h.1), (fun h => nomatch h.1)⟩

variable {csvLine : List String} {field : String × MongoDataType} {csvFieldName csvValue : String}

theorem convert_of_short (h : csvLine.length < 2) :
    convert decimal128 csvLine field csvFieldName csvValue = .error (.thrown .IndexOutOfBoundsException) := by
  rw [convert, List.getElem?_eq_none (by omega)]

theorem convert_throws_iff (hline : 2 ≤ csvLine.length) :
    (∃ e, convert decimal128 csvLine field csvFieldName csvValue = .error (.thrown e)) ↔
      DecimalThrows decimal128 field csvValue := by
  unfold convert DecimalThrows
  rw [List.getElem?_eq_getElem (by omega : 1 < csvLine.length)]
  dsimp only
  by_cases hfloat : field.1 = "isFloat"
  · rw [if_pos hfloat]
    refine iff_of_false ?_ fun h => h.1 hfloat
    rintro ⟨e, he⟩
    split at he
    · cases he
    · split at he <;> cases he
  · rw [if_neg hfloat, and_iff_right hfloat]
    obtain ⟨mongoFieldName, mongoDataType⟩ := field
    cases mongoDataType with
    | date =>
        refine iff_of_false ?_ fun h => nomatch h.1
        rintro ⟨e, he⟩
        obtain ⟨he, hne⟩ := catching_eq_thrown.mp he
        exact hne (orThrow_error (map_eq_error.mp he))
    | bool =>
        refine iff_of_false ?_ fun h => nomatch h.1
        rintro ⟨e, he⟩
        dsimp only at he
        split at he
        · cases he
        · split at he <;> cases he
    | _ =>
        simp only [catching_eq_thrown, switchValue_throws_iff]
        exact ⟨fun ⟨e, htype, d, h⟩ => ⟨htype, d, e, h⟩, fun ⟨htype, d, e, h⟩ => ⟨e, htype, d, h⟩⟩

theorem convert_refused_iff (hline : 2 ≤ csvLine.length) :
    (∃ errorMsg, convert decimal128 csvLine field csvFieldName csvValue = .error (.refused errorMsg)) ↔
      Unreadable decimal128 field csvValue := by
  unfold convert Unreadable
  rw [List.getElem?_eq_getElem (by omega : 1 < csvLine.length)]
  dsimp only
  by_cases hfloat : field.1 = "isFloat"
  · rw [if_pos hfloat, if_pos hfloat]
    split
    · next h => simp [h]
    · split
      · next h => simp [h]
      · next h h' => simp [h, h']
  · rw [if_neg hfloat, if_neg hfloat]
    obtain ⟨mongoFieldName, mongoDataType⟩ := field
    cases mongoDataType with
    | date =>
        simp only [catching_eq_refused, dateValue, map_eq_error]
        exact ⟨fun ⟨_, h, _⟩ => h, fun h => ⟨_, h, rfl⟩⟩
    | bool =>
        dsimp only
        split
        · next h => simp [h]
        · split
          · next h => simp [h]
          · next h h' => simp [h, h']
    | _ =>
        simp only [catching_eq_refused]
        exact ⟨fun ⟨_, h, _⟩ => h, fun h => ⟨_, h, rfl⟩⟩

theorem failure_mapped_iff {r : Refusal} :
    (Column.mapped csvLine field csvFieldName csvValue).failure .thrown (convert decimal128) = some r ↔
      convert decimal128 csvLine field csvFieldName csvValue = .error r := by
  rw [Column.failure]
  cases convert decimal128 csvLine field csvFieldName csvValue <;> simp

theorem failure_throws_iff (c : Column) :
    (∃ e, c.failure .thrown (convert decimal128) = some (.thrown e)) ↔ Column.Throws decimal128 c := by
  cases c with
  | outOfBounds => exact iff_of_true ⟨_, rfl⟩ trivial
  | mapped csvLine field csvFieldName csvValue =>
      simp only [failure_mapped_iff, Column.Throws]
      rcases Nat.lt_or_ge csvLine.length 2 with hshort | hline
      · exact iff_of_true ⟨_, convert_of_short hshort⟩ (Or.inl hshort)
      · rw [convert_throws_iff hline]
        exact (or_iff_right (by omega)).symm

theorem failure_refused_iff (c : Column) :
    (∃ errorMsg, c.failure .thrown (convert decimal128) = some (.refused errorMsg)) ↔
      Column.Refused decimal128 c := by
  cases c with
  | outOfBounds => exact iff_of_false nofun id
  | mapped csvLine field csvFieldName csvValue =>
      simp only [failure_mapped_iff, Column.Refused]
      rcases Nat.lt_or_ge csvLine.length 2 with hshort | hline
      · refine iff_of_false ?_ fun h => absurd h.1 (by omega)
        rw [convert_of_short hshort]
        exact nofun
      · rw [convert_refused_iff hline]
        exact (and_iff_right hline).symm

theorem failed_buildMongoDocument (csvLine csvFieldNames : List String) :
    failed (buildMongoDocument decimal128 csvLine csvFieldNames 1) =
      (columns csvLine csvLine csvFieldNames).findSome? (Column.failure .thrown (convert decimal128)) :=
  failed_columns csvLine csvFieldNames .empty

/-- Among columns that each go through, are refused or throw, the first that does not go through throws. -/
theorem findSome_throws_iff (cs : List Column) :
    (∃ e, cs.findSome? (Column.failure .thrown (convert decimal128)) = some (.thrown e)) ↔
      ∃ before c after, cs = before ++ c :: after ∧ Column.Throws decimal128 c ∧
        ∀ c' ∈ before, ¬ Column.Refused decimal128 c' := by
  constructor
  · rintro ⟨e, he⟩
    obtain ⟨before, c, after, rfl, hc, hbefore⟩ := List.findSome?_eq_some_iff.mp he
    refine ⟨before, c, after, rfl, (failure_throws_iff c).mp ⟨e, hc⟩, fun c' hc' href => ?_⟩
    obtain ⟨errorMsg, hrefused⟩ := (failure_refused_iff c').mpr href
    exact nomatch (hbefore c' hc').symm.trans hrefused
  · rintro ⟨before, c, after, rfl, hc, hbefore⟩
    obtain ⟨e, he⟩ := (failure_throws_iff c).mpr hc
    rw [List.findSome?_append, List.findSome?_cons, he]
    -- Either nothing ends the loop before `c`, or a column that throws does.
    cases hr : before.findSome? (Column.failure .thrown (convert decimal128)) with
    | none => exact ⟨e, rfl⟩
    | some r =>
        obtain ⟨before, c', after, rfl, hc', -⟩ := List.findSome?_eq_some_iff.mp hr
        cases r with
        | thrown e' => exact ⟨e', rfl⟩
        | refused errorMsg =>
            exact absurd ((failure_refused_iff c').mp ⟨errorMsg, hc'⟩) (hbefore c' (by simp))

/-- **A row makes the build throw iff it has a column that does and none before it is refused.** -/
theorem buildMongoDocument_throws_iff (csvLine csvFieldNames : List String) :
    (∃ e, buildMongoDocument decimal128 csvLine csvFieldNames 1 = .error (.thrown e)) ↔
      RowThrows decimal128 csvLine csvFieldNames := by
  rw [RowThrows, ← findSome_throws_iff, ← failed_buildMongoDocument]
  cases buildMongoDocument decimal128 csvLine csvFieldNames 1 <;> simp [failed]

theorem rowStop_eq_none_iff {csvFieldNames csvLine : List String} :
    rowStop decimal128 csvFieldNames csvLine = none ↔ ¬ RowThrows decimal128 csvLine csvFieldNames := by
  rw [← buildMongoDocument_throws_iff, rowStop]
  cases buildMongoDocument decimal128 csvLine csvFieldNames 1 with
  | ok d => simp
  | error r => cases r <;> simp

end Throws
end Importer

end NewOrbit.Bonds
