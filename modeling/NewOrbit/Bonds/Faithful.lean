import Mathlib.Data.List.ReduceOption
import NewOrbit.Bonds.Dates
import NewOrbit.Bonds.Numbers

/-!
# `Bonds.Faithful` — whether the importer stores what the text says

The loop of `buildMongoDocument` takes a row apart (`parts`): mapped columns, each stored under its MongoDB name,
and groups of three `dayCount` columns, each stored as a document of its own mapped columns. A document is
`Faithful` to a row when every mapped column finds, where it belongs, a value that denotes its trimmed text.

Numbers, flags and texts are kept exactly. Two things can go wrong: the text of a date column is no real date, or
a later column of the same name has replaced the value (`faithful_iff`).
-/

namespace NewOrbit.Bonds

/-! ## Columns

`parts` has the same recursion as `buildMongoDocument`, but keeps all columns of the table, also those whose value is
replaced later. The `dayCount` groups are parts on the first level only, as the nested documents have none. -/

/-- A column of the table in a row, with its trimmed text. -/
structure MappedColumn where
  csvFieldName : String
  field        : String × MongoDataType
  mapped       : getMapping csvFieldName = some field
  csvValue     : String

def MappedColumn.mongoFieldName (c : MappedColumn) : String := c.field.1

/-- The column a cell is, where its header is in the table. -/
def mappedColumn (cell header : String) : Option MappedColumn :=
  match h : getMapping (trim header) with
  | none       => none
  | some field => some ⟨trim header, field, h, trim cell⟩

def mappedColumns (csvLine csvFieldNames : List String) : List MappedColumn :=
  (List.zipWith mappedColumn csvLine csvFieldNames).reduceOption

/-- What a document has an entry for. -/
inductive Part where
  | column (c : MappedColumn)
  | dayCount (columns : List MappedColumn)

/-- The parts of a row from one column on, with or without nested documents. -/
def parts (nested : Bool) : List String → List String → List Part
  | cell :: cells, header :: headers =>
      if nested && trim header == "dayCount" then
        match cells, headers with
        | cell₁ :: cell₂ :: cells, header₁ :: header₂ :: headers =>
            .dayCount (mappedColumns [cell, cell₁, cell₂] [header, header₁, header₂]) ::
              parts nested cells headers
        | _, _ => []
      else (mappedColumn cell header).toList.map .column ++ parts nested cells headers
  | _, _ => []

namespace Part

/-- The name of the entry. -/
def key : Part → String
  | column c   => c.mongoFieldName
  | dayCount _ => "dayCount"

def columns : Part → List MappedColumn
  | column c    => [c]
  | dayCount cs => cs

end Part

/-- The value a document has for a column of a part. -/
def Document.find (d : Document) (p : Part) (c : MappedColumn) : Option Value :=
  match p with
  | .column _   => d.get c.mongoFieldName
  | .dayCount _ =>
      match d.get "dayCount" with
      | some (.document n) => n.get c.mongoFieldName
      | _                  => none

/-! ## What a column says

The texts of numbers and of dates have relations of their own, which do not mention how the importer reads them. Each
text stands for one number at most, so a value kept for a column is kept for another of the same type exactly if both
say the same (`denotes_iff_sameValue`). -/

namespace MappedColumn

/-- The texts of a flag. -/
def yes (c : MappedColumn) : String := if c.mongoFieldName = "isFloat" then "FLOAT" else "Y"

def no (c : MappedColumn) : String := if c.mongoFieldName = "isFloat" then "FIXED" else "N"

/-- A value denotes the text of a column. -/
def Denotes (c : MappedColumn) (v : Value) : Prop :=
  match c.field.2 with
  | .int     => ∃ n, IntegerText c.csvValue.toList n ∧ v = .int n
  | .long    => ∃ n, IntegerText c.csvValue.toList n ∧ v = .long n
  | .decimal => ∃ q, DecimalText c.csvValue.toList q ∧ ∃ x, x.value = some q ∧ v = .decimal128 x
  | .bool    => c.csvValue = c.yes ∧ v = .bool true ∨ c.csvValue = c.no ∧ v = .bool false
  | .string  => v = .string c.csvValue
  | .date    => ∃ ms, FormatsAs ms c.csvValue ∧ v = .timestamp ms

/-- Two columns of one type say the same. -/
def SameValue (c c' : MappedColumn) : Prop :=
  match c.field.2 with
  | .int | .long => ∃ n, IntegerText c.csvValue.toList n ∧ IntegerText c'.csvValue.toList n
  | .decimal     => ∃ q, DecimalText c.csvValue.toList q ∧ DecimalText c'.csvValue.toList q
  | _            => c.csvValue = c'.csvValue

/-- The text of a date column is a real date. -/
def Real (c : MappedColumn) : Prop := c.field.2 = .date → RealDate c.csvValue

/-- Two texts that stand for at most one thing each: a value kept for that of one is kept for that of the other
    when both stand for the same. -/
theorem kept_iff {α : Type} {T : List Char → α → Prop} {E : α → Value → Prop} {cs cs' : List Char} {v : Value}
    (hT : ∀ {cs a b}, T cs a → T cs b → a = b) (hE : ∀ {a b}, E a v → E b v → a = b)
    (hv : ∃ a, T cs' a ∧ E a v) : (∃ a, T cs a ∧ E a v) ↔ ∃ a, T cs a ∧ T cs' a := by
  obtain ⟨a, ha, hav⟩ := hv
  constructor
  · rintro ⟨b, hb, hbv⟩
    exact ⟨a, hE hbv hav ▸ hb, ha⟩
  · rintro ⟨b, hb, hb'⟩
    exact ⟨a, hT hb' ha ▸ hb, hav⟩

/-- A flag is kept for one of its two texts only. -/
theorem flag_iff {text text' yes no : String} {v : Value}
    (hv : text' = yes ∧ v = .bool true ∨ text' = no ∧ v = .bool false) :
    (text = yes ∧ v = .bool true ∨ text = no ∧ v = .bool false) ↔ text = text' := by
  rcases hv with ⟨rfl, rfl⟩ | ⟨rfl, rfl⟩
  · simp
  · simp

/-- A value that denotes the text of one column denotes that of another when both say the same. -/
theorem denotes_iff_sameValue {c c' : MappedColumn} {v : Value} (hfield : c.field = c'.field)
    (hv : c'.Denotes v) :
    c.Denotes v ↔ c.SameValue c' := by
  unfold Denotes at hv ⊢
  unfold SameValue
  rw [← hfield] at hv
  cases htype : c.field.2 with
  | int =>
      simp only [htype] at hv ⊢
      apply kept_iff (T := IntegerText) (E := fun n v => v = .int n) IntegerText.unique _ hv
      rintro m n rfl h
      exact Value.int.inj h
  | long =>
      simp only [htype] at hv ⊢
      apply kept_iff (T := IntegerText) (E := fun n v => v = .long n) IntegerText.unique _ hv
      rintro m n rfl h
      exact Value.long.inj h
  | decimal =>
      simp only [htype] at hv ⊢
      apply kept_iff (T := DecimalText) (E := fun q v => ∃ x, x.value = some q ∧ v = .decimal128 x)
        DecimalText.unique _ hv
      rintro q r ⟨x, hx, rfl⟩ ⟨y, hy, hxy⟩
      cases hxy
      exact Option.some.inj (hx.symm.trans hy)
  | bool =>
      simp only [htype] at hv ⊢
      have hyes : c'.yes = c.yes := by rw [yes, yes, mongoFieldName, ← hfield, mongoFieldName]
      have hno : c'.no = c.no := by rw [no, no, mongoFieldName, ← hfield, mongoFieldName]
      rw [hyes, hno] at hv
      exact flag_iff hv
  | string =>
      simp only [htype] at hv ⊢
      rw [hv]
      constructor
      · intro h
        exact (Value.string.inj h).symm
      · intro h
        rw [h]
  | date =>
      simp only [htype] at hv ⊢
      obtain ⟨ms, hms, rfl⟩ := hv
      constructor
      · rintro ⟨ms', hms', h⟩
        cases h
        exact hms'.unique hms
      · intro h
        exact ⟨ms, h ▸ hms, rfl⟩

end MappedColumn

/-! ## The entries of a document

The loop puts one entry for each part, in the order of the row (`buildColumns_parts`): the converted text of a column,
or the document that a group of three was built into. It is shown for the loop with its conversion and its nesting as
parameters, so it holds on the nested level as well. -/

/-- What a part is stored as. -/
inductive Part.StoredAs {ε : Type} (convert : String × MongoDataType → String → String → Except ε Value)
    (nest : Option (Build ε)) : Part → String × Value → Prop
  | column {c : MappedColumn} {v : Value} (h : convert c.field c.csvFieldName c.csvValue = .ok v) :
      StoredAs convert nest (.column c) (c.mongoFieldName, v)
  | dayCount {build : Build ε} {line names : List String} {n : Document} (hnest : nest = some build)
      (h : build line names = .ok n) :
      StoredAs convert nest (.dayCount (mappedColumns line names)) ("dayCount", .document n)

theorem Part.StoredAs.key_eq {ε : Type} {convert : String × MongoDataType → String → String → Except ε Value}
    {nest : Option (Build ε)} : ∀ p e, Part.StoredAs convert nest p e → p.key = e.1
  | _, _, .column _     => rfl
  | _, _, .dayCount _ _ => rfl

theorem Part.StoredAs.of_column {ε : Type} {convert : String × MongoDataType → String → String → Except ε Value}
    {nest : Option (Build ε)} {c : MappedColumn} {e : String × Value}
    (h : Part.StoredAs convert nest (.column c) e) :
    convert c.field c.csvFieldName c.csvValue = .ok e.2 := by
  cases h with
  | column h => exact h

theorem Part.StoredAs.of_dayCount {ε : Type} {convert : String × MongoDataType → String → String → Except ε Value}
    {nest : Option (Build ε)} {cs : List MappedColumn} {e : String × Value}
    (h : Part.StoredAs convert nest (.dayCount cs) e) :
    ∃ build line names n, nest = some build ∧ build line names = .ok n ∧ cs = mappedColumns line names ∧
      e.2 = .document n := by
  cases h with
  | dayCount hnest h => exact ⟨_, _, _, _, hnest, h, rfl, rfl⟩

theorem mappedColumn_of_none {cell header : String} (h : getMapping (trim header) = none) :
    mappedColumn cell header = none := by
  unfold mappedColumn
  split
  · rfl
  · next h' => cases h.symm.trans h'

theorem mappedColumn_of_some {cell header : String} {field : String × MongoDataType}
    (h : getMapping (trim header) = some field) :
    mappedColumn cell header = some ⟨trim header, field, h, trim cell⟩ := by
  unfold mappedColumn
  split
  · next h' => cases h.symm.trans h'
  · next field' h' =>
      obtain rfl : field = field' := Option.some.inj (h.symm.trans h')
      rfl

/-- A column that starts no group stands for itself. -/
theorem parts_cons {nested : Bool} {cell header : String} {cells headers : List String}
    (h : ¬((nested && trim header == "dayCount") = true)) :
    parts nested (cell :: cells) (header :: headers) =
      (mappedColumn cell header).toList.map .column ++ parts nested cells headers := by
  conv_lhs => rw [parts.eq_def]
  exact if_neg h

theorem not_nested {ε : Type} {nest : Option (Build ε)} {header : String}
    (h : (if trim header = "dayCount" then nest else none) = none) :
    ¬((nest.isSome && trim header == "dayCount") = true) := by
  rw [Bool.and_eq_true, beq_iff_eq]
  rintro ⟨hnest, hname⟩
  rw [if_pos hname] at h
  rw [h] at hnest
  cases hnest

/-- **The loop puts an entry for each part**, in the order of the row. -/
theorem buildColumns_parts {ε : Type} {thrown : JavaException → ε}
    {convert : String × MongoDataType → String → String → Except ε Value} {nest : Option (Build ε)}
    {cells headers : List String} {d d' : Document}
    (h : buildColumns thrown convert nest cells headers d = .ok d') :
    ∃ es, List.Forall₂ (Part.StoredAs convert nest) (parts nest.isSome cells headers) es ∧
      d' = es.foldl (fun d e => d.put e.1 e.2) d := by
  fun_induction buildColumns thrown convert nest cells headers d with
  | case1 d => exact ⟨[], .nil, (Except.ok.inj h).symm⟩
  | case2 => cases h
  | case3 => cases h
  | case4 cell header d csvFieldName build hbuild cell₁ cell₂ cells header₁ header₂ headers n hn ih =>
      obtain ⟨hname, hnest⟩ := Option.ite_none_right_eq_some.mp hbuild
      obtain ⟨es, hes, rfl⟩ := ih h
      refine ⟨("dayCount", .document n) :: es, ?_, rfl⟩
      rw [parts, if_pos (by rw [hnest]; exact beq_iff_eq.mpr hname)]
      exact .cons (.dayCount hnest hn) hes
  | case5 => cases h
  | case6 cell cells header headers d csvFieldName hbuild hfield ih =>
      obtain ⟨es, hes, rfl⟩ := ih h
      refine ⟨es, ?_, rfl⟩
      rw [parts_cons (not_nested hbuild), mappedColumn_of_none hfield]
      exact hes
  | case7 => cases h
  | case8 cell cells header headers d csvValue csvFieldName hbuild field hfield v hv ih =>
      obtain ⟨es, hes, rfl⟩ := ih h
      refine ⟨(field.1, v) :: es, ?_, rfl⟩
      rw [parts_cons (not_nested hbuild), mappedColumn_of_some hfield]
      exact .cons (.column hv) hes

theorem mappedColumns_cons (cell header : String) (cells headers : List String) :
    mappedColumns (cell :: cells) (header :: headers) =
      (mappedColumn cell header).toList ++ mappedColumns cells headers := by
  rw [mappedColumns, List.zipWith_cons_cons]
  cases mappedColumn cell header with
  | none => rw [List.reduceOption_cons_of_none]; rfl
  | some c => rw [List.reduceOption_cons_of_some]; rfl

/-- Without nested documents there are only columns. -/
theorem parts_flat (cells headers : List String) :
    parts false cells headers = (mappedColumns cells headers).map .column := by
  induction cells generalizing headers with
  | nil =>
      rw [parts.eq_def]
      rfl
  | cons cell cells ih =>
      cases headers with
      | nil =>
          rw [parts.eq_def]
          rfl
      | cons header headers => rw [parts_cons (by simp), ih, mappedColumns_cons, List.map_append]

/-! ## What is stored of a row

Of the columns that belong in one place the last one is current, and its value is what is found there. A group
replaces an earlier group as a whole, so that a column of the earlier one may find nothing. -/

section Row
variable {decimal128 : BigDecimal → Except JavaException Decimal128}

/-- A value the importer converts the text of a column to. -/
def Accepted (decimal128 : BigDecimal → Except JavaException Decimal128) (c : MappedColumn) (v : Value) : Prop :=
  ∃ csvLine, Importer.convert decimal128 csvLine c.field c.csvFieldName c.csvValue = .ok v

/-- **Only the text of a date column can be accepted and not kept.** -/
theorem denotes_iff_real (hexact : Exact decimal128) {c : MappedColumn} {v : Value}
    (h : Accepted decimal128 c v) :
    c.Denotes v ↔ c.Real := by
  obtain ⟨csvLine, hconvert⟩ := h
  unfold MappedColumn.Denotes MappedColumn.Real
  rcases Importer.convert_cases hconvert with
    ⟨hfloat, hv⟩ | ⟨hfloat, htype, hdate⟩ | ⟨hfloat, htype, hv⟩ | ⟨hfloat, hdate, hbool, hswitch⟩
  · have htype : c.field.2 = .bool := (getMapping_bool c.mapped).mpr (Or.inl hfloat)
    simp only [htype, MappedColumn.yes, MappedColumn.no, MappedColumn.mongoFieldName, hfloat, if_true]
    exact iff_of_true hv (fun h => by cases h)
  · obtain ⟨t, ht, rfl⟩ := map_eq_ok.mp hdate
    simp only [htype, true_imp_iff]
    rw [← formatsAs_timestampValueOf_iff ht]
    constructor
    · rintro ⟨ms, hms, h⟩
      cases h
      exact hms
    · intro hms
      exact ⟨_, hms, rfl⟩
  · simp only [htype, MappedColumn.yes, MappedColumn.no, MappedColumn.mongoFieldName, hfloat, if_false]
    exact iff_of_true hv (fun h => by cases h)
  · apply iff_of_true _ (fun h => absurd h hdate)
    cases htype : c.field.2 with
    | int =>
        rw [htype] at hswitch
        obtain ⟨n, hn, rfl⟩ := map_eq_ok.mp hswitch
        exact ⟨n, integerText_of_parseSigned hn, rfl⟩
    | long =>
        rw [htype] at hswitch
        obtain ⟨n, hn, rfl⟩ := map_eq_ok.mp hswitch
        exact ⟨n, integerText_of_parseSigned hn, rfl⟩
    | decimal =>
        rw [htype] at hswitch
        obtain ⟨x, hx, rfl⟩ := map_eq_ok.mp hswitch
        obtain ⟨b, hb, hx⟩ := bind_eq_ok.mp hx
        exact ⟨b.value, decimalText_of_bigDecimal hb, x, hexact b x hx, rfl⟩
    | string =>
        rw [htype] at hswitch
        exact (Except.ok.inj hswitch).symm
    | bool => exact absurd htype hbool
    | date => exact absurd htype hdate

/-- The column whose value is where a column of a part belongs: of the last part of that name, the last column of
    that name. -/
def current (ps : List Part) (p : Part) (c : MappedColumn) : Option MappedColumn :=
  (LinkedMap.lastWith Part.key p.key ps).bind fun q =>
    LinkedMap.lastWith MappedColumn.mongoFieldName c.mongoFieldName q.columns

theorem lastWith_column (k : String) (cs : List MappedColumn) :
    LinkedMap.lastWith Part.key k (cs.map .column) =
      (LinkedMap.lastWith MappedColumn.mongoFieldName k cs).map .column := by
  unfold LinkedMap.lastWith
  rw [← List.map_reverse, List.find?_map]
  rfl

/-- The values of a nested document are those of its columns. -/
theorem nested_get {csvLine csvFieldNames : List String} {n : Document}
    (h : buildColumns .thrown (Importer.convert decimal128 csvLine) none csvLine csvFieldNames .empty = .ok n)
    (k : String) :
    match LinkedMap.lastWith MappedColumn.mongoFieldName k (mappedColumns csvLine csvFieldNames) with
    | some c => ∃ v, n.get k = some v ∧ Accepted decimal128 c v
    | none   => n.get k = none := by
  obtain ⟨es, hes, rfl⟩ := buildColumns_parts h
  have hget := LinkedMap.get_foldl_put Part.StoredAs.key_eq hes .empty k
  rw [Option.isSome_none, parts_flat, lastWith_column] at hget
  cases hlast : LinkedMap.lastWith MappedColumn.mongoFieldName k (mappedColumns csvLine csvFieldNames) with
  | none =>
      rw [hlast] at hget
      exact hget
  | some c =>
      rw [hlast] at hget
      obtain ⟨v, hv, hstored⟩ := hget
      exact ⟨v, hv, csvLine, hstored.of_column⟩

theorem column_key_ne (c : MappedColumn) : (Part.column c).key ≠ "dayCount" := (getMapping_name c.mapped).2.1

/-- What an accepted row is stored as, with nested documents built of lines of their own. -/
theorem entries_of_built {csvLine csvFieldNames : List String} {recurseLevel : Int} {d : Document}
    (h : Importer.buildMongoDocument decimal128 csvLine csvFieldNames recurseLevel = .ok d) :
    ∃ (nest : Option (Build Importer.Refusal)) (es : List (String × Value)),
      (∀ build, nest = some build → ∀ line names n, build line names = .ok n →
        buildColumns .thrown (Importer.convert decimal128 line) none line names .empty = .ok n) ∧
      List.Forall₂ (Part.StoredAs (Importer.convert decimal128 csvLine) nest)
        (parts (recurseLevel > 0) csvLine csvFieldNames) es ∧
      d = es.foldl (fun d e => d.put e.1 e.2) .empty := by
  have hbuilt : ∃ nest, nest.isSome = decide (recurseLevel > 0) ∧
      (∀ build, nest = some build → ∀ line names n, build line names = .ok n →
        buildColumns .thrown (Importer.convert decimal128 line) none line names .empty = .ok n) ∧
      buildColumns .thrown (Importer.convert decimal128 csvLine) nest csvLine csvFieldNames .empty = .ok d := by
    refine ⟨_, ?_, ?_, h⟩
    · split <;> simp_all
    · intro build hbuild line names n hn
      obtain ⟨-, hnest⟩ := Option.ite_none_right_eq_some.mp hbuild
      rw [← Option.some.inj hnest] at hn
      exact hn
  obtain ⟨nest, hsome, hnest, h⟩ := hbuilt
  obtain ⟨es, hes, hd⟩ := buildColumns_parts h
  rw [hsome] at hes
  exact ⟨nest, es, hnest, hes, hd⟩

/-- **A document has, for each column, the value of the current column of its place.** -/
theorem find_of_built {csvLine csvFieldNames : List String} {recurseLevel : Int} {d : Document}
    (h : Importer.buildMongoDocument decimal128 csvLine csvFieldNames recurseLevel = .ok d) {p : Part}
    (hp : p ∈ parts (recurseLevel > 0) csvLine csvFieldNames) {c : MappedColumn} (hc : c ∈ p.columns) :
    match current (parts (recurseLevel > 0) csvLine csvFieldNames) p c with
    | some c' => ∃ v, d.find p c = some v ∧ Accepted decimal128 c' v
    | none    => d.find p c = none := by
  obtain ⟨nest, es, hnest, hes, hd⟩ := entries_of_built h
  have hget := LinkedMap.get_foldl_put Part.StoredAs.key_eq hes .empty p.key
  obtain ⟨q, hq⟩ := LinkedMap.exists_lastWith hp (rfl : p.key = p.key)
  have hkey := (LinkedMap.lastWith_eq_some hq).2
  rw [hq, ← hd] at hget
  obtain ⟨v, hv, hstored⟩ := hget
  rw [current, hq, Option.bind_some]
  cases p with
  | column c₀ =>
      obtain rfl : c = c₀ := List.mem_singleton.mp hc
      cases q with
      | column c' =>
          have hlast : LinkedMap.lastWith MappedColumn.mongoFieldName c.mongoFieldName (Part.column c').columns =
              some c' := by
            rw [Part.columns, LinkedMap.lastWith_cons]
            exact if_pos hkey
          rw [hlast]
          exact ⟨v, hv, csvLine, hstored.of_column⟩
      | dayCount cs => exact absurd hkey.symm (column_key_ne c)
  | dayCount cs₀ =>
      cases q with
      | column c' => exact absurd hkey (column_key_ne c')
      | dayCount cs =>
          obtain ⟨build, line, names, n, hbuild, hn, rfl, rfl⟩ := hstored.of_dayCount
          have hfind : d.find (.dayCount cs₀) c = n.get c.mongoFieldName := by
            rw [Document.find]
            change d.get "dayCount" = _ at hv
            rw [hv]
          rw [hfind]
          exact nested_get (hnest build hbuild line names n hn) c.mongoFieldName

/-- No two columns of the table are stored under one name. -/
theorem getMapping_inj {csvFieldName csvFieldName' : String} {field field' : String × MongoDataType}
    (h : getMapping csvFieldName = some field) (h' : getMapping csvFieldName' = some field')
    (hname : field.1 = field'.1) : field = field' := by
  have htable : ∀ e ∈ csvToMongoMapping, ∀ field, e.2 = some field → ∀ e' ∈ csvToMongoMapping, ∀ field',
      e'.2 = some field' → field.1 = field'.1 → field = field' := by decide +kernel
  apply getMapping_of_table (P := fun field => field.1 = field'.1 → field = field') _ h hname
  intro e he field hfield
  exact getMapping_of_table (P := fun field' => field.1 = field'.1 → field = field') (htable e he field hfield) h'

theorem MappedColumn.field_eq {c c' : MappedColumn} (h : c.mongoFieldName = c'.mongoFieldName) :
    c.field = c'.field :=
  getMapping_inj c.mapped c'.mapped h

/-- The current column of a place is a column of the row that belongs there. -/
theorem current_eq_some {ps : List Part} {p : Part} {c c' : MappedColumn} (h : current ps p c = some c') :
    ∃ q ∈ ps, c' ∈ q.columns ∧ q.key = p.key ∧ c'.mongoFieldName = c.mongoFieldName := by
  obtain ⟨q, hq, hc'⟩ := Option.bind_eq_some_iff.mp h
  obtain ⟨hmem, hkey⟩ := LinkedMap.lastWith_eq_some hq
  obtain ⟨hmem', hname⟩ := LinkedMap.lastWith_eq_some hc'
  exact ⟨q, hmem, hmem', hkey, hname⟩

/-- Columns that belong in one place find one value. -/
theorem find_eq (d : Document) {p q : Part} {c c' : MappedColumn} (hkey : q.key = p.key)
    (hname : c'.mongoFieldName = c.mongoFieldName) : d.find q c' = d.find p c := by
  unfold Document.find
  cases p with
  | column c₀ =>
      cases q with
      | column c₁   => rw [hname]
      | dayCount cs => exact absurd hkey.symm (column_key_ne c₀)
  | dayCount cs₀ =>
      cases q with
      | column c₁   => exact absurd hkey (column_key_ne c₁)
      | dayCount cs => rw [hname]

/-! ## Faithful documents

If a document is faithful, the current column of each place is a real date if it is a date at all, and says what the
others say. Conversely those two conditions leave nothing that could have gone wrong. -/

/-- Every mapped column of a row finds a value that denotes its text. -/
def Faithful (ps : List Part) (d : Document) : Prop :=
  ∀ p ∈ ps, ∀ c ∈ p.columns, ∃ v, d.find p c = some v ∧ c.Denotes v

/-- The texts of all date columns are real dates. -/
def RealDates (ps : List Part) : Prop := ∀ p ∈ ps, ∀ c ∈ p.columns, c.Real

/-- Where several columns belong in one place, the current one says what each of them says. -/
def Restated (ps : List Part) : Prop :=
  ∀ p ∈ ps, ∀ c ∈ p.columns, ∃ c', current ps p c = some c' ∧ c.SameValue c'

section Accepted
variable (hexact : Exact decimal128) {csvLine csvFieldNames : List String} {recurseLevel : Int} {d : Document}
  (h : Importer.buildMongoDocument decimal128 csvLine csvFieldNames recurseLevel = .ok d)
include hexact h

/-- In a faithful document, a current column is kept, and every column of its place says the same. -/
theorem current_of_faithful (hfaithful : Faithful (parts (recurseLevel > 0) csvLine csvFieldNames) d)
    {p : Part} (hp : p ∈ parts (recurseLevel > 0) csvLine csvFieldNames) {c : MappedColumn}
    (hc : c ∈ p.columns) :
    ∃ c', current (parts (recurseLevel > 0) csvLine csvFieldNames) p c = some c' ∧ c.field = c'.field ∧
      c.SameValue c' ∧ c'.Real := by
  obtain ⟨v, hv, hdenotes⟩ := hfaithful p hp c hc
  have hfound := find_of_built h hp hc
  cases hcurrent : current (parts (recurseLevel > 0) csvLine csvFieldNames) p c with
  | none =>
      rw [hcurrent] at hfound
      cases hv.symm.trans hfound
  | some c' =>
      rw [hcurrent] at hfound
      obtain ⟨w, hw, haccepted⟩ := hfound
      obtain ⟨q, hq, hc', hkey, hname⟩ := current_eq_some hcurrent
      obtain ⟨v', hv', hdenotes'⟩ := hfaithful q hq c' hc'
      obtain rfl : v = w := Option.some.inj (hv.symm.trans hw)
      obtain rfl : v = v' := Option.some.inj (hv.symm.trans ((find_eq d hkey hname).symm.trans hv'))
      have hfield := MappedColumn.field_eq hname.symm
      exact ⟨c', rfl, hfield, (MappedColumn.denotes_iff_sameValue hfield hdenotes').mp hdenotes,
        (denotes_iff_real hexact haccepted).mp hdenotes'⟩

theorem realDates_of_faithful (hfaithful : Faithful (parts (recurseLevel > 0) csvLine csvFieldNames) d) :
    RealDates (parts (recurseLevel > 0) csvLine csvFieldNames) := by
  intro p hp c hc hdate
  obtain ⟨c', -, hfield, hsame, hreal⟩ := current_of_faithful hexact h hfaithful hp hc
  have htext : c.csvValue = c'.csvValue := by
    unfold MappedColumn.SameValue at hsame
    rw [hdate] at hsame
    exact hsame
  rw [htext]
  exact hreal (hfield ▸ hdate)

/-- **An accepted row is stored faithfully exactly when the texts of its date columns are real dates, and no
    column is replaced by a later one that says something else.** -/
theorem faithful_iff : Faithful (parts (recurseLevel > 0) csvLine csvFieldNames) d ↔
    RealDates (parts (recurseLevel > 0) csvLine csvFieldNames) ∧
      Restated (parts (recurseLevel > 0) csvLine csvFieldNames) := by
  constructor
  · intro hfaithful
    refine ⟨realDates_of_faithful hexact h hfaithful, ?_⟩
    intro p hp c hc
    obtain ⟨c', hcurrent, -, hsame, -⟩ := current_of_faithful hexact h hfaithful hp hc
    exact ⟨c', hcurrent, hsame⟩
  · rintro ⟨hreal, hrestated⟩ p hp c hc
    obtain ⟨c', hcurrent, hsame⟩ := hrestated p hp c hc
    obtain ⟨q, hq, hc', -, hname⟩ := current_eq_some hcurrent
    have hfound := find_of_built h hp hc
    rw [hcurrent] at hfound
    obtain ⟨v, hv, haccepted⟩ := hfound
    have hdenotes' := (denotes_iff_real hexact haccepted).mpr (hreal q hq c' hc')
    exact ⟨v, hv, (MappedColumn.denotes_iff_sameValue (MappedColumn.field_eq hname.symm) hdenotes').mpr hsame⟩

end Accepted

end Row

/-- A header with columns of six types, and a bond of a leap day. -/
def leapDayHeader : List String :=
  ["number_of_trades", "ISIN", "instrumentId", "coupon", "detailedCouponValue", "maturityDate", "dayCount",
    "dayCountDiscount", "dayCountFunding"]

def leapDayRow : List String :=
  ["5", "XS1", "70", "3.25", "FIXED", "29/02/2020 12:00", "ACT/360", "ACT/360", "30/360"]

theorem faithful_iff_leapDay :
    ∃ d, Importer.buildMongoDocument Importer.plainDecimal128 leapDayRow leapDayHeader 1 = .ok d ∧
      (Faithful (parts ((1 : Int) > 0) leapDayRow leapDayHeader) d ↔
        RealDates (parts ((1 : Int) > 0) leapDayRow leapDayHeader) ∧
          Restated (parts ((1 : Int) > 0) leapDayRow leapDayHeader)) := by
  generalize hbuild : Importer.buildMongoDocument Importer.plainDecimal128 leapDayRow leapDayHeader 1 = built
  have hsome : built.toOption.isSome = true := by
    rw [← hbuild]
    decide +kernel
  cases built with
  | ok d => exact ⟨d, rfl, faithful_iff plainDecimal128_exact hbuild⟩
  | error e => cases hsome

/-- The text of a real date starts with its day. -/
theorem not_realDate : ¬RealDate "31/02/2020 00:00" := by
  rintro ⟨m, hs, hpos, -, hfits⟩
  have hparse : parseLocalDateTime "31/02/2020 00:00" = .ok ⟨2020, 2, 29, 0, 0⟩ := by decide +kernel
  have hday : 29 = m.date.day := congrArg LocalDateTime.day (parse_of_real hs hpos hfits hparse).2
  rw [format, ← hday] at hs
  have hhead : "31/02/2020 00:00".toList.head? = some '2' := congrArg List.head? hs
  exact absurd hhead (by decide)

/-- The 31st of February is stored as the 29th. -/
theorem not_always_faithful :
    ¬ ∀ (csvLine csvFieldNames : List String) (recurseLevel : Int) (d : Document),
      Importer.buildMongoDocument Importer.plainDecimal128 csvLine csvFieldNames recurseLevel = .ok d →
        Faithful (parts (recurseLevel > 0) csvLine csvFieldNames) d := by
  intro hall
  generalize hbuild : Importer.buildMongoDocument Importer.plainDecimal128 ["5", "XS1", "31/02/2020 00:00"]
    ["number_of_trades", "ISIN", "maturityDate"] 1 = built
  have hsome : built.toOption.isSome = true := by
    rw [← hbuild]
    decide +kernel
  have hcolumn : ((parts ((1 : Int) > 0) ["5", "XS1", "31/02/2020 00:00"]
      ["number_of_trades", "ISIN", "maturityDate"]).any fun p => p.columns.any fun c =>
        c.field.2 = .date ∧ c.csvValue = "31/02/2020 00:00") = true := by
    decide +kernel
  cases built with
  | error e => cases hsome
  | ok d =>
      obtain ⟨p, hp, hc⟩ := List.any_eq_true.mp hcolumn
      obtain ⟨c, hc, hdate⟩ := List.any_eq_true.mp hc
      obtain ⟨hdate, htext⟩ := of_decide_eq_true hdate
      have hreal := realDates_of_faithful plainDecimal128_exact hbuild (hall _ _ 1 d hbuild) p hp c hc hdate
      rw [htext] at hreal
      exact not_realDate hreal

end NewOrbit.Bonds
