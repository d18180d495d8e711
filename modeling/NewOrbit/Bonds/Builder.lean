import NewOrbit.Bonds.Document
import NewOrbit.Bonds.Java

/-!
# `Bonds.Builder` — from a CSV line to a Mongo document

What the importer and the verifier have alike: the table of `buildCsvMongoMapping`, the reading of a file, and
the loop of `buildMongoDocument`, with its recursion into the three `dayCount` columns and the index that skips
them. The programs differ in how one value is converted, which is a parameter of the loop (`buildColumns`). Two
facts are all that is needed of it later: what every step of the loop keeps holds of its result
(`buildColumns_invariant`), and a conversion that does all that another does yields the same documents
(`buildColumns_mono`).
-/

namespace NewOrbit.Bonds

inductive MongoDataType where
  | int
  | string
  | long
  | bool
  | date
  | decimal
  deriving DecidableEq, Repr

/-- The table of `buildCsvMongoMapping`: the CSV field names, with the MongoDB field names and data types. -/
def csvToMongoMapping : List (String × Option (String × MongoDataType)) :=
  [("number_of_trades",       some ("numberOfTrades",         .int)),
   ("ISIN",                   some ("isin",                   .string)),
   ("instrumentId",           some ("instrumentId",           .long)),
   ("instrumentType",         none),
   ("currency",               some ("currency",               .string)),
   ("longDescription",        some ("longDescription",        .string)),
   ("maturityTypeValue",      some ("maturityType",           .string)),
   ("detailedCouponValue",    some ("isFloat",                .bool)),
   ("calculationTypeValue",   some ("calculationType",        .string)),
   ("firstCouponDate",        some ("firstCouponDate",        .date)),
   ("penultimateCouponDate",  some ("penultimateCouponDate",  .date)),
   ("maturityDate",           some ("maturityDate",           .date)),
   ("earliestMaturityDate",   some ("earliestMaturityDate",   .date)),
   ("paymentDate",            some ("paymentDate",            .date)),
   ("interestAccDate",        some ("interestAccDate",        .date)),
   ("parAmount",              some ("parAmount",              .decimal)),
   ("minPiece",               some ("minPiece",               .decimal)),
   ("minIncrement",           some ("minIncrement",           .decimal)),
   ("marketSectorValue",      some ("marketSector",           .string)),
   ("firstConformingDate",    some ("firstConformingDate",    .date)),
   ("lastConformingDate",     some ("lastConformingDate",     .date)),
   ("conformantPeriodId",     some ("conformantPeriodId",     .long)),
   ("couponCurrency",         some ("couponCurrency",         .string)),
   ("endOfMonthRule",         some ("endOfMonthRule",         .bool)),
   ("roundingForCoupon",      some ("roundingForCoupon",      .int)),
   ("settlementDays",         some ("settlementDays",         .int)),
   ("lookupCouponTypeValue",  none),
   ("freqValue",              some ("freq",                   .string)),
   ("YieldConvType",          some ("yieldConvType",          .string)),
   ("dayCount",               some ("default",                .string)),
   ("dayCountDiscount",       some ("discount",               .string)),
   ("dayCountFunding",        some ("funding",                .string)),
   ("coupon",                 some ("coupon",                 .decimal))]

/-- `csvToMongoMapping.get`; `getMongoFieldName` and `getMongoDataType` are its two components. -/
def getMapping (csvFieldName : String) : Option (String × MongoDataType) :=
  (csvToMongoMapping.lookup csvFieldName).join

/-- What holds of every row of the table holds of a mapping found in it. -/
theorem getMapping_of_table {P : String × MongoDataType → Prop}
    (htable : ∀ e ∈ csvToMongoMapping, ∀ field, e.2 = some field → P field)
    {csvFieldName : String} {field : String × MongoDataType} (h : getMapping csvFieldName = some field) :
    P field := by
  obtain ⟨above, below, hl, -⟩ := List.lookup_eq_some_iff.mp (Option.join_eq_some_iff.mp h)
  apply htable (csvFieldName, some field) _ field rfl
  rw [hl]
  exact List.mem_append_right above List.mem_cons_self

/-- The columns a program stores as they are: neither `_id`, nor the name of the nested document, nor empty. -/
theorem getMapping_name {csvFieldName : String} {field : String × MongoDataType}
    (h : getMapping csvFieldName = some field) : field.1 ≠ "_id" ∧ field.1 ≠ "dayCount" ∧ field.1 ≠ "" :=
  getMapping_of_table (P := fun field => field.1 ≠ "_id" ∧ field.1 ≠ "dayCount" ∧ field.1 ≠ "") (by decide) h

/-- The only column stored as `isin` is a string. -/
theorem getMapping_isin {csvFieldName : String} {field : String × MongoDataType}
    (h : getMapping csvFieldName = some field) : field.1 = "isin" → field.2 = .string :=
  getMapping_of_table (P := fun field => field.1 = "isin" → field.2 = .string) (by decide) h

/-- The only columns stored as `bool`. -/
theorem getMapping_bool {csvFieldName : String} {field : String × MongoDataType}
    (h : getMapping csvFieldName = some field) :
    field.2 = .bool ↔ field.1 = "isFloat" ∨ field.1 = "endOfMonthRule" :=
  getMapping_of_table (P := fun field => field.2 = .bool ↔ field.1 = "isFloat" ∨ field.1 = "endOfMonthRule")
    (by decide) h

/-! ## Conversions the programs make alike -/

/-- The value of a date column. -/
def dateValue (csvValue : String) : Except JavaException Value :=
  (parseLocalDateTime csvValue).map fun t => .timestamp (timestampValueOf t)

/-- The `switch` on the data type. `new Decimal128(BigDecimal)` is a parameter. -/
def switchValue (decimal128 : BigDecimal → Except JavaException Decimal128) (mongoDataType : MongoDataType)
    (csvValue : String) : Except JavaException Value :=
  match mongoDataType with
  | .int     => (parseInt csvValue).map .int
  | .string  => .ok (.string csvValue)
  | .long    => (parseLong csvValue).map .long
  | .decimal => ((bigDecimal csvValue).bind decimal128).map .decimal128
  | _        => .ok (.string csvValue)

/-! ## Reading a file

A file is the records the CSV reader finds in it, or the exception that opening or reading it ends with. -/

abbrev CsvFile := Except JavaException (List (List String))

/-- The first record. Its first character, a byte order mark, is cut off. -/
def getBondCsvFieldNames (file : CsvFile) : Except JavaException (List String) := do
  match ← file with
  | []                        => .error .NullPointerException
  | [] :: _                   => .error .IndexOutOfBoundsException
  | (header :: headers) :: _  => return (← substring1 header) :: headers

/-- The records after the first. -/
def getBondCsvData (file : CsvFile) : Except JavaException (List (List String)) := do
  match ← file with
  | []           => .error .IndexOutOfBoundsException
  | _ :: csvData => return csvData

theorem getBondCsvFieldNames_eq_ok {file : CsvFile} {csvFieldNames : List String} :
    getBondCsvFieldNames file = .ok csvFieldNames ↔ ∃ first names records firstName,
      file = .ok ((first :: names) :: records) ∧ substring1 first = .ok firstName ∧
        csvFieldNames = firstName :: names := by
  rw [getBondCsvFieldNames, bind_eq_ok]
  constructor
  · rintro ⟨records, rfl, h⟩
    match records, h with
    | (first :: names) :: records, h =>
        obtain ⟨firstName, hfirst, h⟩ := bind_eq_ok.mp h
        exact ⟨first, names, records, firstName, rfl, hfirst, (Except.ok.inj h).symm⟩
  · rintro ⟨first, names, records, firstName, rfl, hfirst, rfl⟩
    exact ⟨_, rfl, bind_eq_ok.mpr ⟨firstName, hfirst, rfl⟩⟩

theorem getBondCsvData_eq_ok {file : CsvFile} {csvData : List (List String)} :
    getBondCsvData file = .ok csvData ↔ ∃ headings, file = .ok (headings :: csvData) := by
  rw [getBondCsvData, bind_eq_ok]
  constructor
  · rintro ⟨records, rfl, h⟩
    match records, h with
    | headings :: records, h => exact ⟨headings, by rw [Except.ok.inj h]⟩
  · rintro ⟨headings, rfl⟩
    exact ⟨_, rfl, rfl⟩

/-! ## The loop over the columns

The loop is one recursion with the conversion and the nested build as parameters, so that what is shown of it holds
for both programs and on both levels. -/

/-- A build ends with a document or with an `ε`, such as an exception. -/
abbrev Build (ε : Type) := List String → List String → Except ε Document

/-- The loop of `buildMongoDocument` from one column on: the values left, the field names left, and the document
    so far. `convert` yields the value of a mapped column from the mapping, the field name and the trimmed text;
    `nest` builds the nested document of the `dayCount` columns, where the recurse level allows one. -/
def buildColumns {ε : Type} (thrown : JavaException → ε)
    (convert : String × MongoDataType → String → String → Except ε Value) (nest : Option (Build ε)) :
    List String → List String → Document → Except ε Document
  | [], _, document => .ok document
  | _ :: _, [], _ => .error (thrown .IndexOutOfBoundsException)
  | cell :: cells, header :: headers, document =>
      let csvValue := trim cell
      let csvFieldName := trim header
      match if csvFieldName = "dayCount" then nest else none with
      | some build =>
          match cells, headers with
          | cell₁ :: cell₂ :: cells, header₁ :: header₂ :: headers =>
              -- `subList(i, i + 3)` of the line and of the field names; `i += 2` then skips the two columns.
              match build [cell, cell₁, cell₂] [header, header₁, header₂] with
              | .error e            => .error e
              | .ok nestedDocument  =>
                  buildColumns thrown convert nest cells headers (document.put "dayCount" (.document nestedDocument))
          | _, _ => .error (thrown .IndexOutOfBoundsException)   -- the end of a subList is out of range
      | none =>
          match getMapping csvFieldName with
          -- A column that is not in the table, or that the table has without a MongoDB field, is left out.
          | none       => buildColumns thrown convert nest cells headers document
          | some field =>
              match convert field csvFieldName csvValue with
              | .error e       => .error e
              | .ok mongoValue =>
                  buildColumns thrown convert nest cells headers (document.put field.1 mongoValue)

section Loop
variable {ε ε' : Type} {thrown : JavaException → ε} {thrown' : JavaException → ε'}
  {convert : String × MongoDataType → String → String → Except ε Value}
  {convert' : String × MongoDataType → String → String → Except ε' Value}
  {nest : Option (Build ε)} {nest' : Option (Build ε')}

/-- **What each column keeps, the loop keeps.** -/
theorem buildColumns_invariant {P : Document → Prop}
    (hcolumn : ∀ field csvFieldName csvValue v d, getMapping csvFieldName = some field →
      convert field csvFieldName csvValue = .ok v → P d → P (d.put field.1 v))
    (hnest : ∀ build cells headers n d, nest = some build → build cells headers = .ok n → P d →
      P (d.put "dayCount" (.document n)))
    {cells headers : List String} {d d' : Document}
    (h : buildColumns thrown convert nest cells headers d = .ok d') (hd : P d) : P d' := by
  -- The loop goes on in three cases: after a nested document (4), past a column that is left out (6), and
  -- after a value (8).
  fun_induction buildColumns thrown convert nest cells headers d with
  | case1 d => exact Except.ok.inj h ▸ hd
  | case2 => cases h
  | case3 => cases h
  | case4 cell header d csvFieldName build hbuild _ _ _ _ _ _ n hn ih =>
      exact ih h (hnest build _ _ n d (Option.ite_none_right_eq_some.mp hbuild).2 hn hd)
  | case5 => cases h
  | case6 _ _ _ _ d _ _ _ ih => exact ih h hd
  | case7 => cases h
  | case8 _ _ _ _ d csvValue csvFieldName _ field hfield v hv ih =>
      exact ih h (hcolumn field csvFieldName csvValue v d hfield hv hd)

omit thrown thrown' convert convert' in
theorem nest_eq_none {r : Build ε → Build ε' → Prop} (hnest : Option.Rel r nest nest') {p : Prop} [Decidable p]
    (h : (if p then nest else none) = none) : (if p then nest' else none) = none := by
  cases hnest <;> simp_all

/-- **A conversion that does all that another does yields the same documents.** -/
theorem buildColumns_mono
    (hconvert : ∀ field csvFieldName csvValue v, getMapping csvFieldName = some field →
      convert field csvFieldName csvValue = .ok v → convert' field csvFieldName csvValue = .ok v)
    (hnest : Option.Rel (fun build build' => ∀ cells headers n,
      build cells headers = .ok n → build' cells headers = .ok n) nest nest')
    {cells headers : List String} {d d' : Document}
    (h : buildColumns thrown convert nest cells headers d = .ok d') :
    buildColumns thrown' convert' nest' cells headers d = .ok d' := by
  -- In each case that goes on, the other loop takes the same branch.
  fun_induction buildColumns thrown convert nest cells headers d with
  | case1 d => rw [buildColumns, Except.ok.inj h]
  | case2 => cases h
  | case3 => cases h
  | case4 cell header d csvFieldName build hbuild _ _ _ _ _ _ n hn ih =>
      obtain ⟨hname, rfl⟩ := Option.ite_none_right_eq_some.mp hbuild
      obtain ⟨build', rfl, hrel⟩ : ∃ build', nest' = some build' ∧ ∀ cells headers n,
          build cells headers = .ok n → build' cells headers = .ok n := by
        cases hnest with
        | some hrel => exact ⟨_, rfl, hrel⟩
      rw [buildColumns]
      simp only [show trim header = "dayCount" from hname, if_true, hrel _ _ n hn]
      exact ih h
  | case5 => cases h
  | case6 _ _ _ _ d csvFieldName hbuild hfield ih =>
      have hbuild' := nest_eq_none hnest hbuild
      simp only [csvFieldName] at hbuild' hfield
      rw [buildColumns]
      simp only [hbuild', hfield]
      exact ih h
  | case7 => cases h
  | case8 _ _ _ _ d csvValue csvFieldName hbuild field hfield v hv ih =>
      have hbuild' := nest_eq_none hnest hbuild
      have hv' := hconvert field csvFieldName csvValue v hfield hv
      simp only [csvFieldName, csvValue] at hbuild' hfield hv'
      rw [buildColumns]
      simp only [hbuild', hfield, hv']
      exact ih h

end Loop

/-! ## `buildMongoDocument`

The nested build is the loop without nesting. What either builds has no null and no array in it, and neither `_id` nor
an empty name. -/

/-- `buildMongoDocument` of either program. Its conversions may read the whole line, and at a positive recurse
    level the `dayCount` columns are a line of their own, built at level 0. (The line number nothing reads.) -/
def buildMongoDocument {ε : Type} (thrown : JavaException → ε)
    (convert : List String → String × MongoDataType → String → String → Except ε Value)
    (csvLine csvFieldNames : List String) (recurseLevel : Int) : Except ε Document :=
  let nest : Build ε := fun line names => buildColumns thrown (convert line) none line names .empty
  buildColumns thrown (convert csvLine) (if recurseLevel > 0 then some nest else none) csvLine csvFieldNames .empty

/-- The values the programs make, and the documents they make of them. -/
inductive Value.Built : Value → Prop
  | bool (b : Bool) : Built (.bool b)
  | int (n : Int) : Built (.int n)
  | long (n : Int) : Built (.long n)
  | decimal128 (d : Decimal128) : Built (.decimal128 d)
  | string (s : String) : Built (.string s)
  | timestamp (ms : Int) : Built (.timestamp ms)
  | document (d : Document) (hvalue : ∀ k v, d.get k = some v → Built v) (hid : "_id" ∉ d.keys)
      (hempty : "" ∉ d.keys) : Built (.document d)

theorem map_eq_ok {α β : Type} {f : α → β} {x : Except JavaException α} {b : β} :
    x.map f = .ok b ↔ ∃ a, x = .ok a ∧ f a = b := by
  cases x <;> simp [Except.map]

theorem map_eq_error {α β : Type} {f : α → β} {x : Except JavaException α} {e : JavaException} :
    x.map f = .error e ↔ x = .error e := by
  cases x <;> simp [Except.map]

theorem dateValue_built {csvValue : String} {v : Value} (h : dateValue csvValue = .ok v) : v.Built := by
  obtain ⟨t, -, rfl⟩ := map_eq_ok.mp h
  exact .timestamp _

theorem switchValue_built {decimal128 : BigDecimal → Except JavaException Decimal128}
    {mongoDataType : MongoDataType} {csvValue : String} {v : Value}
    (h : switchValue decimal128 mongoDataType csvValue = .ok v) : v.Built := by
  cases mongoDataType with
  | int =>
      obtain ⟨n, -, rfl⟩ := map_eq_ok.mp h
      exact .int n
  | long =>
      obtain ⟨n, -, rfl⟩ := map_eq_ok.mp h
      exact .long n
  | decimal =>
      obtain ⟨d, -, rfl⟩ := map_eq_ok.mp h
      exact .decimal128 d
  | _ =>
      rw [← Except.ok.inj h]
      exact .string csvValue

theorem Value.Built.empty : Value.Built (.document .empty) := by
  apply Value.Built.document
  · intro k v h
    cases h
  · exact List.not_mem_nil
  · exact List.not_mem_nil

theorem Value.Built.put {d : Document} {k : String} {v : Value} (hd : Value.Built (.document d)) (hv : v.Built)
    (hid : k ≠ "_id") (hempty : k ≠ "") : Value.Built (.document (d.put k v)) := by
  cases hd with
  | document _ hvalue hd hd' =>
      constructor
      · intro k' v' h
        rw [LinkedMap.get_put] at h
        split at h
        · exact Option.some.inj h ▸ hv
        · exact hvalue k' v' h
      · rw [LinkedMap.mem_keys_put]
        rintro (h | h)
        · exact hid h.symm
        · exact hd h
      · rw [LinkedMap.mem_keys_put]
        rintro (h | h)
        · exact hempty h.symm
        · exact hd' h

section Build
variable {ε ε' : Type} {thrown : JavaException → ε} {thrown' : JavaException → ε'}
  {convert : List String → String × MongoDataType → String → String → Except ε Value}
  {convert' : List String → String × MongoDataType → String → String → Except ε' Value}
  {csvLine csvFieldNames : List String} {recurseLevel : Int} {d : Document}

/-- A built document is made of built values. -/
theorem buildMongoDocument_built
    (hconvert : ∀ line field csvFieldName csvValue v, convert line field csvFieldName csvValue = .ok v → v.Built)
    (h : buildMongoDocument thrown convert csvLine csvFieldNames recurseLevel = .ok d) :
    Value.Built (.document d) := by
  have hcolumn : ∀ line field csvFieldName csvValue v d, getMapping csvFieldName = some field →
      convert line field csvFieldName csvValue = .ok v → Value.Built (.document d) →
      Value.Built (.document (d.put field.1 v)) := by
    intro line field csvFieldName csvValue v d hfield hv hd
    have hname := getMapping_name hfield
    exact hd.put (hconvert line field csvFieldName csvValue v hv) hname.1 hname.2.2
  apply buildColumns_invariant (P := fun d => Value.Built (.document d)) (hcolumn csvLine) _ h .empty
  -- The nested document is built by the same loop, at a level where it nests no further.
  intro build cells headers n d hbuild hn hd
  rw [← Option.some.inj (Option.ite_none_right_eq_some.mp hbuild).2] at hn
  have hn' : Value.Built (.document n) := by
    apply buildColumns_invariant (P := fun d => Value.Built (.document d)) (hcolumn cells) _ hn .empty
    intro build cells headers n d h
    cases h
  exact hd.put hn' (by decide) (by decide)

/-- The `isin` of a built document, if it has one, is a string. -/
theorem buildMongoDocument_isin
    (hconvert : ∀ line field csvFieldName csvValue v, field.1 = "isin" → field.2 = .string →
      convert line field csvFieldName csvValue = .ok v → ∃ s, v = .string s)
    (h : buildMongoDocument thrown convert csvLine csvFieldNames recurseLevel = .ok d) :
    ∀ v, d.get "isin" = some v → ∃ s, v = .string s := by
  apply buildColumns_invariant (P := fun d => ∀ v, d.get "isin" = some v → ∃ s, v = .string s) _ _ h nofun
  · intro field csvFieldName csvValue v d hfield hv hd v' hv'
    rw [LinkedMap.get_put] at hv'
    split at hv'
    · next hisin =>
        rw [← Option.some.inj hv']
        exact hconvert csvLine field csvFieldName csvValue v hisin.symm (getMapping_isin hfield hisin.symm) hv
    · exact hd v' hv'
  · intro build cells headers n d _ _ hd v hv
    rw [LinkedMap.get_put, if_neg (by decide)] at hv
    exact hd v hv

/-- The documents of one program are those of another that converts at least as much. -/
theorem buildMongoDocument_mono
    (hconvert : ∀ line field csvFieldName csvValue v, getMapping csvFieldName = some field →
      convert line field csvFieldName csvValue = .ok v → convert' line field csvFieldName csvValue = .ok v)
    (h : buildMongoDocument thrown convert csvLine csvFieldNames recurseLevel = .ok d) :
    buildMongoDocument thrown' convert' csvLine csvFieldNames recurseLevel = .ok d := by
  apply buildColumns_mono (hconvert csvLine) _ h
  split
  · constructor
    intro cells headers n hn
    exact buildColumns_mono (hconvert cells) .none hn
  · exact .none

end Build

end NewOrbit.Bonds
