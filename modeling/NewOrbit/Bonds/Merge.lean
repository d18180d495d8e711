import Mathlib.Data.Finset.Card
import NewOrbit.Bonds.Startup
import NewOrbit.Lib.Upsert

/-!
# `Bonds.Merge` — what an import leaves in the collection

An update or an insert is an event in the sense of `Lib.Upsert`, with the ISIN as its key (`isinSchema`). Where
each bond has one ISIN at most and no two share one, an import keeps it so, and each field of a bond has the value
of the last row with its ISIN that sets it (`updateDatabase_imports`). The counts are those of the rows and of the
new ISINs. A bond whose `isin` is an array has each string in it as an ISIN.
-/

namespace NewOrbit.Bonds

/-! ## Queries for an ISIN

A query for a text finds a bond whose `isin` is that text or an array with it. A query for null finds one without an
`isin`, and one where null is the `isin` or in it. `Lib.Upsert` asks that a bond which was written under a key is then
found under that key and no other (`isinSchema_lawful`): an array with both null and a text is what stands against it.
-/

/-- The ISINs by which a query finds the document. -/
def Stored.isins (s : Stored) : List String :=
  match s.fields.get "isin" with
  | some (.string t)  => [t]
  | some (.array _ f) => (List.finRange _).filterMap fun i => match f i with
      | .string t => some t
      | _         => none
  | _                 => []

theorem Stored.mem_isins {s : Stored} {q : String} : q ∈ s.isins ↔ s.hasIsin (some (.string q)) = true := by
  rw [isins, hasIsin]
  split
  · next t h => rw [h, matchesIsin, List.mem_singleton, beq_iff_eq]
  · next n f h =>
      rw [h, matchesIsin, List.mem_filterMap, List.any_eq_true]
      apply exists_congr
      intro i
      apply and_congr_right
      intro _
      cases f i with
      | string t => exact Option.some_inj.trans (eq_comm.trans beq_iff_eq.symm)
      | _ => exact iff_of_false (fun h => by cases h) fun h => by cases h
  · next hstring harray =>
      rw [iff_of_false List.not_mem_nil]
      intro h
      cases hget : s.fields.get "isin" with
      | none =>
          rw [hget] at h
          cases h
      | some v =>
          rw [hget] at h
          cases v with
          | string t => exact hstring t hget
          | array n f => exact harray n f hget
          | _ => cases h

/-- The queries for the ISINs of documents: each is for a string, or for null where the document has no ISIN. -/
structure IsinKeys (K : Type) (docs : List Document) where
  query : K → Option Value
  key   : {d // d ∈ docs} → K
  inj   : Function.Injective query
  text  : ∀ k v, query k = some v → ∃ t, v = .string t
  isin  : ∀ d, d.1.get "isin" = query (key d)

section Schema
variable {K : Type} {docs : List Document} (mongo : Mongo) (keys : IsinKeys K docs)

/-- The collection as a store, a document to write as an event. -/
def isinSchema : Upsert.Schema Stored {d // d ∈ docs} K where
  has k s  := s.hasIsin (keys.query k)
  key      := keys.key
  set s d  := s.set d.1
  make c d := Stored.ofDocument (mongo.newObjectId c) d.1

/-- If a document to write has no ISIN: the `isin` is not an array with both null and a string in it. -/
def NullApart (docs : List Document) (s : Stored) : Prop :=
  (∃ d ∈ docs, d.get "isin" = none) → s.hasIsin none = true → s.isins = []

/-- What a document to write sets. -/
def sets (d : {d // d ∈ docs}) (field : String) : Option Value := (d.1.get field).map Value.stored

variable {mongo} {keys}

/-- A document whose `isin` is a string, or is not there, is found by the query for it alone. -/
theorem hasIsin_query {s : Stored} {k k' : K} (h : s.fields.get "isin" = keys.query k') :
    s.hasIsin (keys.query k) = true ↔ k = k' := by
  rw [Stored.hasIsin, h, Stored.matchesIsin_iff (keys.text k) (keys.text k')]
  exact keys.inj.eq_iff

theorem map_stored_query (k : K) : (keys.query k).map Value.stored = keys.query k := by
  cases hq : keys.query k with
  | none => rfl
  | some v =>
      obtain ⟨t, rfl⟩ := keys.text k v hq
      rfl

theorem nullApart_of_query {s : Stored} {k : K} (h : s.fields.get "isin" = keys.query k) : NullApart docs s := by
  intro _ hnull
  cases hq : keys.query k with
  | some v =>
      obtain ⟨t, rfl⟩ := keys.text k v hq
      rw [Stored.hasIsin, h, hq] at hnull
      cases hnull
  | none => rw [Stored.isins, h, hq]

section Write
variable (hid : ∀ d ∈ docs, "_id" ∉ d.keys) (s : Stored) (d : {d // d ∈ docs})
include hid

omit keys in
/-- An update writes the ISIN of the document, if it has one, and leaves the `isin` as it was, if not. -/
theorem get_isin_set (keys : IsinKeys K docs) :
    (s.set d.1).fields.get "isin" = keys.query (keys.key d) ∨
      keys.query (keys.key d) = none ∧ (s.set d.1).fields.get "isin" = s.fields.get "isin" := by
  rw [Stored.get_set, LinkedMap.erase_of_notMem (hid d.1 d.2), keys.isin, map_stored_query]
  cases keys.query (keys.key d) with
  | some v => exact Or.inl Option.some_or
  | none => exact Or.inr ⟨rfl, Option.none_or⟩

theorem get_isin_ofDocument (newId : BitVec 96) :
    (Stored.ofDocument newId d.1).fields.get "isin" = keys.query (keys.key d) := by
  rw [Stored.ofDocument_fields (hid d.1 d.2), LinkedMap.get_map, keys.isin, map_stored_query]

/-- A document that was found is found by the ISIN that was written to it alone. -/
theorem hasIsin_set (hok : NullApart docs s) (hs : s.hasIsin (keys.query (keys.key d)) = true) (k : K) :
    (s.set d.1).hasIsin (keys.query k) = true ↔ k = keys.key d := by
  rcases get_isin_set hid s d keys with hget | ⟨hq, hget⟩
  · exact hasIsin_query hget
  · -- The `isin` is as it was, and null is all that is found in it.
    rw [hq] at hs
    have hisins := hok ⟨d.1, d.2, (keys.isin d).trans hq⟩ hs
    rw [Stored.hasIsin, hget]
    show s.hasIsin (keys.query k) = true ↔ k = keys.key d
    constructor
    · intro hk
      apply keys.inj
      rw [hq]
      cases hqk : keys.query k with
      | none => rfl
      | some v =>
          obtain ⟨t, rfl⟩ := keys.text k v hqk
          rw [hqk, ← Stored.mem_isins, hisins] at hk
          cases hk
    · rintro rfl
      rwa [hq]

omit keys in
theorem nullApart_set (keys : IsinKeys K docs) (hok : NullApart docs s) : NullApart docs (s.set d.1) := by
  rcases get_isin_set hid s d keys with hget | ⟨-, hget⟩
  · exact nullApart_of_query hget
  · rw [NullApart, Stored.hasIsin, Stored.isins, hget]
    exact hok

omit keys in
theorem get_read_set (field : String) : (s.set d.1).read.get field = (sets d field).or (s.read.get field) := by
  rw [Stored.get_read, Stored.get_read, Stored.get_set, LinkedMap.erase_of_notMem (hid d.1 d.2), sets]
  by_cases hfield : field = "_id"
  · rw [if_pos hfield, if_pos hfield, hfield, LinkedMap.get_of_notMem (hid d.1 d.2)]
    rfl
  · rw [if_neg hfield, if_neg hfield]

omit keys in
theorem get_read_ofDocument (newId : BitVec 96) {field : String} (hfield : field ≠ "_id") :
    (Stored.ofDocument newId d.1).read.get field = sets d field := by
  rw [Stored.get_read, if_neg hfield, Stored.ofDocument_fields (hid d.1 d.2), LinkedMap.get_map, sets]

end Write

/-- **Updates and inserts follow the laws of a store of ISINs.** -/
theorem isinSchema_lawful (mongo : Mongo) (keys : IsinKeys K docs) (hid : ∀ d ∈ docs, "_id" ∉ d.keys) :
    Upsert.Lawful (isinSchema mongo keys) (NullApart docs) (fun s => s.read.get) sets where
  has_set s d hok hs k := hasIsin_set hid s d hok hs k
  has_make c d k := hasIsin_query (get_isin_ofDocument hid d _)
  ok_set s d hok _ := nullApart_set hid s d keys hok
  ok_make c d := by
    have hget : (Stored.ofDocument (mongo.newObjectId c) d.1).fields.get "isin" = keys.query (keys.key d) :=
      get_isin_ofDocument hid d _
    exact nullApart_of_query hget
  view_set s d := funext (get_read_set hid s d)
  view_make c d := by
    funext field
    by_cases hfield : field = "_id"
    · show ((d.1.get field).map Value.stored).or _ = _
      rw [hfield, LinkedMap.get_of_notMem (hid d.1 d.2)]
      rfl
    · show (sets d field).or ((Stored.ofDocument (mongo.newObjectId c) d.1).read.get field) =
        (Stored.ofDocument (mongo.newObjectId c) d.1).read.get field
      rw [get_read_ofDocument hid d _ hfield]
      cases sets d field <;> rfl

/-- A write is an event of the store. -/
theorem upsert_eq_schema (c : List Stored) (d : {d // d ∈ docs}) :
    upsert mongo c d.1 = Upsert.upsert (isinSchema mongo keys) c d := by
  have hupdate : ∀ c, updateOne (keys.query (keys.key d)) d.1 c =
      Upsert.update (isinSchema mongo keys) (keys.key d) d c := by
    intro c
    induction c with
    | nil => rfl
    | cons s c ih =>
        rw [updateOne, Upsert.update, ih]
        rfl
  rw [upsert, Upsert.upsert, keys.isin, hupdate]
  rfl

theorem foldl_upsert_eq_run (mongo : Mongo) (keys : IsinKeys K docs) (c : List Stored) :
    docs.foldl (upsert mongo) c = Upsert.run (isinSchema mongo keys) docs.attach c := by
  have hfold : docs.attach.foldl (fun c d => upsert mongo c d.1) c = docs.foldl (upsert mongo) c :=
    List.foldl_attach
  rw [← hfold, Upsert.run]
  congr 1
  funext c d
  exact upsert_eq_schema c d

end Schema

/-! ## The ISIN column

A row as wide as its header sets `isin` where the header has an ISIN column that is no part of a `dayCount` group
(`isin_of_built`). -/

/-- There is an ISIN column outside the `dayCount` columns. -/
def hasIsinColumn : List String → Bool
  | []                => false
  | header :: headers =>
      if trim header = "dayCount" then
        match headers with
        | _ :: _ :: headers => hasIsinColumn headers
        | _                 => false
      else trim header = "ISIN" || hasIsinColumn headers

theorem hasIsinColumn_cons {header : String} (h : trim header ≠ "dayCount") (headers : List String) :
    hasIsinColumn (header :: headers) = (trim header = "ISIN" || hasIsinColumn headers) := by
  match headers with
  | []          => simp [hasIsinColumn, h]
  | [_]         => simp [hasIsinColumn, h]
  | _ :: _ :: _ => simp [hasIsinColumn, h]

/-- A line as wide as the header has a value in the ISIN column. -/
theorem get_isin_of_columns {ε : Type} {thrown : JavaException → ε}
    {convert : String × MongoDataType → String → String → Except ε Value} {nest : Option (Build ε)}
    {build : Build ε}
    (hnest : nest = some build) {cells headers : List String} {d d' : Document}
    (h : buildColumns thrown convert nest cells headers d = .ok d') (hlen : cells.length = headers.length)
    (hisin : hasIsinColumn headers = true ∨ d.get "isin" ≠ none) : d'.get "isin" ≠ none := by
  have hput : ∀ (d : Document) (k : String) (v : Value), d.get "isin" ≠ none → (d.put k v).get "isin" ≠ none := by
    intro d k v hd
    rw [LinkedMap.get_put]
    split
    · exact Option.some_ne_none v
    · exact hd
  fun_induction buildColumns thrown convert nest cells headers d with
  | case1 d =>
      rw [List.eq_nil_of_length_eq_zero hlen.symm] at hisin
      rw [← Except.ok.inj h]
      exact hisin.resolve_left Bool.false_ne_true
  | case2 => cases h
  | case3 => cases h
  | case4 cell header d csvFieldName build' hbuild cell₁ cell₂ cells header₁ header₂ headers n hn ih =>
      have hname : trim header = "dayCount" := (Option.ite_none_right_eq_some.mp hbuild).1
      rw [hasIsinColumn, if_pos hname] at hisin
      exact ih h (by simpa using hlen) (hisin.imp id (hput d _ _))
  | case5 => cases h
  | case6 cell cells header headers d csvFieldName hname hfield ih =>
      have hname' : ¬ trim header = "dayCount" := by
        intro hdayCount
        rw [hnest, if_pos hdayCount] at hname
        cases hname
      have hother : trim header ≠ "ISIN" := by
        intro hheader
        have hmapped : getMapping (trim header) = none := hfield
        rw [hheader] at hmapped
        exact absurd hmapped (by decide)
      rw [hasIsinColumn_cons hname', decide_eq_false hother, Bool.false_or] at hisin
      exact ih h (by simpa using hlen) hisin
  | case7 => cases h
  | case8 cell cells header headers d csvValue csvFieldName hname field hfield v hv ih =>
      have hname' : ¬ trim header = "dayCount" := by
        intro hdayCount
        rw [hnest, if_pos hdayCount] at hname
        cases hname
      rw [hasIsinColumn_cons hname', Bool.or_eq_true, decide_eq_true_eq] at hisin
      refine ih h (by simpa using hlen) ?_
      rcases hisin with (hheader | hlater) | hd
      · -- This is the ISIN column.
        have hmapped : getMapping (trim header) = some field := hfield
        have htable : getMapping "ISIN" = some ("isin", .string) := by decide
        rw [hheader, htable] at hmapped
        right
        rw [← Option.some.inj hmapped, LinkedMap.get_put, if_pos rfl]
        exact Option.some_ne_none _
      · exact Or.inl hlater
      · exact Or.inr (hput d _ _ hd)

/-- **A row as wide as a header with an ISIN column is built into a document with an ISIN.** -/
theorem isin_of_built {decimal128 : BigDecimal → Except JavaException Decimal128}
    {csvLine csvFieldNames : List String} {d : Document} (hcolumn : hasIsinColumn csvFieldNames = true)
    (hwidth : csvLine.length = csvFieldNames.length)
    (h : Importer.buildMongoDocument decimal128 csvLine csvFieldNames 1 = .ok d) :
    ∃ q, d.get "isin" = some (.string q) := by
  have hsome : d.get "isin" ≠ none := get_isin_of_columns (if_pos (by decide)) h hwidth (Or.inl hcolumn)
  obtain ⟨v, hv⟩ := Option.ne_none_iff_exists'.mp hsome
  obtain ⟨q, rfl⟩ := Importer.buildMongoDocument_isin h v hv
  exact ⟨q, hv⟩

/-! ## Collections of distinct ISINs

Where every document to write has an ISIN, the keys are texts. What `Lib.Upsert` says of stores in which no two
entries are found under one key, and none under two, is then said of bonds with one ISIN at most that no two share. -/

/-- No two documents share an ISIN. -/
def DistinctIsins (c : List Stored) : Prop := c.Pairwise fun s t => ∀ q ∈ s.isins, q ∉ t.isins

/-- A document has one ISIN at most. -/
def Stored.OneIsin (s : Stored) : Prop := ∀ q ∈ s.isins, ∀ q' ∈ s.isins, q = q'

def isins (c : List Stored) : Finset String := (c.flatMap Stored.isins).toFinset

/-- The ISINs documents are written to. -/
def writtenIsins (docs : List Document) : List String := docs.filterMap Document.isin

/-- The value of a field in the last document with the ISIN that has the field, as it is stored. -/
def lastSet (docs : List Document) (q field : String) : Option Value :=
  (docs.filter (·.isin = some q)).reverse.findSome? fun d => (d.get field).map Value.stored

theorem mem_isins {c : List Stored} {q : String} : q ∈ isins c ↔ ∃ s ∈ c, q ∈ s.isins := by
  rw [isins, List.mem_toFinset, List.mem_flatMap]

/-- **What importing rows leaves**: `docs` are the documents built from them, in file order. -/
structure Imported (bonds : List Stored) (csvData : List (List String)) (docs : List Document)
    (s : Importer.Import) : Prop where
  distinct  : DistinctIsins s.collection
  present   : isins s.collection = isins bonds ∪ (writtenIsins docs).toFinset
  updated   : ∀ bond ∈ bonds, ∀ bond' ∈ s.collection, ∀ q ∈ bond.isins, q ∈ bond'.isins → ∀ field,
    bond'.read.get field = (lastSet docs q field).or (bond.read.get field)
  inserted  : ∀ bond' ∈ s.collection, ∀ q ∈ bond'.isins, q ∉ isins bonds → ∀ field, field ≠ "_id" →
    bond'.read.get field = lastSet docs q field
  unchanged : s.collection.filter (fun t => t.isins.all fun q => q ∉ writtenIsins docs) =
    bonds.filter fun t => t.isins.all fun q => q ∉ writtenIsins docs
  rows      : s.numUpdated + s.numInserted + s.numFailed = csvData.length
  newIsins  : s.numInserted = (isins s.collection \ isins bonds).card
  errors    : s.numFailed = s.failedDocumentErrorMsgs.length

section Distinct
variable {docs : List Document} (hisin : ∀ d ∈ docs, ∃ q, d.get "isin" = some (.string q))

theorem Document.isin_eq_some {d : Document} {q : String} : d.isin = some q ↔ d.get "isin" = some (.string q) := by
  rw [Document.isin]
  split
  · next t h => rw [h, Option.some.injEq, Option.some.injEq, Value.string.injEq]
  · next h => exact iff_of_false (fun h => by cases h) fun hq => h q hq

/-- Documents that all have an ISIN. -/
def stringKeys : IsinKeys String docs where
  query q := some (.string q)
  key d   := d.1.isin.getD ""
  inj     := fun q q' h => Value.string.inj (Option.some.inj h)
  text    := fun q v h => ⟨q, (Option.some.inj h).symm⟩
  isin d  := by
    obtain ⟨q, hq⟩ := hisin d.1 d.2
    rw [Document.isin_eq_some.mpr hq, hq]
    rfl

theorem stringKeys_key {d : {d // d ∈ docs}} {q : String} :
    (stringKeys hisin).key d = q ↔ d.1.isin = some q := by
  obtain ⟨q', hq'⟩ := hisin d.1 d.2
  show d.1.isin.getD "" = q ↔ _
  rw [Document.isin_eq_some.mpr hq', Option.getD_some, Option.some.injEq]

theorem mem_keys {q : String} : q ∈ docs.attach.map (stringKeys hisin).key ↔ q ∈ writtenIsins docs := by
  rw [writtenIsins, List.mem_map, List.mem_filterMap]
  constructor
  · rintro ⟨d, -, hd⟩
    exact ⟨d.1, d.2, (stringKeys_key hisin).mp hd⟩
  · rintro ⟨d, hd, hq⟩
    exact ⟨⟨d, hd⟩, List.mem_attach _ _, (stringKeys_key hisin).mpr hq⟩

/-- What the events of an ISIN set is what the last of its documents has. -/
theorem findSome_sets (q field : String) :
    (docs.attach.filter ((stringKeys hisin).key · = q)).reverse.findSome? (sets · field) =
      lastSet docs q field := by
  have hfilter : docs.filter (·.isin = some q) =
      (docs.attach.filter ((stringKeys hisin).key · = q)).map Subtype.val := by
    conv_lhs => rw [← List.attach_map_subtype_val docs, List.filter_map]
    congr 1
    apply List.filter_congr
    intro d _
    exact decide_eq_decide.mpr (stringKeys_key hisin).symm
  rw [lastSet, hfilter, ← List.map_reverse, List.findSome?_map]
  rfl

variable (mongo : Mongo) {c : List Stored}

theorem single_iff {s : Stored} : Upsert.Single (isinSchema mongo (stringKeys hisin)) s ↔ s.OneIsin := by
  constructor
  · intro h q hq q' hq'
    exact h q q' (Stored.mem_isins.mp hq) (Stored.mem_isins.mp hq')
  · intro h q q' hq hq'
    exact h q (Stored.mem_isins.mpr hq) q' (Stored.mem_isins.mpr hq')

theorem separate_iff : Upsert.Separate (isinSchema mongo (stringKeys hisin)) c ↔ DistinctIsins c := by
  refine Iff.of_eq (congrArg (List.Pairwise · c) ?_)
  funext s t
  refine propext (forall_congr' fun q => ?_)
  rw [Stored.mem_isins, Stored.mem_isins, Bool.not_eq_true]
  rfl

include hisin in
theorem nullApart_of_isins (s : Stored) : NullApart docs s := by
  rintro ⟨d, hd, hnone⟩
  obtain ⟨q, hq⟩ := hisin d hd
  exact nomatch hnone.symm.trans hq

include hisin in
theorem isins_upsert (hid : ∀ d ∈ docs, "_id" ∉ d.keys) (hone : ∀ s ∈ c, s.OneIsin) {d : Document} {q : String}
    (hd : d ∈ docs) (hq : d.isin = some q) : isins (upsert mongo c d) = insert q (isins c) := by
  have hlaws := isinSchema_lawful mongo (stringKeys hisin) hid
  have hok : ∀ s ∈ c, NullApart docs s := fun s _ => nullApart_of_isins hisin s
  have hsingle : ∀ s ∈ c, Upsert.Single (isinSchema mongo (stringKeys hisin)) s :=
    fun s hs => (single_iff hisin mongo).mpr (hone s hs)
  have hkey : (stringKeys hisin).key ⟨d, hd⟩ = q := (stringKeys_key hisin).mpr hq
  ext q'
  have hfound := Upsert.found_upsert (e := ⟨d, hd⟩) hlaws hok hsingle (k := q')
  rw [← upsert_eq_schema] at hfound
  rw [mem_isins, Finset.mem_insert, mem_isins]
  simp only [Stored.mem_isins]
  refine hfound.trans (or_comm.trans ?_)
  show q' = (stringKeys hisin).key ⟨d, hd⟩ ∨ _ ↔ _
  rw [hkey]
  rfl

include hisin in
theorem oneIsin_upsert (hid : ∀ d ∈ docs, "_id" ∉ d.keys) (hone : ∀ s ∈ c, s.OneIsin) {d : Document}
    (hd : d ∈ docs) : ∀ s ∈ upsert mongo c d, s.OneIsin := by
  have hsingle : ∀ s ∈ c, Upsert.Single (isinSchema mongo (stringKeys hisin)) s :=
    fun s hs => (single_iff hisin mongo).mpr (hone s hs)
  have h := Upsert.single_upsert (e := ⟨d, hd⟩) (isinSchema_lawful mongo (stringKeys hisin) hid)
    (fun s _ => nullApart_of_isins hisin s) hsingle
  rw [← upsert_eq_schema] at h
  exact fun s hs => (single_iff hisin mongo).mp (h s hs)

end Distinct

/-! ## The counts

Each row adds one to one of the three counts, and to the ISINs of the collection if it is inserted. Nothing more is
needed of a row, so the counts of an import are the sum over its rows. -/

/-- What `n` rows add to the counts of `s`. -/
structure Counted (s r : Importer.Import) (n : Nat) : Prop where
  rows     : r.numUpdated + r.numInserted + r.numFailed = s.numUpdated + s.numInserted + s.numFailed + n
  newIsins : r.numInserted + (isins s.collection).card = s.numInserted + (isins r.collection).card
  errors   : r.numFailed + s.failedDocumentErrorMsgs.length = s.numFailed + r.failedDocumentErrorMsgs.length

theorem Counted.cons {s t r : Importer.Import} {n : Nat} (h : Counted s t 1) (h' : Counted t r n) :
    Counted s r (n + 1) := by
  obtain ⟨hrows, hisins, herrors⟩ := h
  obtain ⟨hrows', hisins', herrors'⟩ := h'
  exact ⟨by omega, by omega, by omega⟩

theorem counted_fail (errorMsg : String) (s : Importer.Import) : Counted s (s.fail errorMsg) 1 where
  rows     := rfl
  newIsins := rfl
  errors   := by
    show s.numFailed + 1 + s.failedDocumentErrorMsgs.length =
      s.numFailed + (s.failedDocumentErrorMsgs ++ [errorMsg]).length
    rw [List.length_append, List.length_singleton]
    omega

section Counts
variable {decimal128 : BigDecimal → Except JavaException Decimal128} {mongo : Mongo} {docs : List Document}
  (haccepts : ∀ c d, mongo.refuses c d = none) (hisin : ∀ d ∈ docs, ∃ q, d.get "isin" = some (.string q))
  (hid : ∀ d ∈ docs, "_id" ∉ d.keys)
include haccepts hisin hid

/-- **A write counts as an insert where its ISIN is new**, and as an update where it is not. -/
theorem counted_write {s : Importer.Import} (hone : ∀ t ∈ s.collection, t.OneIsin) {d : Document} (hd : d ∈ docs) :
    Counted s (s.write mongo d) 1 := by
  obtain ⟨q, hq⟩ := hisin d hd
  have hisins := isins_upsert hisin mongo hid hone hd (Document.isin_eq_some.mpr hq)
  rw [← Importer.write_collection haccepts] at hisins
  have hany : s.collection.any (Stored.hasIsin (d.get "isin")) = true ↔ q ∈ isins s.collection := by
    rw [hq, List.any_eq_true, mem_isins]
    simp only [Stored.mem_isins]
  by_cases hold : q ∈ isins s.collection
  · rw [Finset.insert_eq_of_mem hold] at hisins
    have hwrite : s.write mongo d = { s with
        collection := updateOne (d.get "isin") d s.collection, numUpdated := s.numUpdated + 1 } := by
      rw [Importer.Import.write]
      simp only [haccepts, if_pos (hany.mpr hold)]
    rw [hwrite] at hisins ⊢
    refine ⟨?_, by rw [hisins], rfl⟩
    show s.numUpdated + 1 + s.numInserted + s.numFailed = _
    omega
  · have hcard := congrArg Finset.card hisins
    rw [Finset.card_insert_of_notMem hold] at hcard
    have hwrite : s.write mongo d = { s with
        collection := insertOne mongo d s.collection, numInserted := s.numInserted + 1 } := by
      rw [Importer.Import.write]
      simp only [haccepts, if_neg (fun h => hold (hany.mp h))]
    rw [hwrite] at hcard ⊢
    refine ⟨?_, ?_, rfl⟩
    · show s.numUpdated + (s.numInserted + 1) + s.numFailed = _
      omega
    · rw [hcard]
      show s.numInserted + 1 + _ = _
      omega

theorem counted_updateRows {csvFieldNames : List String} {csvData : List (List String)}
    (hdocs : ∀ csvLine ∈ csvData, ∀ d,
      Importer.buildMongoDocument decimal128 csvLine csvFieldNames 1 = .ok d → d ∈ docs)
    {s : Importer.Import} (hone : ∀ t ∈ s.collection, t.OneIsin)
    (hreturns : (Importer.updateRows decimal128 mongo csvFieldNames csvData s).2 = none) :
    Counted s (Importer.updateRows decimal128 mongo csvFieldNames csvData s).1 csvData.length := by
  induction csvData generalizing s with
  | nil => exact ⟨rfl, rfl, rfl⟩
  | cons csvLine csvData ih =>
      rw [List.forall_mem_cons] at hdocs
      rw [Importer.updateRows, Importer.updateRow] at hreturns ⊢
      cases hbuild : Importer.buildMongoDocument decimal128 csvLine csvFieldNames 1 with
      | ok d =>
          rw [hbuild] at hreturns
          have hd : d ∈ docs := hdocs.1 d hbuild
          have hone' : ∀ t ∈ (s.write mongo d).collection, t.OneIsin := by
            rw [Importer.write_collection haccepts]
            exact oneIsin_upsert hisin mongo hid hone hd
          exact (counted_write haccepts hisin hid hone hd).cons (ih hdocs.2 hone' hreturns)
      | error refusal =>
          rw [hbuild] at hreturns
          cases refusal with
          | thrown e => cases hreturns
          | refused errorMsg =>
              exact (counted_fail errorMsg s).cons (ih (s := s.fail errorMsg) hdocs.2 hone hreturns)

end Counts

/-! ## An import

The rows that reach the collection act on it like a list of writes, whatever happened to the others. What a bond has
after them is read off `Upsert.run` by its ISIN. -/

section Import
variable {mongo : Mongo} {docs : List Document} (hisin : ∀ d ∈ docs, ∃ q, d.get "isin" = some (.string q))
  (hid : ∀ d ∈ docs, "_id" ∉ d.keys) {bonds : List Stored} (hone : ∀ s ∈ bonds, s.OneIsin)
  (hdistinct : DistinctIsins bonds)
include hisin hid hone hdistinct

variable (mongo) in
/-- Writes keep the ISINs distinct and add those written to. -/
theorem distinct_foldl_upsert :
    (∀ s ∈ docs.foldl (upsert mongo) bonds, s.OneIsin) ∧ DistinctIsins (docs.foldl (upsert mongo) bonds) ∧
      isins (docs.foldl (upsert mongo) bonds) = isins bonds ∪ (writtenIsins docs).toFinset := by
  rw [foldl_upsert_eq_run mongo (stringKeys hisin)]
  obtain ⟨hsingle, hsep, hfound⟩ := Upsert.run_separate (isinSchema_lawful mongo (stringKeys hisin) hid)
    (fun s _ => nullApart_of_isins hisin s) (fun s hs => (single_iff hisin mongo).mpr (hone s hs))
    ((separate_iff hisin mongo).mpr hdistinct) docs.attach
  refine ⟨fun s hs => (single_iff hisin mongo).mp (hsingle s hs), (separate_iff hisin mongo).mp hsep, ?_⟩
  ext q
  rw [mem_isins, Finset.mem_union, mem_isins, List.mem_toFinset, ← mem_keys hisin]
  simp only [Stored.mem_isins]
  exact hfound q

/-- The bond of an ISIN shows the last value set for each field, and its old value where none is set. -/
theorem get_of_updated {bond bond' : Stored} (hbond : bond ∈ bonds)
    (hbond' : bond' ∈ docs.foldl (upsert mongo) bonds) {q : String} (hq : q ∈ bond.isins) (hq' : q ∈ bond'.isins)
    (field : String) : bond'.read.get field = (lastSet docs q field).or (bond.read.get field) := by
  obtain ⟨hone', hdistinct', -⟩ := distinct_foldl_upsert mongo hisin hid hone hdistinct
  rw [foldl_upsert_eq_run mongo (stringKeys hisin)] at hbond' hone' hdistinct'
  have hlaws := isinSchema_lawful mongo (stringKeys hisin) hid
  obtain ⟨i, howns⟩ := Upsert.owns_of_separate (fun s hs => (single_iff hisin mongo).mpr (hone s hs))
    ((separate_iff hisin mongo).mpr hdistinct) hbond (Stored.mem_isins.mp hq)
  obtain ⟨j, howns'⟩ := Upsert.owns_of_separate (fun s hs => (single_iff hisin mongo).mpr (hone' s hs))
    ((separate_iff hisin mongo).mpr hdistinct') hbond' (Stored.mem_isins.mp hq')
  obtain ⟨t, ht, hview⟩ := howns.run hlaws (fun s _ => nullApart_of_isins hisin s) docs.attach
  obtain ⟨-, rfl⟩ := howns'.unique ht
  rw [show bond'.read.get field = _ from congrFun hview field, Override.layers_apply]
  exact congrArg (Option.or · _) (findSome_sets hisin q field)

/-- A new bond shows the last value set for each field. -/
theorem get_of_inserted {bond' : Stored} (hbond' : bond' ∈ docs.foldl (upsert mongo) bonds) {q : String}
    (hq' : q ∈ bond'.isins) (hnew : q ∉ isins bonds) {field : String} (hfield : field ≠ "_id") :
    bond'.read.get field = lastSet docs q field := by
  obtain ⟨hone', hdistinct', hpresent⟩ := distinct_foldl_upsert mongo hisin hid hone hdistinct
  have hwritten : q ∈ writtenIsins docs := by
    have hq : q ∈ isins (docs.foldl (upsert mongo) bonds) := mem_isins.mpr ⟨bond', hbond', hq'⟩
    rw [hpresent, Finset.mem_union, List.mem_toFinset] at hq
    exact hq.resolve_left hnew
  rw [foldl_upsert_eq_run mongo (stringKeys hisin)] at hbond' hone' hdistinct'
  have hlaws := isinSchema_lawful mongo (stringKeys hisin) hid
  obtain ⟨j, howns'⟩ := Upsert.owns_of_separate (fun s hs => (single_iff hisin mongo).mpr (hone' s hs))
    ((separate_iff hisin mongo).mpr hdistinct') hbond' (Stored.mem_isins.mp hq')
  have hnone : ∀ s ∈ bonds, (isinSchema mongo (stringKeys hisin)).has q s = false := by
    intro s hs
    by_contra hfound
    have hq : s.hasIsin (some (.string q)) = true := eq_true_of_ne_false hfound
    exact hnew (mem_isins.mpr ⟨s, hs, Stored.mem_isins.mpr hq⟩)
  obtain ⟨c', d, i, t, later, ht, hfilter, hview⟩ := Upsert.owns_run_of_new hlaws
    (fun s _ => nullApart_of_isins hisin s) docs.attach hnone ((mem_keys hisin).mpr hwritten)
  obtain ⟨-, rfl⟩ := howns'.unique ht
  have hmake : (Stored.ofDocument (mongo.newObjectId c') d.1).read.get field = sets d field :=
    get_read_ofDocument hid d _ hfield
  -- The document was inserted with the fields of the first row, and the others were laid over them.
  have hfilter' : docs.attach.filter ((stringKeys hisin).key · = q) = d :: later := hfilter
  rw [← findSome_sets hisin q field, hfilter', List.reverse_cons, List.findSome?_append,
    show bond'.read.get field = _ from congrFun hview field, Override.layers_apply]
  show Option.or _ ((Stored.ofDocument (mongo.newObjectId c') d.1).read.get field) = _
  rw [hmake]
  simp

omit hone hdistinct in
/-- Bonds with other ISINs are left as they are. -/
theorem filter_foldl_upsert :
    (docs.foldl (upsert mongo) bonds).filter (fun t => t.isins.all fun q => q ∉ writtenIsins docs) =
      bonds.filter fun t => t.isins.all fun q => q ∉ writtenIsins docs := by
  rw [foldl_upsert_eq_run mongo (stringKeys hisin)]
  apply Upsert.filter_run (isinSchema_lawful mongo (stringKeys hisin) hid) (fun s _ => nullApart_of_isins hisin s)
  intro d hd s hs
  have hwritten : (stringKeys hisin).key d ∈ writtenIsins docs := (mem_keys hisin).mp (List.mem_map_of_mem hd)
  have hfound : (stringKeys hisin).key d ∈ s.isins := Stored.mem_isins.mpr hs
  rw [List.all_eq_false]
  exact ⟨_, hfound, by simpa using hwritten⟩

end Import

/-- **An import merges the rows of a file into the collection**, where each bond has one ISIN at most, no two share
    one, the header has an ISIN column and the rows its width, and no row throws. -/
theorem updateDatabase_imports (decimal128 : BigDecimal → Except JavaException Decimal128) (mongo : Mongo)
    (haccepts : ∀ c d, mongo.refuses c d = none) (bonds : List Stored) (hdistinct : DistinctIsins bonds)
    (hone : ∀ s ∈ bonds, s.OneIsin) (file : CsvFile) (csvFieldNames : List String) (csvData : List (List String))
    (hnames : getBondCsvFieldNames file = .ok csvFieldNames) (hdata : getBondCsvData file = .ok csvData)
    (hcolumn : hasIsinColumn csvFieldNames = true)
    (hwidth : ∀ csvLine ∈ csvData, csvLine.length = csvFieldNames.length)
    (hbuilds : ∀ csvLine ∈ csvData, ∀ e,
      Importer.buildMongoDocument decimal128 csvLine csvFieldNames 1 ≠ .error (.thrown e)) :
    (Importer.updateDatabase decimal128 mongo file bonds).2 = none ∧
      Imported bonds csvData (Importer.builtDocuments decimal128 csvFieldNames csvData)
        (Importer.updateDatabase decimal128 mongo file bonds).1 := by
  have hbuilt : ∀ d ∈ Importer.builtDocuments decimal128 csvFieldNames csvData, ∃ csvLine ∈ csvData,
      Importer.buildMongoDocument decimal128 csvLine csvFieldNames 1 = .ok d :=
    fun d hd => Importer.mem_builtDocuments.mp hd
  have hisin : ∀ d ∈ Importer.builtDocuments decimal128 csvFieldNames csvData,
      ∃ q, d.get "isin" = some (.string q) := by
    intro d hd
    obtain ⟨csvLine, hline, hbuild⟩ := hbuilt d hd
    exact isin_of_built hcolumn (hwidth csvLine hline) hbuild
  have hid : ∀ d ∈ Importer.builtDocuments decimal128 csvFieldNames csvData, "_id" ∉ d.keys := by
    intro d hd
    obtain ⟨csvLine, -, hbuild⟩ := hbuilt d hd
    exact (isBond_of_built hbuild).1
  have hupdate : Importer.updateDatabase decimal128 mongo file bonds =
      Importer.updateRows decimal128 mongo csvFieldNames csvData (.start bonds) := by
    rw [Importer.updateDatabase, hnames, hdata]
  have hreturns : (Importer.updateRows decimal128 mongo csvFieldNames csvData (.start bonds)).2 = none :=
    Importer.updateRows_returns hbuilds _
  have hcollection := Importer.updateRows_collection haccepts hreturns
  have hcounted := counted_updateRows haccepts hisin hid
    (fun csvLine hline d hbuild => Importer.mem_builtDocuments.mpr ⟨csvLine, hline, hbuild⟩) hone hreturns
  rw [hupdate]
  obtain ⟨-, hdistinct', hpresent⟩ := distinct_foldl_upsert mongo hisin hid hone hdistinct
  have hstart : (Importer.Import.start bonds).collection = bonds := rfl
  rw [hstart] at hcollection
  refine ⟨hreturns, ?_⟩
  constructor
  · rw [hcollection]
    exact hdistinct'
  · rw [hcollection]
    exact hpresent
  · rw [hcollection]
    intro bond hbond bond' hbond' q hq hq' field
    exact get_of_updated hisin hid hone hdistinct hbond hbond' hq hq' field
  · rw [hcollection]
    intro bond' hbond' q hq' hnew field hfield
    exact get_of_inserted hisin hid hone hdistinct hbond' hq' hnew hfield
  · rw [hcollection]
    exact filter_foldl_upsert hisin hid
  · exact hcounted.rows.trans (Nat.zero_add _)
  · have hnew := hcounted.newIsins
    rw [hstart] at hnew
    have hsub : isins bonds ⊆
        isins (Importer.updateRows decimal128 mongo csvFieldNames csvData (.start bonds)).1.collection := by
      rw [hcollection, hpresent]
      exact Finset.subset_union_left
    rw [Finset.card_sdiff_of_subset hsub]
    have hzero : (Importer.Import.start bonds).numInserted = 0 := rfl
    omega
  · have herrors := hcounted.errors
    have hzero : (Importer.Import.start bonds).numFailed = 0 := rfl
    have hnil : (Importer.Import.start bonds).failedDocumentErrorMsgs.length = 0 := rfl
    omega

theorem Importer.not_thrown_of_rowStop {decimal128 : BigDecimal → Except JavaException Decimal128}
    {csvFieldNames csvLine : List String} (h : rowStop decimal128 csvFieldNames csvLine = none)
    (e : JavaException) :
    buildMongoDocument decimal128 csvLine csvFieldNames 1 ≠ .error (.thrown e) := by
  intro he
  rw [rowStop, he] at h
  cases h

/-- A bond with a string as its `isin`. -/
def stringIsinBond : Stored where
  id     := .objectId 0
  fields := (LinkedMap.empty.put "isin" (.string "XS1")).put "currency" (.string "CHF")
  no_id  := by decide

/-- An update, a refused row, an insert, and an update of the bond inserted. -/
def fourRows : List (List String) :=
  [["5", "XS1", "EUR"], ["x", "XS3", "USD"], ["6", "XS2", "USD"], ["7", "XS2", "GBP"]]

theorem updateDatabase_imports_fourRows :
    (Importer.updateDatabase Importer.plainDecimal128 Importer.plainMongo
      (.ok (["\uFEFFnumber_of_trades", "ISIN", "currency"] :: fourRows)) [stringIsinBond]).2 = none ∧
    Imported [stringIsinBond] fourRows
      (Importer.builtDocuments Importer.plainDecimal128 ["number_of_trades", "ISIN", "currency"] fourRows)
      (Importer.updateDatabase Importer.plainDecimal128 Importer.plainMongo
        (.ok (["\uFEFFnumber_of_trades", "ISIN", "currency"] :: fourRows)) [stringIsinBond]).1 := by
  have hone : ∀ s ∈ [stringIsinBond], s.OneIsin := by
    rw [List.forall_mem_singleton]
    intro q hq q' hq'
    exact (List.mem_singleton.mp hq).trans (List.mem_singleton.mp hq').symm
  have hstop : ∀ csvLine ∈ fourRows, Importer.rowStop Importer.plainDecimal128
      ["number_of_trades", "ISIN", "currency"] csvLine = none := by decide +kernel
  exact updateDatabase_imports Importer.plainDecimal128 Importer.plainMongo (fun _ _ => rfl) [stringIsinBond]
    (List.pairwise_singleton _ _) hone _ ["number_of_trades", "ISIN", "currency"] fourRows rfl rfl
    (by decide +kernel) (by decide) fun csvLine hline => Importer.not_thrown_of_rowStop (hstop csvLine hline)

/-- A bond whose `isin` is an array is a bond of each ISIN in it, until a row for one of them is imported. -/
theorem not_always_imports :
    ¬ ∀ (bonds : List Stored) (file : CsvFile) (csvFieldNames : List String) (csvData : List (List String)),
      DistinctIsins bonds → getBondCsvFieldNames file = .ok csvFieldNames → getBondCsvData file = .ok csvData →
      hasIsinColumn csvFieldNames = true → (∀ csvLine ∈ csvData, csvLine.length = csvFieldNames.length) →
      (∀ csvLine ∈ csvData, ∀ e,
        Importer.buildMongoDocument Importer.plainDecimal128 csvLine csvFieldNames 1 ≠ .error (.thrown e)) →
      Imported bonds csvData (Importer.builtDocuments Importer.plainDecimal128 csvFieldNames csvData)
        (Importer.updateDatabase Importer.plainDecimal128 Importer.plainMongo file bonds).1 := by
  intro hall
  have hstop : ∀ csvLine ∈ [["XS1", "EUR"]],
      Importer.rowStop Importer.plainDecimal128 ["ISIN", "currency"] csvLine = none := by decide +kernel
  have himported := hall [arrayIsinBond] (.ok [["\uFEFFISIN", "currency"], ["XS1", "EUR"]]) ["ISIN", "currency"]
    [["XS1", "EUR"]] (List.pairwise_singleton _ _) rfl rfl (by decide +kernel) (by decide)
    fun csvLine hline => Importer.not_thrown_of_rowStop (hstop csvLine hline)
  have hpresent : "XS2" ∈ isins [arrayIsinBond] := by decide +kernel
  have hmissing : "XS2" ∉ isins (Importer.updateDatabase Importer.plainDecimal128 Importer.plainMongo
      (.ok [["\uFEFFISIN", "currency"], ["XS1", "EUR"]]) [arrayIsinBond]).1.collection := by decide +kernel
  rw [himported.present, Finset.mem_union] at hmissing
  exact hmissing (Or.inl hpresent)

end NewOrbit.Bonds
