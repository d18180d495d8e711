import NewOrbit.Bonds.Importer
import NewOrbit.Lib.Keyed
import NewOrbit.Lib.Override

/-!
# `Bonds.Startup` — the startup scan and the order of the files

The importer goes through the files in the order `listFiles` returns them, which is any order. A write acts on
the bonds of its own ISIN only (`upsert_local`), where it lays its fields over those of the first bond. So each
field ends with the value of the last listed file that sets it, and the order makes no difference exactly when
no two files set a field of an ISIN to different values (`startupScan_lastListed`). Bonds are compared by what
their fields say, `_id` and the order of the fields aside.
-/

namespace NewOrbit.Bonds

/-! ## What is stored says what was written

A time stamp is given back as a date of the same instant. What a field says is the same before and after, and so bonds
are compared by it. -/

theorem Value.meaning_stored (v : Value) : v.stored.meaning = v.meaning := by
  induction v using Value.induct with
  | array n f ih =>
      rw [Value.stored, Value.meaning, Value.meaning]
      congr 2
      funext i
      exact ih i
  | document d ih =>
      rw [Value.stored_document, Value.meaning_document, Value.meaning_document]
      congr 1
      apply Document.meaning_eq_of_walk (d := d.map Value.stored) (e := d) le_rfl
      intro k hk
      exact ⟨_, LinkedMap.get_of_mem (m := d) hk, ih k hk⟩
  | _ => rfl

theorem Document.meaning_map_stored (d : Document) : Document.meaning (d.map Value.stored) = d.meaning := by
  funext k
  rw [Document.meaning, Document.meaning, LinkedMap.get_map, Option.map_map]
  congr 1
  funext v
  exact v.meaning_stored

/-! ## Bonds by ISIN

The bonds of one key are kept apart from the rest, in their order and as what their fields say. A bond without an ISIN
has a key of its own, the one a query for null finds. An array as the `isin` would be found by each of its items,
which is why collections with such a bond are left out (`Plain`). -/

/-- What the fields of a bond say. -/
abbrev Fields := String → Option Value.Meaning

/-- The ISIN a document is written to; null where it has none. -/
def Document.isin (d : Document) : Option String :=
  match d.get "isin" with
  | some (.string s) => some s
  | _                => none

/-- A document a build can yield has no `_id`, and its `isin` is a string if it is there. -/
def Document.IsBond (d : Document) : Prop :=
  "_id" ∉ d.keys ∧ ∀ v, d.get "isin" = some v → ∃ s, v = .string s

theorem Document.IsBond.get_isin {d : Document} (h : d.IsBond) : d.get "isin" = d.isin.map .string := by
  rw [Document.isin]
  cases hget : d.get "isin" with
  | none => rfl
  | some v =>
      obtain ⟨s, rfl⟩ := h.2 v hget
      rfl

namespace Stored

/-- The ISIN a query finds the document by: a string, or null; no query finds another value. -/
def isinKey (s : Stored) : Option (Option String) :=
  match s.fields.get "isin" with
  | none             => some none
  | some .null       => some none
  | some (.string t) => some (some t)
  | _                => none

/-- The `isin` of the document is not an array, which would be found by each of its items. -/
def Plain (s : Stored) : Prop := ∀ n f, s.fields.get "isin" ≠ some (.array n f)

theorem hasIsin_iff {s : Stored} (hs : s.Plain) (q : Option String) :
    s.hasIsin (q.map .string) = true ↔ s.isinKey = some q := by
  rw [hasIsin, isinKey]
  cases hget : s.fields.get "isin" with
  | none => cases q <;> simp [matchesIsin]
  | some v =>
      cases v with
      | array n f => exact absurd hget (hs n f)
      | string t =>
          cases q with
          | none => simp [matchesIsin]
          | some u =>
              rw [Option.map_some, matchesIsin, beq_iff_eq, Option.some.injEq, Option.some.injEq]
              exact eq_comm
      | _ => cases q <;> simp [matchesIsin]

section Write
variable {d : Document} (hd : d.IsBond) (newId : BitVec 96) (s : Stored)

theorem isinKey_of_get {t : Stored} {q : Option String} (h : t.fields.get "isin" = q.map .string) :
    t.isinKey = some q ∧ t.Plain := by
  rw [isinKey, Plain, h]
  cases q <;> exact ⟨rfl, by intro n f h'; cases h'⟩

theorem get_set (key : String) :
    (s.set d).fields.get key = (((d.erase "_id").get key).map Value.stored).or (s.fields.get key) := by
  rw [← LinkedMap.get_map]
  exact LinkedMap.get_putAll s.fields _ key

include hd

theorem ofDocument_spec : (ofDocument newId d).isinKey = some d.isin ∧ (ofDocument newId d).Plain ∧
    (ofDocument newId d).fields.meaning = d.meaning := by
  have hfields := ofDocument_fields hd.1 newId
  have hget : (ofDocument newId d).fields.get "isin" = d.isin.map .string := by
    rw [hfields, LinkedMap.get_map, hd.get_isin]
    cases d.isin <;> rfl
  obtain ⟨hkey, hplain⟩ := isinKey_of_get hget
  exact ⟨hkey, hplain, by rw [hfields, Document.meaning_map_stored]⟩

theorem set_spec (hs : s.Plain) (hkey : s.isinKey = some d.isin) :
    (s.set d).isinKey = some d.isin ∧ (s.set d).Plain ∧
      (s.set d).fields.meaning = Override.overlay s.fields.meaning d.meaning := by
  have hget : ∀ key, (s.set d).fields.get key = ((d.get key).map Value.stored).or (s.fields.get key) := by
    intro key
    rw [get_set, LinkedMap.erase_of_notMem hd.1]
  have hmeaning : (s.set d).fields.meaning = Override.overlay s.fields.meaning d.meaning := by
    funext key
    rw [Document.meaning, hget, Override.overlay, Document.meaning, Document.meaning]
    cases d.get key with
    | none => rfl
    | some v => exact congrArg some v.meaning_stored
  have hisin := hget "isin"
  rw [hd.get_isin] at hisin
  cases hq : d.isin with
  | some t =>
      rw [hq] at hisin
      obtain ⟨hkey', hplain⟩ := isinKey_of_get (q := some t) hisin
      exact ⟨hkey', hplain, hmeaning⟩
  | none =>
      -- A document without an ISIN was written to a bond without one, and leaves that field alone.
      have hsame : (s.set d).fields.get "isin" = s.fields.get "isin" := by rw [hisin, hq]; rfl
      refine ⟨?_, ?_, hmeaning⟩
      · rw [← hq, ← hkey, isinKey, isinKey, hsame]
      · rw [Plain, hsame]
        exact hs

end Write

end Stored

/-- The bonds with a key, in the order of the collection. -/
def bondsAt (k : Option (Option String)) (c : List Stored) : List Fields :=
  (c.filter (·.isinKey = k)).map (·.fields.meaning)

/-- A document laid over the first bond of its ISIN, or added where there is none. -/
def setFirst (d : Document) : List Fields → List Fields
  | []      => [d.meaning]
  | m :: ms => Override.overlay m d.meaning :: ms

theorem bondsAt_cons (k : Option (Option String)) (s : Stored) (c : List Stored) :
    bondsAt k (s :: c) = if s.isinKey = k then s.fields.meaning :: bondsAt k c else bondsAt k c := by
  by_cases h : s.isinKey = k <;> simp [bondsAt, h]

theorem bondsAt_append (k : Option (Option String)) (c c' : List Stored) :
    bondsAt k (c ++ c') = bondsAt k c ++ bondsAt k c' := by
  rw [bondsAt, List.filter_append, List.map_append]
  rfl

/-! ## One write

At its own key a write lays its fields over those of the first bond, or adds a bond where there is none. At every
other key it leaves the bonds alone. That is what `Keyed.Local` asks for. -/

section Upsert
variable {d : Document} {c : List Stored}

/-- The query for an ISIN finds something where there is a bond with it. -/
theorem any_hasIsin (hc : ∀ s ∈ c, s.Plain) (q : Option String) :
    c.any (Stored.hasIsin (q.map .string)) = true ↔ bondsAt (some q) c ≠ [] := by
  rw [List.any_eq_true, bondsAt, ne_eq, List.map_eq_nil_iff, List.filter_eq_nil_iff, not_forall]
  constructor
  · rintro ⟨s, hs, hisin⟩
    exact ⟨s, fun h => h hs (by simpa using (Stored.hasIsin_iff (hc s hs) q).mp hisin)⟩
  · rintro ⟨s, h⟩
    obtain ⟨hs, hkey⟩ := Classical.not_imp.mp h
    exact ⟨s, hs, (Stored.hasIsin_iff (hc s hs) q).mpr (by simpa using hkey)⟩

/-- An update changes the first bond of its ISIN, and nothing at another key. -/
theorem bondsAt_updateOne (hd : d.IsBond) (hc : ∀ s ∈ c, s.Plain) (k : Option (Option String)) :
    bondsAt k (updateOne (d.isin.map .string) d c) =
      if k = some d.isin ∧ bondsAt k c ≠ [] then setFirst d (bondsAt k c) else bondsAt k c := by
  induction c with
  | nil => simp [updateOne, bondsAt]
  | cons s c ih =>
      rw [List.forall_mem_cons] at hc
      rw [updateOne]
      -- The first bond the query finds is changed; until then the search goes on behind it.
      by_cases hkey : s.isinKey = some d.isin
      · obtain ⟨hkey', -, hmeaning⟩ := Stored.set_spec hd s hc.1 hkey
        rw [if_pos ((Stored.hasIsin_iff hc.1 _).mpr hkey), bondsAt_cons, bondsAt_cons, hkey', hkey, hmeaning]
        by_cases hk : some d.isin = k
        · rw [if_pos hk, if_pos hk, if_pos ⟨hk.symm, List.cons_ne_nil _ _⟩, setFirst]
        · rw [if_neg hk, if_neg hk, if_neg (fun h => hk h.1.symm)]
      · rw [if_neg (fun h => hkey ((Stored.hasIsin_iff hc.1 _).mp h)), bondsAt_cons, bondsAt_cons, ih hc.2]
        by_cases hk : s.isinKey = k
        · have hne : k ≠ some d.isin := fun h => hkey (hk.trans h)
          rw [if_pos hk, if_pos hk, if_neg (fun h => hne h.1), if_neg (fun h => hne h.1)]
        · rw [if_neg hk, if_neg hk]

theorem plain_updateOne (hd : d.IsBond) (hc : ∀ s ∈ c, s.Plain) :
    ∀ s ∈ updateOne (d.isin.map .string) d c, s.Plain := by
  induction c with
  | nil => exact hc
  | cons s c ih =>
      rw [List.forall_mem_cons] at hc
      rw [updateOne]
      by_cases hkey : s.isinKey = some d.isin
      · rw [if_pos ((Stored.hasIsin_iff hc.1 _).mpr hkey), List.forall_mem_cons]
        exact ⟨(Stored.set_spec hd s hc.1 hkey).2.1, hc.2⟩
      · rw [if_neg (fun h => hkey ((Stored.hasIsin_iff hc.1 _).mp h)), List.forall_mem_cons]
        exact ⟨hc.1, ih hc.2⟩

variable (mongo : Mongo)

theorem plain_upsert (hd : d.IsBond) (hc : ∀ s ∈ c, s.Plain) : ∀ s ∈ upsert mongo c d, s.Plain := by
  rw [upsert, hd.get_isin]
  split
  · exact plain_updateOne hd hc
  · rw [insertOne, List.forall_mem_append, List.forall_mem_singleton]
    exact ⟨hc, (Stored.ofDocument_spec hd _).2.1⟩

/-- **A write acts at its own ISIN**, and at no other. -/
theorem bondsAt_upsert (hd : d.IsBond) (hc : ∀ s ∈ c, s.Plain) (k : Option (Option String)) :
    bondsAt k (upsert mongo c d) = if k = some d.isin then setFirst d (bondsAt k c) else bondsAt k c := by
  rw [upsert, hd.get_isin]
  by_cases hany : c.any (Stored.hasIsin (d.isin.map .string)) = true
  · have hne := (any_hasIsin hc d.isin).mp hany
    rw [if_pos hany, bondsAt_updateOne hd hc]
    by_cases hk : k = some d.isin
    · subst hk
      rw [if_pos ⟨rfl, hne⟩, if_pos rfl]
    · rw [if_neg hk, if_neg (fun h => hk h.1)]
  · -- No bond with the ISIN: the inserted one is the first.
    have hnil : bondsAt (some d.isin) c = [] := by
      by_contra hne
      exact hany ((any_hasIsin hc d.isin).mpr hne)
    obtain ⟨hkey, -, hmeaning⟩ := Stored.ofDocument_spec hd (mongo.newObjectId c)
    rw [if_neg hany, insertOne, bondsAt_append, bondsAt_cons, hkey, hmeaning]
    by_cases hk : k = some d.isin
    · subst hk
      rw [if_pos rfl, if_pos rfl, hnil]
      rfl
    · rw [if_neg (fun h => hk h.symm), if_neg hk]
      exact List.append_nil _

end Upsert

/-- A collection without an array as an `isin`. -/
abbrev PlainCollection := {c : List Stored // ∀ s ∈ c, s.Plain}

/-- A document to write. -/
abbrev Bond := {d : Document // d.IsBond}

def PlainCollection.upsert (mongo : Mongo) (c : PlainCollection) (bond : Bond) : PlainCollection :=
  ⟨Bonds.upsert mongo c.1 bond.1, plain_upsert mongo bond.2 c.2⟩

theorem upsert_local (mongo : Mongo) :
    Keyed.Local (PlainCollection.upsert mongo) (fun bond : Bond => some bond.1.isin) (fun _ => True)
      (fun _ => ()) (fun k c => bondsAt k c.1) (fun _ l bond => setFirst bond.1 l) where
  kept _ _ := rfl
  hit c bond _ := by
    rw [PlainCollection.upsert, bondsAt_upsert mongo bond.2 c.2, if_pos rfl]
  miss c bond k _ hk := by
    rw [PlainCollection.upsert, bondsAt_upsert mongo bond.2 c.2, if_neg hk]

/-! ## Many writes

As each write is local, the bonds at a key after a list of writes come from the writes to that key alone. Several
documents laid over one bond are its layers. -/

/-- **After any writes**, the bonds at a key are the old ones, with the documents of that ISIN laid over the first
    one by one. -/
theorem bondsAt_foldl_upsert (mongo : Mongo) {docs : List Document} (hdocs : ∀ d ∈ docs, d.IsBond)
    {c : List Stored} (hc : ∀ s ∈ c, s.Plain) (k : Option (Option String)) :
    bondsAt k (docs.foldl (upsert mongo) c) =
      (docs.filter (some ·.isin = k)).foldl (fun l d => setFirst d l) (bondsAt k c) := by
  -- The writes on the subtypes are local by `upsert_local`; their first components are the writes themselves.
  obtain ⟨bonds, rfl⟩ : ∃ bonds : List Bond, bonds.map Subtype.val = docs :=
    ⟨docs.attachWith _ hdocs, List.attachWith_map_subtype_val ..⟩
  have hfold : (bonds.foldl (PlainCollection.upsert mongo) ⟨c, hc⟩).1 =
      (bonds.map Subtype.val).foldl (upsert mongo) c := by
    rw [List.foldl_map]
    exact (List.foldl_hom Subtype.val (fun _ _ => rfl)).symm
  rw [← hfold, (upsert_local mongo).proj_foldl k bonds (fun _ _ => trivial), List.filter_map,
    List.foldl_map]
  rfl

/-- What bond there is first, or none of its fields. -/
def first (l : List Fields) : Fields := l.headD Override.empty

theorem foldl_setFirst (docs : List Document) (l : List Fields) :
    docs.foldl (fun l d => setFirst d l) l =
      if docs = [] then l else Override.layers Document.meaning (first l) docs :: l.tail := by
  induction docs generalizing l with
  | nil => rfl
  | cons d docs ih =>
      have hset : setFirst d l = Override.overlay (first l) d.meaning :: l.tail := by
        cases l with
        | nil => rw [setFirst, first, List.headD_nil, Override.empty_overlay, List.tail_nil]
        | cons m ms => rfl
      rw [List.foldl_cons, ih, hset, if_neg (List.cons_ne_nil d docs)]
      cases docs with
      | nil => rfl
      | cons d' docs => rfl

/-! ## The startup scan

A file sets for an ISIN what its rows set, a later row over an earlier one. The first bond after a scan is the old one
under these layers, in the order in which the files were listed, and the order of layers makes no difference exactly
where no two of them say different things of a field. -/

theorem isBond_of_built {decimal128 : BigDecimal → Except JavaException Decimal128}
    {csvLine csvFieldNames : List String} {recurseLevel : Int} {d : Document}
    (h : Importer.buildMongoDocument decimal128 csvLine csvFieldNames recurseLevel = .ok d) : d.IsBond := by
  refine ⟨?_, Importer.buildMongoDocument_isin h⟩
  cases Importer.buildMongoDocument_built h with
  | document _ _ hid _ => exact hid

section Scan
variable (decimal128 : BigDecimal → Except JavaException Decimal128) (mongo : Mongo)

/-- The fields a file sets for an ISIN: a later row of the file overrides an earlier one. -/
def fileSets (q : Option String) (file : String × CsvFile) : Fields :=
  Override.layers Document.meaning Override.empty
    ((Importer.scannedDocuments decimal128 file).filter (·.isin = q))

/-- Whether a file has a row with an ISIN. -/
def containsIsin (q : Option String) (file : String × CsvFile) : Bool :=
  (Importer.scannedDocuments decimal128 file).any (·.isin = q)

/-- The old bonds of an ISIN after the files are listed: the first one has at each field the value of the last
    listed file that sets it, its old value where none does. -/
def lastListed (files : List (String × CsvFile)) (q : Option String) (old : List Fields) : List Fields :=
  if files.any (containsIsin decimal128 q) then
    (fun field => (files.reverse.findSome? (fileSets decimal128 q · field)).or (first old field)) :: old.tail
  else old

/-- Collections with the same bonds, `_id`s, the order of fields, and the order of the ISINs aside. -/
def SameBonds (c c' : List Stored) : Prop := ∀ k, bondsAt k c = bondsAt k c'

variable {decimal128} {mongo}

theorem isBond_of_scanned {files : List (String × CsvFile)} :
    ∀ d ∈ files.flatMap (Importer.scannedDocuments decimal128), d.IsBond := by
  intro d hd
  obtain ⟨file, -, hd⟩ := List.mem_flatMap.mp hd
  rw [Importer.scannedDocuments] at hd
  split at hd
  · rw [Importer.fileDocuments] at hd
    split at hd
    · obtain ⟨csvLine, -, hbuild⟩ := Importer.mem_builtDocuments.mp hd
      exact isBond_of_built hbuild
    · cases hd
  · cases hd

/-- The bonds of an ISIN after a scan are layers, one for each file listed. -/
theorem bondsAt_scan {files : List (String × CsvFile)} {bonds : List Stored} (hplain : ∀ s ∈ bonds, s.Plain)
    (q : Option String) :
    bondsAt (some q) ((files.flatMap (Importer.scannedDocuments decimal128)).foldl (upsert mongo) bonds) =
      if files.any (containsIsin decimal128 q) then
        Override.layers (fileSets decimal128 q) (first (bondsAt (some q) bonds)) files ::
          (bondsAt (some q) bonds).tail
      else bondsAt (some q) bonds := by
  rw [bondsAt_foldl_upsert mongo isBond_of_scanned hplain, foldl_setFirst]
  have hfilter : (files.flatMap (Importer.scannedDocuments decimal128)).filter (some ·.isin = some q) =
      files.flatMap fun file => (Importer.scannedDocuments decimal128 file).filter (·.isin = q) := by
    rw [List.filter_flatMap]
    simp only [Option.some.injEq]
  rw [hfilter, Override.layers_flatMap]
  have hnil : (files.flatMap fun file => (Importer.scannedDocuments decimal128 file).filter (·.isin = q)) = [] ↔
      ¬ files.any (containsIsin decimal128 q) = true := by
    simp [containsIsin, List.flatMap_eq_nil_iff]
  by_cases hany : files.any (containsIsin decimal128 q) = true
  · rw [if_neg (fun h => hnil.mp h hany), if_pos hany]
    rfl
  · rw [if_pos (hnil.mpr hany), if_neg hany]

theorem fileSets_of_not_containsIsin {q : Option String} {file : String × CsvFile}
    (h : ¬ containsIsin decimal128 q file = true) : fileSets decimal128 q file = Override.empty := by
  rw [containsIsin, List.any_eq_true] at h
  have hnil : (Importer.scannedDocuments decimal128 file).filter (·.isin = q) = [] := by
    rw [List.filter_eq_nil_iff]
    intro d hd hq
    exact h ⟨d, hd, hq⟩
  rw [fileSets, hnil]
  rfl

/-- Two orders of the files leave the same bonds of an ISIN exactly when they lay the same fields over the first
    one, as they do where no file contains it. -/
theorem bondsAt_scan_eq_iff {listing files : List (String × CsvFile)} (hperm : listing.Perm files)
    {bonds : List Stored} (hplain : ∀ s ∈ bonds, s.Plain) (q : Option String) :
    bondsAt (some q) ((listing.flatMap (Importer.scannedDocuments decimal128)).foldl (upsert mongo) bonds) =
        bondsAt (some q) ((files.flatMap (Importer.scannedDocuments decimal128)).foldl (upsert mongo) bonds) ↔
      Override.layers (fileSets decimal128 q) (first (bondsAt (some q) bonds)) listing =
        Override.layers (fileSets decimal128 q) (first (bondsAt (some q) bonds)) files := by
  have hany : listing.any (containsIsin decimal128 q) = files.any (containsIsin decimal128 q) := by
    rw [Bool.eq_iff_iff, List.any_eq_true, List.any_eq_true]
    exact exists_congr fun file => and_congr_left fun _ => hperm.mem_iff
  rw [bondsAt_scan hplain, bondsAt_scan hplain, hany]
  by_cases hsome : files.any (containsIsin decimal128 q) = true
  · rw [if_pos hsome, if_pos hsome, List.cons.injEq]
    exact and_iff_left rfl
  · have hnone : ∀ m (l : List (String × CsvFile)), l.Perm files →
        Override.layers (fileSets decimal128 q) m l = m := by
      intro m l hl
      apply Override.layers_of_empty
      intro file hfile
      apply fileSets_of_not_containsIsin
      intro h
      exact hsome (List.any_eq_true.mpr ⟨file, hl.mem_iff.mp hfile, h⟩)
    rw [if_neg hsome, if_neg hsome, hnone _ _ hperm, hnone _ _ (List.Perm.refl files)]
    exact ⟨fun _ => rfl, fun _ => rfl⟩

/-- Where the files agree, the first bond of an ISIN has every value a file sets for it. -/
theorem bondsAt_scan_shows {files : List (String × CsvFile)} {bonds : List Stored} (hplain : ∀ s ∈ bonds, s.Plain)
    {q : Option String} (hcompat : files.Pairwise fun file file' =>
      Override.Compatible (fileSets decimal128 q file) (fileSets decimal128 q file'))
    {file : String × CsvFile} (hfile : file ∈ files) {field : String} {v : Value.Meaning}
    (hv : fileSets decimal128 q file field = some v) :
    ∃ bond ∈ (bondsAt (some q)
        ((files.flatMap (Importer.scannedDocuments decimal128)).foldl (upsert mongo) bonds)).head?,
      bond field = some v := by
  have hcontains : files.any (containsIsin decimal128 q) = true := by
    refine List.any_eq_true.mpr ⟨file, hfile, ?_⟩
    by_contra hno
    rw [fileSets_of_not_containsIsin hno] at hv
    cases hv
  rw [bondsAt_scan hplain, if_pos hcontains, List.head?_cons]
  exact ⟨_, rfl, Override.layers_of_compatible hcompat hfile hv _⟩

/-- A scan leaves the bonds no query finds as they are. -/
theorem bondsAt_none_scan {bonds : List Stored} (hplain : ∀ s ∈ bonds, s.Plain) (files : List (String × CsvFile)) :
    bondsAt none ((files.flatMap (Importer.scannedDocuments decimal128)).foldl (upsert mongo) bonds) =
      bondsAt none bonds := by
  rw [bondsAt_foldl_upsert mongo isBond_of_scanned hplain, List.filter_eq_nil_iff.mpr (by simp)]
  rfl

/-- **The last listed file wins, and the order makes no difference exactly where the files agree.** After a scan
    that throws nothing, each field of the first bond of an ISIN has the value of the last listed file that sets
    it. All orders of the files leave the same bonds, with the values of every file, exactly when no two files
    set a field of an ISIN to different values. -/
theorem startupScan_lastListed (decimal128 : BigDecimal → Except JavaException Decimal128) (mongo : Mongo)
    (haccepts : ∀ c d, mongo.refuses c d = none) (files : List (String × CsvFile)) (bonds : List Stored)
    (hplain : ∀ s ∈ bonds, s.Plain)
    (hreturns : ∀ file ∈ files, Importer.isCsvFile file.1 = true → ∀ c,
      (Importer.updateDatabase decimal128 mongo file.2 c).2 = none) :
    (Importer.startupScan decimal128 mongo files bonds).2 = none ∧
    bondsAt none (Importer.startupScan decimal128 mongo files bonds).1 = bondsAt none bonds ∧
    (∀ q, bondsAt (some q) (Importer.startupScan decimal128 mongo files bonds).1 =
      lastListed decimal128 files q (bondsAt (some q) bonds)) ∧
    ((∀ listing, listing.Perm files →
        SameBonds (Importer.startupScan decimal128 mongo listing bonds).1
            (Importer.startupScan decimal128 mongo files bonds).1 ∧
          ∀ file ∈ files, ∀ q field v, fileSets decimal128 q file field = some v →
            ∃ bond ∈ (bondsAt (some q) (Importer.startupScan decimal128 mongo listing bonds).1).head?,
              bond field = some v) ↔
      files.Pairwise fun file file' => ∀ q,
        Override.Compatible (fileSets decimal128 q file) (fileSets decimal128 q file')) := by
  have hscan : ∀ listing, listing.Perm files → Importer.startupScan decimal128 mongo listing bonds =
      ((listing.flatMap (Importer.scannedDocuments decimal128)).foldl (upsert mongo) bonds, none) := by
    intro listing hperm
    apply Importer.startupScan_collection haccepts
    intro file hfile
    exact hreturns file (hperm.mem_iff.mp hfile)
  -- Each file is processed to its end from any collection, so every order of them is scanned to its end.
  have hfiles := hscan files (List.Perm.refl files)
  refine ⟨by rw [hfiles], by rw [hfiles, bondsAt_none_scan hplain], ?_, ?_⟩
  · intro q
    rw [hfiles, bondsAt_scan hplain, lastListed]
    congr 2
    funext field
    exact Override.layers_apply _ _ files field
  · constructor
    · intro horder
      rw [List.pairwise_iff_forall_sublist]
      intro file file' hsub q
      -- Any order leaves the same bonds of `q`, so the layers of the files over the first one commute.
      have hlayers : ∀ listing, listing.Perm files →
          Override.layers (fileSets decimal128 q) (first (bondsAt (some q) bonds)) listing =
            Override.layers (fileSets decimal128 q) (first (bondsAt (some q) bonds)) files := by
        intro listing hperm
        have hsame := (horder listing hperm).1 (some q)
        rw [hscan listing hperm, hfiles] at hsame
        exact (bondsAt_scan_eq_iff hperm hplain q).mp hsame
      exact ((Override.layers_perm_iff _ _ files).mp hlayers).forall_sublist hsub
    · intro hcompat listing hperm
      have hcompat' : ∀ q, files.Pairwise fun file file' =>
          Override.Compatible (fileSets decimal128 q file) (fileSets decimal128 q file') :=
        fun q => hcompat.imp fun h => h q
      rw [hscan listing hperm, hfiles]
      constructor
      · intro k
        cases k with
        | none => rw [bondsAt_none_scan hplain, bondsAt_none_scan hplain]
        | some q =>
            have hlayers := (Override.layers_perm_iff _ (first (bondsAt (some q) bonds)) files).mpr (hcompat' q)
            exact (bondsAt_scan_eq_iff hperm hplain q).mpr (hlayers listing hperm)
      · intro file hfile q field v hv
        have hlisting := (hperm.pairwise_iff fun h => h.symm).mpr (hcompat' q)
        exact bondsAt_scan_shows hplain hlisting (hperm.mem_iff.mpr hfile) hv

end Scan

/-! ### Two files -/

/-- A file with the currency of one bond. -/
def currencyFile (name isin currency : String) : String × CsvFile :=
  (name, .ok [["\uFEFFISIN", "currency"], [isin, currency]])

/-- The startup scan with a plain driver and server. -/
def plainScan (files : List (String × CsvFile)) (bonds : List Stored) : List Stored :=
  (Importer.startupScan Importer.plainDecimal128 Importer.plainMongo files bonds).1

theorem currencyFile_returns {name isin currency : String} (haccepted : (Importer.buildMongoDocument
      Importer.plainDecimal128 [isin, currency] ["ISIN", "currency"] 1).toOption.isSome = true) (c : List Stored) :
    (Importer.updateDatabase Importer.plainDecimal128 Importer.plainMongo (currencyFile name isin currency).2 c).2 =
      none := by
  have hnames : getBondCsvFieldNames (currencyFile name isin currency).2 = .ok ["ISIN", "currency"] := rfl
  apply Importer.updateDatabase_returns hnames rfl
  rw [List.forall_mem_singleton]
  exact haccepted

theorem startupScan_lastListed_of_two_files :
    bondsAt (some (some "XS1")) (plainScan [currencyFile "20200709.csv" "XS1" "USD",
        currencyFile "20200708.csv" "XS1" "EUR"] []) =
      lastListed Importer.plainDecimal128 [currencyFile "20200709.csv" "XS1" "USD",
        currencyFile "20200708.csv" "XS1" "EUR"] (some "XS1") [] := by
  have hreturns : ∀ file ∈ [currencyFile "20200709.csv" "XS1" "USD", currencyFile "20200708.csv" "XS1" "EUR"],
      Importer.isCsvFile file.1 = true → ∀ c,
        (Importer.updateDatabase Importer.plainDecimal128 Importer.plainMongo file.2 c).2 = none := by
    intro file hfile _ c
    rcases List.mem_pair.mp hfile with rfl | rfl
    · exact currencyFile_returns (by decide +kernel) c
    · exact currencyFile_returns (by decide +kernel) c
  exact (startupScan_lastListed Importer.plainDecimal128 Importer.plainMongo (fun _ _ => rfl) _ [] (by simp)
    hreturns).2.2.1 (some "XS1")

/-- A bond in the collection whose `isin` is an array. -/
def arrayIsinBond : Stored where
  id     := .objectId 0
  fields := (LinkedMap.empty.put "isin" (.array 2 fun i => .string (if i = 0 then "XS1" else "XS2"))).put
    "couponCurrency" (.string "CHF")
  no_id  := by decide

/-- What the bonds of an ISIN say of a field, where it is text. -/
def textsAt (isin field : String) (c : List Stored) : List String :=
  (bondsAt (some (some isin)) c).map fun bond =>
    match bond field with
    | some (.string s) => s
    | _                => ""

theorem SameBonds.textsAt {c c' : List Stored} (h : SameBonds c c') (isin field : String) :
    textsAt isin field c = textsAt isin field c' := by
  rw [NewOrbit.Bonds.textsAt, NewOrbit.Bonds.textsAt, h]

/-- The order in which the files are listed shows. Of two files with the same bond, the one listed last wins, be it
    the older; a file that makes `updateDatabase` throw hides those listed after it; and a bond whose `isin` is an
    array goes to the first file that has one of its items. -/
theorem startupScan_depends_on_order :
    (textsAt "XS1" "currency" (plainScan [currencyFile "20200709.csv" "XS1" "USD",
        currencyFile "20200708.csv" "XS1" "EUR"] []) = ["EUR"] ∧
      ¬ SameBonds
        (plainScan [currencyFile "20200708.csv" "XS1" "EUR", currencyFile "20200709.csv" "XS1" "USD"] [])
        (plainScan [currencyFile "20200709.csv" "XS1" "USD", currencyFile "20200708.csv" "XS1" "EUR"] [])) ∧
    ¬ SameBonds
      (plainScan [currencyFile "20200708.csv" "XS1" "EUR", ("20200709.csv", .ok [])] [])
      (plainScan [("20200709.csv", .ok []), currencyFile "20200708.csv" "XS1" "EUR"] []) ∧
    ¬ SameBonds
      (plainScan [currencyFile "20200708.csv" "XS1" "EUR", currencyFile "20200709.csv" "XS2" "USD"] [arrayIsinBond])
      (plainScan [currencyFile "20200709.csv" "XS2" "USD", currencyFile "20200708.csv" "XS1" "EUR"]
        [arrayIsinBond]) := by
  refine ⟨⟨by decide +kernel, ?_⟩, ?_, ?_⟩
  · intro h
    exact absurd (h.textsAt "XS1" "currency") (by decide +kernel)
  · intro h
    exact absurd (h.textsAt "XS1" "currency") (by decide +kernel)
  · intro h
    exact absurd (h.textsAt "XS1" "couponCurrency") (by decide +kernel)

end NewOrbit.Bonds
