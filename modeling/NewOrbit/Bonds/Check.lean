import NewOrbit.Bonds.Verdict

/-!
# `Bonds.Check` — when the comparison of two documents can be relied on

`checkDocument` walks over the entries of the Mongo document, up to the first in which something is wrong. Three
kinds of entries make it fail at its job: a null, and an entry the CSV document lacks, make it throw
(`Value.Throws`); and a nested `_id` is counted but not compared. Without them it returns, and returns null exactly
for documents that say the same (`reliable_iff`).
-/

namespace NewOrbit.Bonds

/-! ## Entries of a Mongo document beside the CSV document

An entry is passed, or ends the walk by an exception, or ends it with an error text; the first two are said by
recursion on the value, as the walk goes into nested documents. -/

/-- The walk goes on past an entry, at the key `key`, for which the CSV document has `w`. -/
def Value.Passes : Value → Option Value → String → Prop
  | .null,                      _,                  _   => False
  | .document ⟨keys, _, value⟩, some (.document e), _   =>
      keys.length = e.size ∧ ∀ k h, Passes (value k h) (e.get k) k
  | .document _,                _,                  _   => False
  | v,                          w,                  key => key = "_id" ∨ ∃ u, w = some u ∧ v.equals u = true

/-- The walk ends at the entry, by an exception: it is null, or the CSV document has nothing for it, or it is a
    nested document with such an entry, before which nothing is wrong. -/
def Value.Throws : Value → Option Value → String → Prop
  | .null,                      _,                  _   => True
  | .document _,                none,               _   => True
  | .document ⟨keys, _, value⟩, some (.document e), _   =>
      keys.length = e.size ∧
        ∃ (before : List {k // k ∈ keys}) (key : {k // k ∈ keys}) (after : List {k // k ∈ keys}),
          keys.attach = before ++ key :: after ∧
          Throws (value key.1 key.2) (e.get key.1) key.1 ∧
          ∀ k ∈ before, Passes (value k.1 k.2) (e.get k.1) k.1
  | _,                          none,               key => key ≠ "_id"
  | _,                          some _,             _   => False

namespace Document

/-- The walk over `d` goes on to its end. -/
def Passes (d e : Document) : Prop := ∀ k h, (d.value k h).Passes (e.get k) k

/-- The walk over `d` ends by an exception. -/
def Throws (d e : Document) : Prop :=
  ∃ before key after, d.keys.attach = before ++ key :: after ∧ (d.value key.1 key.2).Throws (e.get key.1) key.1 ∧
    ∀ k ∈ before, (d.value k.1 k.2).Passes (e.get k.1) k.1

end Document

theorem Value.passes_document {d e : Document} {key : String} :
    (Value.document d).Passes (some (.document e)) key ↔ d.size = e.size ∧ d.Passes e := Iff.rfl

theorem Value.throws_document {d e : Document} {key : String} :
    (Value.document d).Throws (some (.document e)) key ↔ d.size = e.size ∧ d.Throws e := Iff.rfl

/-- What a document built by the programs has is neither null nor at the key `_id` or at an empty one. -/
theorem Value.Built.get {e : Document} (he : Value.Built (.document e)) {key : String} {w : Value}
    (hw : e.get key = some w) : w.Built ∧ w ≠ .null ∧ key ≠ "_id" ∧ key ≠ "" := by
  cases he with
  | document _ hvalue hid hempty =>
      have hbuilt := hvalue key w hw
      refine ⟨hbuilt, ?_, ?_, ?_⟩
      · rintro rfl
        cases hbuilt
      · rintro rfl
        exact hid (LinkedMap.mem_keys_of_get hw)
      · rintro rfl
        exact hempty (LinkedMap.mem_keys_of_get hw)

/-! ## The walk

The loop ends at the first entry that is not passed. One induction on the value shows both, that it passes an entry
and that it throws at it, since the one is about what stands before the other (`checkEntry_iff`). -/

namespace Verifier

/-- A result is no exception. -/
theorem not_error_ok {α : Type} {a : α} : ¬ ∃ e, (.ok a : Except JavaException α) = .error e := by
  rintro ⟨e, h⟩
  cases h

theorem firstError_error_iff {α : Type} {check : α → Except JavaException (Option String)} {as : List α} :
    (∃ e, firstError check as = .error e) ↔ ∃ before a after, as = before ++ a :: after ∧
      (∃ e, check a = .error e) ∧ ∀ b ∈ before, check b = .ok none := by
  induction as with
  | nil => simp [firstError]
  | cons a as ih =>
      rw [firstError]
      constructor
      · intro h
        split at h
        · next e he => exact ⟨[], a, as, rfl, ⟨e, he⟩, by simp⟩
        · exact absurd h not_error_ok
        · next hnone =>
            obtain ⟨before, b, after, rfl, hb, hbefore⟩ := ih.mp h
            exact ⟨a :: before, b, after, rfl, hb, List.forall_mem_cons.mpr ⟨hnone, hbefore⟩⟩
      · rintro ⟨before, b, after, has, ⟨e, he⟩, hbefore⟩
        rcases List.cons_eq_append_iff.mp has with ⟨rfl, hfirst⟩ | ⟨before, rfl, rfl⟩
        · obtain ⟨rfl, rfl⟩ := List.cons.inj hfirst
          rw [he]
          exact ⟨e, rfl⟩
        · rw [List.forall_mem_cons] at hbefore
          rw [hbefore.1]
          exact ih.mpr ⟨before, b, after, rfl, ⟨e, he⟩, hbefore.2⟩

section Check
variable {text : Value → String}

theorem checkDocument_error_iff {d csvDocument : Document} {documentName : String} :
    (∃ e, checkDocument text d csvDocument documentName = .error e) ↔
      csvDocument.size + (if documentName = "" then 1 else 0) = d.size ∧
        ∃ before key after, d.keys.attach = before ++ key :: after ∧
          (∃ e, checkEntry text (d.value key.1 key.2) csvDocument documentName key.1 = .error e) ∧
          ∀ k ∈ before, checkEntry text (d.value k.1 k.2) csvDocument documentName k.1 = .ok none := by
  rw [← firstError_error_iff]
  obtain ⟨keys, hnodup, value⟩ := d
  have hlen : LinkedMap.size ⟨keys, hnodup, value⟩ = keys.length := rfl
  rw [checkDocument, hlen]
  by_cases hname : documentName = ""
  · by_cases hsize : csvDocument.size + 1 = keys.length
    · rw [if_neg (by omega), if_neg (fun h => h.1 hname), if_pos hname, and_iff_right hsize]
    · rw [if_pos ⟨hname, by omega⟩, if_pos hname]
      exact iff_of_false not_error_ok fun h => hsize h.1
  · by_cases hsize : csvDocument.size = keys.length
    · rw [if_neg (fun h => hname h.1), if_neg (fun h => h.2 hsize), if_neg hname, Nat.add_zero, and_iff_right hsize]
    · rw [if_neg (fun h => hname h.1), if_pos ⟨hname, hsize⟩, if_neg hname]
      exact iff_of_false not_error_ok fun h => hsize h.1

theorem checkValue_error_iff {csvDocument : Document} (hbuilt : Value.Built (.document csvDocument)) {value : Value}
    {documentName key : String} :
    (∃ e, checkValue text value csvDocument documentName key = .error e) ↔
      csvDocument.get key = none ∧ key ≠ "_id" := by
  rw [checkValue]
  cases hget : csvDocument.get key with
  | none =>
      by_cases hid : key = "_id"
      · rw [if_neg (fun h => h.1 hid)]
        exact iff_of_false not_error_ok fun h => h.2 hid
      · rw [if_pos ⟨hid, rfl⟩]
        exact iff_of_true ⟨_, rfl⟩ ⟨rfl, hid⟩
  | some w =>
      refine iff_of_false ?_ fun h => Option.some_ne_none w h.1
      rw [receiver_eq_ok.mpr ⟨rfl, (hbuilt.get hget).2.1⟩]
      split
      · exact not_error_ok
      · exact not_error_ok

/-- **An entry is passed, or ends the walk by an exception, as `Passes` and `Throws` say.** -/
theorem checkEntry_iff (v : Value) : ∀ {csvDocument : Document} {documentName key : String},
    Value.Built (.document csvDocument) →
    (checkEntry text v csvDocument documentName key = .ok none ↔ v.Passes (csvDocument.get key) key) ∧
      ((∃ e, checkEntry text v csvDocument documentName key = .error e) ↔ v.Throws (csvDocument.get key) key) := by
  induction v using Value.induct with
  | null =>
      intro csvDocument documentName key _
      exact ⟨iff_of_false (fun h => by cases h) id, iff_of_true ⟨_, rfl⟩ trivial⟩
  | document d ih =>
      intro csvDocument documentName key hbuilt
      rw [checkEntry]
      cases hget : csvDocument.get key with
      | none => exact ⟨iff_of_false (fun h => by cases h) id, iff_of_true ⟨_, rfl⟩ trivial⟩
      | some w =>
          obtain ⟨hw, hnull, hid, hempty⟩ := hbuilt.get hget
          rw [receiver_eq_ok.mpr ⟨rfl, hnull⟩]
          have hother : ¬ (Value.document d).equals w = true → (∀ e, w ≠ .document e) →
              (checkValue text (.document d) csvDocument documentName key = .ok none ↔ False) ∧
                ((∃ e, checkValue text (.document d) csvDocument documentName key = .error e) ↔ False) := by
            intro hne _
            rw [checkValue_eq_none, checkValue_error_iff hbuilt, hget]
            refine ⟨iff_of_false ?_ id, iff_of_false (fun h => Option.some_ne_none w h.1) id⟩
            rintro (h | ⟨_, ⟨⟩, h⟩)
            · exact hid h
            · exact hne h
          cases w with
          | document e =>
              rw [Value.passes_document, Value.throws_document]
              dsimp only
              rw [checkDocument_eq_none, checkDocument_error_iff, if_neg hempty, Nat.add_zero,
                eq_comm (a := e.size)]
              refine ⟨and_congr_right fun _ => ?_, and_congr_right fun _ => ?_⟩
              · constructor
                · intro h k hk
                  exact (ih k hk hw).1.mp (h k _ (LinkedMap.get_of_mem hk))
                · intro h k v hv
                  have hk := LinkedMap.mem_keys_of_get hv
                  rw [LinkedMap.get_of_mem hk] at hv
                  rw [← Option.some.inj hv]
                  exact (ih k hk hw).1.mpr (h k hk)
              · apply exists_congr
                intro before
                apply exists_congr
                intro k
                apply exists_congr
                intro after
                refine and_congr_right fun _ => and_congr (ih k.1 k.2 hw).2 ?_
                exact forall_congr' fun k' => forall_congr' fun _ => (ih k'.1 k'.2 hw).1
          | null => exact absurd rfl hnull
          | _ => exact hother (by simp [Value.equals]) fun _ h => by cases h
  | _ =>
      intro csvDocument documentName key hbuilt
      refine ⟨checkValue_eq_none, (checkValue_error_iff hbuilt).trans ?_⟩
      cases csvDocument.get key with
      | none => exact and_iff_right rfl
      | some w => exact iff_of_false (fun h => Option.some_ne_none w h.1) id

end Check

end Verifier

/-! ## Documents that say the same

A value that says the same as one built by the programs is passed and has no `_id` in it. So equal documents fail the
comparison only by an exception. -/

/-- Documents that say the same have as many fields. -/
theorem Document.size_eq_of_meaning {d e : Document} (h : d.meaning = e.meaning) : d.size = e.size := by
  have hkeys : ∀ k, k ∈ d.keys ↔ k ∈ e.keys := by
    intro k
    have hk := congrFun h k
    rw [← not_iff_not, ← LinkedMap.get_eq_none_iff, ← LinkedMap.get_eq_none_iff, ← Option.map_eq_none_iff,
      ← Option.map_eq_none_iff (x := e.get k)]
    exact Eq.congr_left hk
  exact ((List.perm_ext_iff_of_nodup d.nodup e.nodup).mpr hkeys).length_eq

/-- The value that says the same as one at a key. -/
theorem Document.get_of_meaning {d e : Document} (h : d.meaning = e.meaning) {k : String} {v : Value}
    (hv : d.get k = some v) : ∃ w, e.get k = some w ∧ v.meaning = w.meaning := by
  have hk := congrFun h k
  rw [Document.meaning, Document.meaning, hv, Option.map_some] at hk
  obtain ⟨w, hw, hvw⟩ := Option.map_eq_some_iff.mp hk.symm
  exact ⟨w, hw, hvw.symm⟩

/-- A value that says the same as a built one is passed, and has no `_id` in it. -/
theorem Value.passes_of_meaning (v : Value) : ∀ {w : Value} (key : String), w.Built → v.meaning = w.meaning →
    v.Passes (some w) key ∧ v.NoId := by
  induction v using Value.induct with
  | null =>
      intro w key hw h
      cases hw with
      | document e => cases (Value.meaning_document e) ▸ h
      | _ => cases h
  | array n f =>
      intro w key hw h
      cases hw with
      | document e => cases (Value.meaning_document e) ▸ h
      | _ => cases h
  | document d ih =>
      intro w key hw h
      rw [Value.meaning_document] at h
      cases hw with
      | document e hvalue hid hempty =>
          rw [Value.meaning_document] at h
          have hmeaning : d.meaning = e.meaning := by injection h
          have hentry : ∀ k hk, ∃ u, e.get k = some u ∧ (d.value k hk).meaning = u.meaning :=
            fun k hk => Document.get_of_meaning hmeaning (LinkedMap.get_of_mem hk)
          refine ⟨Value.passes_document.mpr ⟨Document.size_eq_of_meaning hmeaning, ?_⟩, ?_, ?_⟩
          · intro k hk
            obtain ⟨u, hu, hdu⟩ := hentry k hk
            rw [hu]
            exact (ih k hk k (hvalue k u hu) hdu).1
          · intro hk
            obtain ⟨u, hu, -⟩ := hentry "_id" hk
            exact hid (LinkedMap.mem_keys_of_get hu)
          · intro k hk
            obtain ⟨u, hu, hdu⟩ := hentry k hk
            exact (ih k hk k (hvalue k u hu) hdu).2
      | _ => cases h
  | _ =>
      intro w key hw h
      cases hw with
      | document e => cases (Value.meaning_document e) ▸ h
      | _ => cases h <;> exact ⟨Or.inr ⟨_, rfl, by simp [Value.equals]⟩, trivial⟩

/-! ## The comparison

The top-level `_id`, which every stored document has, is made up for by the count of fields. What is left that the
walk passes and the meaning does not is a nested `_id`. -/

namespace Verifier

section Check
variable {text : Value → String} {s : Stored} {csvDocument : Document}

/-- `checkDocument` returns, and returns null exactly where the Mongo document, without its `_id`, says what the CSV
    document says. -/
def Reliable (text : Value → String) (s : Stored) (csvDocument : Document) : Prop :=
  ∃ errorMsg, checkDocument text s.read csvDocument "" = .ok errorMsg ∧
    (errorMsg = none ↔ s.fields.meaning = csvDocument.meaning)

theorem checkDocument_none_iff (hbuilt : Value.Built (.document csvDocument)) :
    checkDocument text s.read csvDocument "" = .ok none ↔
      s.fields.size = csvDocument.size ∧ s.read.Passes csvDocument := by
  rw [checkDocument_eq_none, if_pos rfl, Stored.size_read, Nat.succ_inj, eq_comm]
  apply and_congr_right
  intro _
  constructor
  · intro h k hk
    exact (checkEntry_iff _ hbuilt).1.mp (h k _ (LinkedMap.get_of_mem hk))
  · intro h k v hv
    have hk := LinkedMap.mem_keys_of_get hv
    rw [LinkedMap.get_of_mem hk] at hv
    rw [← Option.some.inj hv]
    exact (checkEntry_iff _ hbuilt).1.mpr (h k hk)

theorem checkDocument_throws_iff (hbuilt : Value.Built (.document csvDocument)) :
    (∃ e, checkDocument text s.read csvDocument "" = .error e) ↔
      s.fields.size = csvDocument.size ∧ s.read.Throws csvDocument := by
  rw [checkDocument_error_iff, if_pos rfl, Stored.size_read, Nat.succ_inj, eq_comm]
  apply and_congr_right
  intro _
  apply exists_congr
  intro before
  apply exists_congr
  intro k
  apply exists_congr
  intro after
  refine and_congr_right fun _ => and_congr (checkEntry_iff _ hbuilt).2 ?_
  exact forall_congr' fun k' => forall_congr' fun _ => (checkEntry_iff _ hbuilt).1

/-- The walk goes past an `_id` that does not end it. -/
theorem passes_id {v : Value} (h : ¬ v.Throws none "_id") : v.Passes none "_id" := by
  cases v with
  | null => exact absurd trivial h
  | document d => exact absurd trivial h
  | _ => exact Or.inl rfl

/-- Where nothing throws, the walk over a document that says the same goes on to its end. -/
theorem passes_read (hbuilt : Value.Built (.document csvDocument)) (hthrows : ¬ s.read.Throws csvDocument)
    (hmeaning : s.fields.meaning = csvDocument.meaning) : s.read.Passes csvDocument := by
  have hid : csvDocument.get "_id" = none := by
    by_contra hsome
    obtain ⟨w, hw⟩ := Option.ne_none_iff_exists'.mp hsome
    exact (hbuilt.get hw).2.2.1 rfl
  intro k hk
  have hget := LinkedMap.get_of_mem hk
  rw [Stored.get_read] at hget
  by_cases hkey : k = "_id"
  · subst hkey
    rw [if_pos rfl] at hget
    rw [← Option.some.inj hget, hid]
    apply passes_id
    -- `_id` is the first entry.
    intro hfirst
    refine hthrows ⟨[], ⟨"_id", List.mem_cons_self⟩, s.read.keys.attach.tail, rfl, ?_, by simp⟩
    rw [hid]
    exact hfirst
  · rw [if_neg hkey] at hget
    obtain ⟨w, hw, hvw⟩ := Document.get_of_meaning hmeaning hget
    rw [hw]
    exact (Value.passes_of_meaning _ k (hbuilt.get hw).1 hvw).1

/-- **The comparison can be relied on exactly where the walk does not end by an exception, and, if it goes on to the
    end, no nested document has a field `_id`.** -/
theorem reliable_iff (text : Value → String) (s : Stored) (csvDocument : Document)
    (hbuilt : Value.Built (.document csvDocument)) :
    Reliable text s csvDocument ↔ (s.fields.size = csvDocument.size → ¬ s.read.Throws csvDocument ∧
      (s.read.Passes csvDocument → ∀ key v, s.fields.get key = some v → v.NoId)) := by
  have hnone : checkDocument text s.read csvDocument "" = .ok none ↔
      s.fields.size = csvDocument.size ∧ s.read.Passes csvDocument := checkDocument_none_iff hbuilt
  have hthrows : (∃ e, checkDocument text s.read csvDocument "" = .error e) ↔
      s.fields.size = csvDocument.size ∧ s.read.Throws csvDocument := checkDocument_throws_iff hbuilt
  constructor
  · rintro ⟨errorMsg, hcheck, hiff⟩ hsize
    refine ⟨fun h => ?_, fun hpasses key v hv => ?_⟩
    · obtain ⟨e, he⟩ := hthrows.mpr ⟨hsize, h⟩
      exact nomatch hcheck.symm.trans he
    · have hok := hnone.mpr ⟨hsize, hpasses⟩
      have hmeaning := hiff.mp (Except.ok.inj (hcheck.symm.trans hok))
      obtain ⟨w, hw, hvw⟩ := Document.get_of_meaning hmeaning hv
      exact (Value.passes_of_meaning v key (hbuilt.get hw).1 hvw).2
  · intro h
    cases hcheck : checkDocument text s.read csvDocument "" with
    | error e =>
        obtain ⟨hsize, hthrow⟩ := hthrows.mp ⟨e, hcheck⟩
        exact absurd hthrow (h hsize).1
    | ok errorMsg =>
        refine ⟨errorMsg, hcheck, ?_⟩
        constructor
        · rintro rfl
          obtain ⟨hsize, hpasses⟩ := hnone.mp hcheck
          exact meaning_of_checkDocument hbuilt ((h hsize).2 hpasses) hcheck
        · intro hmeaning
          have hsize := Document.size_eq_of_meaning hmeaning
          have hpasses := passes_read hbuilt (h hsize).1 hmeaning
          exact Except.ok.inj (hcheck.symm.trans (hnone.mpr ⟨hsize, hpasses⟩))

end Check

/-! ### One field

A document whose one field is null ends the walk. -/

/-- A Mongo document with one field beside its `_id`. -/
def oneField (field : String) (v : Value) (h : field ≠ "_id") : Stored where
  id     := .objectId 0
  fields := LinkedMap.empty.put field v
  no_id  := by
    rw [LinkedMap.mem_keys_put]
    rintro (hid | hid)
    · exact h hid.symm
    · cases hid

theorem reliable_iff_isin :
    Reliable (Importer.isinText ∘ some) (oneField "isin" (.string "XS1") (by decide))
      (LinkedMap.empty.put "isin" (.string "XS2")) := by
  apply (reliable_iff _ _ _ (Value.Built.empty.put (.string "XS2") (by decide) (by decide))).mpr
  intro _
  constructor
  · rintro ⟨before, ⟨key, hkey⟩, after, -, hthrows, -⟩
    rcases List.mem_pair.mp hkey with rfl | rfl
    · exact hthrows rfl
    · exact hthrows
  · intro _ key v hv
    rw [oneField, LinkedMap.get_put] at hv
    split at hv
    · rw [← Option.some.inj hv]
      trivial
    · cases hv

example : (checkDocument (Importer.isinText ∘ some) (oneField "isin" (.string "XS1") (by decide)).read
    (LinkedMap.empty.put "isin" (.string "XS2")) "").toOption =
      some (some "Wrong value for key: isin; Expected XS2, Actual XS1") := by decide +kernel

/-- The message about a field that the CSV document lacks cannot be put together. -/
theorem not_always_reliable :
    ¬ ∀ (s : Stored) (csvLine csvFieldNames : List String) (csvDocument : Document),
      buildMongoDocument Importer.plainDecimal128 csvLine csvFieldNames 1 = .ok csvDocument →
      Reliable (Importer.isinText ∘ some) s csvDocument := by
  intro hall
  have hthrows : (buildMongoDocument Importer.plainDecimal128 ["XS1"] ["ISIN"] 1).toOption.map (fun csvDocument =>
      (checkDocument (Importer.isinText ∘ some) (oneField "currency" (.string "EUR") (by decide)).read csvDocument
        "").toOption) = some none := by decide +kernel
  cases hbuild : buildMongoDocument Importer.plainDecimal128 ["XS1"] ["ISIN"] 1 with
  | error e =>
      rw [hbuild] at hthrows
      cases hthrows
  | ok csvDocument =>
      obtain ⟨errorMsg, hcheck, -⟩ :=
        hall (oneField "currency" (.string "EUR") (by decide)) ["XS1"] ["ISIN"] csvDocument hbuild
      rw [hbuild, Except.toOption, Option.map_some, hcheck] at hthrows
      cases hthrows

end Verifier

end NewOrbit.Bonds
