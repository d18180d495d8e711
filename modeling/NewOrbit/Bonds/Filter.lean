import NewOrbit.Bonds.Fetcher

/-!
# `Bonds.Filter` — what the filter of a search selects

The texts of a search become patterns, which Mongo looks for anywhere in a field. So a text without metacharacters
is found where it stands in the middle of a field too, and no text but the empty one is only found where a field
starts with it (`literal_iff`). What is used of Mongo's expressions is in `Server.Documented`.
-/

namespace NewOrbit.Bonds.Fetcher

/-- What makes an expression depend on what stands before the place where it matches. -/
def lookBack : List (List Char) := ["^".toList, "\\".toList, "(?".toList, "(*".toList, "[[:".toList]

def Forward (text : String) : Prop := ∀ construct ∈ lookBack, ¬ construct <:+: text.toList

instance (text : String) : Decidable (Forward text) := List.decidableBAll _ lookBack

namespace Server

/-- The pattern of a text is one that the server takes. -/
def Accepts (server : Server) (text : String) : Prop := ∃ found, server.regex (text ++ ".*") = some found

/-- The regular expressions of Mongo: characters that are not special stand for themselves, what an expression that
    only looks forward matches it also matches behind another character, and `.*` is an expression. -/
structure Documented (server : Server) : Prop where
  ordinary : ∀ text found, Ordinary text → server.regex (text ++ ".*") = some found →
    ∀ t, found t = true ↔ text.toList <:+: t.toList
  forward : ∀ text found, Forward text → server.regex (text ++ ".*") = some found →
    ∀ (c : Char) (t : List Char), found (String.ofList t) = true → found (String.ofList (c :: t)) = true
  empty : server.Accepts ""

/-- More texts are found in more fields. -/
theorem holds_mono {found found' : String → Bool} (h : ∀ t, found t = true → found' t = true) {v : Option Value}
    (hv : holds found v = true) : holds found' v = true := by
  unfold holds at hv ⊢
  split at hv
  · exact h _ hv
  · rw [List.any_eq_true] at hv ⊢
    obtain ⟨i, hi, hf⟩ := hv
    refine ⟨i, hi, ?_⟩
    split at hf
    · exact h _ hf
    · exact absurd hf Bool.false_ne_true
  · exact absurd hv Bool.false_ne_true

@[simp] theorem holds_string (found : String → Bool) (t : String) : holds found (some (.string t)) = found t := rfl

end Server

open Server

/-- Whether the filter of a search selects a bond. -/
def selects (server : Server) (bond : Stored) (longDes initialISIN : String) : Except Failure Bool := do
  let longDesQuery ← regexQuery "longDescription" (some longDes)
  let initialISINQuery ← regexQuery "isin" (some initialISIN)
  let selected ← server.find longDesQuery initialISINQuery [bond]
  return !selected.isEmpty

/-- A text in the field starts with `text`. -/
def startsWith (text : String) (field : Option Value) : Bool :=
  holds (fun t => decide (text.toList <+: t.toList)) field

/-- A text in the field has `text` in it, at its start or later. -/
def contains (text : String) (field : Option Value) : Bool :=
  holds (fun t => decide (text.toList <:+: t.toList)) field

/-- The texts of the search are those that the two fields start with. -/
def Literal (server : Server) (bond : Stored) (longDes initialISIN : String) : Prop :=
  selects server bond longDes initialISIN =
    .ok (startsWith longDes (bond.read.get "longDescription") && startsWith initialISIN (bond.read.get "isin"))

theorem contains_of_startsWith {text : String} {field : Option Value} (h : startsWith text field = true) :
    contains text field = true :=
  holds_mono (fun _ ht => decide_eq_true (List.IsPrefix.isInfix (of_decide_eq_true ht))) h

theorem startsWith_empty (field : Option Value) : startsWith "" field = contains "" field := by
  simp [startsWith, contains]

section
variable {server : Server} {longDes initialISIN : String} {found found' : String → Bool}

theorem selects_eq (hd : server.regex (longDes ++ ".*") = some found)
    (hi : server.regex (initialISIN ++ ".*") = some found') (bond : Stored) :
    selects server bond longDes initialISIN =
      .ok (holds found (bond.read.get "longDescription") && holds found' (bond.read.get "isin")) := by
  show (server.find _ _ _ >>= fun selected => _) = _
  simp only [find, hd, hi, List.filter_cons, List.filter_nil]
  show Except.ok _ = _
  split
  · rename_i h
    rw [h]
    rfl
  · rename_i h
    rw [Bool.eq_false_iff.mpr h]
    rfl

/-- A pattern that the server does not take ends the search. -/
theorem accepts_of_selects {bond : Stored} {b : Bool} (h : selects server bond longDes initialISIN = .ok b) :
    server.Accepts longDes ∧ server.Accepts initialISIN := by
  change (server.find ⟨"longDescription", longDes ++ ".*"⟩ ⟨"isin", initialISIN ++ ".*"⟩ [bond] >>= _) = _ at h
  unfold find at h
  split at h
  · rename_i found found' hd hi
    exact ⟨⟨found, hd⟩, found', hi⟩
  · cases h

/-- An ordinary text is found wherever it stands. -/
theorem selects_ordinary (hdoc : server.Documented) (hd : Ordinary longDes) (hi : Ordinary initialISIN)
    (hacc : server.Accepts longDes ∧ server.Accepts initialISIN) (bond : Stored) :
    selects server bond longDes initialISIN =
      .ok (contains longDes (bond.read.get "longDescription") && contains initialISIN (bond.read.get "isin")) := by
  obtain ⟨⟨found, hfound⟩, found', hfound'⟩ := hacc
  have hl : found = fun t => decide (longDes.toList <:+: t.toList) :=
    funext fun t => Bool.eq_iff_iff.mpr ((hdoc.ordinary _ _ hd hfound t).trans decide_eq_true_iff.symm)
  have hr : found' = fun t => decide (initialISIN.toList <:+: t.toList) :=
    funext fun t => Bool.eq_iff_iff.mpr ((hdoc.ordinary _ _ hi hfound' t).trans decide_eq_true_iff.symm)
  rw [selects_eq hfound hfound', hl, hr]
  rfl

theorem literal_ordinary_iff (hdoc : server.Documented) (hd : Ordinary longDes) (hi : Ordinary initialISIN)
    (bond : Stored) :
    Literal server bond longDes initialISIN ↔
      (server.Accepts longDes ∧ server.Accepts initialISIN) ∧
        (contains longDes (bond.read.get "longDescription") = true →
          contains initialISIN (bond.read.get "isin") = true →
          startsWith longDes (bond.read.get "longDescription") = true ∧
            startsWith initialISIN (bond.read.get "isin") = true) := by
  constructor
  · intro h
    have hacc := accepts_of_selects h
    refine ⟨hacc, fun hcd hci => ?_⟩
    rw [Literal, selects_ordinary hdoc hd hi hacc, hcd, hci, Except.ok.injEq] at h
    exact Bool.and_eq_true_iff.mp h.symm
  · rintro ⟨hacc, h⟩
    rw [Literal, selects_ordinary hdoc hd hi hacc, Except.ok.injEq, Bool.eq_iff_iff, Bool.and_eq_true_iff,
      Bool.and_eq_true_iff]
    constructor
    · rintro ⟨hcd, hci⟩
      exact h hcd hci
    · rintro ⟨hsd, hsi⟩
      exact ⟨contains_of_startsWith hsd, contains_of_startsWith hsi⟩

end

/-! ## Every bond -/

/-- A bond with the two fields of a search. -/
def bondWith (longDescription isin : List Char) : Stored where
  id     := .objectId 1
  fields := (LinkedMap.empty.put "isin" (.string (String.ofList isin))).put "longDescription"
    (.string (String.ofList longDescription))
  no_id  := by
    rw [← LinkedMap.get_eq_none_iff]
    rfl

section
variable (longDescription isin : List Char)

theorem bondWith_longDescription :
    (bondWith longDescription isin).read.get "longDescription" = some (.string (String.ofList longDescription)) :=
  rfl

theorem bondWith_isin :
    (bondWith longDescription isin).read.get "isin" = some (.string (String.ofList isin)) := rfl

end

theorem contains_string (text : String) (t : List Char) :
    contains text (some (.string (String.ofList t))) = true ↔ text.toList <:+: t := by
  rw [contains, holds_string, decide_eq_true_iff, String.toList_ofList]

theorem startsWith_string (text : String) (t : List Char) :
    startsWith text (some (.string (String.ofList t))) = true ↔ text.toList <+: t := by
  rw [startsWith, holds_string, decide_eq_true_iff, String.toList_ofList]

/-- A character that a text does not start with. -/
theorem exists_not_prefix (text : List Char) (h : text ≠ []) : ∃ c, ¬ text <+: c :: text := by
  cases text with
  | nil => exact absurd rfl h
  | cons a rest =>
      by_cases ha : a = 'a'
      · exact ⟨'b', fun hp => by simp [ha] at hp⟩
      · exact ⟨'a', fun hp => ha (List.cons_prefix_cons.mp hp).1⟩

section
variable {server : Server} {longDes initialISIN : String}

/-- Texts for which every bond comes out right are empty: behind one more character they are still found. -/
theorem empty_of_literal (hdoc : server.Documented) (hd : Forward longDes) (hi : Forward initialISIN)
    (h : ∀ bond, Literal server bond longDes initialISIN) : longDes = "" ∧ initialISIN = "" := by
  obtain ⟨⟨found, hfound⟩, found', hfound'⟩ := accepts_of_selects (h (bondWith [] []))
  have hlit : ∀ d i, (found (String.ofList d) && found' (String.ofList i)) =
      (decide (longDes.toList <+: d) && decide (initialISIN.toList <+: i)) := by
    intro d i
    have hb := h (bondWith d i)
    rw [Literal, selects_eq hfound hfound', Except.ok.injEq, bondWith_longDescription, bondWith_isin] at hb
    simpa only [holds_string, startsWith, String.toList_ofList] using hb
  have hself : found (String.ofList longDes.toList) = true ∧ found' (String.ofList initialISIN.toList) = true := by
    have hb := hlit longDes.toList initialISIN.toList
    simpa only [List.prefix_rfl, decide_true, Bool.and_self, Bool.and_eq_true_iff] using hb
  constructor
  · by_contra hne
    obtain ⟨c, hc⟩ := exists_not_prefix longDes.toList (by simpa using hne)
    have hb := hlit (c :: longDes.toList) initialISIN.toList
    rw [hdoc.forward _ _ hd hfound c _ hself.1, hself.2, decide_eq_false hc] at hb
    exact absurd hb (by simp)
  · by_contra hne
    obtain ⟨c, hc⟩ := exists_not_prefix initialISIN.toList (by simpa using hne)
    have hb := hlit longDes.toList (c :: initialISIN.toList)
    rw [hdoc.forward _ _ hi hfound' c _ hself.2, hself.1, decide_eq_false hc] at hb
    exact absurd hb (by simp)

end

/-- **What the filter of a search selects.** With texts that have no metacharacters, a bond comes out right exactly
    when the fields start with the texts if they contain them. With texts that only look forward, every bond comes
    out right exactly when they are empty. -/
theorem literal_iff (server : Server) (hdoc : server.Documented) (longDes initialISIN : String) :
    (Ordinary longDes → Ordinary initialISIN → ∀ bond, Literal server bond longDes initialISIN ↔
      (server.Accepts longDes ∧ server.Accepts initialISIN) ∧
        (contains longDes (bond.read.get "longDescription") = true →
          contains initialISIN (bond.read.get "isin") = true →
          startsWith longDes (bond.read.get "longDescription") = true ∧
            startsWith initialISIN (bond.read.get "isin") = true)) ∧
    (Forward longDes → Forward initialISIN →
      ((∀ bond, Literal server bond longDes initialISIN) ↔ longDes = "" ∧ initialISIN = "")) := by
  refine ⟨fun hd hi bond => literal_ordinary_iff hdoc hd hi bond, fun hd hi => ⟨empty_of_literal hdoc hd hi, ?_⟩⟩
  rintro ⟨rfl, rfl⟩ bond
  have hord : Ordinary "" := by decide
  rw [literal_ordinary_iff hdoc hord hord]
  refine ⟨⟨hdoc.empty, hdoc.empty⟩, fun hcd hci => ?_⟩
  rw [startsWith_empty, startsWith_empty]
  exact ⟨hcd, hci⟩

theorem plainServer_regex (text : String) : plainServer.regex (text ++ ".*") =
    if Ordinary text then some fun t => decide (text.toList <:+: t.toList) else none := by
  have htext : String.ofList ((text ++ ".*").toList.take ((text ++ ".*").toList.length - 2)) = text := by
    simp
  simp only [plainServer, htext, true_and]

theorem plainServer_documented : plainServer.Documented where
  ordinary text found hord hregex t := by
    rw [plainServer_regex, if_pos hord, Option.some.injEq] at hregex
    rw [← hregex, decide_eq_true_iff]
  forward text found _ hregex c t ht := by
    rw [plainServer_regex] at hregex
    split at hregex
    · rw [Option.some.injEq] at hregex
      rw [← hregex, decide_eq_true_iff, String.toList_ofList] at ht ⊢
      exact ht.trans (List.infix_cons List.infix_rfl)
    · cases hregex
  empty := ⟨_, rfl⟩

theorem plainServer_accepts {text : String} (h : Ordinary text) : plainServer.Accepts text :=
  ⟨_, (plainServer_regex text).trans (if_pos h)⟩

theorem literal_iff_bunds :
    ((∀ bond, Literal plainServer bond "BUNDS" "DE") ↔ "BUNDS" = "" ∧ "DE" = "") ∧
      Literal plainServer (bondWith "BUNDS".toList "DE0001".toList) "BUNDS" "DE" := by
  have hd : Ordinary "BUNDS" := by decide
  have hi : Ordinary "DE" := by decide
  obtain ⟨hord, hall⟩ := literal_iff plainServer plainServer_documented "BUNDS" "DE"
  refine ⟨hall (by decide) (by decide), (hord hd hi _).mpr ⟨⟨plainServer_accepts hd, plainServer_accepts hi⟩, ?_⟩⟩
  rw [bondWith_longDescription, bondWith_isin, startsWith_string, startsWith_string]
  exact fun _ _ => ⟨List.prefix_rfl, "0001".toList, by simp⟩

/-- A search for `OBLIGATION` finds the bonds that have it in the middle of their description. -/
theorem not_always_literal : ¬ ∀ (server : Server) (_ : server.Documented) longDes initialISIN bond,
    Literal server bond longDes initialISIN := by
  intro h
  have hd : Ordinary "OBLIGATION" := by decide
  have hi : Ordinary "DE" := by decide
  have hbond := (literal_ordinary_iff plainServer_documented hd hi _).mp
    (h plainServer plainServer_documented "OBLIGATION" "DE" (bondWith "BUNDESOBLIGATION".toList "DE0001".toList))
  rw [bondWith_longDescription, bondWith_isin, contains_string, contains_string, startsWith_string] at hbond
  have hde : "DE".toList <:+: "DE0001".toList := ⟨[], "0001".toList, by simp⟩
  have hstarts := (hbond.2 ⟨"BUNDES".toList, [], by simp⟩ hde).1
  simp at hstarts

end NewOrbit.Bonds.Fetcher
