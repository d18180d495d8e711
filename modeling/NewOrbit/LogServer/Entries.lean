import NewOrbit.LogServer.Page
import NewOrbit.Rabbit.Unanswered

/-!
# `LogServer.Entries` — what the documents before a document leave in its entry

Both handlers decode every document into one variable that is never cleared, and `Decode` overwrites only the
fields a document has. A field that the document lacks is reported as the documents before it left it, those that
failed to decode included. `independent_iff` says for which documents that makes no difference: those of whose
missing fields each was last written with its zero value, or not at all.

A request that was not answered has no response, no response time and no duration (`Rabbit.Unanswered`), so it is
reported with those of the request before it.
-/

namespace NewOrbit.LogServer
open Rabbit (Json)

/-! ## The entry of a document

An entry is independent if decoding its document alone, into a variable with zero values, gives the same. -/

/-- The documents that decode, each of which has an entry. -/
def decodable (docs : List Document) : List Document := docs.filter fun doc => !doc.fails

/-- The documents read before the `i`-th that decodes. -/
def preceding : List Document → ℕ → List Document
  | [], _ => []
  | doc :: docs, i =>
      if doc.fails then doc :: preceding docs i
      else match i with
        | 0     => []
        | i + 1 => doc :: preceding docs i

def entries : Except Panic Json → List Json
  | .ok body => elements body
  | .error _ => []

/-- `All` returns `x` as the `i`-th entry, and so does every page that shows it. -/
def Returned (docs : List Document) (i : ℕ) (x : Json) : Prop :=
  (entries (All (some docs)))[i]? = some x ∧
    ∀ start end_, 0 ≤ parameter start → parameter start ≤ i → i < parameter end_ →
      (entries (Page (some docs) start end_))[i - (parameter start).toNat]? = some x

/-- Where two collections have the same `i`-th decodable document, its entry is the same, and is that of the
    document alone, with zero values for the fields it lacks. -/
def Independent (docs docs' : List Document) (i : ℕ) : Prop :=
  ∀ doc, (decodable docs)[i]? = some doc → (decodable docs')[i]? = some doc →
    ∃ x, Returned docs i x ∧ Returned docs' i x ∧ x = (doc.Decode .zero).json

/-! ## What is carried over

A field of the variable is what the last document that has it has left there (`field_carried`). So the fields are
looked at one by one, and those that the document has do not matter. -/

/-- What the variable holds after the documents. -/
def carried (before : List Document) (calc_ : Calculation) : Calculation :=
  before.foldl (fun calc_ doc => doc.Decode calc_) calc_

theorem decoded_getElem? (docs : List Document) (calc_ : Calculation) (i : ℕ) :
    (decoded docs calc_)[i]? =
      (decodable docs)[i]?.map fun doc => doc.Decode (carried (preceding docs i) calc_) := by
  induction docs generalizing calc_ i with
  | nil => rfl
  | cons doc docs ih =>
      cases hf : doc.fails with
      | true => simpa [decoded_cons, decodable, preceding, carried, hf] using ih (doc.Decode calc_) i
      | false =>
          cases i with
          | zero => simp [decoded_cons, decodable, preceding, carried, hf]
          | succ i => simpa [decoded_cons, decodable, preceding, carried, hf] using ih (doc.Decode calc_) i

section Fields
variable {α : Type} (get : Document → Option α) (zero : α)

/-- What the documents leave in a field: the last value written, or zero. -/
def left (before : List Document) : α := (before.filterMap get).getLast?.getD zero

/-- The field is the document's own, or is left as it prints when it is zero. -/
def Own (write : α → Json) (before : List Document) (doc : Document) : Prop :=
  get doc = none → write (left get zero before) = write zero

instance (write : α → Json) (before : List Document) (doc : Document) :
    Decidable (Own get zero write before doc) := inferInstanceAs (Decidable (_ → _))

variable {get zero}

theorem left_snoc (before : List Document) (doc : Document) :
    left get zero (before ++ [doc]) = (get doc).getD (left get zero before) := by
  cases hd : get doc with
  | none => simp [left, hd]
  | some x => simp [left, hd]

/-- A field of the variable is the last value written. -/
theorem field_carried (field : Calculation → α)
    (hfield : ∀ doc calc_, field (Document.Decode doc calc_) = (get doc).getD (field calc_))
    (before : List Document) (calc_ : Calculation) :
    field (carried before calc_) = left get (field calc_) before := by
  induction before using List.reverseRecOn with
  | nil => rfl
  | append_singleton before doc ih => simp [carried, left_snoc, hfield, ← ih]

/-- A field of an entry is that of the document alone exactly when it is its own. -/
theorem own_iff (field : Calculation → α) (write : α → Json)
    (hfield : ∀ doc calc_, field (Document.Decode doc calc_) = (get doc).getD (field calc_))
    (before : List Document) (doc : Document) :
    write (field (doc.Decode (carried before .zero))) = write (field (doc.Decode .zero)) ↔
      Own get (field .zero) write before doc := by
  rw [hfield, hfield, field_carried field hfield, Own]
  cases get doc with
  | none => simp
  | some x => simp

end Fields

/-- Each field the document lacks is left as it prints when it is zero. -/
def Alone (before : List Document) (doc : Document) : Prop :=
  Own Document.ID 0 (fun id => .string id.toHex) before doc ∧
    Own Document.CalType 0 .number_integer before doc ∧
    Own Document.RequestTime "" .string before doc ∧
    Own Document.ResponseSent false .boolean before doc ∧
    Own Document.ResponseTime "" .string before doc ∧
    Own Document.Duration "" .string before doc ∧
    Own Document.Num1 0 .number_integer before doc ∧
    Own Document.Num2 0 .number_integer before doc ∧
    Own Document.Response 0 .number_integer before doc

instance (before : List Document) (doc : Document) : Decidable (Alone before doc) :=
  inferInstanceAs (Decidable (_ ∧ _))

theorem json_eq_iff {c c' : Calculation} : c.json = c'.json ↔
    Json.string c.ID.toHex = .string c'.ID.toHex ∧
      Json.number_integer c.CalType = .number_integer c'.CalType ∧
      Json.string c.RequestTime = .string c'.RequestTime ∧
      Json.boolean c.ResponseSent = .boolean c'.ResponseSent ∧
      Json.string c.ResponseTime = .string c'.ResponseTime ∧
      Json.string c.Duration = .string c'.Duration ∧
      Json.number_integer c.Num1 = .number_integer c'.Num1 ∧
      Json.number_integer c.Num2 = .number_integer c'.Num2 ∧
      Json.number_integer c.Response = .number_integer c'.Response := by
  simp only [Calculation.json, Json.object.injEq, List.cons.injEq, Prod.mk.injEq, true_and, and_true]

/-- The entry is that of the document alone exactly when nothing is left in the fields it lacks. -/
theorem json_carried_iff (before : List Document) (doc : Document) :
    (doc.Decode (carried before .zero)).json = (doc.Decode .zero).json ↔ Alone before doc := by
  rw [json_eq_iff]
  refine and_congr (own_iff Calculation.ID (fun id => .string id.toHex) (fun _ _ => rfl) before doc) ?_
  refine and_congr (own_iff Calculation.CalType .number_integer (fun _ _ => rfl) before doc) ?_
  refine and_congr (own_iff Calculation.RequestTime .string (fun _ _ => rfl) before doc) ?_
  refine and_congr (own_iff Calculation.ResponseSent .boolean (fun _ _ => rfl) before doc) ?_
  refine and_congr (own_iff Calculation.ResponseTime .string (fun _ _ => rfl) before doc) ?_
  refine and_congr (own_iff Calculation.Duration .string (fun _ _ => rfl) before doc) ?_
  refine and_congr (own_iff Calculation.Num1 .number_integer (fun _ _ => rfl) before doc) ?_
  refine and_congr (own_iff Calculation.Num2 .number_integer (fun _ _ => rfl) before doc) ?_
  exact own_iff Calculation.Response .number_integer (fun _ _ => rfl) before doc

/-! ## The entries of the responses

The entries of `All` are those of all documents in their order, and a page is a part of them. -/

theorem entries_all (docs : List Document) :
    entries (All (some docs)) = (decoded docs .zero).map Calculation.json := by
  show elements ((allLoop docs .zero .nil).encode Calculation.json) = _
  rw [elements_encode, allLoop_eq, Slice.elements_foldl_append, Slice.elements, List.nil_append]

theorem entries_page {docs : List Document} {start end_ : String} (h0 : 0 ≤ parameter start) :
    entries (Page (some docs) start end_) =
      ((collected docs end_).drop (parameter start).toNat).map Calculation.json := by
  by_cases hnil : collected docs end_ = []
  · rw [page_of_nil h0 hnil, hnil, List.drop_nil]
    rfl
  · rw [page_of_ne_nil h0 hnil]
    rfl

/-- The pages show the entries of `All`. -/
theorem returned_iff {docs : List Document} {i : ℕ} {x : Json} :
    Returned docs i x ↔ (decoded docs .zero)[i]?.map Calculation.json = some x := by
  rw [Returned, entries_all, List.getElem?_map]
  apply and_iff_left_of_imp
  intro hx start end_ h0 hstart hend
  have hi : (parameter start).toNat + (i - (parameter start).toNat) = i := by omega
  rw [entries_page h0, List.getElem?_map, List.getElem?_drop, hi, collected,
    List.getElem?_take_of_lt (by omega)]
  exact hx

theorem independent_iff (docs docs' : List Document) (i : ℕ) :
    Independent docs docs' i ↔
      ∀ doc, (decodable docs)[i]? = some doc → (decodable docs')[i]? = some doc →
        Alone (preceding docs i) doc ∧ Alone (preceding docs' i) doc := by
  have hentry : ∀ {docs doc}, (decodable docs)[i]? = some doc →
      (Returned docs i (doc.Decode .zero).json ↔ Alone (preceding docs i) doc) := by
    intro docs doc hdoc
    rw [returned_iff, decoded_getElem?, hdoc, Option.map_some, Option.map_some, Option.some.injEq, json_carried_iff]
  constructor
  · intro h doc hdoc hdoc'
    obtain ⟨x, hx, hx', rfl⟩ := h doc hdoc hdoc'
    exact ⟨(hentry hdoc).mp hx, (hentry hdoc').mp hx'⟩
  · intro h doc hdoc hdoc'
    obtain ⟨halone, halone'⟩ := h doc hdoc hdoc'
    exact ⟨_, (hentry hdoc).mpr halone, (hentry hdoc').mpr halone', rfl⟩

open Rabbit (Host) in
open Rabbit.Audit in
/-- **An entry depends on its own document only, exactly where the documents before it left nothing in the fields
    it lacks**, in either collection. The documents of the requests that were not answered lack three. -/
theorem entry_independent_iff (docs docs' : List Document) (i : ℕ) :
    (Independent docs docs' i ↔
      ∀ doc, (decodable docs)[i]? = some doc → (decodable docs')[i]? = some doc →
        Alone (preceding docs i) doc ∧ Alone (preceding docs' i) doc) ∧
    ∀ (h : Host) channel maxpayload tr s, AddsNothing h →
      Machine.exec (step h channel maxpayload) tr (init []) = some s →
      (∀ m, .submit m ∈ tr → Message.Bare h m) → ∀ d ∈ s.requests, Unsent d → Bare d :=
  ⟨independent_iff docs docs' i, fun _ _ _ _ _ hadd hrun hbare => unanswered_bare hadd hrun hbare⟩

/-- The document of an answered request, and the one of a request that was not answered. -/
def answered : Document :=
  { ID := some 1, CalType := some 1, RequestTime := some "Tue Aug 18 2020 08:51:13.539", ResponseSent := some true,
    ResponseTime := some "Tue Aug 18 2020 08:51:14.000", Duration := some "00:00:00.461", Num1 := some 3,
    Num2 := some 4, Response := some 7, fails := false }

def unanswered : Document :=
  { ID := some 2, CalType := some 1, RequestTime := some "Tue Aug 18 2020 08:51:15.000", ResponseSent := some false,
    ResponseTime := none, Duration := none, Num1 := some 5, Num2 := some 6, Response := none, fails := false }

open Rabbit.Audit in
/-- A request that was not answered, after another one; and a run that leaves one in the collection. -/
theorem entry_independent_iff_unanswered : Independent [unanswered, unanswered] [unanswered] 0 ∧
    ∀ d ∈ (after recorded).requests, Unsent d → Bare d := by
  obtain ⟨hentry, hrun⟩ := entry_independent_iff [unanswered, unanswered] [unanswered] 0
  refine ⟨hentry.mpr ?_, ?_⟩
  · rintro doc hdoc -
    cases hdoc
    decide +kernel
  · apply hrun Rabbit.sampleHost 1 131064 recorded _ (flatHost_addsNothing _) (exec_after (by decide +kernel))
    intro m hm
    have hm : m = sampleRequest := by simpa [recorded] using hm
    exact hm ▸ bare_sampleRequest

/-- After an answered request, one that was not answered is reported with its response. -/
theorem not_always_independent : ¬ ∀ docs docs' i, Independent docs docs' i := by
  intro h
  have halone := (independent_iff [answered, unanswered] [unanswered, unanswered] 1).mp (h _ _ _) unanswered rfl rfl
  exact absurd halone (by decide +kernel)

end NewOrbit.LogServer
