import NewOrbit.LogServer.Go

/-!
# `LogServer.Page` — the two handlers of the log server

`All` and `Page` read the documents of the collection from the newest to the oldest and decode each into one and
the same variable; a document that fails to decode is logged and skipped. `Page` stops when it has `end` results
and responds with those from `start` on. Its results are the first `end` of those of `All` (`pageLoop_eq`), so the
response is right whenever the slice is taken, and is written as an array: `start` must not be negative, which
nothing checks, and there must be a result, or the slice is nil and is written as `null` (`page_responds_iff`).
-/

namespace NewOrbit.LogServer
open Rabbit (Json)

/-! ## The data -/

/-- The fields the JSON structure has. -/
structure Calculation where
  ID : BitVec 96
  CalType : Int
  RequestTime : String
  ResponseSent : Bool
  ResponseTime : String
  Duration : String
  Num1 : Int
  Num2 : Int
  Response : Int
  deriving DecidableEq, Repr

/-- `var calc Calculation`. -/
def Calculation.zero : Calculation :=
  { ID := 0, CalType := 0, RequestTime := "", ResponseSent := false, ResponseTime := "", Duration := "",
    Num1 := 0, Num2 := 0, Response := 0 }

/-- A result as it is written; an `ObjectID` is written in hexadecimal. -/
def Calculation.json (calc_ : Calculation) : Json :=
  .object
    [("_id",           .string calc_.ID.toHex),
     ("cal_type",      .number_integer calc_.CalType),
     ("request_time",  .string calc_.RequestTime),
     ("response_sent", .boolean calc_.ResponseSent),
     ("response_time", .string calc_.ResponseTime),
     ("cal_duration",  .string calc_.Duration),
     ("num1",          .number_integer calc_.Num1),
     ("num2",          .number_integer calc_.Num2),
     ("response",      .number_integer calc_.Response)]

/-- A document as the driver's `Decode` meets it: the values for the fields of `Calculation` it has, and whether
    decoding it fails. Of a document that fails these are the fields written before it does. -/
structure Document where
  ID : Option (BitVec 96)
  CalType : Option Int
  RequestTime : Option String
  ResponseSent : Option Bool
  ResponseTime : Option String
  Duration : Option String
  Num1 : Option Int
  Num2 : Option Int
  Response : Option Int
  fails : Bool
  deriving DecidableEq, Repr

/-- `result.Decode(&calc)`: the fields the document has are overwritten, the others keep what they held. -/
def Document.Decode (doc : Document) (calc_ : Calculation) : Calculation :=
  { ID := doc.ID.getD calc_.ID
    CalType := doc.CalType.getD calc_.CalType
    RequestTime := doc.RequestTime.getD calc_.RequestTime
    ResponseSent := doc.ResponseSent.getD calc_.ResponseSent
    ResponseTime := doc.ResponseTime.getD calc_.ResponseTime
    Duration := doc.Duration.getD calc_.Duration
    Num1 := doc.Num1.getD calc_.Num1
    Num2 := doc.Num2.getD calc_.Num2
    Response := doc.Response.getD calc_.Response }

/-! ## The handlers

The documents are those `Find` gives, in the reverse of their natural order; `none` stands for the nil cursor that
is left when it fails. -/

/-- The loop of `All`. -/
def allLoop : List Document → Calculation → Slice Calculation → Slice Calculation
  | [], _, results => results
  | doc :: docs, calc_, results =>
      let calc_ := doc.Decode calc_
      if doc.fails then allLoop docs calc_ results else allLoop docs calc_ (results.append calc_)

/-- `GET /api/`. -/
def All : Option (List Document) → Except Panic Json
  | none      => .error .nilPointer
  | some docs => .ok ((allLoop docs .zero .nil).encode Calculation.json)

/-- The loop of `Page`. -/
def pageLoop (end_ : Int) : List Document → Int → Calculation → Slice Calculation → Int × Slice Calculation
  | [], i, _, results => (i, results)
  | doc :: docs, i, calc_, results =>
      if i < end_ then
        let calc_ := doc.Decode calc_
        if doc.fails then pageLoop end_ docs i calc_ results
        else pageLoop end_ docs (i + 1) calc_ (results.append calc_)
      else (i, results)

/-- The two integers of the path; what does not parse counts as 0. -/
def parameter (segment : String) : Int := (Atoi segment).getD 0

/-- `GET /api/{start}/{end}`. -/
def Page (find : Option (List Document)) (start end_ : String) : Except Panic Json := do
  let start := parameter start
  let end_ := parameter end_
  let (i, results) ← match find with
    | none      => if 0 < end_ then .error .nilPointer else .ok (0, .nil)
    | some docs => .ok (pageLoop end_ docs 0 .zero .nil)
  -- limit end so it does not go out of bounds
  let end_ := i
  -- limit start so we are sure to get a valid slice
  let start := if end_ < start then end_ else start
  return (← results.slice start end_).encode Calculation.json

/-! ## What the loops collect

Both loops keep one variable for all documents. What they collect is `decoded`, the variable after each document that
was decoded, and `Page` stops in the middle of it. -/

/-- The results of a list of documents, decoded one after the other into `calc`. -/
def decoded : List Document → Calculation → List Calculation
  | [], _ => []
  | doc :: docs, calc_ =>
      let calc_ := doc.Decode calc_
      if doc.fails then decoded docs calc_ else calc_ :: decoded docs calc_

theorem decoded_cons (doc : Document) (docs : List Document) (calc_ : Calculation) :
    decoded (doc :: docs) calc_ =
      if doc.fails then decoded docs (doc.Decode calc_)
      else doc.Decode calc_ :: decoded docs (doc.Decode calc_) := rfl

/-- There is no result exactly when every document fails. -/
theorem decoded_eq_nil {docs : List Document} {calc_ : Calculation} :
    decoded docs calc_ = [] ↔ ∀ doc ∈ docs, doc.fails = true := by
  induction docs generalizing calc_ with
  | nil => simp [decoded]
  | cons doc docs ih => cases hf : doc.fails <;> simp [decoded_cons, hf, ih]

theorem allLoop_eq (docs : List Document) (calc_ : Calculation) (results : Slice Calculation) :
    allLoop docs calc_ results = (decoded docs calc_).foldl Slice.append results := by
  induction docs generalizing calc_ results with
  | nil => rfl
  | cons doc docs ih =>
      rw [allLoop, decoded_cons]
      cases hf : doc.fails with
      | true => simp only [if_true, ih]
      | false => simp only [Bool.false_eq_true, if_false, ih, List.foldl_cons]

/-- **`Page` collects the first `end` results of `All`.** -/
theorem pageLoop_eq (end_ : Int) (docs : List Document) (i : Int) (calc_ : Calculation)
    (results : Slice Calculation) :
    pageLoop end_ docs i calc_ results =
      (i + ((decoded docs calc_).take (end_ - i).toNat).length,
        ((decoded docs calc_).take (end_ - i).toNat).foldl Slice.append results) := by
  induction docs generalizing i calc_ results with
  | nil => simp [pageLoop, decoded]
  | cons doc docs ih =>
      rw [pageLoop, decoded_cons]
      by_cases hi : i < end_
      · rw [if_pos hi]
        cases hf : doc.fails with
        | true => simp only [if_true, ih]
        | false =>
            have hn : (end_ - i).toNat = (end_ - (i + 1)).toNat + 1 := by omega
            simp only [Bool.false_eq_true, if_false, ih, hn, List.take_succ_cons, List.foldl_cons,
              List.length_cons, Nat.cast_add, Nat.cast_one]
            rw [Int.add_assoc, Int.add_comm 1]
      · have hn : (end_ - i).toNat = 0 := by omega
        rw [if_neg hi, hn]
        simp

/-! ## The response of `Page`

The slice is right wherever it is taken. What is left is whether taking it panics, and whether a nil slice is written
as `null`. -/

/-- The elements of a list at the positions `p` with `max low 0 ≤ p` and `p < high`. -/
def positions {α : Type} (low high : Int) (l : List α) : List α :=
  (l.zipIdx.filter fun (_, p) => max low 0 ≤ p ∧ p < high).map Prod.fst

theorem filter_zipIdx {α : Type} (low high : Nat) (l : List α) (k : Nat) :
    ((l.zipIdx k).filter fun (_, p) => low ≤ p ∧ p < high).map Prod.fst =
      (l.take (high - k)).drop (low - k) := by
  induction l generalizing k with
  | nil => simp
  | cons x l ih =>
      rw [List.zipIdx_cons, List.filter_cons]
      by_cases hhigh : k < high
      · have hh : high - k = high - (k + 1) + 1 := by omega
        by_cases hlow : low ≤ k
        · have h0 : low - k = 0 := by omega
          have h1 : low - (k + 1) = 0 := by omega
          simp only [hlow, hhigh, and_self, decide_true, if_true, List.map_cons, ih, h0, h1, hh,
            List.take_succ_cons, List.drop_zero]
        · have hl : low - k = low - (k + 1) + 1 := by omega
          simp only [hlow, false_and, decide_false, Bool.false_eq_true, if_false, ih, hl, hh,
            List.take_succ_cons, List.drop_succ_cons]
      · have h0 : high - k = 0 := by omega
        have h1 : high - (k + 1) = 0 := by omega
        simp only [hhigh, and_false, decide_false, Bool.false_eq_true, if_false, ih, h0, h1, List.take_zero,
          List.drop_nil]

theorem positions_eq {α : Type} (low high : Int) (l : List α) :
    positions low high l = (l.take high.toNat).drop low.toNat := by
  have h := filter_zipIdx low.toNat high.toNat l 0
  rw [Nat.sub_zero, Nat.sub_zero] at h
  rw [← h, positions]
  congr 2
  funext x
  have hiff : (max low 0 ≤ (x.2 : Int) ∧ (x.2 : Int) < high) ↔ (low.toNat ≤ x.2 ∧ x.2 < high.toNat) := by omega
  exact decide_eq_decide.mpr hiff

/-- The elements of a JSON array. -/
def elements : Json → List Json
  | .array xs => xs
  | _         => []

theorem elements_encode (s : Slice Calculation) :
    elements (s.encode Calculation.json) = s.elements.map Calculation.json := by
  cases s <;> rfl

/-- `Page` responds with the array of those elements of `All`'s response that stand from `start` on and before
    `end`. -/
def Responds (docs : List Document) (start end_ : String) : Prop :=
  ∃ body, All (some docs) = .ok body ∧
    Page (some docs) start end_ = .ok (.array (positions (parameter start) (parameter end_) (elements body)))

/-- The results `Page` collects. -/
def collected (docs : List Document) (end_ : String) : List Calculation :=
  (decoded docs .zero).take (parameter end_).toNat

section
variable {docs : List Document} {start end_ : String}

theorem collected_eq_nil :
    collected docs end_ = [] ↔ parameter end_ ≤ 0 ∨ ∀ doc ∈ docs, doc.fails = true := by
  rw [collected, List.take_eq_nil_iff, decoded_eq_nil, Int.toNat_eq_zero]

/-- `Page` as the slice of the results it collects. -/
theorem page_eq : Page (some docs) start end_ =
    (((collected docs end_).foldl Slice.append .nil).slice
      (if ((collected docs end_).length : Int) < parameter start then (collected docs end_).length
        else parameter start)
      (collected docs end_).length).map (Slice.encode Calculation.json) := by
  have hloop : pageLoop (parameter end_) docs 0 .zero .nil =
      (((collected docs end_).length : Int), (collected docs end_).foldl Slice.append .nil) := by
    rw [pageLoop_eq, Int.sub_zero, Int.zero_add, collected]
  simp only [Page, hloop]
  show (Slice.slice _ _ _).bind _ = _
  cases Slice.slice _ _ _ <;> rfl

/-- A negative `start` is below every bound, and stays. -/
theorem page_of_neg (h : parameter start < 0) : Page (some docs) start end_ = .error .sliceBounds := by
  rw [page_eq, if_neg (by omega), Slice.slice_of_neg h]
  rfl

/-- No result leaves the slice nil. -/
theorem page_of_nil (h0 : 0 ≤ parameter start) (hnil : collected docs end_ = []) :
    Page (some docs) start end_ = .ok .null := by
  have hstart : (if (0 : Int) < parameter start then 0 else parameter start) = 0 := by
    split <;> omega
  rw [page_eq, hnil, List.length_nil, Nat.cast_zero, hstart, List.foldl_nil, Slice.slice_nil_zero]
  rfl

theorem page_of_ne_nil (h0 : 0 ≤ parameter start) (hne : collected docs end_ ≠ []) :
    Page (some docs) start end_ =
      .ok (.array (((collected docs end_).drop (parameter start).toNat).map Calculation.json)) := by
  rw [page_eq, Slice.foldl_append, if_neg hne, Slice.elements, List.nil_append,
    Slice.slice_of (by split <;> omega) (by split <;> omega) (by omega), Int.toNat_natCast, List.take_length]
  split
  · rename_i hlt
    rw [Int.toNat_natCast, List.drop_length, List.drop_eq_nil_of_le (by omega)]
    rfl
  · rfl

/-- What `Page` should respond with, by the results it collects. -/
theorem responds_iff : Responds docs start end_ ↔ Page (some docs) start end_ =
    .ok (.array (((collected docs end_).drop (parameter start).toNat).map Calculation.json)) := by
  have hbody : All (some docs) = .ok ((allLoop docs .zero .nil).encode Calculation.json) := rfl
  have hpos : positions (parameter start) (parameter end_)
      (elements ((allLoop docs .zero .nil).encode Calculation.json)) =
        ((collected docs end_).drop (parameter start).toNat).map Calculation.json := by
    rw [elements_encode, allLoop_eq, Slice.elements_foldl_append, Slice.elements, List.nil_append, positions_eq,
      collected, List.map_drop, List.map_take]
  constructor
  · rintro ⟨body, hall, hpage⟩
    cases hbody.symm.trans hall
    rw [hpage, hpos]
  · intro hpage
    exact ⟨_, hbody, by rw [hpage, hpos]⟩

end

/-- **`Page` responds as it should exactly when `start` is not negative and there is a result to write:** `end` is
    at least 1, and some document decodes. -/
theorem page_responds_iff (docs : List Document) (start end_ : String) :
    Responds docs start end_ ↔
      0 ≤ parameter start ∧ 1 ≤ parameter end_ ∧ ∃ doc ∈ docs, doc.fails = false := by
  have hresult : collected docs end_ ≠ [] ↔ 1 ≤ parameter end_ ∧ ∃ doc ∈ docs, doc.fails = false := by
    rw [Ne, collected_eq_nil, not_or, Int.not_le]
    simp only [not_forall, Bool.not_eq_true, exists_prop]
    exact Iff.rfl
  rw [responds_iff, ← hresult]
  by_cases h0 : 0 ≤ parameter start
  · by_cases hnil : collected docs end_ = []
    · simp [page_of_nil h0 hnil, hnil]
    · simp [page_of_ne_nil h0 hnil, h0, hnil]
  · simp [page_of_neg (Int.not_le.mp h0), h0]

/-- A collection of one document, and the page from -1 on. -/
theorem not_always_responds : ¬ ∀ docs start end_, Responds docs start end_ := by
  intro h
  obtain ⟨body, -, hpage⟩ := h
    [{ ID := some 1, CalType := some 0, RequestTime := some "", ResponseSent := some false,
       ResponseTime := none, Duration := none, Num1 := some 1, Num2 := some 2, Response := none, fails := false }]
    "-1" "1"
  have hneg : parameter "-1" < 0 := by decide +kernel
  rw [page_of_neg hneg] at hpage
  cases hpage

end NewOrbit.LogServer
