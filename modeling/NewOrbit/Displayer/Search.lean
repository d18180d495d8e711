import NewOrbit.Displayer.Responses
import NewOrbit.Lib.Machine
import NewOrbit.Lib.Url

/-!
# `Displayer.Search` — the filters that the requests of the bond list carry

`AllBonds` hands its filters object to `Search`, which takes it as its own state and writes every edit into it. Both
states keep referring to that one object (`Shared`), and setting a state to the object it holds already changes
nothing. So the next request carries the texts in the fields, applied or not: after Apply these are the applied
ones, and when a page is turned they are only if nothing was edited since.

`getAllBonds` splices the texts into the URL as they are. A text with an ampersand, a number sign, a plus or a percent
sign is read as something else, and so the result is about requests whose texts have none of these
(`carries_applied_iff`).
-/

namespace NewOrbit.Displayer.Search
open Js Machine

inductive Field where
  | longDes
  | initialISIN
  | pageSize
  deriving DecidableEq, Repr

def Field.name : Field → List Char
  | .longDes     => "longDes".toList
  | .initialISIN => "initialISIN".toList
  | .pageSize    => "pageSize".toList

structure Filters where
  longDes : List Char
  initialISIN : List Char
  pageSize : Value
  deriving DecidableEq

namespace Filters

def initial : Filters := { longDes := [], initialISIN := [], pageSize := .number (.finite 15) }

/-- `filters[name] = value` -/
def set (f : Filters) (name : Field) (value : List Char) : Filters :=
  match name with
  | .longDes     => { f with longDes := value }
  | .initialISIN => { f with initialISIN := value }
  | .pageSize    => { f with pageSize := .string value }

/-- The parameters of a query, each with its text. -/
def params (f : Filters) : Option (List (Field × List Char)) :=
  (toText f.pageSize).map fun pageSize =>
    [(.longDes, f.longDes), (.initialISIN, f.initialISIN), (.pageSize, pageSize)]

end Filters

/-- `n > 0`. A literal of at most half the least double above zero reads as zero. -/
def positive : Number → Bool
  | .nan               => false
  | .infinity negative => !negative
  | .finite q          => 1 / 2 ^ 1075 < q

/-- `input.length` -/
def length (input : List Char) : ℕ := (codeUnits input).length

/-- The rules of `Search`, for the fields that have one. -/
def rules : Field → Option (List Char → Bool)
  | .longDes     => none
  | .initialISIN => some fun inputISIN => length inputISIN = 2 || length inputISIN = 0
  | .pageSize    => some fun inputPageSize =>
      !isNaN (.string inputPageSize) && positive (toNumber (.string inputPageSize))

/-- What the loop over the filters makes of them. -/
def queryText (params : List (Field × List Char)) : List Char :=
  params.flatMap fun param => '&' :: param.1.name ++ '=' :: param.2

/-- The three texts that make up the URL; `none` for a number whose text is beyond `Lib.Js`. -/
structure Request where
  startIndex : Option (List Char)
  endIndex : Option (List Char)
  query : Option (List Char)
  deriving DecidableEq

abbrev Ref := ℕ

/-- `AllBonds` with its `Search`. Each of the two has a reference to a filters object for its state. -/
structure BondList (Bond : Type) where
  view : AllBonds Bond
  objects : Ref → Filters
  parent : Ref
  filters : Ref
  iSINError : String
  pageSizeError : String
  submissionAlert : Option String
  dialogOpen : Bool

/-- What the user does, each at any time, and the responses that arrive. -/
inductive Action (Bond : Type) where
  | handleClickOpen
  | changeFilter (name : Field) (value : List Char)
  | handleApply
  | handleClose
  | nextPage
  | prevPage
  | respond (data : Option (List Bond))

variable {Bond : Type}

namespace BondList

def initial : BondList Bond where
  view := AllBonds.initial
  objects _ := Filters.initial
  parent := 0
  filters := 0
  iSINError := ""
  pageSizeError := ""
  submissionAlert := none
  dialogOpen := false

/-- The request for the page that is shown. -/
def getAllBonds (s : BondList Bond) : Request :=
  let filters := s.objects s.parent
  { startIndex := (mul (.number (.finite s.view.page)) filters.pageSize).bind toText
    endIndex := ((mul (.number (.finite (s.view.page + 1))) filters.pageSize).bind
      fun n => add n (.number (.finite (-1)))).bind toText
    query := filters.params.map queryText }

/-- `setISINError` or `setpageSizeError`, after the name of the field. -/
def setError (s : BondList Bond) (name : Field) (iSINError pageSizeError : String) : BondList Bond :=
  match name with
  | .longDes     => s
  | .initialISIN => { s with iSINError := iSINError }
  | .pageSize    => { s with pageSizeError := pageSizeError }

/-- `newFilters` is the object itself, so that setting the state to it changes nothing. -/
def changeFilter (s : BondList Bond) (name : Field) (value : List Char) : BondList Bond :=
  let newFilters := s.filters
  let s := { s with objects := Function.update s.objects newFilters ((s.objects newFilters).set name value) }
  let s := match rules name with
    | some rule =>
        if rule value then s.setError name "" ""
        else s.setError name "Please enter 2 characters" "Please enter a positive number"
    | none => s
  { s with filters := newFilters }

def handleApply (s : BondList Bond) : BondList Bond × Option Request :=
  if s.iSINError.length = 0 ∧ s.pageSizeError.length = 0 then
    let s := { s with parent := s.filters }
    ({ s with submissionAlert := none, dialogOpen := false }, some s.getAllBonds)
  else ({ s with submissionAlert := some "Enter all fields correctly" }, none)

/-- The effect of `AllBonds`: a new page is asked for. -/
def showPage (s : BondList Bond) (view : AllBonds Bond) : BondList Bond × Option Request :=
  let s' := { s with view := view }
  (s', if view.page = s.view.page then none else some s'.getAllBonds)

/-- A step of the user, or a response that arrives, with the request that is sent. -/
def step (s : BondList Bond) : Action Bond → BondList Bond × Option Request
  | .handleClickOpen         => ({ s with dialogOpen := true }, none)
  | .changeFilter name value => (s.changeFilter name value, none)
  | .handleApply             => s.handleApply
  | .handleClose             => ({ s with dialogOpen := false }, none)
  | .nextPage                => s.showPage s.view.nextPage
  | .prevPage                => s.showPage s.view.prevPage
  | .respond data            => s.showPage { s.view with bonds := retrieved data }

def run (tr : List (Action Bond)) : BondList Bond := tr.foldl (fun s a => (s.step a).1) initial

end BondList

/-! ## What is asked for

The URL is spliced together from the address, two indices and the texts of the filters. Where the indices are not
computed here, it may be any with the characters of a number in their places. -/

def address : List Char :=
  "http://instrument-server-new-orbit-helen.e4ff.pro-eu-west-1.openshiftapps.com/api/filter".toList

/-- The text of an index: the one computed, or where `Lib.Js` computes none that of some number. -/
def Prints (computed : Option (List Char)) (t : List Char) : Prop :=
  (∀ s, computed = some s → t = s) ∧ ∀ c ∈ t, c ∈ numberChars

/-- The URL that the request may ask for. -/
def Request.IsUrl (r : Request) (url : List Char) : Prop :=
  ∃ startIndex endIndex query, Prints r.startIndex startIndex ∧ Prints r.endIndex endIndex ∧ r.query = some query ∧
    url = address ++ "?startIndex=".toList ++ startIndex ++ "&endIndex=".toList ++ endIndex ++ query

/-! ## What was typed, and what was applied

The history has two sets of texts, kept by the rules of the form and without any object of the component. What was
applied last has met the rules, whatever was typed since (`valid_applied`). -/

/-- The rules of `Search`, on all fields. -/
structure Filters.Valid (f : Filters) : Prop where
  initialISIN : length f.initialISIN = 0 ∨ length f.initialISIN = 2
  pageSize : positive (toNumber f.pageSize) = true

instance (f : Filters) : Decidable f.Valid :=
  decidable_of_iff (_ ∧ _) ⟨fun h => ⟨h.1, h.2⟩, fun h => ⟨h.initialISIN, h.pageSize⟩⟩

/-- The texts in the fields, and those of the last Apply that found them valid. -/
structure History where
  typed : Filters
  applied : Filters

namespace History

def next (h : History) : Action Bond → History
  | .changeFilter name value => { h with typed := h.typed.set name value }
  | .handleApply             => if h.typed.Valid then { h with applied := h.typed } else h
  | _                        => h

def after (tr : List (Action Bond)) : History := tr.foldl next ⟨.initial, .initial⟩

theorem after_snoc (tr : List (Action Bond)) (a : Action Bond) : after (tr ++ [a]) = (after tr).next a :=
  List.foldl_concat ..

/-- What was applied has met the rules, whatever was typed since. -/
theorem valid_applied (tr : List (Action Bond)) : (after tr).applied.Valid := by
  induction tr using List.reverseRecOn with
  | nil =>
      refine ⟨Or.inl rfl, ?_⟩
      show decide ((1 : ℚ) / 2 ^ 1075 < 15) = true
      rw [decide_eq_true_iff]
      calc (1 : ℚ) / 2 ^ 1075 ≤ 1 := div_le_one_of_le₀ (one_le_pow₀ one_le_two) (by positivity)
        _ < 15 := by norm_num
  | append_singleton tr a ih =>
      rw [after_snoc]
      cases a with
      | handleApply =>
          show Filters.Valid (if _ then _ else _ : History).applied
          split
          · rename_i hvalid
            exact hvalid
          · exact ih
      | _ => exact ih

end History

/-! ## One object

The step lemma says that both states hold the one object, with what was typed in it, after every action. The two
errors are part of it, since `handleApply` looks at nothing else. -/

/-- Both states refer to one object, which holds what was typed, and the errors say which of it meets the rules. -/
structure Shared (h : History) (s : BondList Bond) : Prop where
  parent : s.parent = s.filters
  typed : s.objects s.filters = h.typed
  iSINError : s.iSINError.length = 0 ↔ length h.typed.initialISIN = 0 ∨ length h.typed.initialISIN = 2
  pageSizeError : s.pageSizeError.length = 0 ↔ positive (toNumber h.typed.pageSize) = true

theorem Shared.valid_iff {h : History} {s : BondList Bond} (hs : Shared h s) :
    (s.iSINError.length = 0 ∧ s.pageSizeError.length = 0) ↔ h.typed.Valid := by
  rw [hs.iSINError, hs.pageSizeError]
  exact ⟨fun hv => ⟨hv.1, hv.2⟩, fun hv => ⟨hv.initialISIN, hv.pageSize⟩⟩

/-- The request for a page is made of what was typed. -/
theorem Shared.query_eq {h : History} {s : BondList Bond} (hs : Shared h s) :
    s.getAllBonds.query = h.typed.params.map queryText := by
  show (s.objects s.parent).params.map queryText = _
  rw [hs.parent, hs.typed]

theorem rule_pageSize (value : List Char) :
    (!isNaN (.string value) && positive (toNumber (.string value))) = positive (toNumber (.string value)) := by
  rw [isNaN]
  cases toNumber (.string value) <;> simp [positive]

theorem shared_changeFilter {h : History} {s : BondList Bond} (hs : Shared h s) (name : Field) (value : List Char) :
    Shared { h with typed := h.typed.set name value } (s.changeFilter name value) := by
  have hobject : Function.update s.objects s.filters ((s.objects s.filters).set name value) s.filters =
      h.typed.set name value := by
    rw [Function.update_self, hs.typed]
  cases name with
  | longDes => exact ⟨hs.parent, hobject, hs.iSINError, hs.pageSizeError⟩
  | initialISIN =>
      have hrule : (length value = 2 || length value = 0) = true ↔ length value = 0 ∨ length value = 2 := by
        simp [or_comm]
      simp only [BondList.changeFilter, rules, BondList.setError]
      split
      · rename_i h2
        exact ⟨hs.parent, hobject, iff_of_true rfl (hrule.mp h2), hs.pageSizeError⟩
      · rename_i h2
        exact ⟨hs.parent, hobject, iff_of_false (by simp) (mt hrule.mpr h2), hs.pageSizeError⟩
  | pageSize =>
      simp only [BondList.changeFilter, rules, BondList.setError, rule_pageSize]
      split
      · rename_i hpos
        exact ⟨hs.parent, hobject, hs.iSINError, iff_of_true rfl hpos⟩
      · rename_i hpos
        exact ⟨hs.parent, hobject, hs.iSINError, iff_of_false (by simp) hpos⟩

theorem shared_handleApply {h : History} {s : BondList Bond} (hs : Shared h s) :
    Shared (h.next (.handleApply : Action Bond)) s.handleApply.1 := by
  have htyped : (h.next (.handleApply : Action Bond)).typed = h.typed := by
    show History.typed (if _ then _ else _) = _
    split <;> rfl
  unfold BondList.handleApply
  split
  · exact ⟨rfl, hs.typed.trans htyped.symm, htyped ▸ hs.iSINError, htyped ▸ hs.pageSizeError⟩
  · exact ⟨hs.parent, hs.typed.trans htyped.symm, htyped ▸ hs.iSINError, htyped ▸ hs.pageSizeError⟩

theorem shared_step {h : History} {s : BondList Bond} (hs : Shared h s) (a : Action Bond) :
    Shared (h.next a) (s.step a).1 := by
  cases a with
  | changeFilter name value => exact shared_changeFilter hs name value
  | handleApply => exact shared_handleApply hs
  | _ => exact ⟨hs.parent, hs.typed, hs.iSINError, hs.pageSizeError⟩

theorem run_snoc (tr : List (Action Bond)) (a : Action Bond) :
    BondList.run (tr ++ [a]) = ((BondList.run tr).step a).1 := List.foldl_concat ..

theorem shared_run (tr : List (Action Bond)) : Shared (History.after tr) (BondList.run tr) := by
  induction tr using List.reverseRecOn with
  | nil =>
      have hvalid : Filters.initial.Valid := History.valid_applied ([] : List (Action Bond))
      exact ⟨rfl, rfl, iff_of_true rfl hvalid.initialISIN, iff_of_true rfl hvalid.pageSize⟩
  | append_singleton tr a ih =>
      rw [History.after_snoc, run_snoc]
      exact shared_step ih a

/-! ## The requests

A request is made of the texts in the fields. Where these are plain the server reads them as they are, so that it is
told the filters applied last exactly if the texts are theirs.
-/

/-- The server is told the filters, behind the two indices, and they meet the rules. -/
def Carries (r : Request) (f : Filters) : Prop :=
  f.Valid ∧ ∃ params, f.params = some params ∧ ∀ url, r.IsUrl url →
    (Url.params url).map (·.drop 2) = some (params.map fun param => (Url.utf8 param.1.name, Url.utf8 param.2))

/-- The texts stand for themselves in a URL, and the last one is not cut. -/
structure Filters.Plain (f : Filters) : Prop where
  longDes : ∀ c ∈ f.longDes, Url.Plain c
  initialISIN : ∀ c ∈ f.initialISIN, Url.Plain c
  pageSize : ∃ t, toText f.pageSize = some t ∧ (∀ c ∈ t, Url.Plain c) ∧ ∀ c ∈ t.getLast?, Url.isEdge c = false

theorem isAddress_address : Url.IsAddress address where
  first c hc := by
    have hhead : address.head? = some 'h' := by decide +kernel
    obtain rfl : 'h' = c := Option.some.inj (hhead.symm.trans hc)
    decide
  ne_nil := by decide
  safe := Url.forall_mem_of_all (by decide +kernel)

theorem safe_numberChars : ∀ c ∈ numberChars, Url.Safe c ∧ c ≠ '%' := Url.forall_mem_of_all (by decide +kernel)

theorem plain_names : ∀ name ∈ ["startIndex".toList, "endIndex".toList, Field.longDes.name, Field.initialISIN.name,
    Field.pageSize.name], ∀ c ∈ name, Url.Plain c ∧ c ≠ '=' := by
  have hall : ∀ name ∈ ["startIndex".toList, "endIndex".toList, Field.longDes.name, Field.initialISIN.name,
      Field.pageSize.name], name.all (fun c => Url.Plain c ∧ c ≠ '=') = true := by
    simp only [List.forall_mem_cons]
    decide +kernel
  exact fun name hname => Url.forall_mem_of_all (hall name hname)

/-- The filters of a run on fixed texts are checked text by text. -/
theorem Filters.plain_of_all {f : Filters} {t : List Char} {d : Char} (hlongDes : f.longDes.all (Url.Plain ·) = true)
    (hinitialISIN : f.initialISIN.all (Url.Plain ·) = true) (htext : toText f.pageSize = some t)
    (hpageSize : t.all (Url.Plain ·) = true) (hlast : t.getLast? = some d) (hedge : Url.isEdge d = false) :
    f.Plain where
  longDes := Url.forall_mem_of_all hlongDes
  initialISIN := Url.forall_mem_of_all hinitialISIN
  pageSize := by
    refine ⟨t, htext, Url.forall_mem_of_all hpageSize, ?_⟩
    intro c hc
    obtain rfl : d = c := Option.some.inj (hlast.symm.trans hc)
    exact hedge

/-- **Plain texts are read as they are**, whatever the indices. -/
theorem params_of_isUrl {f : Filters} (hf : f.Plain) {params : List (Field × List Char)}
    (hparams : f.params = some params) {r : Request} (hquery : r.query = some (queryText params)) {url : List Char}
    (hurl : r.IsUrl url) : (Url.params url).map (·.drop 2)
      = some (params.map fun param => (Url.utf8 param.1.name, Url.utf8 param.2)) := by
  obtain ⟨startIndex, endIndex, query, hstart, hend, hquery', rfl⟩ := hurl
  obtain ⟨pageSize, htext, hpageSize, hlast⟩ := hf.pageSize
  obtain rfl : query = queryText params := Option.some.inj (hquery'.symm.trans hquery)
  obtain rfl : params = [(.longDes, f.longDes), (.initialISIN, f.initialISIN), (.pageSize, pageSize)] := by
    rw [Filters.params, htext] at hparams
    exact (Option.some.inj hparams).symm
  let parts : List (List Char × List Char) :=
    [("startIndex".toList, startIndex), ("endIndex".toList, endIndex), (Field.longDes.name, f.longDes),
      (Field.initialISIN.name, f.initialISIN), (Field.pageSize.name, pageSize)]
  have hurl : address ++ "?startIndex=".toList ++ startIndex ++ "&endIndex=".toList ++ endIndex
      ++ queryText [(.longDes, f.longDes), (.initialISIN, f.initialISIN), (.pageSize, pageSize)]
        = address ++ '?' :: ['&'].intercalate (parts.map Url.part) := by
    simp [parts, queryText, Url.part, List.intercalate, List.append_assoc]
  have hnames : ∀ p ∈ parts, ∀ c ∈ p.1, Url.Plain c ∧ c ≠ '=' := by
    intro p hp
    exact plain_names p.1 (by simpa [parts] using List.mem_map_of_mem (f := Prod.fst) hp)
  have hvalues : ∀ p ∈ parts, ∀ c ∈ p.2, Url.Safe c := by
    simp only [parts, List.forall_mem_cons, List.not_mem_nil, false_imp_iff, implies_true, and_true]
    exact ⟨fun c hc => (safe_numberChars c (hstart.2 c hc)).1, fun c hc => (safe_numberChars c (hend.2 c hc)).1,
      fun c hc => (hf.longDes c hc).1, fun c hc => (hf.initialISIN c hc).1, fun c hc => (hpageSize c hc).1⟩
  obtain ⟨first, hfirst⟩ := Option.isSome_iff_exists.mp
    (Url.decode_isSome fun hmem => (safe_numberChars _ (hstart.2 _ hmem)).2 rfl)
  obtain ⟨second, hsecond⟩ := Option.isSome_iff_exists.mp
    (Url.decode_isSome fun hmem => (safe_numberChars _ (hend.2 _ hmem)).2 rfl)
  rw [hurl, Url.params_eq isAddress_address hnames hvalues rfl hlast]
  simp [parts, hfirst, hsecond, Url.decode_plain hf.longDes, Url.decode_plain hf.initialISIN,
    Url.decode_plain hpageSize]

/-- What is computed from numbers has the text of a number. -/
theorem mem_of_toText_bind {v : Option Value} (hv : ∀ w ∈ v, ∃ n, w = .number n) {s : List Char}
    (h : v.bind toText = some s) : ∀ c ∈ s, c ∈ numberChars := by
  obtain ⟨w, hw, hs⟩ := Option.bind_eq_some_iff.mp h
  obtain ⟨n, rfl⟩ := hv w hw
  exact mem_numberChars hs

theorem exists_prints {v : Option Value} (hv : ∀ w ∈ v, ∃ n, w = .number n) : ∃ t, Prints (v.bind toText) t := by
  cases h : v.bind toText with
  | none => exact ⟨[], nofun, nofun⟩
  | some s => exact ⟨s, fun _ heq => Option.some.inj heq, mem_of_toText_bind hv h⟩

/-- There is a URL for the request of a page, where the page size has a text. -/
theorem exists_isUrl (s : BondList Bond) {query : List Char} (hquery : s.getAllBonds.query = some query) :
    ∃ url, s.getAllBonds.IsUrl url := by
  have hmul : ∀ a b, ∀ w ∈ mul a b, ∃ n, w = .number n := by
    intro a b w hw
    obtain ⟨n, _, rfl⟩ := Option.map_eq_some_iff.mp hw
    exact ⟨n, rfl⟩
  have hadd : ∀ a b, ∀ w ∈ (mul a b).bind fun n => add n (.number (.finite (-1))), ∃ n, w = .number n := by
    intro a b w hw
    obtain ⟨v, hv, hw⟩ := Option.bind_eq_some_iff.mp hw
    obtain ⟨n, rfl⟩ := hmul a b v hv
    obtain ⟨m, _, rfl⟩ := Option.map_eq_some_iff.mp hw
    exact ⟨m, rfl⟩
  obtain ⟨startIndex, hstart⟩ := exists_prints (hmul (.number (.finite s.view.page)) (s.objects s.parent).pageSize)
  obtain ⟨endIndex, hend⟩ := exists_prints (hadd (.number (.finite (s.view.page + 1))) (s.objects s.parent).pageSize)
  exact ⟨_, startIndex, endIndex, query, hstart, hend, hquery, rfl⟩

theorem name_injective : Function.Injective Field.name := by
  intro a b h
  revert h
  cases a <;> cases b <;> decide

/-- **A request carries the filters whose texts are in the fields**, where these are plain. -/
theorem carries_iff {h : History} {s : BondList Bond} (hs : Shared h s) (hplain : h.typed.Plain) {f : Filters}
    (hf : f.Valid) : Carries s.getAllBonds f ↔ h.typed.params = f.params := by
  obtain ⟨pageSize, htext, _⟩ := hplain.pageSize
  obtain ⟨params, hparams⟩ : ∃ params, h.typed.params = some params := ⟨_, by rw [Filters.params, htext]; rfl⟩
  have hquery : s.getAllBonds.query = some (queryText params) := by rw [hs.query_eq, hparams, Option.map_some]
  have hread : ∀ url, s.getAllBonds.IsUrl url → (Url.params url).map (·.drop 2)
      = some (params.map fun param => (Url.utf8 param.1.name, Url.utf8 param.2)) :=
    fun _ hurl => params_of_isUrl hplain hparams hquery hurl
  constructor
  · rintro ⟨_, params', hparams', hcarries⟩
    obtain ⟨url, hurl⟩ := exists_isUrl s hquery
    have hsame := Option.some.inj ((hread url hurl).symm.trans (hcarries url hurl))
    have hinjective : Function.Injective fun param : Field × List Char =>
        (Url.utf8 param.1.name, Url.utf8 param.2) := by
      intro a b hab
      obtain ⟨hname, htext⟩ := Prod.mk.inj hab
      exact Prod.ext (name_injective (Url.utf8_injective hname)) (Url.utf8_injective htext)
    rw [hparams, hparams', List.map_injective_iff.mpr hinjective hsame]
  · intro hsame
    exact ⟨hf, params, hsame.symm.trans hparams, hread⟩

/-- The page is turned: there is something on it to go on from, or a page before it. -/
def Turns (s : BondList Bond) : Action Bond → Prop
  | .nextPage => 0 < s.view.bonds.length
  | .prevPage => 0 < s.view.page
  | _         => False

/-- A request is sent: a page is turned, or Apply finds no error. -/
def Asks (s : BondList Bond) : Action Bond → Prop
  | .handleApply => s.iSINError.length = 0 ∧ s.pageSizeError.length = 0
  | a            => Turns s a

/-- The request of a new page carries what was typed. -/
theorem carries_showPage_iff {h : History} {s : BondList Bond} (hs : Shared h s) (hv : h.applied.Valid)
    (hplain : h.typed.Plain) {view : AllBonds Bond} (hpage : view.page ≠ s.view.page) :
    (∀ r, (s.showPage view).2 = some r → Carries r h.applied) ↔ h.typed.params = h.applied.params := by
  have hs' : Shared h ({ s with view := view } : BondList Bond) := ⟨hs.parent, hs.typed, hs.iSINError, hs.pageSizeError⟩
  simp only [BondList.showPage, if_neg hpage, Option.some.injEq, forall_eq']
  exact carries_iff hs' hplain hv

theorem no_request_showPage (s : BondList Bond) {view : AllBonds Bond} (hpage : view.page = s.view.page) :
    (s.showPage view).2 = none := if_pos hpage

/-- **The requests of one step.** -/
theorem carries_step_iff {h : History} {s : BondList Bond} (hs : Shared h s) (hv : h.applied.Valid)
    (a : Action Bond) (hplain : Asks s a → h.typed.Plain) :
    (∀ r, (s.step a).2 = some r → Carries r (h.next a).applied) ↔ (Turns s a → h.typed.params = h.applied.params) := by
  cases a with
  | handleApply =>
      refine iff_of_true (fun r hr => ?_) (fun hturn => hturn.elim)
      change s.handleApply.2 = some r at hr
      unfold BondList.handleApply at hr
      split at hr
      · rename_i herrors
        have hvalid := hs.valid_iff.mp herrors
        obtain rfl := Option.some.inj hr
        show Carries _ (if h.typed.Valid then { h with applied := h.typed } else h).applied
        rw [if_pos hvalid]
        have hs' : Shared h { s with parent := s.filters } := ⟨rfl, hs.typed, hs.iSINError, hs.pageSizeError⟩
        exact (carries_iff hs' (hplain herrors) hvalid).mpr rfl
      · cases hr
  | nextPage =>
      show (∀ r, (s.showPage s.view.nextPage).2 = some r → Carries r h.applied) ↔ _
      by_cases hturn : 0 < s.view.bonds.length
      · have hpage : s.view.nextPage.page ≠ s.view.page := by
          simp [AllBonds.nextPage, hturn]
        rw [carries_showPage_iff hs hv (hplain hturn) hpage]
        exact ⟨fun h _ => h, fun h => h hturn⟩
      · have hpage : s.view.nextPage.page = s.view.page := by
          simp [AllBonds.nextPage, hturn]
        rw [no_request_showPage s hpage]
        exact iff_of_true (fun r hr => nomatch hr) (fun h => absurd h hturn)
  | prevPage =>
      show (∀ r, (s.showPage s.view.prevPage).2 = some r → Carries r h.applied) ↔ _
      by_cases hturn : 0 < s.view.page
      · have hpage : s.view.prevPage.page ≠ s.view.page := by
          rw [AllBonds.prevPage, if_pos hturn]
          show s.view.page - 1 ≠ s.view.page
          omega
        rw [carries_showPage_iff hs hv (hplain hturn) hpage]
        exact ⟨fun h _ => h, fun h => h hturn⟩
      · have hpage : s.view.prevPage.page = s.view.page := by
          simp [AllBonds.prevPage, hturn]
        rw [no_request_showPage s hpage]
        exact iff_of_true (fun r hr => nomatch hr) (fun h => absurd h hturn)
  | respond data =>
      have hnone : (s.step (.respond data)).2 = none := no_request_showPage s rfl
      exact iff_of_true (fun r hr => nomatch hnone.symm.trans hr) (fun h => h.elim)
  | _ => exact iff_of_true (fun r hr => nomatch hr) (fun h => h.elim)

/-- Every request of the run, the one of the first page among them, carries what was applied last. -/
def CarriesApplied (tr : List (Action Bond)) : Prop :=
  Carries (BondList.initial : BondList Bond).getAllBonds (History.after ([] : List (Action Bond))).applied ∧
    ∀ before a rest, tr = before ++ a :: rest → ∀ r, ((BondList.run before).step a).2 = some r →
      Carries r (History.after (before ++ [a])).applied

theorem plain_initial : Filters.initial.Plain :=
  Filters.plain_of_all (t := "15".toList) (d := '5') (by decide) (by decide) (by decide +kernel) (by decide) (by decide)
    (by decide)

/-- **Every request carries the filters of the last Apply exactly when no page is turned while others stand in the
    fields**, where the texts in the fields are plain whenever a request is sent. -/
theorem carries_applied_iff (Bond : Type) (tr : List (Action Bond))
    (hplain : ∀ before a rest, tr = before ++ a :: rest → Asks (BondList.run before) a →
      (History.after before).typed.Plain) :
    CarriesApplied tr ↔ ∀ before a rest, tr = before ++ a :: rest → Turns (BondList.run before) a →
      (History.after before).typed.params = (History.after before).applied.params := by
  have hinitial : Carries (BondList.initial : BondList Bond).getAllBonds
      (History.after ([] : List (Action Bond))).applied :=
    (carries_iff (shared_run ([] : List (Action Bond))) plain_initial (History.valid_applied [])).mpr rfl
  rw [CarriesApplied, and_iff_right hinitial]
  apply forall_congr'
  intro before
  apply forall_congr'
  intro a
  apply forall_congr'
  intro rest
  apply imp_congr_right
  intro htr
  rw [History.after_snoc]
  exact carries_step_iff (shared_run before) (History.valid_applied before) a (hplain before a rest htr)

/-- The steps of a run are the first one and those behind it. -/
theorem forall_steps_cons {A : Type} {P : List A → A → Prop} {x : A} {xs : List A} :
    (∀ before a rest, x :: xs = before ++ a :: rest → P before a) ↔
      P [] x ∧ ∀ before a rest, xs = before ++ a :: rest → P (x :: before) a := by
  constructor
  · intro h
    exact ⟨h [] x xs rfl, fun before a rest heq => h (x :: before) a rest (congrArg (x :: ·) heq)⟩
  · rintro ⟨hx, hxs⟩ before a rest heq
    cases before with
    | nil =>
        obtain ⟨rfl, rfl⟩ := List.cons.inj heq
        exact hx
    | cons y before =>
        obtain ⟨rfl, hrest⟩ := List.cons.inj heq
        exact hxs before a rest hrest

/-- A description and a country are applied, and after the response the next page is asked for. -/
def applyThenTurn : List (Action Unit) :=
  [.handleClickOpen, .changeFilter .longDes "Bund 2020".toList, .changeFilter .initialISIN ['D', 'E'], .handleApply,
   .respond (some [(), ()]), .nextPage]

theorem plain_applyThenTurn : (History.after (applyThenTurn.take 3)).typed.Plain :=
  Filters.plain_of_all (t := "15".toList) (d := '5') (by decide +kernel) (by decide +kernel) (by decide +kernel)
    (by decide) (by decide) (by decide)

theorem carries_applied_iff_applyThenTurn : CarriesApplied applyThenTurn := by
  refine (carries_applied_iff Unit applyThenTurn ?_).mpr ?_
  · -- Only Apply and the turn of the page send a request, and both with the same texts.
    refine forall_steps_cons.mpr ⟨fun h => h.elim, forall_steps_cons.mpr ⟨fun h => h.elim, forall_steps_cons.mpr
      ⟨fun h => h.elim, forall_steps_cons.mpr ⟨fun _ => plain_applyThenTurn, forall_steps_cons.mpr
        ⟨fun h => h.elim, forall_steps_cons.mpr ⟨fun _ => ?_, fun before a rest h => by simp at h⟩⟩⟩⟩⟩⟩
    have hsame : (History.after applyThenTurn.dropLast).typed = (History.after (applyThenTurn.take 3)).typed := by
      decide +kernel
    exact hsame ▸ plain_applyThenTurn
  · refine forall_steps_cons.mpr ⟨fun h => h.elim, forall_steps_cons.mpr ⟨fun h => h.elim, forall_steps_cons.mpr
      ⟨fun h => h.elim, forall_steps_cons.mpr ⟨fun h => h.elim, forall_steps_cons.mpr
        ⟨fun h => h.elim, forall_steps_cons.mpr ⟨fun _ => by decide +kernel, fun before a rest h => by simp at h⟩⟩⟩⟩⟩⟩

/-- One letter of an ISIN was typed and the dialog closed; the next page is asked for with that letter. -/
theorem not_always_carries_applied : ¬ ∀ (Bond : Type) (tr : List (Action Bond)), CarriesApplied tr := by
  intro h
  have hrun := (h Unit [.changeFilter .initialISIN ['D'], .handleClose, .nextPage]).2
    [.changeFilter .initialISIN ['D'], .handleClose] .nextPage [] rfl
  have hplain : (History.after ([.changeFilter .initialISIN ['D'], .handleClose] : List (Action Unit))).typed.Plain :=
    Filters.plain_of_all (t := "15".toList) (d := '5') (by decide) (by decide) (by decide +kernel) (by decide)
      (by decide) (by decide)
  have hparams := (carries_showPage_iff (shared_run _) (History.valid_applied _) hplain (by decide)).mp hrun
  exact absurd hparams (by decide)

end NewOrbit.Displayer.Search
