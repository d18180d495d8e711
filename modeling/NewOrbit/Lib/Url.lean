import Mathlib.Data.List.DropRight
import Mathlib.Data.List.Basic

/-!
# `Lib.Url` — the parameters that a URL carries

What is read from the text of a URL that a page asks for. The browser drops blanks and control characters at both
ends, tabs and line breaks anywhere, and everything from the first number sign on; what is behind the question mark
is sent as the query, characters that may not stand there as the octets of their UTF-8 encoding. The server splits
the query at the ampersands and each part at its first equals sign, and takes a plus sign for a blank and a percent
sign with two digits for an octet.

Texts without these characters are read as they are (`params_eq`, `decode_plain`).
-/

namespace Url

/-- The control characters and the blank. -/
def isEdge (c : Char) : Bool := c.toNat ≤ 32

def isBreak (c : Char) : Bool := c = '\t' || c = '\n' || c = '\r'

/-- The text that the browser takes for the URL. -/
def clean (url : List Char) : List Char := ((url.dropWhile isEdge).rdropWhile isEdge).filter (!isBreak ·)

/-- What is between the first question mark and the number sign. -/
def query (url : List Char) : List Char := (((clean url).takeWhile (· ≠ '#')).dropWhile (· ≠ '?')).drop 1

def utf8 (s : List Char) : List UInt8 := s.flatMap String.utf8EncodeChar

def hexValue (c : Char) : Option UInt8 :=
  if '0' ≤ c ∧ c ≤ '9' then some (UInt8.ofNat (c.toNat - 48))
  else if 'a' ≤ c ∧ c ≤ 'f' then some (UInt8.ofNat (c.toNat - 87))
  else if 'A' ≤ c ∧ c ≤ 'F' then some (UInt8.ofNat (c.toNat - 55))
  else none

/-- The octets that a name or a value stands for; none if a percent sign has no two digits. -/
def decode : List Char → Option (List UInt8)
  | [] => some []
  | '%' :: s =>
      match s with
      | a :: b :: s => do return (16 * (← hexValue a) + (← hexValue b)) :: (← decode s)
      | _ => none
  | c :: s => (decode s).map ((if c = '+' then [0x20] else String.utf8EncodeChar c) ++ ·)

/-- A name and a value. -/
def param (part : List Char) : Option (List UInt8 × List UInt8) := do
  return (← decode (part.takeWhile (· ≠ '=')), ← decode ((part.dropWhile (· ≠ '=')).drop 1))

/-- The parameters in their order. -/
def params (url : List Char) : Option (List (List UInt8 × List UInt8)) :=
  (((query url).splitOn '&').filter (· ≠ [])).mapM param

/-! ## Texts that are read as they are

A plain text has no character that means something in a URL. So it is decoded to its own octets, which are those of no
other text (`utf8_injective`). -/

/-- The character does not end a part of a URL, and is not dropped. -/
def Safe (c : Char) : Prop := c ≠ '&' ∧ c ≠ '#' ∧ isBreak c = false

/-- The character is safe and stands for itself. -/
def Plain (c : Char) : Prop := Safe c ∧ c ≠ '+' ∧ c ≠ '%'

instance (c : Char) : Decidable (Safe c) := inferInstanceAs (Decidable (_ ∧ _))
instance (c : Char) : Decidable (Plain c) := inferInstanceAs (Decidable (_ ∧ _))

theorem forall_mem_of_all {p : Char → Prop} [DecidablePred p] {s : List Char} (h : s.all (p ·) = true) :
    ∀ c ∈ s, p c := by
  simpa using h

theorem utf8_cons (c : Char) (s : List Char) : utf8 (c :: s) = String.utf8EncodeChar c ++ utf8 s := List.flatMap_cons

theorem utf8_injective : Function.Injective utf8 := by
  intro s t h
  have hbytes : s.utf8Encode = t.utf8Encode := congrArg List.toByteArray h
  exact String.ofList_injective (String.toByteArray_inj.mp hbytes)

/-- Without a percent sign there is something to read. -/
theorem decode_isSome {s : List Char} (h : '%' ∉ s) : (decode s).isSome := by
  induction s with
  | nil => rfl
  | cons c s ih =>
      have hc : c ≠ '%' := fun heq => h (heq ▸ List.mem_cons_self)
      rw [decode.eq_def]
      split
      · rfl
      · next heq => cases heq; exact absurd rfl hc
      · next heq =>
          cases heq
          simpa using ih fun hmem => h (List.mem_cons_of_mem _ hmem)

/-- **Plain characters stand for themselves.** -/
theorem decode_plain {s : List Char} (h : ∀ c ∈ s, Plain c) : decode s = some (utf8 s) := by
  induction s with
  | nil => rfl
  | cons c s ih =>
      obtain ⟨_, hplus, hpercent⟩ := h c List.mem_cons_self
      rw [decode.eq_def, utf8_cons]
      split
      · next heq => cases heq
      · next heq => cases heq; exact absurd rfl hpercent
      · next heq =>
          cases heq
          rw [ih fun d hd => h d (List.mem_cons_of_mem _ hd), if_neg hplus]
          rfl

/-! ## The parts of a query

The query is split at the ampersands, of which plain texts have none, and a part at its first equals sign, which is
the one behind its name. -/

/-- What stands before the question mark. -/
structure IsAddress (address : List Char) : Prop where
  first : ∀ c ∈ address.head?, isEdge c = false
  ne_nil : address ≠ []
  safe : ∀ c ∈ address, Safe c ∧ c ≠ '?'

theorem clean_eq {url : List Char} (hfirst : ∀ c ∈ url.head?, isEdge c = false)
    (hlast : ∀ c ∈ url.getLast?, isEdge c = false) (hbreak : ∀ c ∈ url, isBreak c = false) : clean url = url := by
  have hdrop : url.dropWhile isEdge = url := by
    cases url with
    | nil => rfl
    | cons c s => exact List.dropWhile_cons_of_neg (by simp [hfirst c rfl])
  have hrdrop : url.rdropWhile isEdge = url := by
    rw [List.rdropWhile_eq_self_iff]
    intro hne
    simp [hlast _ (List.getLast?_eq_some_getLast hne)]
  rw [clean, hdrop, hrdrop, List.filter_eq_self]
  exact fun c hc => by simp [hbreak c hc]

/-- The query of a URL that is not cut. -/
theorem query_eq {address q : List Char} (haddress : IsAddress address) (hlast : ∀ c ∈ q.getLast?, isEdge c = false)
    (hq : ∀ c ∈ q, c ≠ '#' ∧ isBreak c = false) : query (address ++ '?' :: q) = q := by
  have hclean : clean (address ++ '?' :: q) = address ++ '?' :: q := by
    refine clean_eq (fun c hc => haddress.first c ?_) (fun c hc => ?_) (fun c hc => ?_)
    · obtain ⟨a, s, rfl⟩ := List.exists_cons_of_ne_nil haddress.ne_nil
      exact hc
    · rw [List.getLast?_append_of_ne_nil _ (List.cons_ne_nil _ _), List.getLast?_cons] at hc
      cases hlast' : q.getLast? with
      | none => rw [hlast'] at hc; cases hc; decide
      | some d => rw [hlast'] at hc; cases hc; exact hlast d hlast'
    · rcases List.mem_append.mp hc with hc | hc
      · exact (haddress.safe c hc).1.2.2
      · rcases List.mem_cons.mp hc with rfl | hc
        · decide
        · exact (hq c hc).2
  have htake : (address ++ '?' :: q).takeWhile (· ≠ '#') = address ++ '?' :: q := by
    rw [List.takeWhile_eq_self_iff]
    intro c hc
    rcases List.mem_append.mp hc with hc | hc
    · exact decide_eq_true (haddress.safe c hc).1.2.1
    · rcases List.mem_cons.mp hc with rfl | hc
      · decide
      · exact decide_eq_true (hq c hc).1
  rw [query, hclean, htake, List.dropWhile_append_of_pos fun c hc => decide_eq_true (haddress.safe c hc).2,
    List.dropWhile_cons_of_neg (by decide)]
  rfl

/-- A name and a value as they are written. -/
def part (p : List Char × List Char) : List Char := p.1 ++ '=' :: p.2

theorem param_part {p : List Char × List Char} (hname : ∀ c ∈ p.1, Plain c ∧ c ≠ '=') :
    param (part p) = (decode p.2).map (utf8 p.1, ·) := by
  have htake : (part p).takeWhile (· ≠ '=') = p.1 := by
    rw [part, List.takeWhile_append_of_pos fun c hc => decide_eq_true (hname c hc).2,
      List.takeWhile_cons_of_neg (by decide), List.append_nil]
  have hdrop : (part p).dropWhile (· ≠ '=') = '=' :: p.2 := by
    rw [part, List.dropWhile_append_of_pos fun c hc => decide_eq_true (hname c hc).2,
      List.dropWhile_cons_of_neg (by decide)]
  rw [param, htake, hdrop, decode_plain fun c hc => (hname c hc).1]
  rw [List.drop_succ_cons, List.drop_zero]
  cases decode p.2 <;> rfl

theorem mapM_param {parts : List (List Char × List Char)} (hnames : ∀ p ∈ parts, ∀ c ∈ p.1, Plain c ∧ c ≠ '=') :
    (parts.map part).mapM param = parts.mapM fun p => (decode p.2).map (utf8 p.1, ·) := by
  induction parts with
  | nil => rfl
  | cons q parts ih =>
      rw [List.map_cons, List.mapM_cons, List.mapM_cons, param_part (hnames q List.mem_cons_self),
        ih fun p hp => hnames p (List.mem_cons_of_mem _ hp)]

/-- The last part ends a query. -/
theorem intercalate_eq_append {parts : List (List Char × List Char)} {p : List Char × List Char}
    (h : parts.getLast? = some p) : ∃ front, ['&'].intercalate (parts.map part) = front ++ '=' :: p.2 := by
  induction parts with
  | nil => cases h
  | cons q parts ih =>
      cases parts with
      | nil =>
          obtain rfl : q = p := by simpa using h
          exact ⟨q.1, by simp [part]⟩
      | cons r parts =>
          obtain ⟨front, hfront⟩ := ih (by simpa using h)
          rw [List.map_cons, List.map_cons, List.intercalate_cons_cons, ← List.map_cons, hfront]
          exact ⟨part q ++ '&' :: front, by simp⟩

theorem mem_intercalate {c : Char} {parts : List (List Char × List Char)}
    (h : c ∈ ['&'].intercalate (parts.map part)) : c = '&' ∨ ∃ p ∈ parts, c ∈ part p := by
  induction parts with
  | nil => cases h
  | cons q parts ih =>
      cases parts with
      | nil => exact .inr ⟨q, List.mem_cons_self, by simpa using h⟩
      | cons r parts =>
          rw [List.map_cons, List.map_cons, List.intercalate_cons_cons, ← List.map_cons] at h
          rcases List.mem_append.mp h with h | h
          · rcases List.mem_append.mp h with h | h
            · exact .inr ⟨q, List.mem_cons_self, h⟩
            · exact .inl (List.mem_singleton.mp h)
          · rcases ih h with h | ⟨p, hp, hc⟩
            · exact .inl h
            · exact .inr ⟨p, List.mem_cons_of_mem _ hp, hc⟩

/-- **The parameters of a URL** whose texts have no character that ends a part or is dropped. -/
theorem params_eq {address : List Char} (haddress : IsAddress address) {parts : List (List Char × List Char)}
    (hnames : ∀ p ∈ parts, ∀ c ∈ p.1, Plain c ∧ c ≠ '=') (hvalues : ∀ p ∈ parts, ∀ c ∈ p.2, Safe c)
    {p : List Char × List Char} (hp : parts.getLast? = some p) (hlast : ∀ c ∈ p.2.getLast?, isEdge c = false) :
    params (address ++ '?' :: ['&'].intercalate (parts.map part))
      = parts.mapM fun p => (decode p.2).map (utf8 p.1, ·) := by
  have hsafe : ∀ p ∈ parts, ∀ c ∈ part p, Safe c := by
    intro p hp c hc
    rcases List.mem_append.mp hc with hc | hc
    · exact (hnames p hp c hc).1.1
    · rcases List.mem_cons.mp hc with rfl | hc
      · decide
      · exact hvalues p hp c hc
  have hquery : query (address ++ '?' :: ['&'].intercalate (parts.map part)) = ['&'].intercalate (parts.map part) := by
    refine query_eq haddress ?_ fun c hc => ?_
    · obtain ⟨front, hfront⟩ := intercalate_eq_append hp
      intro c hc
      rw [hfront, List.getLast?_append_of_ne_nil _ (List.cons_ne_nil _ _), List.getLast?_cons] at hc
      cases hlast' : p.2.getLast? with
      | none => rw [hlast'] at hc; cases hc; decide
      | some d => rw [hlast'] at hc; cases hc; exact hlast d hlast'
    · rcases mem_intercalate hc with rfl | ⟨p, hp, hc⟩
      · decide
      · exact ⟨(hsafe p hp c hc).2.1, (hsafe p hp c hc).2.2⟩
  have hne : parts ≠ [] := by rintro rfl; cases hp
  have hsplit : (['&'].intercalate (parts.map part)).splitOn '&' = parts.map part := by
    refine List.splitOn_intercalate '&' (fun s hs => ?_) (by simpa using hne)
    obtain ⟨p, hp, rfl⟩ := List.mem_map.mp hs
    exact fun hmem => (hsafe p hp _ hmem).1 rfl
  have hfilter : (parts.map part).filter (· ≠ []) = parts.map part := by
    rw [List.filter_eq_self]
    intro s hs
    obtain ⟨p, _, rfl⟩ := List.mem_map.mp hs
    simp [part]
  rw [params, hquery, hsplit, hfilter, mapM_param hnames]

end Url
