import Mathlib.Tactic.FieldSimp
import Mathlib.Tactic.Linarith
import Mathlib.Tactic.Positivity
import Mathlib.Tactic.Ring
import NewOrbit.Lib.Js

/-!
# `Lib.JsOrder` — comparing and sorting JavaScript values

Numbers are compared by value. `l.sort()` without a comparison function compares the elements as texts, code unit
by code unit. Among decimals with as many digits before the point this is the order of the numbers they denote
(`decimal_le_of_le`); two numerals of one number, which differ in the zeros at their end, are ordered by their
length.
-/

namespace Js

/-- `a < b` for numbers. -/
def Number.lt : Number → Number → Bool
  | .nan, _ => false
  | _, .nan => false
  | .infinity a, .infinity b => a && !b
  | .infinity a, .finite _ => a
  | .finite _, .infinity b => !b
  | .finite p, .finite q => p < q

/-- The UTF-16 code units of a text. -/
def codeUnits (s : List Char) : List ℕ := s.flatMap fun c =>
  if c.toNat < 0x10000 then [c.toNat]
  else [0xD800 + (c.toNat - 0x10000) / 0x400, 0xDC00 + (c.toNat - 0x10000) % 0x400]

/-- Lists of code units, the first difference deciding; what ends first is the smaller. -/
def unitsLE : List ℕ → List ℕ → Bool
  | [],      _       => true
  | _ :: _,  []      => false
  | a :: as, b :: bs => a < b || (a == b && unitsLE as bs)

/-- `s <= t` for texts. -/
def textLE (s t : List Char) : Bool := unitsLE (codeUnits s) (codeUnits t)

/-- `l.sort()`: `undefined` comes last; the others are compared as texts, and equal ones keep their order. -/
def sort (l : List Value) : Option (List Value) := do
  let defined := l.filter (· ≠ .undefined)
  let keyed ← defined.mapM fun v => (toText v).map (·, v)
  let sorted := keyed.mergeSort fun a b => textLE a.1 b.1
  return sorted.map Prod.snd ++ List.replicate (l.length - defined.length) .undefined

theorem unitsLE_cons_iff {a b : ℕ} {as bs : List ℕ} :
    unitsLE (a :: as) (b :: bs) = true ↔ a < b ∨ a = b ∧ unitsLE as bs = true := by
  simp [unitsLE]

theorem unitsLE_trans : ∀ {as bs cs : List ℕ}, unitsLE as bs = true → unitsLE bs cs = true → unitsLE as cs = true
  | [],      _,       _,       _,  _  => rfl
  | _ :: _,  [],      _,       h,  _  => nomatch h
  | _ :: _,  _ :: _,  [],      _,  h  => nomatch h
  | a :: as, b :: bs, c :: cs, h1, h2 => by
      rw [unitsLE_cons_iff] at *
      rcases h1 with h1 | ⟨rfl, h1⟩
      · exact Or.inl (h2.elim h1.trans fun h => h.1 ▸ h1)
      · exact h2.imp_right (And.imp_right (unitsLE_trans h1))

theorem unitsLE_total : ∀ as bs : List ℕ, unitsLE as bs = true ∨ unitsLE bs as = true
  | [],      _       => Or.inl rfl
  | _ :: _,  []      => Or.inr rfl
  | a :: as, b :: bs => by
      rw [unitsLE_cons_iff, unitsLE_cons_iff]
      rcases Nat.lt_trichotomy a b with hlt | rfl | hlt
      · exact Or.inl (Or.inl hlt)
      · exact (unitsLE_total as bs).imp (fun h => Or.inr ⟨rfl, h⟩) fun h => Or.inr ⟨rfl, h⟩
      · exact Or.inr (Or.inl hlt)

/-- A list of texts is sorted by the texts themselves. -/
theorem sort_strings (l : List (List Char)) : sort (l.map .string) = some ((l.mergeSort textLE).map .string) := by
  have hdefined : (l.map Value.string).filter (· ≠ .undefined) = l.map .string := by
    rw [List.filter_eq_self]
    intro v hv
    obtain ⟨s, -, rfl⟩ := List.mem_map.mp hv
    rfl
  have hkeyed : (l.map Value.string).mapM (fun v => (toText v).map (·, v)) =
      some (l.map fun s => (s, .string s)) := by
    clear hdefined
    induction l with
    | nil => rfl
    | cons s l ih =>
        rw [List.map_cons, List.mapM_cons, ih]
        rfl
  have hsorted : (l.map fun s => (s, Value.string s)).mergeSort (fun a b => textLE a.1 b.1) =
      (l.mergeSort textLE).map fun s => (s, Value.string s) :=
    (List.map_mergeSort (s := fun a b => textLE a.1 b.1) (f := fun s => (s, Value.string s))
      fun _ _ _ _ => rfl).symm
  simp only [sort, hdefined, hkeyed, hsorted, Option.bind_eq_bind, Option.bind_some, Option.pure_def,
    Nat.sub_self, List.replicate_zero, List.append_nil, List.map_map]
  rfl

theorem pairwise_mergeSort_textLE (l : List (List Char)) :
    (l.mergeSort textLE).Pairwise fun s t => textLE s t = true := by
  have htrans : ∀ a b c, textLE a b = true → textLE b c = true → textLE a c = true := fun _ _ _ => unitsLE_trans
  have htotal : ∀ a b, (textLE a b || textLE b a) = true :=
    fun a b => Bool.or_eq_true _ _ ▸ unitsLE_total (codeUnits a) (codeUnits b)
  exact List.pairwise_mergeSort htrans htotal l

/-! ## Decimals -/

/-- The number that digits behind the point denote. -/
def fraction (ds : List Char) : ℚ := digits ds / 10 ^ ds.length

section
variable {c d : Char} {xs ys ds es : List Char}

theorem fraction_nonneg (ds : List Char) : 0 ≤ fraction ds := by
  unfold fraction
  positivity

theorem fraction_lt_one (hds : ∀ c ∈ ds, c.isDigit = true) : fraction ds < 1 := by
  rw [fraction, div_lt_one (by positivity)]
  exact_mod_cast digits_lt hds

theorem digits_append (xs ys : List Char) : digits (xs ++ ys) = 10 ^ ys.length * digits xs + digits ys := by
  rw [digits, Nat.ofDigitChars_append, Nat.ofDigitChars_eq_ofDigitChars_zero]
  rfl

/-- The digits before the point move behind it by a power of ten. -/
theorem digits_add_fraction (xs ys : List Char) :
    digits xs + fraction ys = 10 ^ xs.length * fraction (xs ++ ys) := by
  have hpow : (10 : ℚ) ^ (xs ++ ys).length = 10 ^ xs.length * 10 ^ ys.length := by
    rw [List.length_append, pow_add]
  rw [fraction, fraction, digits_append, hpow]
  push_cast
  field_simp

theorem fraction_cons (c : Char) (cs : List Char) :
    fraction (c :: cs) = ((c.toNat - 48 : ℕ) + fraction cs) / 10 := by
  have hc : digits [c] = c.toNat - 48 := by
    rw [digits, Nat.ofDigitChars_cons, Nat.ofDigitChars_nil, Nat.mul_zero, Nat.zero_add]
    rfl
  have h := digits_add_fraction [c] cs
  rw [hc, List.singleton_append, List.length_singleton, pow_one] at h
  rw [h]
  ring

theorem codeUnits_of_isDigit (hc : c.isDigit = true) (cs : List Char) :
    codeUnits (c :: cs) = c.toNat :: codeUnits cs := by
  have hbounds : 48 ≤ c.toNat ∧ c.toNat ≤ 57 := Char.isDigit_iff_toNat.mp hc
  rw [codeUnits, List.flatMap_cons, if_pos (by omega)]
  rfl

/-- The order of digits, one after the other, is that of the numbers they denote behind the point. -/
theorem fraction_le_of_le (hxs : ∀ c ∈ xs, c.isDigit = true) (hys : ∀ c ∈ ys, c.isDigit = true)
    (h : unitsLE (codeUnits xs) (codeUnits ys) = true) : fraction xs ≤ fraction ys := by
  induction xs generalizing ys with
  | nil =>
      have hnil : fraction [] = 0 := by simp [fraction, digits]
      rw [hnil]
      exact fraction_nonneg ys
  | cons c xs ih =>
      obtain ⟨hc, hxs⟩ := List.forall_mem_cons.mp hxs
      cases ys with
      | nil =>
          rw [codeUnits_of_isDigit hc] at h
          cases h
      | cons d ys =>
          obtain ⟨hd, hys⟩ := List.forall_mem_cons.mp hys
          rw [codeUnits_of_isDigit hc, codeUnits_of_isDigit hd, unitsLE_cons_iff] at h
          have hc48 : 48 ≤ c.toNat := (Char.isDigit_iff_toNat.mp hc).1
          rw [fraction_cons, fraction_cons]
          rcases h with hlt | ⟨heq, hle⟩
          · -- The first digit decides: what follows is less than one of it.
            have hone : ((c.toNat - 48 : ℕ) : ℚ) + 1 ≤ (d.toNat - 48 : ℕ) := by
              exact_mod_cast (show c.toNat - 48 + 1 ≤ d.toNat - 48 by omega)
            have hxs1 := fraction_lt_one hxs
            have hys0 := fraction_nonneg ys
            linarith
          · have hle := ih hxs hys hle
            rw [heq]
            linarith

/-- A point at the same place does not change the order. -/
theorem textLE_of_point (hlen : ds.length = es.length) (hds : ∀ c ∈ ds, c.isDigit = true)
    (hes : ∀ c ∈ es, c.isDigit = true) (h : textLE (ds ++ '.' :: xs) (es ++ '.' :: ys) = true) :
    textLE (ds ++ xs) (es ++ ys) = true := by
  unfold textLE at *
  induction ds generalizing es with
  | nil =>
      rw [List.length_nil, eq_comm, List.length_eq_zero_iff] at hlen
      rw [hlen, List.nil_append, List.nil_append] at h ⊢
      have hpoint : ∀ zs, codeUnits ('.' :: zs) = 46 :: codeUnits zs := fun zs => rfl
      rw [hpoint, hpoint, unitsLE_cons_iff] at h
      rcases h with hlt | ⟨-, hle⟩
      · exact absurd hlt (Nat.lt_irrefl _)
      · exact hle
  | cons c ds ih =>
      cases es with
      | nil => cases hlen
      | cons e es =>
          obtain ⟨hc, hds⟩ := List.forall_mem_cons.mp hds
          obtain ⟨he, hes⟩ := List.forall_mem_cons.mp hes
          simp only [List.cons_append, codeUnits_of_isDigit hc, codeUnits_of_isDigit he, unitsLE_cons_iff] at h ⊢
          exact h.imp_right (And.imp_right (ih (Nat.succ.inj hlen) hds hes))

/-- **Decimals in the order of `sort` are in the order of the numbers they denote,** when they have the same
    number of digits before the point. -/
theorem decimal_le_of_le (hlen : ds.length = es.length) (hds : ∀ c ∈ ds, c.isDigit = true)
    (hes : ∀ c ∈ es, c.isDigit = true) (hxs : ∀ c ∈ xs, c.isDigit = true) (hys : ∀ c ∈ ys, c.isDigit = true)
    (h : textLE (ds ++ '.' :: xs) (es ++ '.' :: ys) = true) :
    digits ds + fraction xs ≤ digits es + fraction ys := by
  have hall : ∀ {us vs : List Char}, (∀ c ∈ us, c.isDigit = true) → (∀ c ∈ vs, c.isDigit = true) →
      ∀ c ∈ us ++ vs, c.isDigit = true :=
    fun hus hvs c hc => (List.mem_append.mp hc).elim (hus c) (hvs c)
  have hle := textLE_of_point hlen hds hes h
  rw [digits_add_fraction, digits_add_fraction, hlen]
  exact mul_le_mul_of_nonneg_left (fraction_le_of_le (hall hds hxs) (hall hes hys) hle) (by positivity)

end

end Js
