import Mathlib.Algebra.Order.Field.Rat
import Mathlib.Data.List.DropRight
import Mathlib.Tactic.NormNum

/-!
# `Lib.Js` — JavaScript values and their coercions

The three kinds of values that arithmetic on pieces of a text meets: `undefined`, numbers and strings. `+`
concatenates as soon as one operand is a string; `*` takes both operands to numbers. A number is kept by its
mathematical value; where the double next to it would be another number, the arithmetic of this file has no
result (`none`), so that a result is what JavaScript computes.

`stringToNumber_decimal` reads a decimal literal, and `toText_natCast` prints an integer.
-/

namespace Js

/-- Both zeros are one here. -/
inductive Number
  | nan
  | infinity (negative : Bool)
  | finite (q : ℚ)
  deriving DecidableEq

inductive Value
  | undefined
  | number (n : Number)
  | string (s : List Char)
  deriving DecidableEq

/-! ## Strings to numbers -/

/-- `WhiteSpace` and `LineTerminator`. -/
def isSpace (c : Char) : Bool :=
  let n := c.toNat
  (9 ≤ n && n ≤ 13) || n = 32 || n = 160 || n = 5760 || (8192 ≤ n && n ≤ 8202) || n = 8232 || n = 8233 ||
    n = 8239 || n = 8287 || n = 12288 || n = 65279

def trim (s : List Char) : List Char := (s.dropWhile isSpace).rdropWhile isSpace

/-- The number a list of decimal digits denotes. -/
def digits (ds : List Char) : ℕ := Nat.ofDigitChars 10 ds 0

/-- At least one digit, and nothing else. -/
def isDigits (ds : List Char) : Bool := !ds.isEmpty && ds.all Char.isDigit

/-- `ExponentPart`, or nothing. -/
def exponent : List Char → Option ℤ
  | []     => some 0
  | c :: r =>
    if c = 'e' ∨ c = 'E' then
      match r with
      | '-' :: ds => if isDigits ds then some (-digits ds) else none
      | '+' :: ds => if isDigits ds then some (digits ds) else none
      | ds        => if isDigits ds then some (digits ds) else none
    else none

/-- `StrUnsignedDecimalLiteral`. -/
def unsignedDecimal (s : List Char) : Option Number :=
  if s = "Infinity".toList then some (.infinity false)
  else
    let int := s.takeWhile Char.isDigit
    match s.dropWhile Char.isDigit with
    | '.' :: r =>
      let frac := r.takeWhile Char.isDigit
      if int = [] ∧ frac = [] then none
      else (exponent (r.dropWhile Char.isDigit)).map fun e =>
        .finite ((digits int + digits frac / 10 ^ frac.length) * 10 ^ e)
    | r =>
      if int = [] then none else (exponent r).map fun e => .finite (digits int * 10 ^ e)

def Number.neg : Number → Number
  | .nan => .nan
  | .infinity negative => .infinity !negative
  | .finite q => .finite (-q)

def signedDecimal : List Char → Number
  | '-' :: s => ((unsignedDecimal s).map Number.neg).getD .nan
  | '+' :: s => (unsignedDecimal s).getD .nan
  | s        => (unsignedDecimal s).getD .nan

/-- The value of a digit of a base up to 16. -/
def digitValue? (c : Char) : Option ℕ :=
  if c.isDigit then some (c.toNat - 48)
  else if 'a' ≤ c ∧ c ≤ 'f' then some (c.toNat - 87)
  else if 'A' ≤ c ∧ c ≤ 'F' then some (c.toNat - 55)
  else none

/-- A literal in base `b`, after its prefix. -/
def radix (b : ℕ) (ds : List Char) : Number :=
  if ds ≠ [] ∧ ds.all (fun c => (digitValue? c).any (· < b)) then
    .finite (ds.foldl (fun acc c => b * acc + (digitValue? c).getD 0) 0 : ℕ)
  else .nan

/-- `StringToNumber` -/
def stringToNumber (s : List Char) : Number :=
  match trim s with
  | []             => .finite 0
  | '0' :: p :: ds =>
    if p = 'x' ∨ p = 'X' then radix 16 ds
    else if p = 'o' ∨ p = 'O' then radix 8 ds
    else if p = 'b' ∨ p = 'B' then radix 2 ds
    else signedDecimal ('0' :: p :: ds)
  | t => signedDecimal t

/-- `ToNumber` -/
def toNumber : Value → Number
  | .undefined => .nan
  | .number n  => n
  | .string s  => stringToNumber s

def isNaN (v : Value) : Bool := toNumber v = .nan

/-! ## Arithmetic -/

/-- Integers that are doubles, and whose shortest decimal is their own. -/
def IsExact (q : ℚ) : Prop := q.den = 1 ∧ (q.num.natAbs ≤ 2 ^ 53 ∨ q.num.natAbs % 2 = 0 ∧ q.num.natAbs ≤ 2 ^ 54)

instance (q : ℚ) : Decidable (IsExact q) := inferInstanceAs (Decidable (_ ∧ _))

/-- `Number::toString` -/
def Number.toText : Number → Option (List Char)
  | .nan => some "NaN".toList
  | .infinity negative => some (if negative then "-Infinity".toList else "Infinity".toList)
  | .finite q =>
    if IsExact q then some ((if q < 0 then ['-'] else []) ++ Nat.toDigits 10 q.num.natAbs) else none

/-- `ToString` -/
def toText : Value → Option (List Char)
  | .undefined => some "undefined".toList
  | .number n  => n.toText
  | .string s  => some s

/-- `Number::multiply` -/
def Number.mul : Number → Number → Option Number
  | .nan, _ => some .nan
  | _, .nan => some .nan
  | .infinity a, .infinity b => some (.infinity (a != b))
  | .infinity a, .finite q => if q = 0 then some .nan else some (.infinity (a != decide (q < 0)))
  | .finite q, .infinity a => if q = 0 then some .nan else some (.infinity (a != decide (q < 0)))
  | .finite p, .finite q =>
    if IsExact p ∧ IsExact q ∧ IsExact (p * q) then some (.finite (p * q)) else none

/-- `Number::add` -/
def Number.add : Number → Number → Option Number
  | .nan, _ => some .nan
  | _, .nan => some .nan
  | .infinity a, .infinity b => if a = b then some (.infinity a) else some .nan
  | .infinity a, .finite _ => some (.infinity a)
  | .finite _, .infinity a => some (.infinity a)
  | .finite p, .finite q =>
    if IsExact p ∧ IsExact q ∧ IsExact (p + q) then some (.finite (p + q)) else none

/-- The operator `*`. -/
def mul (a b : Value) : Option Value := ((toNumber a).mul (toNumber b)).map .number

/-- The operator `+`: a string on one side makes it a concatenation. -/
def add : Value → Value → Option Value
  | .string s, b => (toText b).map fun t => .string (s ++ t)
  | a, .string t => (toText a).map fun s => .string (s ++ t)
  | a, b         => ((toNumber a).add (toNumber b)).map .number

/-- `s.split(sep)` for a separator of one character. -/
def split (sep : Char) (s : List Char) : List Value := (s.splitOn sep).map .string

/-- An element of an array; `undefined` behind its end. -/
def get (l : List Value) (i : ℕ) : Value := l.getD i .undefined

/-! ## Decimal literals -/

theorem ne_of_isDigit {c d : Char} (hc : c.isDigit = true) (hd : d.isDigit = false) : c ≠ d := by
  rintro rfl
  exact nomatch hc.symm.trans hd

theorem isSpace_of_isDigit {c : Char} (hc : c.isDigit = true) : isSpace c = false := by
  have hbounds : 48 ≤ c.toNat ∧ c.toNat ≤ 57 := Char.isDigit_iff_toNat.mp hc
  simp only [isSpace, Bool.or_eq_false_iff, Bool.and_eq_false_iff, decide_eq_false_iff_not]
  omega

theorem trim_eq_self {s : List Char} (h : ∀ c ∈ s, isSpace c = false) : trim s = s := by
  have hdrop : s.dropWhile isSpace = s := by
    rw [List.dropWhile_eq_self_iff]
    intro hpos
    simp [h _ (List.getElem_mem hpos)]
  rw [trim, hdrop, List.rdropWhile_eq_self_iff]
  intro hne
  simp [h _ (List.getLast_mem hne)]

theorem signedDecimal_of_isDigit {c : Char} (hc : c.isDigit = true) (r : List Char) :
    signedDecimal (c :: r) = (unsignedDecimal (c :: r)).getD .nan := by
  unfold signedDecimal
  split
  · rename_i heq
    exact absurd (List.head_eq_of_cons_eq heq) (ne_of_isDigit hc (by decide))
  · rename_i heq
    exact absurd (List.head_eq_of_cons_eq heq) (ne_of_isDigit hc (by decide))
  · rfl

/-- A text of digits and points that starts with a digit is an unsigned decimal or nothing. -/
theorem stringToNumber_of_isDigit {c : Char} {r : List Char} (hc : c.isDigit = true)
    (hr : ∀ d ∈ r, d.isDigit = true ∨ d = '.') :
    stringToNumber (c :: r) = (unsignedDecimal (c :: r)).getD .nan := by
  have hspace : ∀ d ∈ c :: r, isSpace d = false := by
    intro d hd
    rcases List.mem_cons.mp hd with rfl | hd
    · exact isSpace_of_isDigit hc
    · rcases hr d hd with hdigit | rfl
      · exact isSpace_of_isDigit hdigit
      · decide
  rw [stringToNumber, trim_eq_self hspace]
  split
  · rename_i heq; cases heq
  · -- A digit or a point is not the letter of a base.
    rename_i p ds heq
    obtain ⟨rfl, rfl⟩ := List.cons.inj heq
    have hp := hr p List.mem_cons_self
    have hne : ∀ d : Char, ¬ (d.isDigit = true ∨ d = '.') → p ≠ d := fun d hd h => hd (h ▸ hp)
    rw [if_neg (not_or.mpr ⟨hne _ (by decide), hne _ (by decide)⟩),
      if_neg (not_or.mpr ⟨hne _ (by decide), hne _ (by decide)⟩),
      if_neg (not_or.mpr ⟨hne _ (by decide), hne _ (by decide)⟩)]
    exact signedDecimal_of_isDigit hc _
  · exact signedDecimal_of_isDigit hc _

/-- **A decimal literal** denotes its digits, those behind the point divided by their power of ten. -/
theorem stringToNumber_decimal {ds fs : List Char} (hne : ds ≠ []) (hds : ∀ c ∈ ds, c.isDigit = true)
    (hfs : ∀ c ∈ fs, c.isDigit = true) :
    stringToNumber (ds ++ '.' :: fs) = .finite (digits ds + digits fs / 10 ^ fs.length) := by
  obtain ⟨c, r, rfl⟩ := List.exists_cons_of_ne_nil hne
  have hchars : ∀ d ∈ r ++ '.' :: fs, d.isDigit = true ∨ d = '.' := by
    intro d hd
    rcases List.mem_append.mp hd with hd | hd
    · exact Or.inl (hds d (List.mem_cons_of_mem _ hd))
    · rcases List.mem_cons.mp hd with rfl | hd
      · exact Or.inr rfl
      · exact Or.inl (hfs d hd)
  have htake : (c :: r ++ '.' :: fs).takeWhile Char.isDigit = c :: r := by
    rw [List.takeWhile_append_of_pos hds, List.takeWhile_cons_of_neg (by decide), List.append_nil]
  have hdrop : (c :: r ++ '.' :: fs).dropWhile Char.isDigit = '.' :: fs := by
    rw [List.dropWhile_append_of_pos hds, List.dropWhile_cons_of_neg (by decide)]
  have hinfinity : ¬ c :: r ++ '.' :: fs = "Infinity".toList :=
    fun h => ne_of_isDigit (hds c List.mem_cons_self) (by decide) (List.head_eq_of_cons_eq h)
  rw [List.cons_append, stringToNumber_of_isDigit (hds c List.mem_cons_self) hchars, ← List.cons_append,
    unsignedDecimal, if_neg hinfinity, hdrop, htake]
  have hfrac : fs.takeWhile Char.isDigit = fs := List.takeWhile_eq_self_iff.mpr hfs
  have hrest : fs.dropWhile Char.isDigit = [] := List.dropWhile_eq_nil_iff.mpr hfs
  simp [hfrac, hrest, exponent]

/-- Digits alone. -/
theorem stringToNumber_digits {ds : List Char} (hne : ds ≠ []) (hds : ∀ c ∈ ds, c.isDigit = true) :
    stringToNumber ds = .finite (digits ds) := by
  obtain ⟨c, r, rfl⟩ := List.exists_cons_of_ne_nil hne
  have hinfinity : ¬ c :: r = "Infinity".toList :=
    fun h => ne_of_isDigit (hds c List.mem_cons_self) (by decide) (List.head_eq_of_cons_eq h)
  rw [stringToNumber_of_isDigit (hds c List.mem_cons_self) fun d hd => Or.inl (hds d (List.mem_cons_of_mem _ hd)),
    unsignedDecimal, if_neg hinfinity, List.takeWhile_eq_self_iff.mpr hds, List.dropWhile_eq_nil_iff.mpr hds]
  simp [exponent]

/-! ## Integers -/

theorem isExact_natCast {n : ℕ} (h : n ≤ 2 ^ 53 ∨ n % 2 = 0 ∧ n ≤ 2 ^ 54) : IsExact n := by
  refine ⟨rfl, ?_⟩
  simpa using h

/-- An integer is printed by its digits. -/
theorem toText_natCast {n : ℕ} (h : IsExact n) : (Number.finite n).toText = some (Nat.toDigits 10 n) := by
  rw [Number.toText, if_pos h, if_neg (by simp), List.nil_append]
  simp

/-- The characters of a number that is printed, exponents among them. -/
def numberChars : List Char := "0123456789+-.eInfityNa".toList

theorem mem_numberChars {n : Number} {t : List Char} (h : n.toText = some t) : ∀ c ∈ t, c ∈ numberChars := by
  cases n with
  | nan =>
      obtain rfl := Option.some.inj h
      have hsub : "NaN".toList ⊆ numberChars := by decide
      exact fun c hc => hsub hc
  | infinity negative =>
      obtain rfl := Option.some.inj h
      have hsub : (if negative then "-Infinity".toList else "Infinity".toList) ⊆ numberChars := by
        cases negative <;> decide
      exact fun c hc => hsub hc
  | finite q =>
      rw [Number.toText] at h
      split at h
      · obtain rfl := Option.some.inj h
        intro c hc
        rcases List.mem_append.mp hc with hc | hc
        · split at hc
          · rw [List.mem_singleton.mp hc]
            decide
          · cases hc
        · have hdigit : 48 ≤ c.toNat ∧ c.toNat ≤ 57 :=
            Char.isDigit_iff_toNat.mp (Nat.isDigit_of_mem_toDigits (by decide) (by decide) hc)
          have hall : ∀ i < 10, Char.ofNat (48 + i) ∈ numberChars := by decide
          have hmem := hall (c.toNat - 48) (by omega)
          rwa [Nat.add_sub_cancel' hdigit.1, Char.ofNat_toNat] at hmem
      · cases h

theorem mul_natCast {m n : ℕ} (hm : IsExact m) (hn : IsExact n) (hmn : IsExact ((m * n : ℕ) : ℚ)) :
    (Number.finite m).mul (Number.finite n) = some (.finite ((m * n : ℕ) : ℚ)) := by
  rw [Nat.cast_mul] at hmn ⊢
  rw [Number.mul, if_pos ⟨hm, hn, hmn⟩]

/-- Digits times a number. -/
theorem mul_digits {ds : List Char} (hne : ds ≠ []) (hds : ∀ c ∈ ds, c.isDigit = true) {k : ℕ}
    (hd : IsExact (digits ds)) (hk : IsExact k) (hdk : IsExact ((digits ds * k : ℕ) : ℚ)) :
    mul (.string ds) (.number (.finite k)) = some (.number (.finite ((digits ds * k : ℕ) : ℚ))) := by
  show ((stringToNumber ds).mul (.finite k)).map Value.number = _
  rw [stringToNumber_digits hne hds, mul_natCast hd hk hdk, Option.map_some]

/-- A text plus a number is the text and the digits of the number. -/
theorem add_string_natCast (s : List Char) {n : ℕ} (h : IsExact n) :
    add (.string s) (.number (.finite n)) = some (.string (s ++ Nat.toDigits 10 n)) := by
  show (Number.toText (.finite n)).map (fun t => Value.string (s ++ t)) = _
  rw [toText_natCast h, Option.map_some]

theorem digits_lt {ds : List Char} (hds : ∀ c ∈ ds, c.isDigit = true) : digits ds < 10 ^ ds.length := by
  unfold digits
  induction ds with
  | nil => simp
  | cons c ds ih =>
      have hc : c.toNat - 48 ≤ 9 := by
        have hbounds : 48 ≤ c.toNat ∧ c.toNat ≤ 57 := Char.isDigit_iff_toNat.mp (hds c List.mem_cons_self)
        omega
      have htail := ih fun d hd => hds d (List.mem_cons_of_mem _ hd)
      rw [Nat.ofDigitChars_cons, Nat.ofDigitChars_eq_ofDigitChars_zero, Nat.mul_zero, Nat.zero_add,
        List.length_cons, Nat.pow_succ]
      show 10 ^ ds.length * (c.toNat - 48) + _ < _
      have hmul := Nat.mul_le_mul_left (10 ^ ds.length) hc
      omega

end Js
