import Mathlib.Data.List.TakeWhile

/-!
# `Lib.CString` — byte strings and the C functions over them

`std::string` and `char[]` are lists of bytes here, and text is a byte string through its UTF-8 encoding
(`bytes`). The file gives `int` with its range, `substr`, `strtok`, `atoi` and the `%0wld` conversion of
`sprintf`, each total with `none` where C++ throws or C leaves the result undefined, and three facts about them:

1. `strtok_eq_tokens` — successive calls of `strtok` hand out the maximal delimiter-free pieces, in order;
2. `tokens_append_cons` — a delimiter ends a piece;
3. `atoi_ld` — `atoi` reads back what `%0wld` prints.
-/

namespace CString

abbrev Bytes := List UInt8

/-- The bytes of a text. -/
def bytes (s : String) : Bytes := s.toUTF8.data.toList

@[simp] theorem bytes_append (s t : String) : bytes (s ++ t) = bytes s ++ bytes t := by
  simp [bytes, String.toUTF8]

theorem bytes_injective : Function.Injective bytes := by
  intro s t h
  have hdata : s.toByteArray.data = t.toByteArray.data := Array.toList_inj.mp h
  exact String.toByteArray_inj.mp (ByteArray.ext hdata)

/-! ## `int` -/

/-- What a 32-bit `int` holds. -/
def InInt (n : Int) : Prop := -2147483648 ≤ n ∧ n ≤ 2147483647

instance (n : Int) : Decidable (InInt n) := inferInstanceAs (Decidable (_ ∧ _))

/-- The result of an `int` operation; overflow is undefined. -/
def int (n : Int) : Option Int := if InInt n then some n else none

@[simp] theorem int_eq_some {n m : Int} : int n = some m ↔ InInt n ∧ n = m := by
  simp [int]

theorem int_of_inInt {n : Int} (h : InInt n) : int n = some n := if_pos h

/-- `static_cast<int>` of a wider integer: the low 32 bits. -/
def toInt (n : Int) : Int := Int.bmod n 4294967296

theorem toInt_of_inInt {n : Int} (h : InInt n) : toInt n = n := by
  unfold toInt InInt at *
  exact Int.bmod_eq_of_le (by omega) (by omega)

/-- `a - b` in `size_t`. -/
def sizeSub (a b : Nat) : Nat := if b ≤ a then a - b else a + 18446744073709551616 - b

/-! ## Byte strings -/

/-- What a `const char *` shows of the bytes: everything before the first NUL. -/
def cstr (s : Bytes) : Bytes := s.takeWhile (· ≠ 0)

/-- `std::string::substr`; `none` is `std::out_of_range`. -/
def substr (s : Bytes) (pos n : Nat) : Option Bytes :=
  if pos ≤ s.length then some ((s.drop pos).take n) else none

/-- One call of `strtok`: the next token of what is left, and what it leaves to the next call. -/
def strtok (delim : Bytes) (s : Bytes) : Option (Bytes × Bytes) :=
  match s.dropWhile delim.contains with
  | []      => none
  | b :: bs => some ((b :: bs).takeWhile (!delim.contains ·), ((b :: bs).dropWhile (!delim.contains ·)).drop 1)

/-- The maximal pieces without a delimiter. -/
def tokens (delim : Bytes) (s : Bytes) : List Bytes := (s.splitOnP delim.contains).filter (!·.isEmpty)

section Tokens
variable {delim : Bytes}

theorem tokens_cons_delim {b : UInt8} (hb : delim.contains b = true) (s : Bytes) :
    tokens delim (b :: s) = tokens delim s := by
  rw [tokens, List.splitOnP_cons_eq_if_modifyHead, if_pos hb, List.filter_cons_of_neg (by simp)]
  rfl

theorem tokens_append_cons {t : Bytes} (ht : t ≠ []) (hfree : ∀ b ∈ t, delim.contains b = false)
    {b : UInt8} (hb : delim.contains b = true) (s : Bytes) :
    tokens delim (t ++ b :: s) = t :: tokens delim s := by
  rw [tokens, List.splitOnP_append_cons_of_forall_mem hfree b hb, List.filter_cons_of_pos (by simpa using ht)]
  rfl

theorem tokens_eq_singleton {t : Bytes} (ht : t ≠ []) (hfree : ∀ b ∈ t, delim.contains b = false) :
    tokens delim t = [t] := by
  rw [tokens, List.splitOnP_eq_singleton hfree, List.filter_cons_of_pos (by simpa using ht)]
  rfl

theorem tokens_dropWhile (s : Bytes) : tokens delim (s.dropWhile delim.contains) = tokens delim s := by
  induction s with
  | nil => rfl
  | cons b s ih =>
      by_cases hb : delim.contains b = true
      · rw [List.dropWhile_cons_of_pos hb, ih, tokens_cons_delim hb]
      · rw [List.dropWhile_cons_of_neg hb]

/-- A string that starts with a token: the token, one delimiter, and the tokens of what is left. -/
theorem tokens_eq_cons {s : Bytes} (hne : s.takeWhile (!delim.contains ·) ≠ []) :
    tokens delim s = s.takeWhile (!delim.contains ·) ::
      tokens delim ((s.dropWhile (!delim.contains ·)).drop 1) := by
  have hfree : ∀ c ∈ s.takeWhile (!delim.contains ·), delim.contains c = false := by
    intro c hc
    simpa using List.mem_takeWhile_imp hc
  have hsplit : tokens delim s =
      tokens delim (s.takeWhile (!delim.contains ·) ++ s.dropWhile (!delim.contains ·)) := by
    rw [List.takeWhile_append_dropWhile]
  rw [hsplit]
  -- The token ends with the string, or at a delimiter.
  cases hrest : s.dropWhile (!delim.contains ·) with
  | nil => rw [List.append_nil, tokens_eq_singleton hne hfree]; rfl
  | cons d r =>
      have hd : delim.contains d = true := by
        have := List.head?_dropWhile_not (!delim.contains ·) s
        rw [hrest] at this
        simpa using this
      rw [tokens_append_cons hne hfree hd]
      rfl

/-- **`strtok` walks the tokens.** -/
theorem strtok_eq_tokens (delim s : Bytes) :
    (tokens delim s = [] ∧ strtok delim s = none) ∨
      ∃ t r, tokens delim s = t :: tokens delim r ∧ strtok delim s = some (t, r) := by
  rw [← tokens_dropWhile]
  unfold strtok
  have hhead := List.head?_dropWhile_not delim.contains s
  generalize s.dropWhile delim.contains = u at hhead ⊢
  cases u with
  | nil => exact .inl ⟨rfl, rfl⟩
  | cons b bs =>
      have hb : delim.contains b = false := by simpa using hhead
      have hne : (b :: bs).takeWhile (!delim.contains ·) ≠ [] := by
        rw [List.takeWhile_cons_of_pos (by rw [hb]; rfl)]
        exact List.cons_ne_nil _ _
      exact .inr ⟨_, _, tokens_eq_cons hne, rfl⟩

theorem strtok_cons {c : UInt8} (hc : delim.contains c = false) (s : Bytes) : strtok delim (c :: s) =
    some ((c :: s).takeWhile (!delim.contains ·), ((c :: s).dropWhile (!delim.contains ·)).drop 1) := by
  have hc : ¬ delim.contains c = true := by rw [hc]; decide
  unfold strtok
  rw [List.dropWhile_cons_of_neg hc]

/-- A token followed by a delimiter is handed out whole, and the delimiter is overwritten. -/
theorem strtok_append_cons {t : Bytes} (ht : t ≠ []) (hfree : ∀ b ∈ t, delim.contains b = false)
    {b : UInt8} (hb : delim.contains b = true) (s : Bytes) : strtok delim (t ++ b :: s) = some (t, s) := by
  have hnot : ∀ c ∈ t, (!delim.contains c) = true := fun c hc => by rw [hfree c hc]; rfl
  have htake : (t ++ b :: s).takeWhile (!delim.contains ·) = t := by
    simp only [List.takeWhile_append_of_pos hnot, List.takeWhile_cons, hb, Bool.not_true, Bool.false_eq_true,
      if_false, List.append_nil]
  have hdrop : (t ++ b :: s).dropWhile (!delim.contains ·) = b :: s := by
    simp only [List.dropWhile_append_of_pos hnot, List.dropWhile_cons, hb, Bool.not_true, Bool.false_eq_true,
      if_false]
  cases t with
  | nil => exact absurd rfl ht
  | cons c t =>
      rw [List.cons_append] at htake hdrop ⊢
      rw [strtok_cons (hfree c List.mem_cons_self), htake, hdrop]
      rfl

/-- The last token. -/
theorem strtok_eq_self {t : Bytes} (ht : t ≠ []) (hfree : ∀ b ∈ t, delim.contains b = false) :
    strtok delim t = some (t, []) := by
  have hnot : ∀ c ∈ t, (!delim.contains c) = true := fun c hc => by rw [hfree c hc]; rfl
  cases t with
  | nil => exact absurd rfl ht
  | cons c t =>
      rw [strtok_cons (hfree c List.mem_cons_self), List.takeWhile_eq_self_iff.mpr hnot,
        List.dropWhile_eq_nil_iff.mpr hnot]
      rfl

end Tokens

theorem cstr_eq_self {s : Bytes} (h : ∀ b ∈ s, b ≠ 0) : cstr s = s :=
  List.takeWhile_eq_self_iff.mpr (fun b hb => by simpa using h b hb)

/-- The tail of a string, cut off by its length. -/
theorem substr_append (s t : Bytes) :
    substr (s ++ t) (sizeSub (s ++ t).length t.length) t.length = some t := by
  have hpos : sizeSub (s ++ t).length t.length = s.length := by
    rw [sizeSub, List.length_append, if_pos (by omega)]
    omega
  rw [hpos, substr, if_pos (by simp), List.drop_left, List.take_length]

/-! ## Numbers -/

/-- The byte of an ASCII character. -/
def byte (c : Char) : UInt8 := c.val.toUInt8

theorem bytes_ofList {l : List Char} (h : ∀ c ∈ l, c.val ≤ 127) : bytes (String.ofList l) = l.map byte := by
  have hbytes : bytes (String.ofList l) = l.flatMap String.utf8EncodeChar := by
    simp [bytes, String.toUTF8, List.utf8Encode]
  have hsingle : ∀ c ∈ l, String.utf8EncodeChar c = [byte c] := fun c hc =>
    String.utf8EncodeChar_eq_singleton (by simp [Char.utf8Size, h c hc])
  rw [hbytes]
  -- Every character is one byte, so the induction is on the characters alone.
  clear hbytes h
  induction l with
  | nil => rfl
  | cons c l ih => simp_all

def isspace (b : UInt8) : Bool := b == 32 || (9 ≤ b && b ≤ 13)

def isdigit (b : UInt8) : Bool := 48 ≤ b && b ≤ 57

/-- The number a list of digits denotes. -/
def digitsValue (ds : Bytes) : Nat := ds.foldl (fun acc b => 10 * acc + (b.toNat - 48)) 0

/-- `atoi`: leading blanks, a sign, then the digits up to the first other byte; `none` where the number does
    not fit an `int` and the result is undefined. -/
def atoi (s : Bytes) : Option Int :=
  match s.dropWhile isspace with
  | 45 :: ds => int (-(digitsValue (ds.takeWhile isdigit) : Int))
  | 43 :: ds => int (digitsValue (ds.takeWhile isdigit))
  | ds       => int (digitsValue (ds.takeWhile isdigit))

/-- The `%0wld` conversion of `sprintf`. -/
def ld (width : Nat) (n : Int) : List Char :=
  if n < 0 then '-' :: (Nat.toDigits 10 n.natAbs).leftpad (width - 1) '0'
  else (Nat.toDigits 10 n.natAbs).leftpad width '0'

/-! ### Reading back what was printed

What `%0wld` prints of a number that is not negative are the digits of the number behind zeros, which change nothing
for `atoi`. -/

theorem digit_of_mem_ld {width : Nat} {n : Int} (hn : 0 ≤ n) {c : Char} (hc : c ∈ ld width n) :
    c.isDigit = true := by
  rw [ld, if_neg (by omega), List.leftpad, List.mem_append] at hc
  rcases hc with hc | hc
  · rw [List.eq_of_mem_replicate hc]; rfl
  · exact Nat.isDigit_of_mem_toDigits (by decide) (by decide) hc

theorem isDigit_bounds {c : Char} (hc : c.isDigit = true) : 48 ≤ c.val.toNat ∧ c.val.toNat ≤ 57 :=
  Char.isDigit_iff_toNat.mp hc

theorem ascii_of_isDigit {c : Char} (hc : c.isDigit = true) : c.val ≤ 127 := by
  have hbounds := isDigit_bounds hc
  exact UInt32.le_iff_toNat_le.mpr (show c.val.toNat ≤ 127 by omega)

theorem byte_toNat_of_isDigit {c : Char} (hc : c.isDigit = true) : (byte c).toNat = c.val.toNat := by
  have := isDigit_bounds hc
  simp only [byte, UInt32.toNat_toUInt8]
  omega

theorem isdigit_byte {c : Char} (hc : c.isDigit = true) : isdigit (byte c) = true := by
  have hb := isDigit_bounds hc
  have hv := byte_toNat_of_isDigit hc
  simp only [isdigit, UInt8.le_iff_toNat_le, Bool.and_eq_true, decide_eq_true_eq]
  exact ⟨by simp; omega, by simp; omega⟩

theorem digitsValue_map_byte {l : List Char} (hl : ∀ c ∈ l, c.isDigit = true) (acc : Nat) :
    (l.map byte).foldl (fun acc b => 10 * acc + (b.toNat - 48)) acc = Nat.ofDigitChars 10 l acc := by
  induction l generalizing acc with
  | nil => simp
  | cons c l ih =>
      have hc := byte_toNat_of_isDigit (hl c List.mem_cons_self)
      rw [List.map_cons, List.foldl_cons, ih (fun d hd => hl d (List.mem_cons_of_mem _ hd)),
        Nat.ofDigitChars_cons, hc]
      rfl

theorem digitsValue_ld (width : Nat) {n : Int} (hn : 0 ≤ n) : (digitsValue ((ld width n).map byte) : Int) = n := by
  rw [digitsValue, digitsValue_map_byte (fun c hc => digit_of_mem_ld hn hc), ld, if_neg (by omega),
    List.leftpad, Nat.ofDigitChars_append, Nat.ofDigitChars_replicate_zero, Nat.mul_zero,
    Nat.ofDigitChars_ten_toDigits]
  omega

theorem ld_ne_nil (width : Nat) (n : Int) : ld width n ≠ [] := by
  unfold ld
  split
  · simp
  · simp [List.leftpad, Nat.toDigits_ne_nil]

/-- **`atoi` reads back `%0wld`.** -/
theorem atoi_ld {width : Nat} {n : Int} (hn : 0 ≤ n) (hint : InInt n) :
    atoi ((ld width n).map byte) = some n := by
  have hdig : ∀ b ∈ (ld width n).map byte, isdigit b = true := by
    intro b hb
    obtain ⟨c, hc, rfl⟩ := List.mem_map.mp hb
    exact isdigit_byte (digit_of_mem_ld hn hc)
  have htake : ((ld width n).map byte).takeWhile isdigit = (ld width n).map byte :=
    List.takeWhile_eq_self_iff.mpr hdig
  have hval := digitsValue_ld width hn
  have hne : (ld width n).map byte ≠ [] := by simpa using ld_ne_nil width n
  -- A digit is neither a blank nor a sign, so `atoi` takes its last branch on the whole text.
  generalize (ld width n).map byte = ds at *
  cases ds with
  | nil => exact absurd rfl hne
  | cons b bs =>
      have hb : 48 ≤ b.toNat ∧ b.toNat ≤ 57 := by
        simpa [isdigit, UInt8.le_iff_toNat_le] using hdig b List.mem_cons_self
      have hspace : isspace b = false := by
        simp only [isspace, Bool.or_eq_false_iff, beq_eq_false_iff_ne, ne_eq, ← UInt8.toNat_inj,
          Bool.and_eq_false_iff, decide_eq_false_iff_not, UInt8.le_iff_toNat_le]
        refine ⟨by simp; omega, .inr (by simp; omega)⟩
      rw [atoi, List.dropWhile_cons_of_neg (by simp [hspace])]
      split
      · rename_i heq; cases heq; exact absurd hb.1 (by decide)
      · rename_i heq; cases heq; exact absurd hb.1 (by decide)
      · rw [htake, hval, int_of_inInt hint]

end CString
