import NewOrbit.Lib.CString

/-!
# `Lib.Stoi` — integers of C++ as texts

`std::to_string` and `std::stoi` on byte strings. `stoi` reads as `strtol` does: leading blanks, a sign, digits, and
then whatever it likes; it throws `invalid_argument` where there are no digits and `out_of_range` where the number
is no `int`. What `to_string` prints, `stoi` reads back (`stoi_to_string`).
-/

namespace CString

/-- `std::to_string` -/
def to_string (n : Int) : Bytes := (ld 0 n).map byte

/-- The number that the text starts with, if it starts with a digit. -/
def number (s : Bytes) : Option Int :=
  if s.takeWhile isdigit = [] then none else some (digitsValue (s.takeWhile isdigit))

/-- `strtol` in base 10; `none` where no conversion can be performed. -/
def strtol (s : Bytes) : Option Int :=
  match s.dropWhile isspace with
  | 45 :: ds => (number ds).map (- ·)
  | 43 :: ds => number ds
  | ds       => number ds

/-- What `stoi` throws. -/
inductive Exception where
  | invalid_argument
  | out_of_range
  deriving DecidableEq, Repr

def stoi (s : Bytes) : Except Exception Int :=
  match strtol s with
  | none   => .error .invalid_argument
  | some n => if InInt n then .ok n else .error .out_of_range

theorem stoi_eq_ok {s : Bytes} {n : Int} : stoi s = .ok n ↔ strtol s = some n ∧ InInt n := by
  unfold stoi
  cases strtol s with
  | none => simp
  | some m =>
      by_cases hm : InInt m
      · simp only [if_pos hm, Except.ok.injEq, Option.some.injEq]
        exact ⟨fun h => ⟨h, h ▸ hm⟩, And.left⟩
      · simp only [if_neg hm, reduceCtorEq, Option.some.injEq, false_iff, not_and]
        rintro rfl
        exact hm

/-! ## Reading back -/

theorem number_digits {l : List Char} (hne : l ≠ []) (hl : ∀ c ∈ l, c.isDigit = true) :
    number (l.map byte) = some (Nat.ofDigitChars 10 l 0 : Int) := by
  have htake : (l.map byte).takeWhile isdigit = l.map byte := by
    apply List.takeWhile_eq_self_iff.mpr
    intro b hb
    obtain ⟨c, hc, rfl⟩ := List.mem_map.mp hb
    exact isdigit_byte (hl c hc)
  rw [number, htake, if_neg (by simpa using hne), digitsValue, digitsValue_map_byte hl]

/-- A digit is neither a blank nor a sign. -/
theorem strtol_of_isdigit {b : UInt8} (hb : isdigit b = true) (s : Bytes) : strtol (b :: s) = number (b :: s) := by
  have hbounds : 48 ≤ b.toNat ∧ b.toNat ≤ 57 := by simpa [isdigit, UInt8.le_iff_toNat_le] using hb
  have hspace : isspace b = false := by
    simp only [isspace, Bool.or_eq_false_iff, beq_eq_false_iff_ne, ne_eq, ← UInt8.toNat_inj,
      Bool.and_eq_false_iff, decide_eq_false_iff_not, UInt8.le_iff_toNat_le]
    refine ⟨by simp; omega, .inr (by simp; omega)⟩
  rw [strtol, List.dropWhile_cons_of_neg (by simp [hspace])]
  split
  · rename_i heq; cases heq; exact absurd hbounds.1 (by decide)
  · rename_i heq; cases heq; exact absurd hbounds.1 (by decide)
  · rfl

theorem strtol_to_string (n : Int) : strtol (to_string n) = some n := by
  have hdigit : ∀ c ∈ Nat.toDigits 10 n.natAbs, c.isDigit = true :=
    fun c hc => Nat.isDigit_of_mem_toDigits (by decide) (by decide) hc
  have hnumber : number ((Nat.toDigits 10 n.natAbs).map byte) = some (n.natAbs : Int) := by
    rw [number_digits Nat.toDigits_ne_nil hdigit, Nat.ofDigitChars_ten_toDigits]
  by_cases hn : n < 0
  · have htext : to_string n = 45 :: (Nat.toDigits 10 n.natAbs).map byte := by
      rw [to_string, ld, if_pos hn]
      simp [byte]
    rw [htext, strtol, List.dropWhile_cons_of_neg (by decide)]
    simp only [hnumber, Option.map_some, Option.some.injEq]
    omega
  · have htext : to_string n = (Nat.toDigits 10 n.natAbs).map byte := by
      rw [to_string, ld, if_neg hn]
      simp
    rw [htext]
    obtain ⟨c, l, hl⟩ := List.exists_cons_of_ne_nil (Nat.toDigits_ne_nil (n := n.natAbs) (b := 10))
    rw [hl] at hdigit hnumber ⊢
    rw [List.map_cons, strtol_of_isdigit (isdigit_byte (hdigit c List.mem_cons_self)), ← List.map_cons, hnumber]
    congr 1
    omega

/-- An integer is printed by digits, after a minus if it is negative. -/
theorem mem_to_string {n : Int} {b : UInt8} (hb : b ∈ to_string n) : b = 45 ∨ isdigit b = true := by
  have hdigit : ∀ c ∈ Nat.toDigits 10 n.natAbs, isdigit (byte c) = true :=
    fun c hc => isdigit_byte (Nat.isDigit_of_mem_toDigits (by decide) (by decide) hc)
  obtain ⟨c, hc, rfl⟩ := List.mem_map.mp hb
  unfold ld at hc
  split at hc
  · rcases List.mem_cons.mp hc with rfl | hc
    · exact .inl rfl
    · exact .inr (hdigit c (by simpa using hc))
  · exact .inr (hdigit c (by simpa using hc))

/-- **`stoi` reads back `to_string`.** -/
theorem stoi_to_string {n : Int} (hn : InInt n) : stoi (to_string n) = .ok n :=
  stoi_eq_ok.mpr ⟨strtol_to_string n, hn⟩

end CString
