import Mathlib.Algebra.Field.Rat
import Mathlib.Data.List.Forall2
import Mathlib.Data.Nat.Digits.Defs
import Mathlib.Tactic.Ring
import NewOrbit.Bonds.Importer

/-!
# `Bonds.Numbers` — the numbers that texts and decimals stand for

A grammar of the texts the Java library takes for numbers, with the number each stands for: digits of any script,
a sign, and for a decimal number a point and an exponent. A text stands for one number at most
(`IntegerText.unique`, `DecimalText.unique`), and what `parseInt`, `parseLong` and `new BigDecimal` return is the
number their text stands for. `Decimal128.value` is the number a `Decimal128` encodes.
-/

namespace NewOrbit.Bonds

/-! ## Natural numbers -/

/-- Digits, the first the highest, write the number `n`. -/
def NatText (cs : List Char) (n : Nat) : Prop :=
  cs ≠ [] ∧ ∃ ds, List.Forall₂ (fun c d => digit c = some d) cs ds ∧ n = Nat.ofDigits 10 ds.reverse

theorem mapM_digit_eq_some {cs : List Char} {ds : List Nat} :
    cs.mapM digit = some ds ↔ List.Forall₂ (fun c d => digit c = some d) cs ds := by
  induction cs generalizing ds with
  | nil =>
      rw [List.mapM_nil, List.forall₂_nil_left_iff]
      exact Option.some_inj.trans eq_comm
  | cons c cs ih =>
      rw [List.mapM_cons, List.forall₂_cons_left_iff]
      simp only [Option.bind_eq_bind, Option.bind_eq_some_iff, ih]
      constructor
      · rintro ⟨d, hd, ds', hds, h⟩
        exact ⟨d, ds', hd, hds, (Option.some.inj h).symm⟩
      · rintro ⟨d, ds', hd, hds, rfl⟩
        exact ⟨d, hd, ds', hds, rfl⟩

theorem foldl_digits (ds : List Nat) : ds.foldl (fun n d => 10 * n + d) 0 = Nat.ofDigits 10 ds.reverse := by
  rw [Nat.ofDigits_eq_foldr, List.foldr_reverse]
  congr 1
  funext n d
  exact Nat.add_comm _ _

theorem digits_eq_some {cs : List Char} {n : Nat} : digits cs = some n ↔ NatText cs n := by
  match cs with
  | [] => exact iff_of_false (fun h => by cases h) (fun h => h.1 rfl)
  | c :: cs =>
      rw [digits, NatText, Option.map_eq_some_iff]
      simp only [mapM_digit_eq_some, foldl_digits]
      constructor
      · rintro ⟨ds, hds, rfl⟩
        exact ⟨List.cons_ne_nil c cs, ds, hds, rfl⟩
      · rintro ⟨-, ds, hds, rfl⟩
        exact ⟨ds, hds, rfl⟩

theorem NatText.unique {cs : List Char} {n n' : Nat} (h : NatText cs n) (h' : NatText cs n') : n = n' :=
  Option.some.inj ((digits_eq_some.mpr h).symm.trans (digits_eq_some.mpr h'))

/-- There are only digits in it. -/
theorem NatText.digit_ne_none {cs : List Char} {n : Nat} (h : NatText cs n) : ∀ c ∈ cs, digit c ≠ none := by
  obtain ⟨-, ds, hds, -⟩ := h
  induction hds with
  | nil => exact fun c hc => absurd hc List.not_mem_nil
  | cons hd _ ih =>
      rw [List.forall_mem_cons]
      exact ⟨by simp [hd], ih⟩

theorem NatText.ne_of_mem {cs : List Char} {n : Nat} (h : NatText cs n) {d : Char} (hd : digit d = none) :
    ∀ c ∈ cs, c ≠ d := by
  rintro c hc rfl
  exact h.digit_ne_none c hc hd

/-! ## Signs -/

/-- A text of `U` with a sign in front, or without one. -/
inductive Signed {α : Type} [Neg α] (U : List Char → α → Prop) : List Char → α → Prop
  | plain {cs : List Char} {a : α} (h : U cs a) : Signed U cs a
  | plus {cs : List Char} {a : α} (h : U cs a) : Signed U ('+' :: cs) a
  | minus {cs : List Char} {a : α} (h : U cs a) : Signed U ('-' :: cs) (-a)

/-- Where no unsigned text starts with a sign, signs leave no choice. -/
theorem Signed.unique {α : Type} [Neg α] {U : List Char → α → Prop}
    (hsign : ∀ c cs a, U (c :: cs) a → c ≠ '+' ∧ c ≠ '-')
    (hunique : ∀ cs a a', U cs a → U cs a' → a = a') {cs : List Char} {a a' : α}
    (h : Signed U cs a) (h' : Signed U cs a') : a = a' := by
  cases h with
  | plain h =>
      cases h' with
      | plain h' => exact hunique _ _ _ h h'
      | plus h'  => exact absurd rfl (hsign _ _ _ h).1
      | minus h' => exact absurd rfl (hsign _ _ _ h).2
  | plus h =>
      cases h' with
      | plain h' => exact absurd rfl (hsign _ _ _ h').1
      | plus h'  => exact hunique _ _ _ h h'
  | minus h =>
      cases h' with
      | plain h' => exact absurd rfl (hsign _ _ _ h').2
      | minus h' => exact congrArg _ (hunique _ _ _ h h')

/-! ## Integers -/

/-- A signed text of digits and the integer it stands for. -/
def IntegerText : List Char → Int → Prop := Signed fun cs n => ∃ k : Nat, NatText cs k ∧ n = k

theorem natText_head {c : Char} {cs : List Char} {n : Nat} (h : NatText (c :: cs) n) : c ≠ '+' ∧ c ≠ '-' := by
  exact ⟨h.ne_of_mem (by decide) c List.mem_cons_self, h.ne_of_mem (by decide) c List.mem_cons_self⟩

theorem IntegerText.unique {cs : List Char} {n n' : Int} (h : IntegerText cs n) (h' : IntegerText cs n') :
    n = n' := by
  apply Signed.unique _ _ h h'
  · rintro c cs a ⟨k, hk, -⟩
    exact natText_head hk
  · rintro cs a a' ⟨k, hk, rfl⟩ ⟨k', hk', rfl⟩
    rw [hk.unique hk']

theorem natText_of_digits {cs : List Char} {k : Int} (h : (do let n ← digits cs; pure (n : Int)) = some k) :
    ∃ n : Nat, NatText cs n ∧ k = n := by
  obtain ⟨n, hn, hk⟩ := Option.bind_eq_some_iff.mp h
  exact ⟨n, digits_eq_some.mp hn, (Option.some.inj hk).symm⟩

/-- What is read of a text of digits with a sign is what it stands for. -/
theorem integerText_of_signedDigits {cs : List Char} {n : Int} (h : signedDigits cs = some n) :
    IntegerText cs n := by
  unfold signedDigits at h
  split at h
  · obtain ⟨k, hk, rfl⟩ := Option.map_eq_some_iff.mp h
    exact .minus (natText_of_digits hk)
  · obtain ⟨k, hk, rfl⟩ := Option.map_eq_some_iff.mp h
    exact .plus (natText_of_digits hk)
  · obtain ⟨k, hk, rfl⟩ := Option.map_eq_some_iff.mp h
    exact .plain (natText_of_digits hk)

theorem integerText_of_parseSigned {lo hi n : Int} {s : String} (h : parseSigned lo hi s = .ok n) :
    IntegerText s.toList n := by
  unfold parseSigned at h
  split at h
  · next m hm =>
      split at h
      · rw [← Except.ok.inj h]
        exact integerText_of_signedDigits hm
      · cases h
  · cases h

/-! ## Decimal numbers -/

/-- The number a `BigDecimal` is. -/
def BigDecimal.value (d : BigDecimal) : ℚ := d.unscaledValue * 10 ^ (-d.scale)

/-- The digits of a number, with a point among them or at an end, and how many stand behind it. -/
inductive SignificandText : List Char → Nat → Nat → Prop
  | whole {ds : List Char} {n : Nat} (h : NatText ds n) : SignificandText ds n 0
  | point {whole fraction : List Char} {n : Nat} (h : NatText (whole ++ fraction) n) :
      SignificandText (whole ++ '.' :: fraction) n fraction.length

/-- The power of ten behind a number. -/
inductive ExponentText : List Char → Int → Prop
  | none : ExponentText [] 0
  | some {c : Char} {cs : List Char} {e : Int} (hc : c = 'e' ∨ c = 'E') (h : IntegerText cs e) :
      ExponentText (c :: cs) e

/-- A decimal number without its sign. -/
def UnsignedText (cs : List Char) (q : ℚ) : Prop :=
  ∃ mantissa power n k e, cs = mantissa ++ power ∧ SignificandText mantissa n k ∧ ExponentText power e ∧
    q = n * 10 ^ (e - k)

/-- A decimal number and its value. -/
def DecimalText : List Char → ℚ → Prop := Signed UnsignedText

/-- There are only digits and a point in it. -/
theorem SignificandText.ne_of_mem {cs : List Char} {n k : Nat} (h : SignificandText cs n k) {d : Char}
    (hpoint : d ≠ '.') (hd : digit d = none) : ∀ c ∈ cs, c ≠ d := by
  intro c hc
  cases h with
  | whole h => exact h.ne_of_mem hd c hc
  | point h =>
      rcases List.mem_append.mp hc with hwhole | hrest
      · exact h.ne_of_mem hd c (List.mem_append_left _ hwhole)
      · rcases List.mem_cons.mp hrest with rfl | hfraction
        · exact hpoint.symm
        · exact h.ne_of_mem hd c (List.mem_append_right _ hfraction)

/-- A significand is cut at its point as `significand` cuts it. -/
theorem SignificandText.significand_eq {cs : List Char} {n k : Nat} (h : SignificandText cs n k) :
    significand cs = some (n, k) := by
  have hpoint : digit '.' = none := by decide
  cases h with
  | whole h =>
      have hall : ∀ c ∈ cs, decide (c ≠ '.') = true := fun c hc => decide_eq_true (h.ne_of_mem hpoint c hc)
      simp only [significand, List.takeWhile_eq_self_iff.mpr hall]
      rw [List.drop_of_length_le (Nat.le_succ _), List.append_nil, digits_eq_some.mpr h]
      rfl
  | @point whole fraction _ h =>
      have hall : ∀ c ∈ whole, decide (c ≠ '.') = true := by
        intro c hc
        exact decide_eq_true (h.ne_of_mem hpoint c (List.mem_append_left _ hc))
      have htake : (whole ++ '.' :: fraction).takeWhile (fun c => decide (c ≠ '.')) = whole := by
        rw [List.takeWhile_append_of_pos hall, List.takeWhile_cons_of_neg (by decide), List.append_nil]
      simp only [significand, htake]
      rw [List.drop_append, Nat.add_sub_cancel_left, List.drop_of_length_le (Nat.le_succ _), List.nil_append,
        List.drop_one, List.tail_cons, digits_eq_some.mpr h]
      rfl

/-- `takeWhile` stops at the end or in front of what fails the test. -/
theorem takeWhile_stops {α : Type} (p : α → Bool) (l : List α) :
    l = l.takeWhile p ∨ ∃ a rest, l = l.takeWhile p ++ a :: rest ∧ p a = false := by
  induction l with
  | nil => exact Or.inl rfl
  | cons a l ih =>
      by_cases ha : p a = true
      · rw [List.takeWhile_cons_of_pos ha]
        rcases ih with hend | ⟨b, rest, hl, hb⟩
        · exact Or.inl (congrArg _ hend)
        · exact Or.inr ⟨b, rest, congrArg _ hl, hb⟩
      · rw [List.takeWhile_cons_of_neg ha]
        exact Or.inr ⟨a, l, rfl, Bool.eq_false_of_not_eq_true ha⟩

theorem significandText_of_eq {cs : List Char} {n k : Nat} (h : significand cs = some (n, k)) :
    SignificandText cs n k := by
  obtain ⟨m, hm, hmk⟩ := Option.map_eq_some_iff.mp h
  cases hmk
  generalize hwhole : cs.takeWhile (fun c => decide (c ≠ '.')) = whole at hm ⊢
  have hstops := takeWhile_stops (fun c => decide (c ≠ '.')) cs
  rw [hwhole] at hstops
  rcases hstops with hend | ⟨c, fraction, hrest, hpoint⟩
  · rw [hend, List.drop_of_length_le (Nat.le_succ _), List.append_nil, digits_eq_some] at hm
    rw [hend, List.drop_of_length_le (Nat.le_succ _)]
    exact .whole hm
  · have hc : c = '.' := by simpa using hpoint
    have hdrop : cs.drop (whole.length + 1) = fraction := by
      rw [hrest, List.drop_append, Nat.add_sub_cancel_left, List.drop_of_length_le (Nat.le_succ _),
        List.nil_append, List.drop_one, List.tail_cons]
    rw [hdrop, digits_eq_some] at hm
    rw [hdrop, hrest, hc]
    exact .point hm

theorem ExponentText.unique {cs : List Char} {e e' : Int} (h : ExponentText cs e) (h' : ExponentText cs e') :
    e = e' := by
  cases h with
  | none =>
      cases h'
      rfl
  | some _ h =>
      cases h' with
      | some _ h' => exact h.unique h'

/-- A number is cut at its exponent as `unsignedDecimal` cuts it. -/
theorem takeWhile_mantissa {mantissa power : List Char} {n k : Nat} {e : Int} (h : SignificandText mantissa n k)
    (he : ExponentText power e) :
    (mantissa ++ power).takeWhile (fun c => c ≠ 'e' ∧ c ≠ 'E') = mantissa := by
  have hall : ∀ c ∈ mantissa, decide (c ≠ 'e' ∧ c ≠ 'E') = true := by
    intro c hc
    exact decide_eq_true ⟨h.ne_of_mem (by decide) (by decide) c hc, h.ne_of_mem (by decide) (by decide) c hc⟩
  rw [List.takeWhile_append_of_pos hall]
  cases he with
  | none => rw [List.takeWhile_nil, List.append_nil]
  | some hc _ =>
      rw [List.takeWhile_cons_of_neg (by rcases hc with rfl | rfl <;> decide), List.append_nil]

theorem UnsignedText.unique {cs : List Char} {q q' : ℚ} (h : UnsignedText cs q) (h' : UnsignedText cs q') :
    q = q' := by
  obtain ⟨mantissa, power, n, k, e, rfl, hmantissa, hpower, rfl⟩ := h
  obtain ⟨mantissa', power', n', k', e', hcs, hmantissa', hpower', rfl⟩ := h'
  have htake := takeWhile_mantissa hmantissa hpower
  rw [hcs, takeWhile_mantissa hmantissa' hpower'] at htake
  subst htake
  have hdigits := hmantissa.significand_eq.symm.trans hmantissa'.significand_eq
  cases hdigits
  rw [← List.append_cancel_left hcs] at hpower'
  rw [hpower.unique hpower']

theorem unsignedText_head {c : Char} {cs : List Char} {q : ℚ} (h : UnsignedText (c :: cs) q) :
    c ≠ '+' ∧ c ≠ '-' := by
  obtain ⟨mantissa, power, n, k, e, hcs, hmantissa, -, -⟩ := h
  have hne : mantissa ≠ [] := by
    cases hmantissa with
    | whole h => exact h.1
    | point h => exact List.append_ne_nil_of_right_ne_nil _ (List.cons_ne_nil _ _)
  obtain ⟨d, ds, rfl⟩ := List.exists_cons_of_ne_nil hne
  obtain ⟨rfl, -⟩ := List.cons_eq_cons.mp hcs
  exact ⟨hmantissa.ne_of_mem (by decide) (by decide) c List.mem_cons_self,
    hmantissa.ne_of_mem (by decide) (by decide) c List.mem_cons_self⟩

theorem DecimalText.unique {cs : List Char} {q q' : ℚ} (h : DecimalText cs q) (h' : DecimalText cs q') :
    q = q' :=
  Signed.unique (fun _ _ _ => unsignedText_head) (fun _ _ _ => UnsignedText.unique) h h'

theorem exponentText_of_eq {c : Char} {cs : List Char} {e : Int} (hc : c = 'e' ∨ c = 'E')
    (h : exponent (c :: cs) = some e) : ExponentText (c :: cs) e :=
  .some hc (integerText_of_signedDigits (Option.filter_eq_some_iff.mp h).1)

theorem unsignedText_of_eq {cs : List Char} {d : BigDecimal} (h : unsignedDecimal cs = some d) :
    UnsignedText cs d.value := by
  unfold unsignedDecimal at h
  obtain ⟨⟨n, k⟩, hsignificand, h⟩ := Option.bind_eq_some_iff.mp h
  obtain ⟨e, hexponent, h⟩ := Option.bind_eq_some_iff.mp h
  obtain ⟨-, h⟩ := Option.ite_none_right_eq_some.mp h
  obtain rfl := Option.some.inj h
  have hmantissa := significandText_of_eq hsignificand
  generalize htake : cs.takeWhile (fun c => decide (c ≠ 'e' ∧ c ≠ 'E')) = mantissa at hexponent hmantissa
  have hstops := takeWhile_stops (fun c => decide (c ≠ 'e' ∧ c ≠ 'E')) cs
  rw [htake] at hstops
  have hvalue : (⟨n, k - e⟩ : BigDecimal).value = n * 10 ^ (e - k) := by
    unfold BigDecimal.value
    rw [neg_sub, Int.cast_natCast]
  rw [hvalue]
  rcases hstops with hend | ⟨c, power, hrest, hpower⟩
  · rw [hend, List.drop_of_length_le (le_refl _)] at hexponent
    obtain rfl := Option.some.inj hexponent
    exact ⟨mantissa, [], n, k, 0, by rw [List.append_nil, ← hend], hmantissa, .none, rfl⟩
  · rw [hrest, List.drop_left] at hexponent
    have hc : c = 'e' ∨ c = 'E' := by
      by_contra hc
      rw [not_or] at hc
      simp [hc] at hpower
    exact ⟨mantissa, c :: power, n, k, e, hrest, hmantissa, exponentText_of_eq hc hexponent, rfl⟩

/-- **`new BigDecimal` is exact**: what it returns is the number the text stands for. -/
theorem decimalText_of_bigDecimal {s : String} {d : BigDecimal} (h : bigDecimal s = .ok d) :
    DecimalText s.toList d.value := by
  rw [bigDecimal, orThrow_eq_ok] at h
  split at h
  · next cs hs =>
      obtain ⟨b, hb, rfl⟩ := Option.map_eq_some_iff.mp h
      have hneg : (⟨-b.unscaledValue, b.scale⟩ : BigDecimal).value = -b.value := by
        unfold BigDecimal.value
        rw [Int.cast_neg, neg_mul]
      rw [hs, hneg]
      exact .minus (unsignedText_of_eq hb)
  · next cs hs =>
      rw [hs]
      exact .plus (unsignedText_of_eq h)
  · exact .plain (unsignedText_of_eq h)

/-! ## `Decimal128` -/

/-- The number a `Decimal128` encodes, unless it is an infinity or no number: a sign bit, an exponent of 14 bits
    with a bias, and a coefficient of 113 bits. Where the exponent starts with two ones, the coefficient is out of
    range, and counts as 0, as does one of more than 34 digits. -/
def Decimal128.value (x : Decimal128) : Option ℚ :=
  let high := x.high.toNat
  let sign : ℚ := if high < 2 ^ 63 then 1 else -1
  let coefficient : Nat := high % 2 ^ 49 * 2 ^ 64 + x.low.toNat
  let exponent : Nat := high / 2 ^ 49 % 2 ^ 14
  if 15 * 2 ^ 10 ≤ exponent then none
  else if 3 * 2 ^ 12 ≤ exponent ∨ 10 ^ 34 ≤ coefficient then some 0
  else some (sign * coefficient * 10 ^ ((exponent : Int) - 6176))

/-- A conversion that keeps the number, as that of the driver does where it does not throw. -/
def Exact (decimal128 : BigDecimal → Except JavaException Decimal128) : Prop :=
  ∀ d x, decimal128 d = .ok x → x.value = some d.value

theorem plainDecimal128_exact : Exact Importer.plainDecimal128 := by
  intro d x h
  unfold Importer.plainDecimal128 at h
  split at h
  · next hrange =>
      obtain ⟨unscaledValue, scale⟩ := d
      obtain ⟨hpos, hlt, hlow, hhigh⟩ := hrange
      simp only at hpos hlt hlow hhigh
      obtain rfl := Except.ok.inj h
      -- The exponent has room above the 49 bits that are left 0, and the coefficient fits the low half.
      obtain ⟨exponent, hexponent⟩ : ∃ exponent : Nat, 6176 - scale = exponent :=
        ⟨(6176 - scale).toNat, by omega⟩
      obtain ⟨coefficient, rfl⟩ : ∃ coefficient : Nat, unscaledValue = coefficient :=
        ⟨unscaledValue.toNat, by omega⟩
      have hhighBits : (BitVec.ofInt 64 ((6176 - scale) * 2 ^ 49)).toNat = exponent * 2 ^ 49 := by
        rw [hexponent, BitVec.toNat_ofInt]
        omega
      have hlowBits : (BitVec.ofInt 64 (coefficient : Int)).toNat = coefficient := by
        rw [BitVec.toNat_ofInt]
        omega
      unfold Decimal128.value BigDecimal.value
      simp only [hhighBits, hlowBits]
      rw [if_neg (by omega), if_neg (by omega), if_pos (by omega)]
      have hcoefficient : exponent * 2 ^ 49 % 2 ^ 49 * 2 ^ 64 + coefficient = coefficient := by omega
      have hpower : ((exponent * 2 ^ 49 / 2 ^ 49 % 2 ^ 14 : Nat) : Int) - 6176 = -scale := by omega
      rw [hcoefficient, hpower, one_mul, Int.cast_natCast]
  · cases h

end NewOrbit.Bonds
