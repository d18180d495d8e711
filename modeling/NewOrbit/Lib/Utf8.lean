import Mathlib.Data.Option.Basic
import Mathlib.Data.List.Basic

/-!
# `Lib.Utf8` — reading UTF-8 octet by octet

A text is well formed if it is the encoding of some characters. What must still follow an octet is an `Expect`: how
many more octets, and the range of the next one. A reader that keeps nothing but that accepts exactly the well-formed
texts (`wellFormed_iff`), whatever the pieces in which it reads them (`read_append`).
-/

namespace Utf8

/-- The octets are the encoding of some characters. -/
def WellFormed (bs : List UInt8) : Prop := ∃ cs : List Char, bs = cs.flatMap String.utf8EncodeChar

/-- `more` octets must follow, the next one from `low` to `high`, those behind it from 80 to BF. -/
structure Expect where
  more : Nat
  low  : Nat
  high : Nat
  deriving DecidableEq, Repr

/-- Between two characters. -/
def start : Expect := ⟨0, 0x80, 0xBF⟩

/-- What must follow the first octet of a character. -/
def lead (b : UInt8) : Option Expect :=
  if b.toNat < 0x80 then some start
  else if b.toNat < 0xC2 then none
  else if b.toNat < 0xE0 then some ⟨1, 0x80, 0xBF⟩
  else if b.toNat = 0xE0 then some ⟨2, 0xA0, 0xBF⟩
  else if b.toNat = 0xED then some ⟨2, 0x80, 0x9F⟩
  else if b.toNat < 0xF0 then some ⟨2, 0x80, 0xBF⟩
  else if b.toNat = 0xF0 then some ⟨3, 0x90, 0xBF⟩
  else if b.toNat < 0xF4 then some ⟨3, 0x80, 0xBF⟩
  else if b.toNat = 0xF4 then some ⟨3, 0x80, 0x8F⟩
  else none

/-- What must follow, once `b` has been read. -/
def Expect.next (e : Expect) (b : UInt8) : Option Expect :=
  if e.more = 0 then lead b
  else if e.low ≤ b.toNat ∧ b.toNat ≤ e.high then some ⟨e.more - 1, 0x80, 0xBF⟩
  else none

/-- Reads the octets, and tells what must follow them. -/
def read : Expect → List UInt8 → Option Expect
  | e, []      => some e
  | e, b :: bs => (e.next b).bind fun e' => read e' bs

theorem read_append (e : Expect) (xs ys : List UInt8) : read e (xs ++ ys) = (read e xs).bind fun e' => read e' ys := by
  induction xs generalizing e with
  | nil => rfl
  | cons b xs ih =>
      show (e.next b).bind _ = ((e.next b).bind _).bind _
      rw [Option.bind_assoc]
      exact congrArg _ (funext ih)

/-! ## The characters

By the number of octets in its encoding, a character has a first octet that says how many follow, and every text of
such octets in the ranges of `Expect` is a character. -/

private theorem toNat_octet {n : Nat} (h : n < 256) : (UInt8.ofNat n).toNat = n := by
  rw [UInt8.toNat_ofNat']
  exact Nat.mod_eq_of_lt h

private theorem octet_eq {b : UInt8} {n : Nat} (h : n = b.toNat) : UInt8.ofNat n = b := by
  rw [h, UInt8.ofNat_toNat]

/-- A Unicode scalar value is the number of a character. -/
theorem exists_char {v : Nat} (h : v < 0xD800 ∨ 0xDFFF < v ∧ v < 0x110000) : ∃ c : Char, c.val.toNat = v :=
  ⟨Char.ofNatAux v h, by
    show (UInt32.ofNatLT v _).toNat = v
    rw [UInt32.toNat_ofNatLT]⟩

theorem char_range (c : Char) : c.val.toNat < 0xD800 ∨ 0xDFFF < c.val.toNat ∧ c.val.toNat < 0x110000 := c.valid

theorem encode_one {b : UInt8} (hb : b.toNat < 0x80) : ∃ c, String.utf8EncodeChar c = [b] := by
  obtain ⟨c, hc⟩ := exists_char (v := b.toNat) (by omega)
  refine ⟨c, ?_⟩
  rw [String.utf8EncodeChar, if_pos (by omega), octet_eq hc]

theorem encode_two {b x : UInt8} (hb : 0xC2 ≤ b.toNat ∧ b.toNat < 0xE0) (hx : 0x80 ≤ x.toNat ∧ x.toNat ≤ 0xBF) :
    ∃ c, String.utf8EncodeChar c = [b, x] := by
  obtain ⟨c, hc⟩ := exists_char (v := (b.toNat - 0xC0) * 64 + (x.toNat - 0x80)) (by omega)
  refine ⟨c, ?_⟩
  rw [String.utf8EncodeChar, if_neg (by omega), if_pos (by omega), octet_eq (b := b) (by omega),
    octet_eq (b := x) (by omega)]

theorem encode_three {b x y : UInt8} (hb : 0xE0 ≤ b.toNat ∧ b.toNat < 0xF0) (hx : 0x80 ≤ x.toNat ∧ x.toNat ≤ 0xBF)
    (hy : 0x80 ≤ y.toNat ∧ y.toNat ≤ 0xBF) (hlow : b.toNat = 0xE0 → 0xA0 ≤ x.toNat)
    (hhigh : b.toNat = 0xED → x.toNat ≤ 0x9F) : ∃ c, String.utf8EncodeChar c = [b, x, y] := by
  obtain ⟨c, hc⟩ := exists_char (v := (b.toNat - 0xE0) * 4096 + (x.toNat - 0x80) * 64 + (y.toNat - 0x80)) (by omega)
  refine ⟨c, ?_⟩
  rw [String.utf8EncodeChar, if_neg (by omega), if_neg (by omega), if_pos (by omega), octet_eq (b := b) (by omega),
    octet_eq (b := x) (by omega), octet_eq (b := y) (by omega)]

theorem encode_four {b x y z : UInt8} (hb : 0xF0 ≤ b.toNat ∧ b.toNat < 0xF5) (hx : 0x80 ≤ x.toNat ∧ x.toNat ≤ 0xBF)
    (hy : 0x80 ≤ y.toNat ∧ y.toNat ≤ 0xBF) (hz : 0x80 ≤ z.toNat ∧ z.toNat ≤ 0xBF)
    (hlow : b.toNat = 0xF0 → 0x90 ≤ x.toNat) (hhigh : b.toNat = 0xF4 → x.toNat ≤ 0x8F) :
    ∃ c, String.utf8EncodeChar c = [b, x, y, z] := by
  obtain ⟨c, hc⟩ := exists_char (v := (b.toNat - 0xF0) * 262144 + (x.toNat - 0x80) * 4096 + (y.toNat - 0x80) * 64 +
    (z.toNat - 0x80)) (by omega)
  refine ⟨c, ?_⟩
  rw [String.utf8EncodeChar, if_neg (by omega), if_neg (by omega), if_neg (by omega), octet_eq (b := b) (by omega),
    octet_eq (b := x) (by omega), octet_eq (b := y) (by omega), octet_eq (b := z) (by omega)]

/-! ## What is accepted

The reader is at the start again behind each character (`read_char`). Conversely what it accepts begins with a
character, and the rest is accepted again (`read_start_inv`). -/

theorem next_start (b : UInt8) : start.next b = lead b := rfl

theorem next_more {k low high : Nat} {b : UInt8} (hlow : low ≤ b.toNat) (hhigh : b.toNat ≤ high) :
    (Expect.mk (k + 1) low high).next b = some ⟨k, 0x80, 0xBF⟩ := by
  rw [Expect.next, if_neg (Nat.succ_ne_zero k), if_pos ⟨hlow, hhigh⟩]
  rfl

/-- An octet that may follow leaves one less to follow. -/
theorem next_more_inv {k low high : Nat} {b : UInt8} {e : Expect} (h : (Expect.mk (k + 1) low high).next b = some e) :
    (low ≤ b.toNat ∧ b.toNat ≤ high) ∧ e = ⟨k, 0x80, 0xBF⟩ := by
  rw [Expect.next, if_neg (Nat.succ_ne_zero k)] at h
  split at h
  · rename_i hrange
    exact ⟨hrange, (Option.some.inj h).symm⟩
  · cases h

/-- The octets of a character are accepted. -/
theorem read_char (c : Char) : read start (String.utf8EncodeChar c) = some start := by
  have hrange := char_range c
  rw [String.utf8EncodeChar]
  split
  · rename_i h1
    rw [read, next_start, lead, if_pos (by rw [toNat_octet] <;> omega)]
    rfl
  · rename_i h1
    split
    · rename_i h2
      rw [read, next_start, lead, toNat_octet (by omega), if_neg (by omega), if_neg (by omega), if_pos (by omega)]
      show (Expect.next ⟨1, 0x80, 0xBF⟩ _).bind _ = some start
      rw [next_more (by rw [toNat_octet] <;> omega) (by rw [toNat_octet] <;> omega)]
      rfl
    · rename_i h2
      -- The range of the second octet depends on the first, and keeps the surrogates and the short forms out.
      split
      · rename_i h3
        have hlead : ∃ low high, lead (UInt8.ofNat (c.val.toNat / 4096 % 0x10 + 0xe0)) = some ⟨2, low, high⟩ ∧
            low ≤ c.val.toNat / 64 % 0x40 + 0x80 ∧ c.val.toNat / 64 % 0x40 + 0x80 ≤ high := by
          rw [lead, toNat_octet (by omega), if_neg (by omega), if_neg (by omega), if_neg (by omega)]
          split
          · exact ⟨_, _, rfl, by omega, by omega⟩
          · split
            · exact ⟨_, _, rfl, by omega, by omega⟩
            · rw [if_pos (by omega)]
              exact ⟨_, _, rfl, by omega, by omega⟩
        obtain ⟨low, high, hlead, hlow, hhigh⟩ := hlead
        rw [read, next_start, hlead]
        show (Expect.next ⟨2, low, high⟩ _).bind _ = some start
        rw [next_more (by rw [toNat_octet] <;> omega) (by rw [toNat_octet] <;> omega)]
        show (Expect.next ⟨1, 0x80, 0xBF⟩ _).bind _ = some start
        rw [next_more (by rw [toNat_octet] <;> omega) (by rw [toNat_octet] <;> omega)]
        rfl
      · rename_i h3
        have hlead : ∃ low high, lead (UInt8.ofNat (c.val.toNat / 262144 % 0x08 + 0xf0)) = some ⟨3, low, high⟩ ∧
            low ≤ c.val.toNat / 4096 % 0x40 + 0x80 ∧ c.val.toNat / 4096 % 0x40 + 0x80 ≤ high := by
          rw [lead, toNat_octet (by omega), if_neg (by omega), if_neg (by omega), if_neg (by omega),
            if_neg (by omega), if_neg (by omega), if_neg (by omega)]
          split
          · exact ⟨_, _, rfl, by omega, by omega⟩
          · split
            · exact ⟨_, _, rfl, by omega, by omega⟩
            · rw [if_pos (by omega)]
              exact ⟨_, _, rfl, by omega, by omega⟩
        obtain ⟨low, high, hlead, hlow, hhigh⟩ := hlead
        rw [read, next_start, hlead]
        show (Expect.next ⟨3, low, high⟩ _).bind _ = some start
        rw [next_more (by rw [toNat_octet] <;> omega) (by rw [toNat_octet] <;> omega)]
        show (Expect.next ⟨2, 0x80, 0xBF⟩ _).bind _ = some start
        rw [next_more (by rw [toNat_octet] <;> omega) (by rw [toNat_octet] <;> omega)]
        show (Expect.next ⟨1, 0x80, 0xBF⟩ _).bind _ = some start
        rw [next_more (by rw [toNat_octet] <;> omega) (by rw [toNat_octet] <;> omega)]
        rfl

theorem read_chars (cs : List Char) : read start (cs.flatMap String.utf8EncodeChar) = some start := by
  induction cs with
  | nil => rfl
  | cons c cs ih => rw [List.flatMap_cons, read_append, read_char]; exact ih

/-- Where octets must follow, the next one is there. -/
theorem read_more_inv {k low high : Nat} {bs : List UInt8} (h : read ⟨k + 1, low, high⟩ bs = some start) :
    ∃ b rest, bs = b :: rest ∧ (low ≤ b.toNat ∧ b.toNat ≤ high) ∧ read ⟨k, 0x80, 0xBF⟩ rest = some start := by
  cases bs with
  | nil => exact absurd (congrArg Expect.more (Option.some.inj h)) (Nat.succ_ne_zero k)
  | cons b rest =>
      obtain ⟨e, he, hrest⟩ := Option.bind_eq_some_iff.mp h
      obtain ⟨hrange, rfl⟩ := next_more_inv he
      exact ⟨b, rest, rfl, hrange, hrest⟩

/-- What is accepted starts with a character. -/
theorem read_start_inv {b : UInt8} {bs : List UInt8} (h : read start (b :: bs) = some start) :
    ∃ c rest, b :: bs = String.utf8EncodeChar c ++ rest ∧ read start rest = some start := by
  obtain ⟨e, he, hbs⟩ := Option.bind_eq_some_iff.mp h
  rw [next_start] at he
  have two : ∀ low high, 0x80 ≤ low → high ≤ 0xBF → 0xE0 ≤ b.toNat → b.toNat < 0xF0 →
      (b.toNat = 0xE0 → 0xA0 ≤ low) → (b.toNat = 0xED → high ≤ 0x9F) → e = ⟨2, low, high⟩ →
      ∃ c rest, b :: bs = String.utf8EncodeChar c ++ rest ∧ read start rest = some start := by
    rintro low high hlow hhigh hb hb' hE0 hED rfl
    obtain ⟨x, xs, rfl, hx, hxs⟩ := read_more_inv hbs
    obtain ⟨y, ys, rfl, hy, hys⟩ := read_more_inv hxs
    obtain ⟨c, hc⟩ := encode_three (b := b) (x := x) (y := y) ⟨hb, hb'⟩ ⟨by omega, by omega⟩ hy
      (fun heq => Nat.le_trans (hE0 heq) hx.1) (fun heq => Nat.le_trans hx.2 (hED heq))
    exact ⟨c, ys, by rw [hc]; rfl, hys⟩
  have three : ∀ low high, 0x80 ≤ low → high ≤ 0xBF → 0xF0 ≤ b.toNat → b.toNat < 0xF5 →
      (b.toNat = 0xF0 → 0x90 ≤ low) → (b.toNat = 0xF4 → high ≤ 0x8F) → e = ⟨3, low, high⟩ →
      ∃ c rest, b :: bs = String.utf8EncodeChar c ++ rest ∧ read start rest = some start := by
    rintro low high hlow hhigh hb hb' hF0 hF4 rfl
    obtain ⟨x, xs, rfl, hx, hxs⟩ := read_more_inv hbs
    obtain ⟨y, ys, rfl, hy, hys⟩ := read_more_inv hxs
    obtain ⟨z, zs, rfl, hz, hzs⟩ := read_more_inv hys
    obtain ⟨c, hc⟩ := encode_four (b := b) (x := x) (y := y) (z := z) ⟨hb, hb'⟩ ⟨by omega, by omega⟩ hy hz
      (fun heq => Nat.le_trans (hF0 heq) hx.1) (fun heq => Nat.le_trans hx.2 (hF4 heq))
    exact ⟨c, zs, by rw [hc]; rfl, hzs⟩
  rw [lead] at he
  split at he
  · rename_i h1
    obtain ⟨c, hc⟩ := encode_one h1
    exact ⟨c, bs, by rw [hc]; rfl, Option.some.inj he ▸ hbs⟩
  split at he
  · cases he
  split at he
  · rename_i h1 h2 h3
    cases Option.some.inj he
    obtain ⟨x, xs, rfl, hx, hxs⟩ := read_more_inv hbs
    obtain ⟨c, hc⟩ := encode_two (b := b) (x := x) ⟨by omega, h3⟩ hx
    exact ⟨c, xs, by rw [hc]; rfl, hxs⟩
  split at he
  · exact two _ _ (by omega) (by omega) (by omega) (by omega) (by omega) (by omega) (Option.some.inj he).symm
  split at he
  · exact two _ _ (by omega) (by omega) (by omega) (by omega) (by omega) (by omega) (Option.some.inj he).symm
  split at he
  · exact two _ _ (by omega) (by omega) (by omega) (by omega) (by omega) (by omega) (Option.some.inj he).symm
  split at he
  · exact three _ _ (by omega) (by omega) (by omega) (by omega) (by omega) (by omega) (Option.some.inj he).symm
  split at he
  · exact three _ _ (by omega) (by omega) (by omega) (by omega) (by omega) (by omega) (Option.some.inj he).symm
  split at he
  · exact three _ _ (by omega) (by omega) (by omega) (by omega) (by omega) (by omega) (Option.some.inj he).symm
  · cases he

/-- **The reader accepts exactly the well-formed texts.** -/
theorem wellFormed_iff (bs : List UInt8) : WellFormed bs ↔ read start bs = some start := by
  constructor
  · rintro ⟨cs, rfl⟩
    exact read_chars cs
  · -- The induction is on a bound for the length, as a character takes one to four octets.
    suffices hlen : ∀ n (bs : List UInt8), bs.length < n → read start bs = some start → WellFormed bs from
      hlen _ bs (Nat.lt_succ_self _)
    intro n
    induction n with
    | zero => intro bs hn; omega
    | succ n ih =>
        intro bs hn h
        cases bs with
        | nil => exact ⟨[], rfl⟩
        | cons b bs =>
            obtain ⟨c, rest, heq, hrest⟩ := read_start_inv h
            have hpos : 0 < (String.utf8EncodeChar c).length := by rw [String.length_utf8EncodeChar]; exact c.utf8Size_pos
            have hlen := congrArg List.length heq
            rw [List.length_append] at hlen
            obtain ⟨cs, hcs⟩ := ih rest (by omega) hrest
            exact ⟨c :: cs, by rw [heq, hcs, List.flatMap_cons]⟩

instance (bs : List UInt8) : Decidable (WellFormed bs) := decidable_of_iff _ (wellFormed_iff bs).symm

theorem WellFormed.append {xs ys : List UInt8} (hx : WellFormed xs) (hy : WellFormed ys) : WellFormed (xs ++ ys) := by
  obtain ⟨cs, rfl⟩ := hx
  obtain ⟨ds, rfl⟩ := hy
  exact ⟨cs ++ ds, List.flatMap_append.symm⟩

end Utf8
