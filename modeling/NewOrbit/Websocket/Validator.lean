import NewOrbit.Lib.CString
import NewOrbit.Lib.Utf8

/-!
# `Websocket.Validator` — the UTF-8 validator

A table of 256 classes of octets and of 9 times 16 transitions. Each of its states stands for what must still follow
(`expectOf`), and a transition does what reading an octet does there (`expectOf_step`). So the validator accepts
exactly the well-formed texts (`validate_iff`), also when they come in pieces (`decode_append`).
-/

namespace NewOrbit.Websocket
open CString Utf8

def utf8_accept : Nat := 0

def utf8_reject : Nat := 1

/-- Lookup table for the UTF8 decode state machine -/
def utf8d : Array Nat := #[
  0,0,0,0,0,0,0,0,0,0,0,0,0,0,0,0,0,0,0,0,0,0,0,0,0,0,0,0,0,0,0,0, -- 00..1f
  0,0,0,0,0,0,0,0,0,0,0,0,0,0,0,0,0,0,0,0,0,0,0,0,0,0,0,0,0,0,0,0, -- 20..3f
  0,0,0,0,0,0,0,0,0,0,0,0,0,0,0,0,0,0,0,0,0,0,0,0,0,0,0,0,0,0,0,0, -- 40..5f
  0,0,0,0,0,0,0,0,0,0,0,0,0,0,0,0,0,0,0,0,0,0,0,0,0,0,0,0,0,0,0,0, -- 60..7f
  1,1,1,1,1,1,1,1,1,1,1,1,1,1,1,1,9,9,9,9,9,9,9,9,9,9,9,9,9,9,9,9, -- 80..9f
  7,7,7,7,7,7,7,7,7,7,7,7,7,7,7,7,7,7,7,7,7,7,7,7,7,7,7,7,7,7,7,7, -- a0..bf
  8,8,2,2,2,2,2,2,2,2,2,2,2,2,2,2,2,2,2,2,2,2,2,2,2,2,2,2,2,2,2,2, -- c0..df
  0xa,0x3,0x3,0x3,0x3,0x3,0x3,0x3,0x3,0x3,0x3,0x3,0x3,0x4,0x3,0x3, -- e0..ef
  0xb,0x6,0x6,0x6,0x5,0x8,0x8,0x8,0x8,0x8,0x8,0x8,0x8,0x8,0x8,0x8, -- f0..ff
  0x0,0x1,0x2,0x3,0x5,0x8,0x7,0x1,0x1,0x1,0x4,0x6,0x1,0x1,0x1,0x1, -- s0..s0
  1,1,1,1,1,1,1,1,1,1,1,1,1,1,1,1,1,0,1,1,1,1,1,0,1,0,1,1,1,1,1,1, -- s1..s2
  1,2,1,1,1,1,1,2,1,2,1,1,1,1,1,1,1,1,1,1,1,1,1,2,1,1,1,1,1,1,1,1, -- s3..s4
  1,2,1,1,1,1,1,1,1,2,1,1,1,1,1,1,1,1,1,1,1,1,1,3,1,3,1,1,1,1,1,1, -- s5..s6
  1,3,1,1,1,1,1,3,1,3,1,1,1,1,1,1,1,3,1,1,1,1,1,1,1,1,1,1,1,1,1,1] -- s7..s8

/-- `utf8_validator::validator`. The state is an index into the table. -/
structure Validator where
  state     : Nat
  codepoint : UInt32
  deriving DecidableEq, Repr

namespace Validator

def init : Validator := ⟨utf8_accept, 0⟩

/-- `utf8_validator::decode`, the next octet of a sequence. -/
def step (v : Validator) (byte : UInt8) : Validator :=
  let type := utf8d.getD byte.toNat 0
  { codepoint := if v.state ≠ utf8_accept then (byte &&& 0x3f).toUInt32 ||| (v.codepoint <<< 6)
                 else ((0xff : UInt32) >>> UInt32.ofNat type) &&& byte.toUInt32,
    state     := utf8d.getD (256 + v.state * 16 + type) 0 }

/-- Reads a range of octets, up to the first that ends in a rejection. -/
def decode (v : Validator) : Bytes → Validator × Bool
  | []          => (v, true)
  | byte :: rest =>
    let v' := v.step byte
    if v'.state = utf8_reject then (v', false) else v'.decode rest

def complete (v : Validator) : Bool := v.state = utf8_accept

end Validator

/-- `utf8_validator::validate` -/
def validate (s : Bytes) : Bool :=
  let (v, ok) := Validator.init.decode s
  if !ok then false else v.complete

/-! ## The states -/

/-- What must follow in a state; nothing may after a rejection. -/
def expectOf : Nat → Option Expect
  | 0 => some start
  | 2 => some ⟨1, 0x80, 0xBF⟩
  | 3 => some ⟨2, 0x80, 0xBF⟩
  | 4 => some ⟨2, 0xA0, 0xBF⟩
  | 5 => some ⟨2, 0x80, 0x9F⟩
  | 6 => some ⟨3, 0x90, 0xBF⟩
  | 7 => some ⟨3, 0x80, 0xBF⟩
  | 8 => some ⟨3, 0x80, 0x8F⟩
  | _ => none

namespace Validator

/-- The class of an octet. -/
def classOf (b : Nat) : Nat :=
  if b < 0x80 then 0
  else if b < 0x90 then 1
  else if b < 0xA0 then 9
  else if b < 0xC0 then 7
  else if b < 0xC2 then 8
  else if b < 0xE0 then 2
  else if b = 0xE0 then 10
  else if b = 0xED then 4
  else if b < 0xF0 then 3
  else if b = 0xF0 then 11
  else if b < 0xF4 then 6
  else if b = 0xF4 then 5
  else 8

/-- The transition of a state with an octet of a class. -/
def move : Nat → Nat → Nat
  | 0, 0 => 0
  | 0, 2 => 2
  | 0, 3 => 3
  | 0, 4 => 5
  | 0, 5 => 8
  | 0, 6 => 7
  | 0, 10 => 4
  | 0, 11 => 6
  | 2, 1 | 2, 7 | 2, 9 => 0
  | 3, 1 | 3, 7 | 3, 9 => 2
  | 4, 7 => 2
  | 5, 1 | 5, 9 => 2
  | 6, 7 | 6, 9 => 3
  | 7, 1 | 7, 7 | 7, 9 => 3
  | 8, 1 => 3
  | _, _ => 1

/-- The first part of the table are the classes. -/
theorem utf8d_class : ∀ b < 256, utf8d.getD b 0 = classOf b := by
  decide +kernel

/-- The second part are the transitions. -/
theorem utf8d_move : ∀ s < 9, ∀ type < 12, utf8d.getD (256 + s * 16 + type) 0 = move s type := by
  decide +kernel

/-- What the transitions say of each octet. -/
theorem move_class : ∀ s < 9, ∀ b < 256, classOf b < 12 ∧ move s (classOf b) < 9 ∧
    expectOf (move s (classOf b)) = (expectOf s).bind (·.next (UInt8.ofNat b)) := by
  decide +kernel

/-- Of each row of the table, what it says of each octet. -/
theorem table_rows {s b : Nat} (hs : s < 9) (hb : b < 256) :
    expectOf (utf8d.getD (256 + s * 16 + utf8d.getD b 0) 0) = (expectOf s).bind (·.next (UInt8.ofNat b)) ∧
      utf8d.getD (256 + s * 16 + utf8d.getD b 0) 0 < 9 := by
  obtain ⟨hclass, hlt, hexpect⟩ := move_class s hs b hb
  rw [utf8d_class b hb, utf8d_move s hs _ hclass]
  exact ⟨hexpect, hlt⟩

variable {v : Validator}

theorem state_step_eq (v : Validator) (b : UInt8) :
    (v.step b).state = utf8d.getD (256 + v.state * 16 + utf8d.getD b.toNat 0) 0 := by
  rw [step]

theorem state_step (h : v.state < 9) (b : UInt8) : (v.step b).state < 9 := by
  rw [state_step_eq]
  exact (table_rows h b.toNat_lt).2

/-- **A transition does what reading the octet does.** -/
theorem expectOf_step (h : v.state < 9) (b : UInt8) :
    expectOf (v.step b).state = (expectOf v.state).bind (·.next b) := by
  have hrow := (table_rows h b.toNat_lt).1
  rwa [UInt8.ofNat_toNat, ← state_step_eq] at hrow

theorem expectOf_eq_none_iff {s : Nat} (h : s < 9) : expectOf s = none ↔ s = utf8_reject := by
  revert s
  decide

theorem expectOf_eq_start_iff {s : Nat} (h : s < 9) : expectOf s = some start ↔ s = utf8_accept := by
  revert s
  decide

/-- The validator reads a range as the reader does that keeps what must follow. -/
theorem decode_read (h : v.state < 9) {e : Expect} (he : expectOf v.state = some e) (bs : Bytes) :
    Utf8.read e bs = if (v.decode bs).2 then expectOf (v.decode bs).1.state else none := by
  induction bs generalizing v e with
  | nil => exact he.symm
  | cons b bs ih =>
      have hstep := expectOf_step h b
      rw [he, Option.bind_some] at hstep
      have hlt := state_step h b
      rw [decode]
      by_cases hrej : (v.step b).state = utf8_reject
      · rw [if_pos hrej, Utf8.read, ← hstep, (expectOf_eq_none_iff hlt).mpr hrej]
        rfl
      · obtain ⟨e', he'⟩ := Option.ne_none_iff_exists'.mp (mt (expectOf_eq_none_iff hlt).mp hrej)
        rw [if_neg hrej, Utf8.read, ← hstep, he', Option.bind_some]
        exact ih hlt he'

theorem decode_state (h : v.state < 9) (bs : Bytes) : (v.decode bs).1.state < 9 := by
  induction bs generalizing v with
  | nil => exact h
  | cons b bs ih =>
      rw [decode]
      by_cases hrej : (v.step b).state = utf8_reject
      · rw [if_pos hrej]
        exact state_step h b
      · rw [if_neg hrej]
        exact ih (state_step h b)

/-- No rejection is passed over. -/
theorem decode_ok (hv : v.state ≠ utf8_reject) {bs : Bytes} (hok : (v.decode bs).2 = true) :
    (v.decode bs).1.state ≠ utf8_reject := by
  induction bs generalizing v with
  | nil => exact hv
  | cons b bs ih =>
      rw [decode] at hok ⊢
      by_cases hrej : (v.step b).state = utf8_reject
      · rw [if_pos hrej] at hok
        cases hok
      · rw [if_neg hrej] at hok ⊢
        exact ih hrej hok

/-- A range is accepted whole exactly when its pieces are, one after the other. -/
theorem decode_append (v : Validator) (xs ys : Bytes) :
    v.decode (xs ++ ys) = if (v.decode xs).2 then (v.decode xs).1.decode ys else v.decode xs := by
  induction xs generalizing v with
  | nil => rfl
  | cons b xs ih =>
      rw [List.cons_append, decode, decode]
      by_cases hrej : (v.step b).state = utf8_reject
      · rw [if_pos hrej, if_pos hrej]
        rfl
      · rw [if_neg hrej, if_neg hrej]
        exact ih (v.step b)

end Validator

/-- The validator accepts what the reader reads to its end. -/
theorem validate_read (s : Bytes) : validate s = true ↔ Utf8.read start s = some start := by
  have hread := Validator.decode_read (v := Validator.init) (by decide) rfl s
  have hlt := Validator.decode_state (v := Validator.init) (by decide) s
  rw [hread, validate]
  by_cases hok : (Validator.init.decode s).2 = true
  · simp [hok, Validator.complete, Validator.expectOf_eq_start_iff hlt]
  · simp [hok]

/-- **The validator accepts exactly the well-formed texts.** -/
theorem validate_iff (s : Bytes) : validate s = true ↔ WellFormed s := by
  rw [wellFormed_iff]
  exact validate_read s

example : validate [0xF0, 0x9F, 0x98, 0x80] = true := by decide +kernel

example : validate [0xED, 0xA0, 0x80] = false := by decide +kernel

end NewOrbit.Websocket
