import NewOrbit.Websocket.Mask

/-!
# `Websocket.Frame` — frame headers

A frame begins with two octets, its basic header; behind them come the size of the payload, unless it is small, and
the masking key, if there is one. What is written into a header is read back from it: the bits of the basic header
(`getFin_make` and those after it), the size and the key (`ExtendedHeader.Holds`).
-/

namespace NewOrbit.Websocket
open CString Framing Octets

inductive Opcode
  | continuation | text | binary | rsv3 | rsv4 | rsv5 | rsv6 | rsv7
  | close | ping | pong | control_rsvb | control_rsvc | control_rsvd | control_rsve | control_rsvf
  deriving DecidableEq, Repr

namespace Opcode

def code : Opcode → Nat
  | continuation => 0x0
  | text         => 0x1
  | binary       => 0x2
  | rsv3         => 0x3
  | rsv4         => 0x4
  | rsv5         => 0x5
  | rsv6         => 0x6
  | rsv7         => 0x7
  | close        => 0x8
  | ping         => 0x9
  | pong         => 0xA
  | control_rsvb => 0xB
  | control_rsvc => 0xC
  | control_rsvd => 0xD
  | control_rsve => 0xE
  | control_rsvf => 0xF

/-- `opcode::value` of four bits. -/
def ofCode : Nat → Opcode
  | 0x0 => continuation
  | 0x1 => text
  | 0x2 => binary
  | 0x3 => rsv3
  | 0x4 => rsv4
  | 0x5 => rsv5
  | 0x6 => rsv6
  | 0x7 => rsv7
  | 0x8 => close
  | 0x9 => ping
  | 0xA => pong
  | 0xB => control_rsvb
  | 0xC => control_rsvc
  | 0xD => control_rsvd
  | 0xE => control_rsve
  | _   => control_rsvf

def reserved (v : Opcode) : Bool :=
  (rsv3.code ≤ v.code && v.code ≤ rsv7.code) || (control_rsvb.code ≤ v.code && v.code ≤ control_rsvf.code)

/-- Invalid opcodes require more than four bits. -/
def invalid (v : Opcode) : Bool := 0xF < v.code

def isControl (v : Opcode) : Bool := 0x8 ≤ v.code

end Opcode

/-! ## Sizes -/

/-- `limits::payload_size_basic` -/
def payloadSizeBasic : Nat := 125

/-- `limits::payload_size_extended` -/
def payloadSizeExtended : Nat := 0xFFFF

/-- `limits::close_reason_size` -/
def closeReasonSize : Nat := 123

def payloadSizeCode16bit : UInt8 := 0x7E

def payloadSizeCode64bit : UInt8 := 0x7F

/-! ## The basic header -/

structure BasicHeader where
  b0 : UInt8
  b1 : UInt8
  deriving DecidableEq, Repr

/-- What the basic header says of the size. -/
def basicValue (size : Nat) : UInt8 :=
  if size ≤ payloadSizeBasic then UInt8.ofNat size
  else if size ≤ payloadSizeExtended then payloadSizeCode16bit
  else payloadSizeCode64bit

namespace BasicHeader

/-- The first octet, built up bit by bit. -/
def firstOctet (op : Opcode) (fin rsv1 rsv2 rsv3 : Bool) : UInt8 :=
  let b0 := if fin then 0x80 else 0
  let b0 := if rsv1 then b0 ||| 0x40 else b0
  let b0 := if rsv2 then b0 ||| 0x20 else b0
  let b0 := if rsv3 then b0 ||| 0x10 else b0
  b0 ||| (UInt8.ofNat op.code &&& 0x0F)

/-- The constructor of `basic_header`. -/
def make (op : Opcode) (size : Nat) (fin mask rsv1 rsv2 rsv3 : Bool) : BasicHeader where
  b0 := firstOctet op fin rsv1 rsv2 rsv3
  b1 := (if mask then 0x80 else 0) ||| basicValue size

end BasicHeader

def getFin (h : BasicHeader) : Bool := h.b0 &&& 0x80 = 0x80

def getRsv1 (h : BasicHeader) : Bool := h.b0 &&& 0x40 = 0x40

def getRsv2 (h : BasicHeader) : Bool := h.b0 &&& 0x20 = 0x20

def getRsv3 (h : BasicHeader) : Bool := h.b0 &&& 0x10 = 0x10

def getOpcode (h : BasicHeader) : Opcode := Opcode.ofCode (h.b0 &&& 0x0F).toNat

def getMasked (h : BasicHeader) : Bool := h.b1 &&& 0x80 = 0x80

def getBasicSize (h : BasicHeader) : UInt8 := h.b1 &&& 0x7F

def getMaskingKeyOffset (h : BasicHeader) : Nat :=
  if getBasicSize h = payloadSizeCode16bit then 2
  else if getBasicSize h = payloadSizeCode64bit then 8
  else 0

def getHeaderLen (h : BasicHeader) : Nat :=
  let size := 2 + getMaskingKeyOffset h
  if getMasked h then size + 4 else size

/-! ## The extended header -/

/-- Twelve octets: the size in as many as it takes, and the key behind it. -/
structure ExtendedHeader where
  bytes  : Bytes
  length : bytes.length = 12

namespace ExtendedHeader

def zero : ExtendedHeader := ⟨List.replicate 12 0, rfl⟩

/-- `std::copy` to `bytes + offset`. What would be past the end is not written; the code never gets there
    (`Hybi13.Sound`). -/
def copy (e : ExtendedHeader) (offset : Nat) (src : Bytes) : ExtendedHeader where
  bytes := (e.bytes.take offset ++ src ++ e.bytes.drop (offset + src.length)).take 12
  length := by
    have h := e.length
    simp only [List.length_take, List.length_append, List.length_drop]
    omega

/-- `copy_payload`, with the number of octets the size takes. -/
def copyPayload (e : ExtendedHeader) (payload_size : Nat) : ExtendedHeader × Nat :=
  let payload_offset := if payload_size ≤ payloadSizeBasic then 8 else if payload_size ≤ payloadSizeExtended then 6 else 0
  (e.copy 0 ((be 8 payload_size).drop payload_offset), 8 - payload_offset)

def ofSize (payload_size : Nat) : ExtendedHeader := (zero.copyPayload payload_size).1

def ofSizeKey (little : Bool) (payload_size : Nat) (masking_key : MaskingKey) : ExtendedHeader :=
  let (e, offset) := zero.copyPayload payload_size
  e.copy offset (masking_key.c little)

end ExtendedHeader

def prepareHeader (h : BasicHeader) (e : ExtendedHeader) : Bytes := h.b0 :: h.b1 :: e.bytes.take (getHeaderLen h - 2)

def getMaskingKey (little : Bool) (h : BasicHeader) (e : ExtendedHeader) : MaskingKey :=
  if !getMasked h then ⟨0⟩
  else
    let offset := getMaskingKeyOffset h
    ⟨UInt32.ofNat (load little ((e.bytes.drop offset).take 4))⟩

def getExtendedSize (e : ExtendedHeader) : Nat := ofBe (e.bytes.take 2)

def getJumboSize (e : ExtendedHeader) : Nat := ofBe (e.bytes.take 8)

def getPayloadSize (h : BasicHeader) (e : ExtendedHeader) : Nat :=
  let val := getBasicSize h
  if val.toNat ≤ payloadSizeBasic then val.toNat
  else if val = payloadSizeCode16bit then getExtendedSize e
  else getJumboSize e

/-! ## What is written is read

The bits of the two octets are checked by cases, all values of the octets considered. The extended header is filled
from the front (`Holds`): first the size, which is written in one of three ways (`size_cases`), and behind it the key.
-/

theorem firstOctet_bits (op : Opcode) (fin rsv1 rsv2 rsv3 : Bool) :
    (BasicHeader.firstOctet op fin rsv1 rsv2 rsv3 &&& 0x80 = 0x80 ↔ fin = true) ∧
      (BasicHeader.firstOctet op fin rsv1 rsv2 rsv3 &&& 0x40 = 0x40 ↔ rsv1 = true) ∧
      (BasicHeader.firstOctet op fin rsv1 rsv2 rsv3 &&& 0x20 = 0x20 ↔ rsv2 = true) ∧
      (BasicHeader.firstOctet op fin rsv1 rsv2 rsv3 &&& 0x10 = 0x10 ↔ rsv3 = true) ∧
      Opcode.ofCode (BasicHeader.firstOctet op fin rsv1 rsv2 rsv3 &&& 0x0F).toNat = op := by
  cases op <;> cases fin <;> cases rsv1 <;> cases rsv2 <;> cases rsv3 <;> decide

theorem basicValue_lt (size : Nat) : (basicValue size).toNat < 128 := by
  rw [basicValue]
  split
  · rename_i h
    rw [UInt8.toNat_ofNat']
    exact Nat.lt_of_le_of_lt (Nat.mod_le _ _) (Nat.lt_of_le_of_lt h (by decide))
  · split <;> decide

theorem secondOctet_bits : ∀ n < 128, ∀ mask : Bool,
    (((if mask then 0x80 else 0) ||| UInt8.ofNat n) &&& 0x80 = 0x80 ↔ mask = true) ∧
      ((if mask then 0x80 else 0) ||| UInt8.ofNat n) &&& 0x7F = UInt8.ofNat n := by
  decide +kernel

section Make
variable (op : Opcode) (size : Nat) (fin masked rsv1 rsv2 rsv3 : Bool)

@[simp] theorem getFin_make : getFin (.make op size fin masked rsv1 rsv2 rsv3) = fin := by
  rw [Bool.eq_iff_iff, getFin, decide_eq_true_iff]
  exact (firstOctet_bits op fin rsv1 rsv2 rsv3).1

@[simp] theorem getRsv1_make : getRsv1 (.make op size fin masked rsv1 rsv2 rsv3) = rsv1 := by
  rw [Bool.eq_iff_iff, getRsv1, decide_eq_true_iff]
  exact (firstOctet_bits op fin rsv1 rsv2 rsv3).2.1

@[simp] theorem getRsv2_make : getRsv2 (.make op size fin masked rsv1 rsv2 rsv3) = rsv2 := by
  rw [Bool.eq_iff_iff, getRsv2, decide_eq_true_iff]
  exact (firstOctet_bits op fin rsv1 rsv2 rsv3).2.2.1

@[simp] theorem getRsv3_make : getRsv3 (.make op size fin masked rsv1 rsv2 rsv3) = rsv3 := by
  rw [Bool.eq_iff_iff, getRsv3, decide_eq_true_iff]
  exact (firstOctet_bits op fin rsv1 rsv2 rsv3).2.2.2.1

@[simp] theorem getOpcode_make : getOpcode (.make op size fin masked rsv1 rsv2 rsv3) = op :=
  (firstOctet_bits op fin rsv1 rsv2 rsv3).2.2.2.2

theorem secondOctet_make :
    (getMasked (.make op size fin masked rsv1 rsv2 rsv3) = true ↔ masked = true) ∧
      getBasicSize (.make op size fin masked rsv1 rsv2 rsv3) = basicValue size := by
  have h := secondOctet_bits (basicValue size).toNat (basicValue_lt size) masked
  rw [UInt8.ofNat_toNat] at h
  rw [getMasked, decide_eq_true_iff]
  exact h

@[simp] theorem getMasked_make : getMasked (.make op size fin masked rsv1 rsv2 rsv3) = masked :=
  Bool.eq_iff_iff.mpr (secondOctet_make op size fin masked rsv1 rsv2 rsv3).1

@[simp] theorem getBasicSize_make : getBasicSize (.make op size fin masked rsv1 rsv2 rsv3) = basicValue size :=
  (secondOctet_make op size fin masked rsv1 rsv2 rsv3).2

end Make

/-- The octets of the size. -/
def sizeField (size : Nat) : Bytes :=
  if size ≤ payloadSizeBasic then [] else if size ≤ payloadSizeExtended then be 2 size else be 8 size

/-- The three ways to write a size. -/
theorem size_cases (size : Nat) :
    (size ≤ payloadSizeBasic ∧ sizeField size = [] ∧ basicValue size = UInt8.ofNat size) ∨
      (payloadSizeBasic < size ∧ size ≤ payloadSizeExtended ∧ sizeField size = be 2 size ∧
        basicValue size = payloadSizeCode16bit) ∨
      (payloadSizeExtended < size ∧ sizeField size = be 8 size ∧ basicValue size = payloadSizeCode64bit) := by
  rw [sizeField, basicValue]
  by_cases h1 : size ≤ payloadSizeBasic
  · exact .inl ⟨h1, if_pos h1, if_pos h1⟩
  · rw [if_neg h1, if_neg h1]
    by_cases h2 : size ≤ payloadSizeExtended
    · exact .inr (.inl ⟨Nat.lt_of_not_le h1, h2, if_pos h2, if_pos h2⟩)
    · exact .inr (.inr ⟨Nat.lt_of_not_le h2, if_neg h2, if_neg h2⟩)

theorem toNat_small {size : Nat} (h : size ≤ payloadSizeBasic) : (UInt8.ofNat size).toNat = size := by
  rw [UInt8.toNat_ofNat']
  exact Nat.mod_eq_of_lt (Nat.lt_of_le_of_lt h (by decide))

theorem small_ne_codes {size : Nat} (h : size ≤ payloadSizeBasic) :
    UInt8.ofNat size ≠ payloadSizeCode16bit ∧ UInt8.ofNat size ≠ payloadSizeCode64bit := by
  have hsmall := toNat_small h
  have hle : size ≤ 125 := h
  refine ⟨fun heq => ?_, fun heq => ?_⟩
  · have h126 : size = 126 := hsmall.symm.trans (congrArg UInt8.toNat heq)
    omega
  · have h127 : size = 127 := hsmall.symm.trans (congrArg UInt8.toNat heq)
    omega

/-- The key is written behind the size. -/
theorem maskingKeyOffset_of_basicSize {h : BasicHeader} {size : Nat} (hsize : getBasicSize h = basicValue size) :
    getMaskingKeyOffset h = (sizeField size).length := by
  rw [getMaskingKeyOffset, hsize]
  obtain ⟨hle, hfield, hvalue⟩ | ⟨_, _, hfield, hvalue⟩ | ⟨_, hfield, hvalue⟩ := size_cases size
  · rw [hfield, hvalue, if_neg (small_ne_codes hle).1, if_neg (small_ne_codes hle).2]
    rfl
  · rw [hfield, hvalue, if_pos rfl, length_be]
  · rw [hfield, hvalue, if_neg (by decide), if_pos rfl, length_be]

theorem length_sizeField_le (size : Nat) : (sizeField size).length ≤ 8 := by
  obtain ⟨_, hfield, _⟩ | ⟨_, _, hfield, _⟩ | ⟨_, hfield, _⟩ := size_cases size
  · rw [hfield]
    exact Nat.zero_le 8
  · rw [hfield, length_be]
    decide
  · rw [hfield, length_be]

namespace ExtendedHeader

/-- The header begins with these octets. -/
def Holds (e : ExtendedHeader) (bs : Bytes) : Prop := bs <+: e.bytes

variable {e : ExtendedHeader} {xs ys : Bytes}

theorem holds_nil (e : ExtendedHeader) : e.Holds [] := List.nil_prefix

/-- Octets are added behind those that are there. -/
theorem Holds.copy (h : e.Holds xs) (hfit : xs.length + ys.length ≤ 12) : (e.copy xs.length ys).Holds (xs ++ ys) := by
  obtain ⟨rest, hrest⟩ := h
  show xs ++ ys <+: (e.bytes.take xs.length ++ ys ++ e.bytes.drop (xs.length + ys.length)).take 12
  rw [← hrest, List.take_left]
  refine List.prefix_take_iff.mpr ⟨List.prefix_append _ _, ?_⟩
  rw [List.length_append]
  exact hfit

/-- Octets may be copied piece by piece. -/
theorem copy_append (e : ExtendedHeader) {offset : Nat} {xs ys : Bytes} (hfit : offset + xs.length + ys.length ≤ 12) :
    (e.copy offset xs).copy (offset + xs.length) ys = e.copy offset (xs ++ ys) := by
  have hlen := e.length
  have hfront : (e.bytes.take offset ++ xs).length = offset + xs.length := by
    rw [List.length_append, List.length_take]
    omega
  have hfits : (e.bytes.take offset ++ xs ++ e.bytes.drop (offset + xs.length)).take 12 =
      e.bytes.take offset ++ xs ++ e.bytes.drop (offset + xs.length) := by
    apply List.take_of_length_le
    rw [List.length_append, hfront, List.length_drop]
    omega
  have hall : e.bytes.drop (offset + (xs ++ ys).length) = (e.bytes.drop (offset + xs.length)).drop ys.length := by
    rw [List.drop_drop, List.length_append, Nat.add_assoc]
  have hbytes : ((e.copy offset xs).copy (offset + xs.length) ys).bytes = (e.copy offset (xs ++ ys)).bytes := by
    show (((e.bytes.take offset ++ xs ++ e.bytes.drop (offset + xs.length)).take 12).take (offset + xs.length) ++ ys ++
      ((e.bytes.take offset ++ xs ++ e.bytes.drop (offset + xs.length)).take 12).drop (offset + xs.length + ys.length)).take
        12 = (e.bytes.take offset ++ (xs ++ ys) ++ e.bytes.drop (offset + (xs ++ ys).length)).take 12
    rw [hfits, List.take_left' hfront, ← List.drop_drop, List.drop_left' hfront, hall, List.append_assoc _ xs ys]
  cases hleft : (e.copy offset xs).copy (offset + xs.length) ys
  cases hright : e.copy offset (xs ++ ys)
  rw [hleft, hright] at hbytes
  cases hbytes
  rfl

theorem holds_copyPayload (size : Nat) :
    (zero.copyPayload size).1.Holds (sizeField size) ∧ (zero.copyPayload size).2 = (sizeField size).length := by
  have hcopy : ∀ bs : Bytes, bs.length ≤ 12 → (zero.copy 0 bs).Holds bs := fun bs hbs => by
    have hfit : ([] : Bytes).length + bs.length ≤ 12 := by
      rw [List.length_nil, Nat.zero_add]
      exact hbs
    exact (holds_nil zero).copy hfit
  have hdrop : (be 8 size).drop 6 = be 2 size := by
    rw [show be 8 size = be 6 (size / 256 ^ 2) ++ be 2 (size % 256 ^ 2) from be_eq_append (m := 6) (n := 2),
      List.drop_left' (length_be _ _)]
    have hlow := be_eq_append (m := 0) (n := 2) (k := size)
    rw [Nat.zero_add] at hlow
    exact hlow.symm
  rw [copyPayload]
  obtain ⟨hle, hfield, _⟩ | ⟨hlt, hle, hfield, _⟩ | ⟨hlt, hfield, _⟩ := size_cases size
  · rw [if_pos hle, hfield]
    exact ⟨List.nil_prefix, rfl⟩
  · rw [if_neg (Nat.not_le_of_lt hlt), if_pos hle, hfield, hdrop]
    exact ⟨hcopy _ (by rw [length_be]; decide), by rw [length_be]⟩
  · have hbasic : ¬ size ≤ payloadSizeBasic := Nat.not_le_of_lt (Nat.lt_trans (by decide) hlt)
    rw [if_neg hbasic, if_neg (Nat.not_le_of_lt hlt), hfield]
    exact ⟨hcopy _ (by rw [List.length_drop, length_be]; decide), by rw [length_be]⟩

/-- What a prepared extended header begins with. -/
theorem holds_ofSize (size : Nat) : (ofSize size).Holds (sizeField size) := (holds_copyPayload size).1

theorem holds_ofSizeKey (little : Bool) (size : Nat) (key : MaskingKey) :
    (ofSizeKey little size key).Holds (sizeField size ++ key.c little) := by
  obtain ⟨hholds, hoffset⟩ := holds_copyPayload size
  have hlen := length_sizeField_le size
  show ((zero.copyPayload size).1.copy (zero.copyPayload size).2 (key.c little)).Holds _
  rw [hoffset]
  exact hholds.copy (by rw [MaskingKey.c, length_store]; omega)

theorem Holds.take (h : e.Holds xs) : e.bytes.take xs.length = xs := (List.prefix_iff_eq_take.mp h).symm

theorem Holds.left (h : e.Holds (xs ++ ys)) : e.Holds xs := (List.prefix_append xs ys).trans h

end ExtendedHeader

variable {h : BasicHeader} {e : ExtendedHeader} {size : Nat}

/-- The size is read back. -/
theorem getPayloadSize_eq (hsize : getBasicSize h = basicValue size) (he : e.Holds (sizeField size)) (hfit : size < 2 ^ 64) :
    getPayloadSize h e = size := by
  rw [getPayloadSize, hsize]
  have htake := he.take
  obtain ⟨hle, hfield, hvalue⟩ | ⟨hlt, hle, hfield, hvalue⟩ | ⟨hlt, hfield, hvalue⟩ := size_cases size
  · rw [hvalue, toNat_small hle, if_pos hle]
  · rw [hfield, length_be] at htake
    rw [hvalue, if_neg (by decide), if_pos rfl, getExtendedSize, htake]
    exact ofBe_be (Nat.lt_of_le_of_lt hle (by decide))
  · rw [hfield, length_be] at htake
    rw [hvalue, if_neg (by decide), if_neg (by decide), getJumboSize, htake]
    exact ofBe_be hfit

/-- The key is read back. -/
theorem getMaskingKey_eq {little : Bool} {key : MaskingKey} (hsize : getBasicSize h = basicValue size)
    (hmasked : getMasked h = true) (he : e.Holds (sizeField size ++ key.c little)) : getMaskingKey little h e = key := by
  have hlen : (key.c little).length = 4 := by rw [MaskingKey.c, length_store]
  obtain ⟨rest, hrest⟩ := he
  have htake : (e.bytes.drop (getMaskingKeyOffset h)).take 4 = key.c little := by
    rw [maskingKeyOffset_of_basicSize hsize, ← hrest, List.append_assoc, List.drop_left, ← hlen, List.take_left]
  have hload : load little (key.c little) = key.i.toNat := load_store key.i.toNat_lt
  rw [getMaskingKey, hmasked, Bool.not_true, if_neg Bool.false_ne_true]
  show MaskingKey.mk (UInt32.ofNat (load little ((e.bytes.drop (getMaskingKeyOffset h)).take 4))) = key
  rw [htake, hload, UInt32.ofNat_toNat]

end NewOrbit.Websocket
