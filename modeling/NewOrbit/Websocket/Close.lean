import NewOrbit.Websocket.Hybi13

/-!
# `Websocket.Close` — close frames

The payload of a close frame is empty, or a code of two octets and a reason. A code and a reason that are prepared are
extracted again (`extract_prepared`), and what is extracted can be prepared as the answer (`closes_extracted`).
-/

namespace NewOrbit.Websocket
open CString Framing

namespace Status

/-- A blank value for internal use. -/
def blank : UInt16 := 0

def normal : UInt16 := 1000

def protocol_error : UInt16 := 1002

/-- A dummy value to indicate that no status code was received. -/
def no_status : UInt16 := 1005

def abnormal_close : UInt16 := 1006

def invalid_payload : UInt16 := 1007

def policy_violation : UInt16 := 1008

def message_too_big : UInt16 := 1009

def internal_endpoint_error : UInt16 := 1011

def tls_handshake : UInt16 := 1015

/-- First value in range reserved for future protocol use -/
def rsv_start : UInt16 := 1016

/-- Last value in range reserved for future protocol use -/
def rsv_end : UInt16 := 2999

def reserved (code : UInt16) : Bool := (rsv_start ≤ code && code ≤ rsv_end) || code = 1004 || code = 1014

/-- First value in range that is always invalid on the wire -/
def invalid_low : UInt16 := 999

/-- Last value in range that is always invalid on the wire -/
def invalid_high : UInt16 := 5000

def invalid (code : UInt16) : Bool :=
  code ≤ invalid_low || invalid_high ≤ code || code = no_status || code = abnormal_close || code = tls_handshake

/-- Determine if the code represents an unrecoverable error -/
def terminal (code : UInt16) : Bool :=
  code = protocol_error || code = invalid_payload || code = policy_violation || code = message_too_big ||
    code = internal_endpoint_error

end Status

/-- The errors of the extraction. -/
inductive ExtractError
  | bad_close_code | invalid_close_code | reserved_close_code | invalid_utf8
  deriving DecidableEq, Repr

def extract_code : Bytes → UInt16 × Option ExtractError
  | []            => (Status.no_status, none)
  | [_]           => (Status.protocol_error, some .bad_close_code)
  | b0 :: b1 :: _ =>
    let code := UInt16.ofNat (ofBe [b0, b1])
    let ec := if Status.invalid code then some .invalid_close_code else none
    (code, if Status.reserved code then some .reserved_close_code else ec)

def extract_reason (payload : Bytes) : Bytes × Option ExtractError :=
  let reason := if 2 < payload.length then payload.drop 2 else []
  (reason, if !validate reason then some .invalid_utf8 else none)

namespace ProcessorError

/-- `message` of the category of the processor. -/
def message : ProcessorError → String
  | general              => "Generic processor error"
  | message_too_big      => "A message was too large"
  | invalid_payload      => "A payload contained invalid data"
  | invalid_opcode       => "invalid opcode"
  | control_too_big      => "Control messages are limited to fewer than 125 characters"
  | invalid_rsv_bit      => "Invalid use of reserved bits"
  | fragmented_control   => "Control messages cannot be fragmented"
  | invalid_continuation => "Invalid message continuation"
  | masking_required     => "Clients may not send unmasked frames"
  | masking_forbidden    => "Servers may not send masked frames"
  | non_minimal_encoding => "Payload length was not minimally encoded"
  | invalid_utf8         => "Invalid UTF8 encoding"
  | reserved_close_code  => "Reserved close code used"
  | invalid_close_code   => "Invalid close code used"
  | reason_requires_code => "Using a close reason requires a valid close code"

/-- `to_ws`. -/
def to_ws : ProcessorError → UInt16
  | control_too_big | invalid_opcode | invalid_rsv_bit | fragmented_control | invalid_continuation | masking_required
  | masking_forbidden | reserved_close_code | invalid_close_code => Status.protocol_error
  | invalid_payload | invalid_utf8                               => Status.invalid_payload
  | message_too_big                                              => Status.message_too_big
  | general | non_minimal_encoding | reason_requires_code        => Status.internal_endpoint_error

end ProcessorError

/-- The payload of a close frame. -/
def closePayload (code : UInt16) (reason : Bytes) : Bytes :=
  if code ≠ Status.no_status then be 2 code.toNat ++ reason else []

/-- `prepare_close` -/
def Hybi13.prepareClose (h : Hybi13) (key : MaskingKey) (code : UInt16) (reason : Bytes) (out : Message) :
    Except ProcessorError Message :=
  if Status.reserved code then .error .reserved_close_code
  else if Status.invalid code && code ≠ Status.no_status then .error .invalid_close_code
  else if code = Status.no_status && 0 < reason.length then .error .reason_requires_code
  else if payloadSizeBasic - 2 < reason.length then .error .control_too_big
  else h.prepareControl key .close (closePayload code reason) out

/-! ## What is prepared is extracted -/

section Close
variable {code : UInt16} {reason : Bytes}

/-- The codes and reasons that are prepared. -/
structure Closes (code : UInt16) (reason : Bytes) : Prop where
  reserved : Status.reserved code = false
  invalid  : Status.invalid code = true → code = Status.no_status
  blank    : code = Status.no_status → reason = []
  size     : reason.length ≤ closeReasonSize

theorem length_closePayload (h : Closes code reason) : (closePayload code reason).length ≤ payloadSizeBasic := by
  have hsize : reason.length ≤ 123 := h.size
  rw [closePayload]
  split
  · rw [List.length_append, length_be]
    show 2 + reason.length ≤ 125
    omega
  · exact Nat.zero_le _

theorem Hybi13.prepareClose_ok {h : Hybi13} {key : MaskingKey} {out msg : Message}
    (hok : h.prepareClose key code reason out = .ok msg) :
    Closes code reason ∧ h.prepareControl key .close (closePayload code reason) out = .ok msg := by
  rw [prepareClose] at hok
  split at hok
  · cases hok
  split at hok
  · cases hok
  split at hok
  · cases hok
  split at hok
  · cases hok
  rename_i hreserved hinvalid hblank hsize
  simp only [Bool.and_eq_true, decide_eq_true_eq, not_and, Bool.not_eq_true, Nat.not_lt] at hreserved hinvalid hblank hsize
  refine ⟨⟨hreserved, fun h => not_not.mp (hinvalid h), fun h => ?_, hsize⟩, hok⟩
  exact List.length_eq_zero_iff.mp (Nat.le_zero.mp (hblank h))

theorem Hybi13.prepareClose_eq (h : Hybi13) (key : MaskingKey) (out : Message) (hcloses : Closes code reason) :
    h.prepareClose key code reason out = h.prepareControl key .close (closePayload code reason) out := by
  have hinvalid : ¬(Status.invalid code && code ≠ Status.no_status) = true := by
    simp only [Bool.and_eq_true, decide_eq_true_eq, not_and, not_not]
    exact hcloses.invalid
  have hblank : ¬(code = Status.no_status && 0 < reason.length) = true := by
    simp only [Bool.and_eq_true, decide_eq_true_eq, not_and]
    intro h
    rw [hcloses.blank h]
    exact Nat.lt_irrefl 0
  rw [prepareClose, hcloses.reserved, if_neg Bool.false_ne_true, if_neg hinvalid, if_neg hblank,
    if_neg (show ¬payloadSizeBasic - 2 < reason.length from Nat.not_lt.mpr hcloses.size)]

/-- **What is prepared is extracted**, and the reason is refused exactly when it is ill-formed. -/
theorem extract_prepared (h : Closes code reason) :
    extract_code (closePayload code reason) = (code, none) ∧
      extract_reason (closePayload code reason) = (reason, if validate reason then none else some .invalid_utf8) := by
  by_cases hcode : code = Status.no_status
  · rw [closePayload, if_neg (not_not.mpr hcode), h.blank hcode, hcode]
    exact ⟨rfl, rfl⟩
  · have hinvalid : Status.invalid code = false := Bool.eq_false_iff.mpr fun hi => hcode (h.invalid hi)
    obtain ⟨b0, b1, hbe⟩ : ∃ b0 b1, be 2 code.toNat = [b0, b1] := by
      have hlen := length_be 2 code.toNat
      match be 2 code.toNat, hlen with
      | [b0, b1], _ => exact ⟨b0, b1, rfl⟩
    have hvalue : ofBe [b0, b1] = code.toNat := by
      rw [← hbe]
      exact ofBe_be code.toNat_lt
    rw [closePayload, if_pos hcode, hbe]
    refine ⟨?_, ?_⟩
    · show ((UInt16.ofNat (ofBe [b0, b1]) : UInt16), _) = _
      rw [hvalue, UInt16.ofNat_toNat, h.reserved, hinvalid]
      rfl
    · rw [extract_reason]
      have hreason : (if 2 < ([b0, b1] ++ reason).length then ([b0, b1] ++ reason).drop 2 else []) = reason := by
        split
        · rfl
        · rename_i hshort
          rw [List.length_append, List.length_cons, List.length_cons, List.length_nil] at hshort
          exact (List.length_eq_zero_iff.mp (by omega)).symm
      rw [hreason]
      cases validate reason <;> rfl

/-- A normal close with a word. -/
theorem extract_prepared_bye :
    extract_code (closePayload Status.normal (bytes "bye")) = (Status.normal, none) ∧
      extract_reason (closePayload Status.normal (bytes "bye")) =
        (bytes "bye", if validate (bytes "bye") then none else some .invalid_utf8) :=
  extract_prepared ⟨by decide, by decide, by decide, by decide +kernel⟩

/-- What is extracted can be prepared. -/
theorem closes_extracted {payload : Bytes} (hcode : extract_code payload = (code, none)) (hne : code ≠ Status.no_status)
    (hsize : payload.length ≤ payloadSizeBasic) : Closes code (extract_reason payload).1 := by
  match payload, hcode with
  | [], hcode => exact absurd (congrArg Prod.fst hcode).symm hne
  | [_], hcode => cases hcode
  | b0 :: b1 :: rest, hcode =>
      rw [extract_code] at hcode
      obtain ⟨rfl, hec⟩ := Prod.mk.inj hcode
      have hreason : (extract_reason (b0 :: b1 :: rest)).1 = rest := by
        cases rest <;> rfl
      rw [hreason]
      split at hec
      · cases hec
      · rename_i hreserved
        have hinvalid : ¬Status.invalid (UInt16.ofNat (ofBe [b0, b1])) = true := fun h => by
          rw [if_pos h] at hec
          cases hec
        refine ⟨Bool.eq_false_iff.mpr hreserved, fun h => absurd h hinvalid, fun h => absurd h hne, ?_⟩
        rw [List.length_cons, List.length_cons] at hsize
        exact Nat.le_of_add_le_add_right (b := 2) hsize

end Close
end NewOrbit.Websocket
