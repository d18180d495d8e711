import NewOrbit.Websocket.Pieces

/-!
# `Websocket.Receive` — what is received of a stream of frames

A frame is what its header says and a payload. A receiver keeps no more of the frames before than the message they
left unfinished; `accept` says which frame it refuses, and which message a frame completes. The processor does that
with the octets of the frames, however they are cut (`frames_received`).
-/

namespace NewOrbit.Websocket
open CString Octets Turns Utf8

/-- A frame, with its masking key, if it has one. -/
structure Frame where
  fin     : Bool
  rsv1    : Bool
  rsv2    : Bool
  rsv3    : Bool
  opcode  : Opcode
  key     : Option MaskingKey
  payload : Bytes
  fits    : payload.length < 2 ^ 64

namespace Frame

def basic (f : Frame) : BasicHeader := .make f.opcode f.payload.length f.fin f.key.isSome f.rsv1 f.rsv2 f.rsv3

/-- The size and the key. -/
def extended (little : Bool) (f : Frame) : Bytes :=
  sizeField f.payload.length ++ match f.key with
    | none     => []
    | some key => key.c little

/-- The payload as it is sent. -/
def masked (little : Bool) (f : Frame) : Bytes :=
  match f.key with
  | none     => f.payload
  | some key => byteMask little f.payload key 0

def octets (little : Bool) (f : Frame) : Bytes := f.basic.b0 :: f.basic.b1 :: (f.extended little ++ f.masked little)

end Frame

/-- The message that was left unfinished, and what of it is there. -/
abbrev Unfinished := Option (Opcode × Bytes)

/-- Why a frame is refused for what its header says: `fresh`, where no message was left unfinished. -/
def Frame.refused (server fresh : Bool) (f : Frame) : Option ProcessorError :=
  if f.opcode.isControl ∧ payloadSizeBasic < f.payload.length then some .control_too_big
  else if f.rsv1 ∨ f.rsv2 ∨ f.rsv3 then some .invalid_rsv_bit
  else if f.opcode.reserved then some .invalid_opcode
  else if f.opcode.isControl ∧ ¬f.fin then some .fragmented_control
  else if ¬f.opcode.isControl ∧ (f.opcode = .continuation ↔ fresh) then some .invalid_continuation
  else if server ∧ f.key = none then some .masking_required
  else if ¬server ∧ f.key ≠ none then some .masking_forbidden
  else none

/-- The payload goes behind what is there of a message. -/
def Frame.extend (op : Opcode) (present : Bytes) (f : Frame) : Except ProcessorError (Unfinished × Option Message) :=
  let payload := present ++ f.payload
  if op = .text ∧ Utf8.read start payload = none then .error .invalid_utf8
  else if ¬f.fin then .ok (some (op, payload), none)
  else if f.opcode = .text ∧ Utf8.read start payload ≠ some start then .error .invalid_utf8
  else .ok (none, some { Message.new op with payload })

/-- What a frame that is not refused does: the message that is left unfinished then, and the one that is complete. -/
def accept (server : Bool) (maxMessageSize : Nat) (unfinished : Unfinished) (f : Frame) :
    Except ProcessorError (Unfinished × Option Message) :=
  match f.refused server unfinished.isNone with
  | some ec => .error ec
  | none    =>
    if f.opcode.isControl then .ok (unfinished, some { Message.new f.opcode with payload := f.payload })
    else
      let (op, present) := unfinished.getD (f.opcode, [])
      if maxMessageSize < (present.length + f.payload.length) % 2 ^ 64 then .error .message_too_big
      else f.extend op present

/-- One frame after the other, up to the first that is refused. -/
def acceptAll (server : Bool) (maxMessageSize : Nat) :
    Unfinished → List Frame → List Message × Except ProcessorError Unfinished
  | unfinished, []      => ([], .ok unfinished)
  | unfinished, f :: fs =>
    match accept server maxMessageSize unfinished f with
    | .error ec               => ([], .error ec)
    | .ok (unfinished', done) =>
      let (ms, r) := acceptAll server maxMessageSize unfinished' fs
      (done.toList ++ ms, r)

/-! ## The headers of a frame

The checks of the two headers look at the opcode, the flags, the mask and the size. For the octets of a frame they
come to `Frame.refused`, which is stated on the frame itself. -/

section Headers
variable {f : Frame} {little : Bool}

theorem Frame.length_extended (f : Frame) (little : Bool) : (f.extended little).length = getHeaderLen f.basic - 2 := by
  have hsize : getMaskingKeyOffset f.basic = (sizeField f.payload.length).length :=
    maskingKeyOffset_of_basicSize (getBasicSize_make ..)
  have hmasked : getMasked f.basic = f.key.isSome := getMasked_make ..
  rw [Frame.extended, getHeaderLen, hsize, hmasked, List.length_append]
  cases f.key with
  | none => simp
  | some key =>
      simp [MaskingKey.c]
      omega

theorem Frame.length_masked (f : Frame) (little : Bool) : (f.masked little).length = f.payload.length := by
  rw [Frame.masked]
  cases f.key with
  | none => rfl
  | some key =>
      show (byteMask little f.payload key 0).length = _
      rw [byteMask_eq, length_mask]

/-- A header is refused for what it says of the frame. -/
theorem validateIncomingBasicHeader_frame (f : Frame) (server fresh : Bool) :
    validateIncomingBasicHeader f.basic server fresh = f.refused server fresh := by
  have hsize : payloadSizeBasic < (basicValue f.payload.length).toNat ↔ payloadSizeBasic < f.payload.length := by
    obtain ⟨hle, _, hvalue⟩ | ⟨hlt, _, _, hvalue⟩ | ⟨hlt, _, hvalue⟩ := size_cases f.payload.length
    · rw [hvalue, toNat_small hle]
    · rw [hvalue]
      exact iff_of_true (by decide) hlt
    · rw [hvalue]
      exact iff_of_true (by decide) (Nat.lt_trans (by decide) hlt)
  have hinvalid : ∀ op : Opcode, op.invalid = false := by
    intro op
    cases op <;> rfl
  have hcontinuation : f.opcode.isControl = true → f.opcode ≠ .continuation := fun hctl heq => by
    rw [heq] at hctl
    cases hctl
  rw [validateIncomingBasicHeader, Frame.refused, Frame.basic]
  simp only [getOpcode_make, getBasicSize_make, getRsv1_make, getRsv2_make, getRsv3_make, getFin_make, getMasked_make,
    Bool.and_eq_true, Bool.or_eq_true, Bool.not_eq_true', decide_eq_true_eq, hsize, hinvalid, Bool.false_eq_true, if_false]
  -- The three bits are asked for in two tests.
  by_cases hrsv1 : f.rsv1 = true
  · simp only [hrsv1, true_or, if_true]
  simp only [hrsv1, false_or, Bool.false_eq_true, if_false, Bool.not_eq_true]
  -- A control frame is never a continuation, any other frame is one exactly where a message was left unfinished.
  cases hctl : f.opcode.isControl with
  | true => cases server <;> cases f.key <;> simp [hcontinuation hctl]
  | false => cases fresh <;> cases server <;> cases f.key <;> by_cases hop : f.opcode = .continuation <;> simp [hop]

/-- The header of a frame is the shortest one. -/
theorem validateIncomingExtendedHeader_frame {e : ExtendedHeader} (he : e.Holds (sizeField f.payload.length)) :
    validateIncomingExtendedHeader f.basic e = none := by
  have hbasic : getBasicSize f.basic = basicValue f.payload.length := getBasicSize_make ..
  rw [validateIncomingExtendedHeader, getPayloadSize_eq hbasic he f.fits, hbasic]
  obtain ⟨hle, _, hvalue⟩ | ⟨hlt, _, _, hvalue⟩ | ⟨hlt, _, hvalue⟩ := size_cases f.payload.length
  · obtain ⟨h16, h64⟩ := small_ne_codes hle
    simp [hvalue, h16, h64]
  · have h64 : payloadSizeCode16bit ≠ payloadSizeCode64bit := by decide
    simp [hvalue, h64, Nat.not_le_of_lt hlt]
  · have h16 : payloadSizeCode64bit ≠ payloadSizeCode16bit := by decide
    simp [hvalue, h16, Nat.not_le_of_lt hlt]

end Headers

/-- What is kept of a message of which some frames are there. -/
structure Metadata.Keeps (m : Metadata) (op : Opcode) (present : Bytes) : Prop where
  msg   : m.msg = { Message.new op with payload := present }
  data  : op.isControl = false
  state : m.validator.state < 9
  text  : op = .text → ∃ e, Utf8.read start present = some e ∧ expectOf m.validator.state = some e

namespace Hybi13

variable {h g : Hybi13} {f : Frame} {m : Metadata} {buf : Bytes}

/-! ## The payload of a frame

The payload is unmasked and put behind what the message has. For a text the validator has read all of it, so whether
it may go on does not depend on how it was cut; the check at the end of the message is on what the last frame leaves.
-/

/-- What octets add to a message. -/
theorem absorb_eq {little masked : Bool} {payload : Bytes}
    (hout : (if masked then (byteMaskCirc little buf m.preparedKey).1 else buf) = payload) :
    (m.absorb little masked buf).1.msg = { m.msg with payload := m.msg.payload ++ payload } ∧
      (m.absorb little masked buf).1.validator =
        (if m.msg.opcode = .text then (m.validator.decode payload).1 else m.validator) ∧
      (m.absorb little masked buf).2 = if m.msg.opcode = .text then (m.validator.decode payload).2 else true := by
  subst hout
  rw [Metadata.absorb]
  dsimp only
  cases masked <;> split <;> exact ⟨rfl, rfl, rfl⟩

/-- No octets change nothing. -/
theorem absorb_nil {little masked : Bool} (hm : Keyed little (some m)) : m.absorb little masked [] = (m, true) := by
  obtain ⟨ks, hks⟩ := hm m rfl
  have hkey : (byteMaskCirc little [] m.preparedKey).2 = m.preparedKey := by
    have hprepared := (byteMaskCirc_eq hks []).2
    simp only [List.length_nil, Nat.zero_add] at hprepared
    exact hprepared.unique hks
  have hpayload : ∀ x : Message, { x with payload := x.payload ++ [] } = x := fun x => by rw [List.append_nil]
  rw [Metadata.absorb]
  cases masked with
  | false =>
      simp only [Bool.false_eq_true, if_false, hpayload]
      split <;> rfl
  | true =>
      have hnil : (byteMaskCirc little [] m.preparedKey).1 = [] := rfl
      simp only [if_true, hkey, hnil, hpayload]
      split <;> rfl

theorem setCurrent_current (h : Hybi13) : h.setCurrent h.current = h := by
  obtain ⟨_, _, _, _, _, _, _, _, _, _, target⟩ := h
  cases target <;> rfl

/-- All that is left of a frame goes into the message at once. -/
theorem turn_payload (hs : h.Sound) (hstate : h.state = .APPLICATION) (hm : h.current = some m)
    (hlen : buf.length = h.bytesNeeded) :
    h.turn buf = if (m.absorb h.little (getMasked h.basicHeader) buf).2 then
        (h.withPayload m buf).applicationRead buf.length
      else (h.setCurrent (some (m.absorb h.little (getMasked h.basicHeader) buf).1), 0, some .invalid_utf8) := by
  have hmin : min h.bytesNeeded buf.length = buf.length := by omega
  have hkey : Keyed h.little (some m) := hm ▸ hs.keyed_current
  rw [turn_application hstate hm, hmin, List.take_length, hlen, Nat.sub_self]
  by_cases h0 : h.bytesNeeded = 0
  · obtain rfl := List.length_eq_zero_iff.mp (hlen.trans h0)
    have hself : h.withPayload m [] = h := by
      rw [withPayload, absorb_nil hkey, ← hm, setCurrent_current]
      rfl
    rw [if_pos h0, if_neg (by omega), absorb_nil hkey, hself, if_pos rfl, h0]
  · rw [if_neg h0, if_neg (Nat.lt_irrefl 0)]

/-- The message that a frame begins. -/
def frameMetadata (f : Frame) : Metadata := ⟨.new f.opcode, prepareMaskingKey (f.key.getD ⟨0⟩), .init⟩

/-- Once the headers of a frame are there, a message begins or goes on. -/
theorem extendedRead_frame (hbasic : g.basicHeader = f.basic) (he : g.extendedHeader.Holds (f.extended g.little)) (p : Nat) :
    g.extendedRead p =
      let g' := { g with state := .APPLICATION, bytesNeeded := f.payload.length }
      if f.opcode.isControl then
        ({ g' with controlMsg := some (frameMetadata f), currentMsg := .control }, p, none)
      else
        match g.dataMsg with
        | none   =>
          if g.maxMessageSize < f.payload.length then (g', p, some .message_too_big)
          else ({ g' with dataMsg := some (frameMetadata f), currentMsg := .data }, p, none)
        | some m =>
          if g.maxMessageSize < (m.msg.payload.length + f.payload.length) % 2 ^ 64 then (g', p, some .message_too_big)
          else
            ({ g' with dataMsg := some { m with preparedKey := (frameMetadata f).preparedKey }, currentMsg := .data },
              p, none) := by
  have hop : getOpcode g.basicHeader = f.opcode := hbasic ▸ getOpcode_make ..
  have hvalid : validateIncomingExtendedHeader g.basicHeader g.extendedHeader = none :=
    hbasic ▸ validateIncomingExtendedHeader_frame he.left
  have hsize : getPayloadSize g.basicHeader g.extendedHeader = f.payload.length :=
    getPayloadSize_eq (hbasic ▸ getBasicSize_make ..) he.left f.fits
  have hmasked : getMasked g.basicHeader = f.key.isSome := hbasic ▸ getMasked_make ..
  have hkey : getMaskingKey g.little g.basicHeader g.extendedHeader = f.key.getD ⟨0⟩ := by
    cases hk : f.key with
    | none =>
        rw [hk] at hmasked
        rw [getMaskingKey, hmasked]
        rfl
    | some key =>
        rw [hk] at hmasked
        rw [Frame.extended, hk] at he
        exact getMaskingKey_eq (hbasic ▸ getBasicSize_make ..) hmasked he
  have hnew : newMetadata { g with state := .APPLICATION, bytesNeeded := f.payload.length } = frameMetadata f := by
    show Metadata.mk (.new (getOpcode g.basicHeader))
      (prepareMaskingKey (getMaskingKey g.little g.basicHeader g.extendedHeader)) .init = _
    rw [hop, hkey]
    rfl
  rw [extendedRead, hvalid, hsize]
  dsimp only
  rewrite [hop, hnew]
  cases hdata : g.dataMsg <;> rfl

/-- What the validator of a message says of more of it. -/
def checked (m : Metadata) (payload : Bytes) : Validator × Bool :=
  if m.msg.opcode = .text then m.validator.decode payload else (m.validator, true)

/-- What was masked with the key of the frame is unmasked by it. -/
theorem unmask_payload (f : Frame) (little : Bool) {preparedKey : UInt64}
    (hkey : preparedKey = prepareMaskingKey (f.key.getD ⟨0⟩)) :
    (if getMasked f.basic then (byteMaskCirc little (f.masked little) preparedKey).1 else f.masked little) = f.payload := by
  have hmask : getMasked f.basic = f.key.isSome := getMasked_make ..
  rw [hmask, Frame.masked]
  cases hk : f.key with
  | none => rfl
  | some key =>
      rw [hk] at hkey
      change preparedKey = prepareMaskingKey key at hkey
      show (byteMaskCirc little (byteMask little f.payload key 0) preparedKey).1 = f.payload
      rw [hkey, (byteMaskCirc_eq (prepared_key key) _).1, byteMask_eq]
      simp only [Nat.zero_add]
      exact mask_mask _ _

/-- A message that is ready is handed out, and the processor waits for a frame. -/
theorem runs_ready (hs : g.Sound) (hstate : g.state = .READY) (hm : g.current = some m) :
    Runs next g [] [m.msg] (.ok g.getMessage.2) := by
  obtain ⟨x, hx, hemit⟩ := next_ready hs hstate
  obtain ⟨_, _, _, _, ⟨r, hr⟩, _⟩ := getMessage_eq hs hstate
  obtain rfl : x = m := Option.some.inj (hx.symm.trans hm)
  refine .emit (hemit []) (.wait ?_)
  rw [hr]
  exact next_resetHeaders r

/-- **The payload of a frame** is refused, or it is the end of a message, or it leaves one unfinished. -/
theorem runs_payload (hs : g.Sound) (hstate : g.state = .APPLICATION) (hm : g.current = some m)
    (hbasic : g.basicHeader = f.basic) (hneed : g.bytesNeeded = f.payload.length)
    (hkey : m.preparedKey = prepareMaskingKey (f.key.getD ⟨0⟩)) :
    ∃ m' : Metadata, m'.msg = { m.msg with payload := m.msg.payload ++ f.payload } ∧ m'.validator = (checked m f.payload).1 ∧
      g.withPayload m (f.masked g.little) = { g.setCurrent (some m') with bytesNeeded := 0 } ∧
      (g.withPayload m (f.masked g.little)).Sound ∧
      ((checked m f.payload).2 = false → Runs next g (f.masked g.little) [] (.error .invalid_utf8)) ∧
      ((checked m f.payload).2 = true →
        (f.fin = false → Runs next g (f.masked g.little) [] (.ok (g.withPayload m (f.masked g.little)).resetHeaders)) ∧
        (f.fin = true → f.opcode = .text ∧ m'.validator.complete = false →
          Runs next g (f.masked g.little) [] (.error .invalid_utf8)) ∧
        (f.fin = true → ¬(f.opcode = .text ∧ m'.validator.complete = false) →
          Runs next g (f.masked g.little) [m'.msg]
            (.ok { g.withPayload m (f.masked g.little) with state := .READY }.getMessage.2))) := by
  have hlen : (f.masked g.little).length = g.bytesNeeded := (f.length_masked g.little).trans hneed.symm
  have hout : (if getMasked g.basicHeader then (byteMaskCirc g.little (f.masked g.little) m.preparedKey).1
      else f.masked g.little) = f.payload := by
    rw [hbasic]
    exact unmask_payload f g.little hkey
  obtain ⟨hmsg, hvalid, hok⟩ := absorb_eq hout
  have hchecked : (m.absorb g.little (getMasked g.basicHeader) (f.masked g.little)).1.validator = (checked m f.payload).1 ∧
      (m.absorb g.little (getMasked g.basicHeader) (f.masked g.little)).2 = (checked m f.payload).2 := by
    rw [hvalid, hok, checked]
    constructor <;> split <;> rfl
  have hwith : g.withPayload m (f.masked g.little) =
      { g.setCurrent (some (m.absorb g.little (getMasked g.basicHeader) (f.masked g.little)).1) with bytesNeeded := 0 } := by
    rw [withPayload, hlen, Nat.sub_self]
  have hsound := hs.withPayload hstate hm (f.masked g.little)
  have hturn := turn_payload hs hstate hm hlen
  have hnext : g.next (f.masked g.little) = outcome (g.turn (f.masked g.little)) :=
    next_turn (by rw [hstate]; decide) (by omega)
  have hcur : (g.withPayload m (f.masked g.little)).current =
      some (m.absorb g.little (getMasked g.basicHeader) (f.masked g.little)).1 := current_setCurrent g _
  have hgbasic : (g.withPayload m (f.masked g.little)).basicHeader = f.basic := (setCurrent_frame g _).2.2.2.trans hbasic
  have hgfin : getFin (g.withPayload m (f.masked g.little)).basicHeader = f.fin := hgbasic ▸ getFin_make ..
  have hgop : getOpcode (g.withPayload m (f.masked g.little)).basicHeader = f.opcode := hgbasic ▸ getOpcode_make ..
  have hdrop : (f.masked g.little).drop (f.masked g.little).length = [] := List.drop_length
  rw [hturn, hchecked.2] at hnext
  refine ⟨_, hmsg, hchecked.1, hwith, hsound, fun hfalse => ?_, fun htrue => ⟨fun hopen => ?_, fun hlast htext => ?_,
    fun hlast htext => ?_⟩⟩
  · rw [hfalse] at hnext
    exact .fail hnext
  · rw [htrue, if_pos rfl, applicationRead_eq hcur, hgfin, hopen] at hnext
    refine .read hnext ?_
    rw [hdrop]
    exact .wait (next_resetHeaders _)
  · rw [htrue, if_pos rfl, applicationRead_eq hcur, hgfin, hlast, hgop] at hnext
    refine .fail (hnext.trans ?_)
    rw [if_pos rfl, if_pos (by simp [htext.1, htext.2])]
    rfl
  · rw [htrue, if_pos rfl, applicationRead_eq hcur, hgfin, hlast, hgop] at hnext
    have hcomplete : ¬ (decide (f.opcode = .text) && !(m.absorb g.little (getMasked g.basicHeader)
        (f.masked g.little)).1.validator.complete) = true := by
      intro h
      simp only [Bool.and_eq_true, decide_eq_true_eq, Bool.not_eq_true'] at h
      exact htext h
    rw [if_pos rfl, if_neg hcomplete] at hnext
    refine .read hnext ?_
    rw [hdrop]
    have hready : ({ g.withPayload m (f.masked g.little) with state := .READY } : Hybi13).Sound :=
      ⟨by show _ = true; exact congrArg Option.isSome hcur, hsound.data, hsound.control⟩
    exact runs_ready hready rfl hcur

/-! ## Between two frames

A processor that waits for a frame keeps no more than the message that was begun: its opcode, its payload and where
the validator stands. `Idle` says that this is what `accept` keeps. -/

/-- What is kept is what was left unfinished. -/
def Kept : Option Metadata → Unfinished → Prop
  | none,   none               => True
  | some m, some (op, present) => m.Keeps op present
  | _,      _                  => False

/-- The processor waits for a frame, and keeps what was left unfinished. -/
structure Idle (h : Hybi13) (unfinished : Unfinished) : Prop where
  sound   : h.Sound
  state   : h.state = .HEADER_BASIC
  need    : h.bytesNeeded = 2
  message : Kept h.dataMsg unfinished

theorem idle_init (server little : Bool) (maxMessageSize : Nat) : Idle (init server little maxMessageSize) none :=
  ⟨sound_init .., rfl, rfl, trivial⟩

theorem Idle.isNone {unfinished : Unfinished} (hi : h.Idle unfinished) : h.dataMsg.isNone = unfinished.isNone := by
  have hmsg := hi.message
  cases hdata : h.dataMsg <;> cases unfinished <;> rw [hdata] at hmsg
  · rfl
  · exact hmsg.elim
  · exact hmsg.elim
  · rfl

theorem Idle.waits {unfinished : Unfinished} (hi : h.Idle unfinished) : h.next [] = .wait :=
  next_wait (by rw [hi.state]; decide) rfl (by rw [hi.need]; decide)

/-- The message of a frame that begins one. -/
theorem keeps_frameMetadata (hctl : f.opcode.isControl = false) : (frameMetadata f).Keeps f.opcode [] :=
  ⟨rfl, hctl, by show utf8_accept < 9; decide, fun _ => ⟨start, rfl, rfl⟩⟩

/-- The validator of a message reads on. -/
theorem checked_keeps {op : Opcode} {present : Bytes} (hk : m.Keeps op present) (payload : Bytes) :
    (checked m payload).1.state < 9 ∧
      ((checked m payload).2 = true ↔ ¬(op = .text ∧ Utf8.read start (present ++ payload) = none)) ∧
      (op = .text → (checked m payload).2 = true → Utf8.read start (present ++ payload) = expectOf (checked m payload).1.state) := by
  have hop : m.msg.opcode = op := congrArg Message.opcode hk.msg
  rw [checked, hop]
  by_cases htext : op = .text
  · obtain ⟨e, hread, he⟩ := hk.text htext
    have hdecode := Validator.decode_read hk.state he payload
    have hall : Utf8.read start (present ++ payload) = Utf8.read e payload := by rw [read_append, hread, Option.bind_some]
    have hlt := Validator.decode_state hk.state payload
    rw [if_pos htext, hall, hdecode]
    cases hok : (m.validator.decode payload).2 with
    | false => exact ⟨hlt, by simp [htext], fun _ h => by cases h⟩
    | true =>
        have hstart : m.validator.state ≠ utf8_reject := by
          intro hrej
          rw [hrej] at he
          cases he
        refine ⟨hlt, ⟨fun _ hnone => ?_, fun _ => rfl⟩, fun _ _ => if_pos rfl⟩
        exact Validator.decode_ok hstart hok ((Validator.expectOf_eq_none_iff hlt).mp ((if_pos rfl).symm.trans hnone.2))
  · rw [if_neg htext]
    exact ⟨hk.state, by simp [htext], fun h => absurd h htext⟩

/-! ## A frame

A frame is read field by field: the headers, which are refused or say where the payload goes, and then the payload. A
control frame is a message of its own, beside the one that was begun. Of a data frame the payload extends the message,
and the last one completes it; what is left is again a processor between two frames. -/

/-- The processor with the headers of a frame. -/
def headed (h : Hybi13) (f : Frame) : Hybi13 :=
  { h with
      state := .HEADER_EXTENDED, basicHeader := f.basic, extendedHeader := h.extendedHeader.copy 0 (f.extended h.little)
      cursor := (f.extended h.little).length, bytesNeeded := 0 }

/-- A frame is refused for its header. -/
theorem runs_refused {unfinished : Unfinished} {ec : ProcessorError} (hi : h.Idle unfinished)
    (hrefused : f.refused h.server unfinished.isNone = some ec) : Runs next h (f.octets h.little) [] (.error ec) := by
  have hvalid := validateIncomingBasicHeader_frame f h.server h.dataMsg.isNone
  have hnext : h.next (f.octets h.little) = outcome (h.turn (f.octets h.little)) :=
    next_turn (by rw [hi.state]; decide) (.inl (Nat.succ_pos _))
  refine .fail (hnext.trans ?_)
  rw [Frame.octets, turn_basic_two hi.state hi.need, basicRead]
  show outcome (match validateIncomingBasicHeader f.basic h.server h.dataMsg.isNone with
    | some ec => _ | none => _) = _
  rw [hvalid, hi.isNone, hrefused]
  rfl

/-- The headers of a frame take two turns. -/
theorem runs_headers {unfinished : Unfinished} {ms : List Message} {r : Except ProcessorError Hybi13} (hi : h.Idle unfinished)
    (hrefused : f.refused h.server unfinished.isNone = none)
    (hrest : match (h.headed f).extendedRead (f.extended h.little).length with
      | (g, _, none)    => Runs next g (f.masked h.little) ms r
      | (_, _, some ec) => ms = [] ∧ r = .error ec) : Runs next h (f.octets h.little) ms r := by
  have hvalid := validateIncomingBasicHeader_frame f h.server h.dataMsg.isNone
  rw [hi.isNone, hrefused] at hvalid
  have hlen := f.length_extended h.little
  obtain ⟨g, hg⟩ : ∃ g : Hybi13, { h with
      basicHeader := f.basic, state := .HEADER_EXTENDED, cursor := 0, bytesNeeded := getHeaderLen f.basic - 2 } = g := ⟨_, rfl⟩
  have hfirst : h.next (f.octets h.little) = .read g 2 := by
    have hpos : 0 < (f.octets h.little).length := Nat.succ_pos _
    rw [next_turn (by rw [hi.state]; decide) (.inl hpos), Frame.octets, turn_basic_two hi.state hi.need, basicRead]
    show outcome (match validateIncomingBasicHeader f.basic h.server h.dataMsg.isNone with
      | some ec => _ | none => _) = _
    rw [hi.isNone, hvalid, ← hg]
    rfl
  have hneed : g.bytesNeeded = (f.extended h.little).length := by rw [← hg]; exact hlen.symm
  have hstate : g.state = .HEADER_EXTENDED := by rw [← hg]
  have hmin : min g.bytesNeeded (f.extended h.little ++ f.masked h.little).length = (f.extended h.little).length := by
    rw [hneed, List.length_append]
    omega
  have hcopy : (g.copyExtendedHeaderBytes (f.extended h.little ++ f.masked h.little)).1 = h.headed f := by
    rw [copyExtendedHeaderBytes, hmin, hneed, List.take_left, Nat.sub_self, ← hg, headed]
    simp
  have hsecond : g.next (f.extended h.little ++ f.masked h.little) =
      outcome ((h.headed f).extendedRead (f.extended h.little).length) := by
    have hguard : 0 < (f.extended h.little ++ f.masked h.little).length ∨ g.bytesNeeded = 0 := by
      rw [hneed, List.length_append]
      omega
    rw [next_turn (by rw [hstate]; decide) hguard, turn_extended hstate, hmin, hneed, if_neg (by omega), hcopy]
  refine .read hfirst ?_
  show Runs next g (f.extended h.little ++ f.masked h.little) ms r
  rcases hread : (h.headed f).extendedRead (f.extended h.little).length with ⟨g', p, ec⟩
  rw [hread] at hrest hsecond
  cases ec with
  | some ec =>
      obtain ⟨rfl, rfl⟩ := hrest
      exact .fail hsecond
  | none =>
      obtain ⟨rfl, _⟩ := extendedRead_inv hread
      refine .read hsecond ?_
      rw [List.drop_left]
      exact hrest

/-- What does not change. -/
def config (h : Hybi13) : Bool × Bool × Nat := (h.server, h.little, h.maxMessageSize)

theorem config_setCurrent (h : Hybi13) (m : Option Metadata) : (h.setCurrent m).config = h.config := by
  rw [setCurrent]
  cases h.currentMsg <;> rfl

/-- A message that is handed out is kept no longer, but the other one is. -/
theorem getMessage_frame (hready : h.state = .READY) (hm : h.current = some m) :
    h.getMessage.2.config = h.config ∧ h.getMessage.2.dataMsg =
      if h.currentMsg = .control ∧ m.msg.opcode.isControl = true then h.dataMsg else none := by
  rw [getMessage, ready_iff.mpr hready, hm]
  cases hcur : h.currentMsg <;> cases hctl : m.msg.opcode.isControl <;> simp [setCurrent, hcur, hctl, config, resetHeaders]

/-- Once a message is handed out, the processor waits for a frame. -/
theorem idle_getMessage {unfinished : Unfinished} (hs : h.Sound) (hready : h.state = .READY) (hm : h.current = some m)
    (hkept : Kept (if h.currentMsg = .control ∧ m.msg.opcode.isControl = true then h.dataMsg else none) unfinished) :
    h.getMessage.2.Idle unfinished := by
  obtain ⟨_, _, _, hsound, ⟨r, hr⟩, _⟩ := getMessage_eq hs hready
  refine ⟨hsound, by rw [hr]; rfl, by rw [hr]; rfl, ?_⟩
  rw [(getMessage_frame hready hm).2]
  exact hkept

/-- How a frame ends: it is refused, or the processor waits for the next. -/
def Ends (g : Hybi13) (buf : Bytes) (config : Bool × Bool × Nat) :
    Except ProcessorError (Unfinished × Option Message) → Prop
  | .error ec               => Runs next g buf [] (.error ec)
  | .ok (unfinished', done) => ∃ h', Runs next g buf done.toList (.ok h') ∧ h'.Idle unfinished' ∧ h'.config = config

/-- The payload of a frame of a message that is not a control message. -/
theorem ends_data {op : Opcode} {present : Bytes} (hs : g.Sound) (hstate : g.state = .APPLICATION)
    (hcur : g.currentMsg = .data) (hm : g.dataMsg = some m) (hbasic : g.basicHeader = f.basic)
    (hneed : g.bytesNeeded = f.payload.length) (hkey : m.preparedKey = prepareMaskingKey (f.key.getD ⟨0⟩))
    (hkeeps : m.Keeps op present) (hop : f.opcode = .text → op = .text) :
    g.Ends (f.masked g.little) g.config (f.extend op present) := by
  have hcurrent : g.current = some m := by rw [current, hcur]; exact hm
  obtain ⟨m', hmsg, hvalid, hwith, hsound, hrefused, hgo⟩ := runs_payload hs hstate hcurrent hbasic hneed hkey
  obtain ⟨hlt, hok, hread⟩ := checked_keeps hkeeps f.payload
  have hmsg' : m'.msg = { Message.new op with payload := present ++ f.payload } := by rw [hmsg, hkeeps.msg]
  rw [← hvalid] at hlt hread
  have hset : g.setCurrent (some m') = { g with dataMsg := some m' } := by rw [setCurrent, hcur]
  rw [hset] at hwith
  rw [Frame.extend]
  dsimp only
  by_cases hbad : op = .text ∧ Utf8.read start (present ++ f.payload) = none
  · rw [if_pos hbad]
    exact hrefused (Bool.eq_false_iff.mpr (mt hok.mp (not_not.mpr hbad)))
  rw [if_neg hbad]
  obtain ⟨hopen, hincomplete, hcomplete⟩ := hgo (hok.mpr hbad)
  have hreadm := fun htext => hread htext (hok.mpr hbad)
  cases hfin : f.fin with
  | false =>
      refine ⟨_, hopen hfin, ⟨hsound.resetHeaders, rfl, rfl, ?_⟩, by rw [hwith]; rfl⟩
      rw [hwith]
      refine ⟨hmsg', hkeeps.data, hlt, fun htext => ?_⟩
      obtain ⟨e, he⟩ := Option.ne_none_iff_exists'.mp fun hnone => hbad ⟨htext, hnone⟩
      exact ⟨e, he, (hreadm htext).symm.trans he⟩
  | true =>
      have hstart : f.opcode = .text → (m'.validator.complete = false ↔ Utf8.read start (present ++ f.payload) ≠ some start) := by
        intro htext
        rw [hreadm (hop htext), Validator.complete, decide_eq_false_iff_not, ne_eq,
          Validator.expectOf_eq_start_iff hlt]
      have hiff : f.opcode = .text ∧ m'.validator.complete = false ↔
          f.opcode = .text ∧ Utf8.read start (present ++ f.payload) ≠ some start := and_congr_right hstart
      rw [if_neg (not_not.mpr rfl)]
      by_cases hend : f.opcode = .text ∧ Utf8.read start (present ++ f.payload) ≠ some start
      · rw [if_pos hend]
        exact hincomplete hfin (hiff.mpr hend)
      · rw [if_neg hend]
        have hrun := hcomplete hfin (mt hiff.mp hend)
        have hcurrent' : ({ g.withPayload m (f.masked g.little) with state := .READY } : Hybi13).current = some m' := by
          rw [hwith, current]
          dsimp only
          rw [hcur]
        have hcur' : (g.withPayload m (f.masked g.little)).currentMsg = .data := by rw [hwith]; exact hcur
        have hready : ({ g.withPayload m (f.masked g.little) with state := .READY } : Hybi13).Sound :=
          ⟨by show _ = true; exact congrArg Option.isSome hcurrent', hsound.data, hsound.control⟩
        refine ⟨_, hmsg' ▸ hrun, idle_getMessage hready rfl hcurrent' ?_, (getMessage_frame rfl hcurrent').1.trans ?_⟩
        · rw [if_neg fun hctl => by rw [hcur'] at hctl; cases hctl.1]
          trivial
        · rw [hwith]
          rfl

/-- The payload of a control frame. -/
theorem ends_control {unfinished : Unfinished} (hs : g.Sound) (hstate : g.state = .APPLICATION)
    (hcur : g.currentMsg = .control) (hm : g.controlMsg = some (frameMetadata f)) (hbasic : g.basicHeader = f.basic)
    (hneed : g.bytesNeeded = f.payload.length) (hctl : f.opcode.isControl = true) (hfin : f.fin = true)
    (hkept : Kept g.dataMsg unfinished) :
    g.Ends (f.masked g.little) g.config (.ok (unfinished, some { Message.new f.opcode with payload := f.payload })) := by
  have hcurrent : g.current = some (frameMetadata f) := by rw [current, hcur]; exact hm
  obtain ⟨m', hmsg, _, hwith, hsound, _, hgo⟩ := runs_payload hs hstate hcurrent hbasic hneed rfl
  have htext : f.opcode ≠ .text := fun heq => by rw [heq] at hctl; cases hctl
  have hset : g.setCurrent (some m') = { g with controlMsg := some m' } := by rw [setCurrent, hcur]
  rw [hset] at hwith
  have hrun := (hgo (by rw [checked]; exact congrArg Prod.snd (if_neg htext))).2.2 hfin fun h => htext h.1
  have hcurrent' : ({ g.withPayload (frameMetadata f) (f.masked g.little) with state := .READY } : Hybi13).current =
      some m' := by
    rw [hwith, current]
    dsimp only
    rw [hcur]
  have hcur' : (g.withPayload (frameMetadata f) (f.masked g.little)).currentMsg = .control := by rw [hwith]; exact hcur
  have hready : ({ g.withPayload (frameMetadata f) (f.masked g.little) with state := .READY } : Hybi13).Sound :=
    ⟨by show _ = true; exact congrArg Option.isSome hcurrent', hsound.data, hsound.control⟩
  have hop : m'.msg.opcode.isControl = true := by rw [hmsg]; exact hctl
  refine ⟨_, hmsg ▸ hrun, idle_getMessage hready rfl hcurrent' ?_, (getMessage_frame rfl hcurrent').1.trans ?_⟩
  · rw [if_pos ⟨hcur', hop⟩, hwith]
    exact hkept
  · rw [hwith]
    rfl

theorem ends_headers {unfinished : Unfinished} {p : Nat} {r : Except ProcessorError (Unfinished × Option Message)}
    (hi : h.Idle unfinished) (hrefused : f.refused h.server unfinished.isNone = none)
    (hread : (h.headed f).extendedRead (f.extended h.little).length = (g, p, none))
    (hg : g.Ends (f.masked h.little) h.config r) : h.Ends (f.octets h.little) h.config r := by
  cases r with
  | error ec => exact runs_headers hi hrefused (by rw [hread]; exact hg)
  | ok r =>
      obtain ⟨h', hrun, hidle⟩ := hg
      exact ⟨h', runs_headers hi hrefused (by rw [hread]; exact hrun), hidle⟩

/-- What a frame that is not refused says of itself. -/
theorem Frame.of_refused_none {server fresh : Bool} (hrefused : f.refused server fresh = none) :
    (f.opcode.isControl = true → f.fin = true) ∧
      (f.opcode.isControl = false → (f.opcode = .continuation ↔ fresh = false)) := by
  rw [Frame.refused] at hrefused
  split at hrefused
  · cases hrefused
  split at hrefused
  · cases hrefused
  split at hrefused
  · cases hrefused
  split at hrefused
  · cases hrefused
  split at hrefused
  · cases hrefused
  rename_i hfragment hcontinuation
  refine ⟨fun hctl => ?_, fun hctl => ?_⟩
  · simpa [hctl] using hfragment
  · rw [hctl] at hcontinuation
    cases fresh <;> simpa using hcontinuation

/-- **A frame** does to the processor what `accept` says. -/
theorem ends_frame {unfinished : Unfinished} (hi : h.Idle unfinished) (f : Frame) :
    h.Ends (f.octets h.little) h.config (accept h.server h.maxMessageSize unfinished f) := by
  rw [accept]
  cases hrefused : f.refused h.server unfinished.isNone with
  | some ec => exact runs_refused hi hrefused
  | none =>
      obtain ⟨hfin, hcontinuation⟩ := Frame.of_refused_none hrefused
      have hfit : ([] : Bytes).length + (f.extended h.little).length ≤ 12 := by
        rw [List.length_nil, Nat.zero_add, f.length_extended]
        exact getHeaderLen_le _
      have hholds : (h.headed f).extendedHeader.Holds (f.extended (h.headed f).little) :=
        (ExtendedHeader.holds_nil h.extendedHeader).copy hfit
      have hread := extendedRead_frame (g := h.headed f) rfl hholds (f.extended h.little).length
      dsimp only at hread ⊢
      cases hctl : f.opcode.isControl with
      | true =>
          rw [hctl, if_pos rfl] at hread
          have hsound := Sound.extendedRead (h := h.headed f) hi.sound.data hi.sound.control hread
          rw [if_pos rfl]
          exact ends_headers hi hrefused hread (ends_control hsound rfl rfl rfl rfl rfl hctl (hfin hctl) hi.message)
      | false =>
          rw [hctl, if_neg Bool.false_ne_true] at hread
          rw [if_neg Bool.false_ne_true]
          have hkept := hi.message
          have hdata : (h.headed f).dataMsg = h.dataMsg := rfl
          have hmax : (h.headed f).maxMessageSize = h.maxMessageSize := rfl
          rw [hdata, hmax] at hread
          rcases hm : h.dataMsg with _ | m <;> rw [hm] at hkept hread
          · cases unfinished with
            | some _ => exact hkept.elim
            | none =>
                have hfits : (([] : Bytes).length + f.payload.length) % 2 ^ 64 = f.payload.length := by
                  rw [List.length_nil, Nat.zero_add]
                  exact Nat.mod_eq_of_lt f.fits
                dsimp only at hread
                show h.Ends _ _ (if h.maxMessageSize < (([] : Bytes).length + f.payload.length) % 2 ^ 64 then _ else _)
                rw [hfits]
                by_cases hbig : h.maxMessageSize < f.payload.length
                · rw [if_pos hbig] at hread ⊢
                  exact runs_headers hi hrefused (by rw [hread]; exact ⟨rfl, rfl⟩)
                · rw [if_neg hbig] at hread ⊢
                  have hsound := Sound.extendedRead (h := h.headed f) hi.sound.data hi.sound.control hread
                  exact ends_headers hi hrefused hread
                    (ends_data hsound rfl rfl rfl rfl rfl rfl (keeps_frameMetadata hctl) id)
          · cases unfinished with
            | none => exact hkept.elim
            | some u =>
                obtain ⟨op, present⟩ := u
                change m.Keeps op present at hkept
                have hpresent : m.msg.payload = present := congrArg Message.payload hkept.msg
                have hop : f.opcode = .text → op = .text := fun htext => by
                  rw [(hcontinuation hctl).mpr rfl] at htext
                  cases htext
                dsimp only at hread
                show h.Ends _ _ (if h.maxMessageSize < (present.length + f.payload.length) % 2 ^ 64 then _ else _)
                rw [hpresent] at hread
                by_cases hbig : h.maxMessageSize < (present.length + f.payload.length) % 2 ^ 64
                · rw [if_pos hbig] at hread ⊢
                  exact runs_headers hi hrefused (by rw [hread]; exact ⟨rfl, rfl⟩)
                · rw [if_neg hbig] at hread ⊢
                  have hsound := Sound.extendedRead (h := h.headed f) hi.sound.data hi.sound.control hread
                  exact ends_headers hi hrefused hread (ends_data hsound rfl rfl rfl rfl rfl rfl
                    ⟨hkept.msg, hkept.data, hkept.state, hkept.text⟩ hop)

/-! ## One frame after the other

By induction on the frames, each of which starts where the one before ended. -/

/-- The runs over frames, one after the other. -/
theorem runs_frames {unfinished : Unfinished} (hi : h.Idle unfinished) (fs : List Frame) :
    ∃ r, Runs next h (fs.flatMap (·.octets h.little)) (acceptAll h.server h.maxMessageSize unfinished fs).1 r ∧
      match (acceptAll h.server h.maxMessageSize unfinished fs).2 with
      | .error ec       => r = .error ec
      | .ok unfinished' => ∃ h', r = .ok h' ∧ h'.Idle unfinished' := by
  induction fs generalizing h unfinished with
  | nil => exact ⟨_, .wait hi.waits, h, rfl, hi⟩
  | cons f fs ih =>
      have hends := ends_frame hi f
      rw [List.flatMap_cons, acceptAll]
      rcases haccept : accept h.server h.maxMessageSize unfinished f with ec | ⟨unfinished', done⟩
      · rw [haccept] at hends
        exact ⟨_, cuttable.append_error hi.sound hends rfl _, rfl⟩
      · rw [haccept] at hends
        obtain ⟨h', hrun, hi', hconfig⟩ := hends
        obtain ⟨hserver, hlittle, hmax⟩ : h'.server = h.server ∧ h'.little = h.little ∧ h'.maxMessageSize = h.maxMessageSize :=
          ⟨congrArg Prod.fst hconfig, congrArg (·.2.1) hconfig, congrArg (·.2.2) hconfig⟩
        obtain ⟨r, hrest, hend⟩ := ih hi'
        rw [hserver, hlittle, hmax] at hrest
        rw [hserver, hmax] at hend
        exact ⟨r, cuttable.append hi.sound hrun rfl hrest, hend⟩

/-- From the start, the error of a run is that of the frames. -/
theorem runs_frames_init (server little : Bool) (maxMessageSize : Nat) (fs : List Frame) :
    ∃ r, Runs next (init server little maxMessageSize) (fs.flatMap (·.octets little))
        (acceptAll server maxMessageSize none fs).1 r ∧
      ∀ e, r = .error e ↔ (acceptAll server maxMessageSize none fs).2 = .error e := by
  obtain ⟨r, hrun, hend⟩ := runs_frames (idle_init server little maxMessageSize) fs
  refine ⟨r, hrun, fun e => ?_⟩
  show r = .error e ↔ (acceptAll (init server little maxMessageSize).server
    (init server little maxMessageSize).maxMessageSize none fs).2 = .error e
  cases haccept : (acceptAll (init server little maxMessageSize).server
      (init server little maxMessageSize).maxMessageSize none fs).2 with
  | error ec =>
      rw [haccept] at hend
      rw [hend, Except.error.injEq, Except.error.injEq]
  | ok unfinished =>
      rw [haccept] at hend
      obtain ⟨h', rfl, _⟩ := hend
      exact ⟨fun h => (by cases h), fun h => (by cases h)⟩

/-- **What is received of a stream of frames.** However the octets of frames are cut into reads, the messages handed
    on are those the frames complete, up to the first frame that is refused, and the error is the one it is refused
    with. If none is, the processor waits for a frame and keeps the message left unfinished. -/
theorem frames_received (server little : Bool) (maxMessageSize : Nat) (fs : List Frame) (pieces : List Bytes)
    (hpieces : pieces.flatten = fs.flatMap (·.octets little)) :
    ((init server little maxMessageSize).readPieces pieces).1 = (acceptAll server maxMessageSize none fs).1 ∧
      match (acceptAll server maxMessageSize none fs).2 with
      | .error ec      => ((init server little maxMessageSize).readPieces pieces).2 = .error ec
      | .ok unfinished => ∃ h', ((init server little maxMessageSize).readPieces pieces).2 = .ok h' ∧ h'.Idle unfinished := by
  have hi := idle_init server little maxMessageSize
  obtain ⟨r, hrun, hend⟩ := runs_frames hi fs
  have hpiece := runs_readPieces hi.sound hi.waits pieces
  rw [hpieces] at hpiece
  obtain ⟨hmsgs, rfl⟩ := hpiece.det hrun
  exact ⟨hmsgs, hend⟩

/-- A text in two frames with a ping between them, and a continuation of nothing. -/
def sampleFrames : List Frame :=
  [⟨false, false, false, false, .text, none, [0x48], by decide⟩, ⟨true, false, false, false, .ping, none, [7], by decide⟩,
   ⟨true, false, false, false, .continuation, none, [0x69], by decide⟩,
   ⟨true, false, false, false, .continuation, none, [0x21], by decide⟩]

/-- The ping and the text are handed on, and the last frame is refused, wherever the reads end. -/
theorem frames_received_cut :
    (init false true 100).readPieces [[0x01], [0x01, 0x48, 0x89, 0x01, 0x07, 0x80], [0x01, 0x69, 0x80], [0x01, 0x21]] =
      ([{ Message.new .ping with payload := [7] }, { Message.new .text with payload := [0x48, 0x69] }],
        .error .invalid_continuation) := by
  obtain ⟨hmsgs, hend⟩ := frames_received false true 100 sampleFrames
    [[0x01], [0x01, 0x48, 0x89, 0x01, 0x07, 0x80], [0x01, 0x69, 0x80], [0x01, 0x21]] (by decide)
  have haccept : acceptAll false 100 none sampleFrames = ([{ Message.new .ping with payload := [7] },
      { Message.new .text with payload := [0x48, 0x69] }], .error .invalid_continuation) := by
    decide +kernel
  rw [haccept] at hmsgs hend
  exact Prod.ext hmsgs hend

end Hybi13

end NewOrbit.Websocket
