import NewOrbit.Websocket.Frame
import NewOrbit.Websocket.Validator

/-!
# `Websocket.Hybi13` — the processor of the protocol

`consume` reads a stream of frames with a state machine that keeps which field is being read and how many octets of
it are still needed. A message is ready at the last frame of it, and control messages come between the frames of
other messages. The `prepare` functions make frames out of messages.
-/

namespace NewOrbit.Websocket
open CString Octets

/-- The errors of the processor. -/
inductive ProcessorError
  | general | message_too_big | invalid_payload | invalid_opcode | control_too_big | invalid_rsv_bit
  | fragmented_control | invalid_continuation | masking_required | masking_forbidden | non_minimal_encoding
  | invalid_utf8 | reserved_close_code | invalid_close_code | reason_requires_code
  deriving DecidableEq, Repr

/-- `message_buffer::message` -/
structure Message where
  opcode   : Opcode
  payload  : Bytes
  header   : Bytes
  prepared : Bool
  fin      : Bool
  terminal : Bool
  deriving DecidableEq, Repr

/-- `get_message` of the message manager. -/
def Message.new (op : Opcode) : Message := ⟨op, [], [], false, true, false⟩

/-- `msg_metadata` -/
structure Metadata where
  msg         : Message
  preparedKey : UInt64
  validator   : Validator

/-- Unmasks octets into the message, and checks a text. -/
def Metadata.absorb (m : Metadata) (little masked : Bool) (buf : Bytes) : Metadata × Bool :=
  let (buf, preparedKey) := if masked then byteMaskCirc little buf m.preparedKey else (buf, m.preparedKey)
  let m := { m with preparedKey, msg := { m.msg with payload := m.msg.payload ++ buf } }
  if m.msg.opcode = .text then
    let (validator, ok) := m.validator.decode buf
    ({ m with validator }, ok)
  else (m, true)

inductive State
  | HEADER_BASIC | HEADER_EXTENDED | EXTENSION | APPLICATION | READY | FATAL_ERROR
  deriving DecidableEq, Repr

/-- Which of the two messages `m_current_msg` points to. -/
inductive Target
  | data | control
  deriving DecidableEq, Repr

/-- The message of `dataMsg` or `controlMsg` is missing where its pointer is null. -/
structure Hybi13 where
  server         : Bool
  little         : Bool
  maxMessageSize : Nat
  state          : State
  basicHeader    : BasicHeader
  extendedHeader : ExtendedHeader
  bytesNeeded    : Nat
  cursor         : Nat
  dataMsg        : Option Metadata
  controlMsg     : Option Metadata
  currentMsg     : Target

namespace Hybi13

def resetHeaders (h : Hybi13) : Hybi13 :=
  { h with state := .HEADER_BASIC, bytesNeeded := 2, basicHeader := ⟨0, 0⟩, extendedHeader := .zero }

/-- A processor as it is made. -/
def init (server little : Bool) (maxMessageSize : Nat) : Hybi13 :=
  resetHeaders ⟨server, little, maxMessageSize, .HEADER_BASIC, ⟨0, 0⟩, .zero, 0, 0, none, none, .data⟩

/-- What `m_current_msg` points to. -/
def current (h : Hybi13) : Option Metadata :=
  match h.currentMsg with
  | .data    => h.dataMsg
  | .control => h.controlMsg

def setCurrent (h : Hybi13) (m : Option Metadata) : Hybi13 :=
  match h.currentMsg with
  | .data    => { h with dataMsg := m }
  | .control => { h with controlMsg := m }

/-! ## Reading -/

def copyBasicHeaderBytes (h : Hybi13) : Bytes → Hybi13 × Nat
  | []           => (h, 0)
  | b0 :: b1 :: _ =>
    if h.bytesNeeded = 0 then (h, 0)
    else if h.bytesNeeded = 2 then ({ h with basicHeader := ⟨b0, b1⟩, bytesNeeded := h.bytesNeeded - 2 }, 2)
    else ({ h with basicHeader := ⟨h.basicHeader.b0, b0⟩, bytesNeeded := h.bytesNeeded - 1 }, 1)
  | [b]          =>
    if h.bytesNeeded = 0 then (h, 0)
    else if h.bytesNeeded = 2 then
      ({ h with basicHeader := ⟨b, h.basicHeader.b1⟩, bytesNeeded := h.bytesNeeded - 1 }, 1)
    else ({ h with basicHeader := ⟨h.basicHeader.b0, b⟩, bytesNeeded := h.bytesNeeded - 1 }, 1)

def copyExtendedHeaderBytes (h : Hybi13) (buf : Bytes) : Hybi13 × Nat :=
  let bytes_to_read := min h.bytesNeeded buf.length
  ({ h with
      extendedHeader := h.extendedHeader.copy h.cursor (buf.take bytes_to_read)
      cursor := h.cursor + bytes_to_read, bytesNeeded := h.bytesNeeded - bytes_to_read }, bytes_to_read)

end Hybi13

/-- Extensions are disabled, so no bit is reserved for them. -/
def validateIncomingBasicHeader (h : BasicHeader) (is_server new_msg : Bool) : Option ProcessorError :=
  let op := getOpcode h
  if op.isControl && payloadSizeBasic < (getBasicSize h).toNat then some .control_too_big
  else if getRsv1 h then some .invalid_rsv_bit
  else if getRsv2 h || getRsv3 h then some .invalid_rsv_bit
  else if op.reserved then some .invalid_opcode
  else if op.invalid then some .invalid_opcode
  else if op.isControl && !getFin h then some .fragmented_control
  else if new_msg && op = .continuation then some .invalid_continuation
  else if !new_msg && !op.isControl && op ≠ .continuation then some .invalid_continuation
  else if is_server && !getMasked h then some .masking_required
  else if !is_server && getMasked h then some .masking_forbidden
  else none

def validateIncomingExtendedHeader (h : BasicHeader) (e : ExtendedHeader) : Option ProcessorError :=
  let basic_size := getBasicSize h
  let payload_size := getPayloadSize h e
  if basic_size = payloadSizeCode16bit && payload_size ≤ payloadSizeBasic then some .non_minimal_encoding
  else if basic_size = payloadSizeCode64bit && payload_size ≤ payloadSizeExtended then some .non_minimal_encoding
  else none

namespace Hybi13

/-- The octets that `buf` and `len` point out go into the message. There is one (`Sound`). -/
def processPayloadBytes (h : Hybi13) (buf : Bytes) : Hybi13 × Nat × Option ProcessorError :=
  match h.current with
  | none   => (h, 0, some .general)
  | some m =>
    let (m, ok) := m.absorb h.little (getMasked h.basicHeader) buf
    if !ok then (h.setCurrent (some m), 0, some .invalid_utf8)
    else ({ h.setCurrent (some m) with bytesNeeded := h.bytesNeeded - buf.length }, buf.length, none)

/-- A text must end on a character; which opcode is asked is that of the last frame. -/
def finalizeMessage (h : Hybi13) : Hybi13 × Option ProcessorError :=
  match h.current with
  | none   => (h, some .general)
  | some m =>
    if getOpcode h.basicHeader = .text && !m.validator.complete then (h, some .invalid_utf8)
    else ({ h with state := .READY }, none)

/-- The rest of a turn in `HEADER_BASIC`, once no octet is needed. -/
def basicRead (h : Hybi13) (p : Nat) : Hybi13 × Nat × Option ProcessorError :=
  match validateIncomingBasicHeader h.basicHeader h.server h.dataMsg.isNone with
  | some ec => (h, p, some ec)
  | none    =>
    ({ h with state := .HEADER_EXTENDED, cursor := 0, bytesNeeded := getHeaderLen h.basicHeader - 2 }, p, none)

/-- A message that begins with the frame. -/
def newMetadata (h : Hybi13) : Metadata :=
  { msg := .new (getOpcode h.basicHeader)
    preparedKey := prepareMaskingKey (getMaskingKey h.little h.basicHeader h.extendedHeader), validator := .init }

/-- The rest of a turn in `HEADER_EXTENDED`, once no octet is needed. -/
def extendedRead (h : Hybi13) (p : Nat) : Hybi13 × Nat × Option ProcessorError :=
  match validateIncomingExtendedHeader h.basicHeader h.extendedHeader with
  | some ec => (h, p, some ec)
  | none    =>
    let h := { h with state := .APPLICATION, bytesNeeded := getPayloadSize h.basicHeader h.extendedHeader }
    if (getOpcode h.basicHeader).isControl then
      ({ h with controlMsg := some h.newMetadata, currentMsg := .control }, p, none)
    else
      match h.dataMsg with
      | none   =>
        if h.maxMessageSize < h.bytesNeeded then (h, p, some .message_too_big)
        else ({ h with dataMsg := some h.newMetadata, currentMsg := .data }, p, none)
      | some m =>
        -- The sum is a `size_t`, and a frame may announce any number of octets.
        if h.maxMessageSize < (m.msg.payload.length + h.bytesNeeded) % 2 ^ 64 then (h, p, some .message_too_big)
        else
          -- A frame starts a new masking key, everything else goes on.
          ({ h with dataMsg := some { m with preparedKey := h.newMetadata.preparedKey }, currentMsg := .data }, p, none)

/-- The rest of a turn in `APPLICATION`, once no octet is needed. -/
def applicationRead (h : Hybi13) (p : Nat) : Hybi13 × Nat × Option ProcessorError :=
  if getFin h.basicHeader then
    let (h, ec) := h.finalizeMessage
    (h, p, ec)
  else (h.resetHeaders, p, none)

/-- A turn of the loop of `consume`: the octets taken, and the error, if any. -/
def turn (h : Hybi13) (buf : Bytes) : Hybi13 × Nat × Option ProcessorError :=
  match h.state with
  | .HEADER_BASIC =>
    let (h, p) := h.copyBasicHeaderBytes buf
    if 0 < h.bytesNeeded then (h, p, none) else h.basicRead p
  | .HEADER_EXTENDED =>
    let (h, p) := h.copyExtendedHeaderBytes buf
    if 0 < h.bytesNeeded then (h, p, none) else h.extendedRead p
  | .EXTENSION => ({ h with state := .APPLICATION }, 0, none)
  | .APPLICATION =>
    let bytes_to_process := min h.bytesNeeded buf.length
    let (h, p, ec) := if 0 < bytes_to_process then h.processPayloadBytes (buf.take bytes_to_process) else (h, 0, none)
    if ec.isSome then (h, p, ec)
    else if 0 < h.bytesNeeded then (h, p, none)
    else h.applicationRead p
  | _ => (h, 0, some .general)

/-- The loop of `consume`, for as many turns as there is fuel. -/
def consumeFuel : Nat → Hybi13 → Bytes → Hybi13 × Nat × Option ProcessorError
  | 0,        h, _   => (h, 0, none)
  | fuel + 1, h, buf =>
    if h.state ≠ .READY ∧ h.state ≠ .FATAL_ERROR ∧ (0 < buf.length ∨ h.bytesNeeded = 0) then
      match h.turn buf with
      | (h', p, some ec) => (h', p, some ec)
      | (h', p, none)    =>
        let (h'', q, ec) := consumeFuel fuel h' (buf.drop p)
        (h'', p + q, ec)
    else (h, 0, none)

/-- There is fuel for the turns that take nothing, too (`runs_consume`). -/
def consume (h : Hybi13) (buf : Bytes) : Hybi13 × Nat × Option ProcessorError := consumeFuel (5 * buf.length + 5) h buf

def ready (h : Hybi13) : Bool := h.state = .READY

def getMessage (h : Hybi13) : Option Message × Hybi13 :=
  if !h.ready then (none, h)
  else
    match h.current with
    | none   => (none, h)
    | some m =>
      let h := if m.msg.opcode.isControl then { h.setCurrent none with controlMsg := none }
               else { h.setCurrent none with dataMsg := none }
      (some m.msg, h.resetHeaders)

/-! ## Writing -/

/-- `prepare_data_frame`, where the key is the next number of the generator. -/
def prepareDataFrame (h : Hybi13) (key : MaskingKey) (input out : Message) : Except ProcessorError Message :=
  let op := input.opcode
  if op.isControl then .error .invalid_opcode
  else if op = .text && !validate input.payload then .error .invalid_payload
  else
    let masked := !h.server
    let o := if masked then byteMask h.little input.payload key 0 else input.payload
    let header := BasicHeader.make op o.length input.fin masked false false false
    let extended := if masked then ExtendedHeader.ofSizeKey h.little o.length key else ExtendedHeader.ofSize o.length
    .ok { out with payload := o, header := prepareHeader header extended, prepared := true, opcode := op }

def prepareControl (h : Hybi13) (key : MaskingKey) (op : Opcode) (payload : Bytes) (out : Message) :
    Except ProcessorError Message :=
  if !op.isControl then .error .invalid_opcode
  else if payloadSizeBasic < payload.length then .error .control_too_big
  else
    let masked := !h.server
    let header := BasicHeader.make op payload.length true masked false false false
    let extended :=
      if masked then ExtendedHeader.ofSizeKey h.little payload.length key else ExtendedHeader.ofSize payload.length
    let o := if masked then byteMask h.little payload key 0 else payload
    .ok { out with payload := o, header := prepareHeader header extended, prepared := true, opcode := op }

def preparePing (h : Hybi13) (key : MaskingKey) (input : Bytes) (out : Message) : Except ProcessorError Message :=
  h.prepareControl key .ping input out

def preparePong (h : Hybi13) (key : MaskingKey) (input : Bytes) (out : Message) : Except ProcessorError Message :=
  h.prepareControl key .pong input out

end Hybi13
end NewOrbit.Websocket
