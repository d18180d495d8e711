import NewOrbit.Websocket.Prepare

/-!
# `Websocket.Connection` — a connection that is open

The application calls `send`, `ping`, `pong` and `close`, from anywhere or from a handler. What it sends is queued, and
`write_frame` writes what is queued, one write at a time. What is read goes through the processor; data messages and
control messages are handled one after the other. A message can close the connection, an error terminates it.

`step` is one of the things that can happen to a connection: a call, a queued function of the event loop that runs, the
end of a write or of a read, or a timer that expires. Each of them is done before the next.
-/

namespace NewOrbit.Websocket
open CString

/-- `session::state`, from the time on that the connection is open. -/
inductive SessionState
  | opened | closing | closed
  deriving DecidableEq, Repr

/-- The errors a connection meets; `transport` stands for those of the transport but the end of the stream. -/
inductive Ec
  | processor (e : ProcessorError)
  | invalid_state
  | close_handshake_timeout
  | eof
  | transport (text : String)
  deriving DecidableEq, Repr

def Ec.message : Ec → String
  | processor e             => e.message
  | invalid_state           => "invalid state"
  | close_handshake_timeout => "The closing handshake timed out"
  | eof                     => "End of File"
  | transport text          => text

/-- `connection_read_buffer_size` -/
def connectionReadBufferSize : Nat := 16384

/-- What an application may call. A `std::string` has fewer than 2^64 octets. -/
inductive Call
  | send (payload : Bytes) (op : Opcode) (fits : payload.length < 2 ^ 64)
  | ping (payload : Bytes)
  | pong (payload : Bytes)
  | close (code : UInt16) (reason : Bytes)

/-- A handler: any program that makes calls and looks at the error of each. -/
inductive Script (α : Type)
  | done (a : α)
  | call (c : Call) (next : Option Ec → Script α)

/-- The handlers of an application, which keeps a state of its own. -/
structure App (σ : Type) where
  onMessage : σ → Message → Script σ
  onPing    : σ → Bytes → Script (σ × Bool)
  onPong    : σ → Bytes → Script σ

/-- The fields from `posted` to `writing` are those of the transport: the calls of `write_frame` that are queued in the
    event loop, whether a read is outstanding, and what is left of an outstanding write. Those from `sent` on record
    what has happened: what `send` has taken, the messages that were queued and those whose write has begun, the
    octets that were written and that were read, the messages that were read and those that were handed on, the calls
    of the close handler, and the error that reading stopped at. -/
structure Connection where
  processor         : Hybi13
  rng               : Nat → MaskingKey
  drawn             : Nat
  state             : SessionState
  sendQueue         : List Message
  sendBufferSize    : Nat
  currentMsgs       : List Message
  writeFlag         : Bool
  localCloseCode    : UInt16
  localCloseReason  : Bytes
  remoteCloseCode   : UInt16
  remoteCloseReason : Bytes
  wasClean          : Bool
  ec                : Option Ec
  handshakeTimer    : Bool
  posted            : Nat
  reading           : Bool
  writing           : Option Bytes
  sent              : List (Opcode × Bytes)
  pushed            : List Message
  wrote             : List Message
  transmitted       : Bytes
  taken             : Bytes
  got               : List Message
  handed            : List Message
  closeCalls        : Nat
  failed            : Option ProcessorError

namespace Connection

/-- Once the handshake is over, the first read begins. -/
def init (server little : Bool) (maxMessageSize : Nat) (rng : Nat → MaskingKey) : Connection where
  processor         := .init server little maxMessageSize
  rng
  drawn             := 0
  state             := .opened
  sendQueue         := []
  sendBufferSize    := 0
  currentMsgs       := []
  writeFlag         := false
  localCloseCode    := Status.abnormal_close
  localCloseReason  := []
  remoteCloseCode   := Status.abnormal_close
  remoteCloseReason := []
  wasClean          := false
  ec                := none
  handshakeTimer    := false
  posted            := 0
  reading           := true
  writing           := none
  sent              := []
  pushed            := []
  wrote             := []
  transmitted       := []
  taken             := []
  got               := []
  handed            := []
  closeCalls        := 0
  failed            := none

/-! ## Queueing -/

/-- The number that is drawn next; a client masks its frames with it. -/
def key (c : Connection) : MaskingKey := c.rng c.drawn

def draw (c : Connection) : Connection := if c.processor.server then c else { c with drawn := c.drawn + 1 }

def write_push (c : Connection) (msg : Message) : Connection :=
  { c with
      sendBufferSize := c.sendBufferSize + msg.payload.length, sendQueue := c.sendQueue ++ [msg]
      pushed := c.pushed ++ [msg] }

/-- `write_push`, and `write_frame` is queued unless a write is outstanding. -/
def enqueue (c : Connection) (msg : Message) : Connection :=
  let c := c.write_push msg
  if !c.writeFlag && !c.sendQueue.isEmpty then { c with posted := c.posted + 1 } else c

/-- `send` of a payload. -/
def send (c : Connection) (payload : Bytes) (op : Opcode) : Connection × Option Ec :=
  if c.state ≠ .opened then (c, some .invalid_state)
  else
    match c.processor.prepareDataFrame c.key { Message.new op with payload } (.new op) with
    | .error e  => (c, some (.processor e))
    | .ok msg   => (({ c with sent := c.sent ++ [(op, payload)] } : Connection).draw.enqueue msg, none)

/-- `ping` and `pong`. -/
def sendControl (c : Connection) (prepare : Hybi13 → MaskingKey → Bytes → Message → Except ProcessorError Message)
    (payload : Bytes) : Connection × Option Ec :=
  if c.state ≠ .opened then (c, some .invalid_state)
  else
    match prepare c.processor c.key payload (.new .text) with
    | .error e => (c, some (.processor e))
    | .ok msg  => (c.draw.enqueue msg, none)

def ping (c : Connection) (payload : Bytes) : Connection × Option Ec := c.sendControl Hybi13.preparePing payload

def pong (c : Connection) (payload : Bytes) : Connection × Option Ec := c.sendControl Hybi13.preparePong payload

/-- What a close frame says: what it is asked to, or else what the other side said. -/
def closeInfo (c : Connection) (code : UInt16) (reason : Bytes) (ack : Bool) : UInt16 × Bytes :=
  if code ≠ Status.blank then (code, reason)
  else if !ack then (Status.no_status, [])
  else if c.remoteCloseCode = Status.no_status then (Status.normal, [])
  else (c.remoteCloseCode, c.remoteCloseReason)

def send_close_frame (c : Connection) (code : UInt16) (reason : Bytes) (ack terminal : Bool) : Connection × Option Ec :=
  let (code, reason) := c.closeInfo code reason ack
  let noted := { c with localCloseCode := code, localCloseReason := reason }
  match c.processor.prepareClose c.key code reason (.new .text) with
  | .error e => (noted, some (.processor e))
  | .ok msg  =>
    let msg := { msg with terminal := terminal || msg.terminal }
    let closing := { noted with state := .closing, wasClean := ack || c.wasClean, handshakeTimer := true }
    (closing.draw.enqueue msg, none)

def send_close_ack (c : Connection) (code : UInt16) (reason : Bytes) : Connection × Option Ec :=
  c.send_close_frame code reason true c.processor.server

/-- The reason is cut to the octets a close frame has room for. -/
def close (c : Connection) (code : UInt16) (reason : Bytes) : Connection × Option Ec :=
  let tr := reason.take (min reason.length closeReasonSize)
  if c.state ≠ .opened then (c, some .invalid_state)
  else c.send_close_frame code tr false (Status.terminal code)

def call (c : Connection) : Call → Connection × Option Ec
  | .send payload op _   => c.send payload op
  | .ping payload        => c.ping payload
  | .pong payload        => c.pong payload
  | .close code reason   => c.close code reason

/-- A handler runs. -/
def run {α : Type} : Connection → Script α → Connection × α
  | c, .done a      => (c, a)
  | c, .call x next => run (c.call x).1 (next (c.call x).2)

/-! ## Writing -/

/-- The socket is shut down at once, and the close handler is called. -/
def terminate (c : Connection) (ec : Option Ec) : Connection :=
  let c := { c with handshakeTimer := false }
  let c := match ec with
    | none   => c
    | some e =>
      { c with ec := some e, localCloseCode := Status.abnormal_close, localCloseReason := bytes e.message }
  if c.state ≠ .closed then { c with state := .closed, closeCalls := c.closeCalls + 1 } else c

/-- The octets of the payloads. -/
def bufferSize : List Message → Nat
  | []          => 0
  | msg :: msgs => msg.payload.length + bufferSize msgs

/-- The messages that are written together: up to the first that is terminal. -/
def batch : List Message → List Message × List Message
  | []          => ([], [])
  | msg :: rest =>
    if msg.terminal then ([msg], rest)
    else
      let (msgs, rest) := batch rest
      (msg :: msgs, rest)

def write_frame (c : Connection) : Connection :=
  if c.writeFlag then c
  else
    let (msgs, rest) := batch c.sendQueue
    let c :=
      { c with
          currentMsgs := c.currentMsgs ++ msgs, sendQueue := rest
          sendBufferSize := c.sendBufferSize - bufferSize msgs, wrote := c.wrote ++ msgs }
    if c.currentMsgs.isEmpty then c
    else { c with writeFlag := true, writing := some (c.currentMsgs.flatMap Message.octets) }

def handle_write_frame (c : Connection) (ec : Option Ec) : Connection :=
  let terminal := c.currentMsgs.getLast?.any (·.terminal)
  let c := { c with currentMsgs := [] }
  match ec with
  | some e => c.terminate (some e)
  | none   =>
    if terminal then c.terminate none
    else
      let c := { c with writeFlag := false }
      if !c.sendQueue.isEmpty then { c with posted := c.posted + 1 } else c

/-! ## Reading -/

section Reading
variable {σ : Type} (app : App σ)

/-- What `process_control_frame` does of a close frame. -/
def process_close (c : Connection) (payload : Bytes) : Connection :=
  let (code, ec) := extract_code payload
  let c := { c with remoteCloseCode := code }
  if ec.isSome then (c.send_close_ack Status.protocol_error (bytes "Invalid close code")).1
  else
    let (reason, ec) := extract_reason payload
    let c := { c with remoteCloseReason := reason }
    if ec.isSome then (c.send_close_ack Status.protocol_error (bytes "Invalid close reason")).1
    else if c.state = .opened then (c.send_close_ack Status.blank []).1
    else if c.state = .closing && !c.wasClean then
      let c := { c with wasClean := true }
      -- A client leaves it to the server to end the connection.
      if c.processor.server then c.terminate none else c
    else c

def process_control_frame (c : Connection) (s : σ) (msg : Message) : Connection × σ :=
  if c.state = .closed then (c, s)
  else if msg.opcode ≠ .close ∧ c.state ≠ .opened then (c, s)
  else
    match msg.opcode with
    | .ping =>
      let (c, s, should_reply) := c.run (app.onPing s msg.payload)
      (if should_reply then (c.pong msg.payload).1 else c, s)
    | .pong  => c.run (app.onPong s msg.payload)
    | .close => (c.process_close msg.payload, s)
    | _      => (c, s)

/-- A message of the processor. -/
def dispatch (c : Connection) (s : σ) (msg : Message) : Connection × σ :=
  let c := { c with got := c.got ++ [msg] }
  if !msg.opcode.isControl then
    if c.state ≠ .opened then (c, s)
    else ({ c with handed := c.handed ++ [msg] } : Connection).run (app.onMessage s msg)
  else c.process_control_frame app s msg

/-- An error of the processor closes the connection, and nothing more is read. -/
def refuse (c : Connection) (e : ProcessorError) : Connection :=
  let (c, ec) := ({ c with failed := some e } : Connection).close e.to_ws (bytes e.message)
  match ec with
  | none   => c
  | some e => c.terminate (some e)

/-- The loop of `handle_read_frame`. -/
def read_loop : Nat → Connection → σ → Bytes → Connection × σ
  | 0,        c, s, _   => (c, s)
  | fuel + 1, c, s, buf =>
    if 0 < buf.length then
      match c.processor.consume buf with
      | (processor, _, some e) => (({ c with processor } : Connection).refuse e, s)
      | (processor, p, none)   =>
        if processor.ready then
          match processor.getMessage with
          | (none, processor)     => read_loop fuel { c with processor } s (buf.drop p)
          | (some msg, processor) =>
            let (c, s) := ({ c with processor } : Connection).dispatch app s msg
            read_loop fuel c s (buf.drop p)
        else read_loop fuel { c with processor } s (buf.drop p)
    else ({ c with reading := true }, s)

/-- `handle_read_frame` with octets; the fuel is enough (`Hybi13.weight_lt`). -/
def handle_read_frame (c : Connection) (s : σ) (buf : Bytes) : Connection × σ :=
  read_loop app (5 * buf.length + 5) { c with taken := c.taken ++ buf } s buf

/-- `handle_read_frame` with an error. -/
def handle_read_error (c : Connection) (ec : Ec) : Connection :=
  if ec = .eof ∧ c.state = .closed then c
  else if ec = .eof ∧ c.state = .closing ∧ c.processor.server = false then c.terminate none
  else c.terminate (some ec)

/-! ## What can happen -/

inductive Event
  | call (x : Call)
  | run
  | transmit (n : Nat)
  | written (ec : Option Ec)
  | read (buf : Bytes)
  | readFailed (ec : Ec)
  | timeout

def step : Connection × σ → Event → Option (Connection × σ)
  | (c, s), .call x        => some ((c.call x).1, s)
  | (c, s), .run           =>
    if 0 < c.posted then some (({ c with posted := c.posted - 1 } : Connection).write_frame, s) else none
  | (c, s), .transmit n    =>
    match c.writing with
    | some buf =>
      if n ≤ buf.length then
        some ({ c with writing := some (buf.drop n), transmitted := c.transmitted ++ buf.take n }, s)
      else none
    | none     => none
  | (c, s), .written ec    =>
    match c.writing with
    | some buf =>
      if ec = none ∧ buf ≠ [] then none else some (({ c with writing := none } : Connection).handle_write_frame ec, s)
    | none     => none
  | (c, s), .read buf      =>
    if c.reading ∧ 0 < buf.length ∧ buf.length ≤ connectionReadBufferSize then
      some (({ c with reading := false } : Connection).handle_read_frame app s buf)
    else none
  | (c, s), .readFailed ec =>
    if c.reading then some (({ c with reading := false } : Connection).handle_read_error ec, s) else none
  | (c, s), .timeout       =>
    if c.handshakeTimer then
      some (({ c with handshakeTimer := false } : Connection).terminate (some .close_handshake_timeout), s)
    else none

end Reading
end Connection
end NewOrbit.Websocket
