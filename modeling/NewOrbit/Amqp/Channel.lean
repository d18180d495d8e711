import NewOrbit.Amqp.MetaData

/-!
# `Amqp.Channel` — `ChannelImpl`

A channel sends one frame after another, but behind a *synchronous* frame it holds back what follows (`queue`) until
that frame is answered. The objects on which the program installs its callbacks (`Deferred`) form a chain, oldest
first; an answer is reported to the oldest. Incoming content is put together in `message` and reported to the
consumer of its tag.

What the program does in a callback is part of the label of the step that makes the callback. The callbacks for
errors, which neither program installs, make no calls here; neither program calls `Channel::get`.
-/

namespace NewOrbit.Amqp
open CString Framing Wire

/-! ## Outgoing frames -/

/-- The frames for which a `Deferred` is made, the close frame apart. -/
inductive Request
  | channelFlow | transactionSelect | transactionCommit | transactionRollback
  | exchangeDeclare | exchangeBind | exchangeUnbind | exchangeDelete
  | queueDeclare | queueBind | queueUnbind | queuePurge | queueDelete
  | basicQos | basicConsume | basicCancel | basicRecover
  deriving DecidableEq, Repr

/-- The frames the server does not answer. -/
inductive Post
  | basicAck | basicReject | basicNack | basicPublish | basicHeader | body
  deriving DecidableEq, Repr

/-- The frames a channel sends. -/
inductive Method
  | channelOpen
  | channelClose
  | request (r : Request)
  | post (p : Post)
  deriving DecidableEq, Repr

/-- `Frame::synchronous`; `ChannelImpl` never sets the nowait option. `BasicNackFrame` leaves it at what
    `MethodFrame` says. -/
def Method.synchronous : Method → Bool
  | .request .basicRecover => false
  | .post .basicNack       => true
  | .post _                => false
  | _                      => true

/-- Does the server answer with a method of its own? -/
def Method.answered : Method → Bool
  | .post _ => false
  | _       => true

/-- A frame and its buffer; `request` names the `Deferred` made for it, if there is one. -/
structure Outgoing where
  method  : Method
  buffer  : Bytes
  request : Option Nat
  deriving DecidableEq, Repr

def Outgoing.synchronous (f : Outgoing) : Bool := f.method.synchronous

/-! ## Deferred results -/

/-- The subclasses of `Deferred`, as far as they do more than call the program: a consumer with or without a message
    callback, and a cancel. -/
inductive DeferredType
  | plain
  | consumer (callback : Bool)
  | cancel
  deriving DecidableEq, Repr

/-- What `consume` and `cancel` make, and the others. -/
def Request.deferred (callback : Bool) : Request → DeferredType
  | .basicConsume => .consumer callback
  | .basicCancel  => .cancel
  | _             => .plain

structure Deferred where
  id     : Nat
  type   : DeferredType
  failed : Bool
  deriving DecidableEq, Repr

/-- What an `-ok` frame reports. -/
inductive Reply
  | ok
  | queueDeclareOk (name : Bytes) (messageCount consumerCount : Nat)
  | deleteOk (messageCount : Nat)
  | consumerOk (consumerTag : Bytes)
  deriving DecidableEq, Repr

/-! ## Incoming content -/

/-- `BasicDeliverFrame`. -/
structure Deliver where
  consumerTag : Bytes
  deliveryTag : Fin (256 ^ 8)
  redelivered : UInt8
  exchange    : Bytes
  routingKey  : Bytes
  deriving DecidableEq, Repr

/-- `ConsumedMessage`: the frame that announced it, what the header said, and the octets of the body so far. -/
structure ConsumedMessage where
  frame    : Deliver
  metadata : MetaData
  bodySize : Nat
  body     : Bytes

namespace ConsumedMessage

def ofFrame (frame : Deliver) : ConsumedMessage := ⟨frame, .init, 0, []⟩

/-- `MessageImpl::append`: the message with the data, and whether it is complete. -/
def append (m : ConsumedMessage) (buffer : Bytes) : ConsumedMessage × Bool :=
  if m.body.length = 0 ∧ m.bodySize ≤ buffer.length then ({ m with body := buffer.take m.bodySize }, true)
  else
    let body := m.body ++ buffer.take (m.bodySize - m.body.length)
    ({ m with body }, decide (m.bodySize ≤ body.length))

end ConsumedMessage

/-! ## The channel -/

inductive ChannelState
  | connected | closing | closed
  deriving DecidableEq, Repr

/-- What the program sees of the channel. -/
inductive Event
  | ready
  | success (id : Nat) (reply : Reply)
  | error (id : Nat) (message : Bytes)
  | received (consumer : Nat) (message : ConsumedMessage)
  | channelError (message : Bytes)

/-- `ChannelImpl`. `connection` says whether the connection takes frames at all, and `shutdown` whether it was told to
    close: then it takes no new ones, only those that wait (`ConnectionImpl::send` of a frame and of a buffer). `sent`
    are the frames it has taken; `taken` those `send` took to be sent now or later, `made` the deferred results, and
    `log` is what the program was told. -/
structure ChannelImpl where
  state       : ChannelState
  connection  : Bool
  shutdown    : Bool
  queue       : List Outgoing
  synchronous : Bool
  callbacks   : List Deferred
  message     : Option ConsumedMessage
  consumers   : List (Bytes × Nat)
  sent        : List Outgoing
  taken       : List Outgoing
  made        : List Nat
  log         : List Event

/-- What the program calls: a function that makes a deferred result (`callback` is whether a message callback is
    installed on it), `publish`, `ack` or `reject` frame by frame, `close`, or `close` of the connection. -/
inductive Call
  | request (r : Request) (buffer : Bytes) (id : Nat) (callback : Bool)
  | post (p : Post) (buffer : Bytes)
  | close (buffer : Bytes) (id : Nat)
  | closeConnection (buffer : Bytes) (id : Nat)
  deriving DecidableEq, Repr

namespace ChannelImpl

/-- A frame that has waited goes to the connection. -/
def handOver (c : ChannelImpl) (f : Outgoing) : ChannelImpl :=
  if c.connection then { c with sent := c.sent ++ [f] } else c

/-- `ChannelImpl::send`. While the channel is closing it claims success and drops the frame. -/
def send (c : ChannelImpl) (f : Outgoing) : ChannelImpl × Bool :=
  if c.state = .closed then (c, false)
  else if c.state = .closing then (c, true)
  else if c.synchronous || !c.queue.isEmpty then
    ({ c with queue := c.queue ++ [f], taken := c.taken ++ [f] }, true)
  else if c.connection && !c.shutdown then
    ({ c with sent := c.sent ++ [f], taken := c.taken ++ [f], synchronous := f.synchronous }, true)
  else (c, false)

/-- `push(deferred)`. -/
def push (c : ChannelImpl) (deferred : Deferred) : ChannelImpl :=
  { c with callbacks := c.callbacks ++ [deferred], made := c.made ++ [deferred.id] }

/-- `push(frame)`, `declareQueue`, `consume` and the others that send a frame and make a deferred result of it. -/
def request (c : ChannelImpl) (f : Outgoing) (id : Nat) (type : DeferredType) : ChannelImpl :=
  (c.send f).1.push ⟨id, type, !(c.send f).2⟩

/-- `ChannelImpl::close`. -/
def close (c : ChannelImpl) (buffer : Bytes) (id : Nat) : ChannelImpl :=
  if c.state = .connected then
    let sent := c.request ⟨.channelClose, buffer, some id⟩ id .plain
    if (c.send ⟨.channelClose, buffer, some id⟩).2 then { sent with state := .closing } else sent
  else c.push ⟨id, .plain, decide (c.state = .closing)⟩

def call (c : ChannelImpl) : Call → ChannelImpl
  | .request r buffer id callback => c.request ⟨.request r, buffer, some id⟩ id (r.deferred callback)
  | .post p buffer                => (c.send ⟨.post p, buffer, none⟩).1
  | .close buffer id              => c.close buffer id
  | .closeConnection buffer id    => { c with shutdown := true }.close buffer id

/-- The loop of `onSynchronized`: waiting frames go out up to the next synchronous one. -/
def drain (c : ChannelImpl) : List Outgoing → ChannelImpl
  | []        => { c with queue := [], synchronous := false }
  | f :: rest =>
    let c := c.handOver f
    if f.synchronous then { c with queue := rest, synchronous := true } else c.drain rest

def onSynchronized (c : ChannelImpl) : ChannelImpl := c.drain c.queue

/-- What the subclass does with the channel on a success. -/
def reported (c : ChannelImpl) (deferred : Deferred) : Reply → ChannelImpl
  | .consumerOk tag =>
    match deferred.type with
    | .consumer true  => { c with consumers := SortedMap.put c.consumers tag deferred.id }
    | .consumer false => { c with consumers := c.consumers.filter fun p => p.1 ≠ tag }
    | .cancel         => { c with consumers := c.consumers.filter fun p => p.1 ≠ tag }
    | .plain          => c
  | _ => c

/-- `reportSuccess`: the oldest deferred result is told, which may call the channel, and is then taken off. -/
def reportSuccess (c : ChannelImpl) (reply : Reply) (calls : List Call) : ChannelImpl :=
  match c.callbacks with
  | []            => c
  | deferred :: _ =>
    let c := c.reported deferred reply
    let c := calls.foldl call { c with log := c.log ++ [.success deferred.id reply] }
    { c with callbacks := c.callbacks.tail }

/-- What `reportError` tells the chain: the error to the oldest, and to the others that the channel is in error. -/
def errors (message : Bytes) : List Deferred → List Event
  | []               => []
  | deferred :: rest => .error deferred.id message :: rest.map fun d => .error d.id (bytes "Channel is in error state")

/-- `reportError`: the channel is closed, what waits is dropped, and the chain is emptied. -/
def reportError (c : ChannelImpl) (message : Bytes) (notifyhandler : Bool) : ChannelImpl :=
  { c with
    state       := .closed
    synchronous := false
    queue       := []
    callbacks   := []
    log         := c.log ++ errors message c.callbacks ++ if notifyhandler then [.channelError message] else [] }

/-- `reportClosed`, and the `onSynchronized` behind it. -/
def reportClosed (c : ChannelImpl) (calls : List Call) : ChannelImpl :=
  let c := { c with state := .closed, synchronous := false }
  let c := c.reportSuccess .ok calls
  (c.reportError (bytes "Channel has been closed") false).onSynchronized

/-- `reportReady`. -/
def reportReady (c : ChannelImpl) (calls : List Call) : ChannelImpl :=
  (calls.foldl call { c with log := c.log ++ [.ready] }).onSynchronized

/-- `reportMessage`: a message without a consumer stays where it is. -/
def reportMessage (c : ChannelImpl) (calls : List Call) : ChannelImpl :=
  match c.message with
  | none   => c
  | some m =>
    let c := if m.frame.consumerTag.isEmpty then c.onSynchronized else c
    match SortedMap.get c.consumers m.frame.consumerTag with
    | none          => c
    | some consumer => { calls.foldl call { c with log := c.log ++ [.received consumer m] } with message := none }

/-- `BasicHeaderFrame::process`. -/
def header (c : ChannelImpl) (bodySize : Nat) (metadata : MetaData) (calls : List Call) : ChannelImpl :=
  match c.message with
  | none   => c
  | some m =>
    let c := { c with message := some { m with bodySize, metadata } }
    if bodySize = 0 then c.reportMessage calls else c

/-- `BodyFrame::process`. -/
def body (c : ChannelImpl) (payload : Bytes) (calls : List Call) : ChannelImpl :=
  match c.message with
  | none   => c
  | some m =>
    let (m, complete) := m.append payload
    let c := { c with message := some m }
    if complete then c.reportMessage calls else c

end ChannelImpl

/-- What reaches a channel; `calls` is what the program does when it is called back. -/
inductive Incoming
  | openOk (calls : List Call)
  | reply (r : Reply) (calls : List Call)
  | recoverOk (calls : List Call)
  | closeOk (calls : List Call)
  | closeByServer (text : Bytes)
  | connectionError (message : Bytes)
  | connectionClosing
  | deliver (frame : Deliver)
  | header (bodySize : Nat) (metadata : MetaData) (calls : List Call)
  | body (payload : Bytes) (calls : List Call)

namespace ChannelImpl

/-- A frame for the channel, or news of the connection. -/
def incoming (c : ChannelImpl) : Incoming → ChannelImpl
  | .openOk calls                   => c.reportReady calls
  | .reply r calls                  => (c.reportSuccess r calls).onSynchronized
  | .recoverOk calls                => c.reportSuccess .ok calls
  | .closeOk calls                  => c.reportClosed calls
  | .closeByServer text             => c.reportError (cstr text) true
  | .connectionError message        => { c.reportError message false with connection := false }
  | .connectionClosing              => { c with connection := false }
  | .deliver frame                  => { c with message := some (.ofFrame frame) }
  | .header bodySize metadata calls => c.header bodySize metadata calls
  | .body payload calls             => c.body payload calls

/-- Once closed, the channel is no longer known to the connection. -/
def receive (c : ChannelImpl) (i : Incoming) : ChannelImpl := if c.state = .closed then c else c.incoming i

/-- A channel with its id, counted as connected. -/
def init : ChannelImpl := ⟨.connected, true, false, [], false, [], none, [], [], [], [], []⟩

/-- `attach`: the open frame is sent at once. -/
def attach (buffer : Bytes) : ChannelImpl := (init.send ⟨.channelOpen, buffer, none⟩).1

end ChannelImpl

end NewOrbit.Amqp
