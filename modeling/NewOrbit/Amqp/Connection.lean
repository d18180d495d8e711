import NewOrbit.Amqp.Method
import NewOrbit.Amqp.Channel

/-!
# `Amqp.Connection` — `ConnectionImpl`

What the connection is given to send while the handshake goes on it queues; only the frames of the handshake go out
at once. When the connection is set up the queue goes out, and from then on frames go out directly. A program that
closes the connection is made to wait until no channel waits for an answer any more.

`accepted` are the buffers `send` took, those of the handshake apart. `InOrder` says of every state that they have
gone out in order or wait in the queue (`connection_in_order`); the close frame leaves when no channel waits any more,
and is the last to leave (`close_is_last`).
-/

namespace NewOrbit.Amqp
open CString Framing

/-- The octets of a frame: the header of `ExtFrame`, what `fill` adds, and the end-of-frame octet. -/
def FrameContent.buffer (f : FrameContent) (channel : Nat) : Bytes :=
  f.type :: (be 2 channel ++ (be 4 f.size ++ (f.payload ++ [206])))

def connectionClose : FrameContent :=
  .method ⟨.connectionClose, ⟨0, by decide⟩, bytes "shutdown", ⟨0, by decide⟩, ⟨0, by decide⟩, ()⟩

def connectionCloseOK : FrameContent := .method ⟨.connectionCloseOK, ()⟩

/-- `ChannelCloseFrame(id)`. -/
def channelClose : FrameContent :=
  .method ⟨.channelClose, ⟨0, by decide⟩, ([] : Bytes), ⟨0, by decide⟩, ⟨0, by decide⟩, ()⟩

inductive ConnectionState
  | protocol | handshake | connected | closing | closed
  deriving DecidableEq, Repr

/-- What the handler is told. -/
inductive ConnectionEvent
  | connected
  | closed
  | error (message : Bytes)
  deriving DecidableEq, Repr

/-- `ConnectionImpl`; `startOK` is the answer to the start frame, which carries the login. `data` is what `onData` was
    given, each with whether it is part of the handshake. -/
structure ConnectionImpl where
  startOK     : Bytes
  vhost       : Bytes
  state       : ConnectionState
  closed      : Bool
  channels    : List (Nat × ChannelImpl)
  maxChannels : Nat
  maxFrame    : UInt32
  queue       : List Bytes
  data        : List (Bytes × Bool)
  events      : List ConnectionEvent
  accepted    : List Bytes

/-- `waiting` of a channel. -/
def ChannelImpl.waiting (c : ChannelImpl) : Bool := c.synchronous || !c.queue.isEmpty

namespace ConnectionImpl

/-- The protocol header goes out at once. -/
def init (startOK vhost : Bytes) (channels : List (Nat × ChannelImpl)) : ConnectionImpl :=
  ⟨startOK, vhost, .protocol, false, channels, 0, 10000, [], [([65, 77, 81, 80, 0, 0, 9, 1], true)], [], []⟩

def onData (c : ConnectionImpl) (buffer : Bytes) (handshake : Bool) : ConnectionImpl :=
  { c with data := c.data ++ [(buffer, handshake)], accepted := if handshake then c.accepted else c.accepted ++ [buffer] }

def push (c : ConnectionImpl) (buffer : Bytes) : ConnectionImpl :=
  { c with queue := c.queue ++ [buffer], accepted := c.accepted ++ [buffer] }

/-- `send` of a frame. -/
def send (c : ConnectionImpl) (buffer : Bytes) (partOfHandshake partOfShutdown : Bool) : ConnectionImpl × Bool :=
  if c.state = .closing ∨ c.state = .closed then (c, false)
  else if c.closed && !partOfShutdown then (c, false)
  else if (c.state = .connected ∧ c.queue = []) ∨ partOfHandshake then (c.onData buffer partOfHandshake, true)
  else (c.push buffer, true)

/-- `send` of a buffer. -/
def sendBuffer (c : ConnectionImpl) (buffer : Bytes) : ConnectionImpl × Bool :=
  if c.state ≠ .connected then (c, false)
  else if c.queue = [] then (c.onData buffer false, true)
  else (c.push buffer, true)

def waiting (c : ConnectionImpl) : Bool := c.channels.any fun p => p.2.waiting

/-- Every channel hears of it. -/
def tell (c : ConnectionImpl) (i : Incoming) : ConnectionImpl :=
  { c with channels := c.channels.map fun p => (p.1, p.2.receive i) }

def sendClose (c : ConnectionImpl) : ConnectionImpl :=
  let c := (c.send (connectionClose.buffer 0) false true).1
  { c.tell .connectionClosing with state := .closing }

def setProtocolOk (c : ConnectionImpl) : ConnectionImpl :=
  if c.state = .protocol then { c with state := .handshake } else c

def setCapacity (c : ConnectionImpl) (channels : Nat) (size : UInt32) : ConnectionImpl :=
  { c with maxChannels := channels, maxFrame := size }

/-- `setConnected`; `frames` is what the handler sends when it is told. -/
def setConnected (c : ConnectionImpl) (frames : List Bytes) : ConnectionImpl :=
  let c : ConnectionImpl := { c with state := .connected, events := c.events ++ [.connected] }
  let c := frames.foldl (fun c buffer => (ConnectionImpl.send c buffer false false).1) c
  let c : ConnectionImpl := { c with data := c.data ++ c.queue.map (·, false), queue := [] }
  if c.closed && decide (c.state = .connected) && !c.waiting then c.sendClose else c

/-- `close`; `ids` names the deferred results that closing the channels makes. -/
def close (c : ConnectionImpl) (ids : Nat → Nat) : ConnectionImpl :=
  if c.closed then c
  else
    let c : ConnectionImpl := { c with
      closed   := true
      channels := c.channels.map fun p => (p.1, p.2.call (.closeConnection (channelClose.buffer p.1) (ids p.1))) }
    if c.waiting || decide (c.state ≠ .connected) then c else c.sendClose

def reportError (c : ConnectionImpl) (message : Bytes) : ConnectionImpl :=
  { c.tell (.connectionError message) with state := .closed, events := c.events ++ [.error message] }

/-- `reportClosed`; the channels are not told, but nothing is sent any more. -/
def reportClosed (c : ConnectionImpl) : ConnectionImpl :=
  { c.tell .connectionClosing with state := .closed, events := c.events ++ [.closed] }

/-- The end of `parse`, when everything was parsed. -/
def parsed (c : ConnectionImpl) : ConnectionImpl :=
  if c.closed && decide (c.state = .connected) && !c.waiting then c.sendClose else c

end ConnectionImpl

/-! ## Steps

`InOrder` is kept by the few functions that give something to the handler or to the queue, and a step of the
connection is made of these. The queue is emptied before the state becomes `connected`, so that from then on nothing
can overtake what waits. -/

/-- What happens to a connection: frames to send, the steps of the handshake, the end of a `parse`, and closing.
    `channels` is whatever else makes the channels what they are. -/
inductive ConnectionLabel
  | send (buffer : Bytes) (partOfHandshake partOfShutdown : Bool)
  | sendBuffer (buffer : Bytes)
  | setProtocolOk
  | setCapacity (channels : Nat) (size : UInt32)
  | setConnected (frames : List Bytes)
  | parsed
  | close (ids : Nat → Nat)
  | reportError (message : Bytes)
  | reportClosed
  | channels (channels : List (Nat × ChannelImpl))

namespace ConnectionImpl

def step (c : ConnectionImpl) : ConnectionLabel → ConnectionImpl
  | .send buffer partOfHandshake partOfShutdown => (c.send buffer partOfHandshake partOfShutdown).1
  | .sendBuffer buffer                          => (c.sendBuffer buffer).1
  | .setProtocolOk                              => c.setProtocolOk
  | .setCapacity channels size                  => c.setCapacity channels size
  | .setConnected frames                        => c.setConnected frames
  | .parsed                                     => c.parsed
  | .close ids                                  => c.close ids
  | .reportError message                        => c.reportError message
  | .reportClosed                               => c.reportClosed
  | .channels channels                          => { c with channels }

end ConnectionImpl

/-- What was given to `onData`, the handshake apart. -/
def plain (data : List (Bytes × Bool)) : List Bytes := (data.filter fun p => !p.2).map Prod.fst

theorem plain_append (d₁ d₂ : List (Bytes × Bool)) : plain (d₁ ++ d₂) = plain d₁ ++ plain d₂ := by
  rw [plain, List.filter_append, List.map_append]
  rfl

theorem plain_queue (queue : List Bytes) : plain (queue.map (·, false)) = queue := by
  induction queue with
  | nil => rfl
  | cons b queue ih =>
      show b :: plain (queue.map (·, false)) = b :: queue
      rw [ih]

/-- What holds of every state: what was accepted has gone out, in order, or waits in the queue; while the handshake
    goes on nothing else has gone out; and a connection that is set up has an empty queue. -/
structure InOrder (c : ConnectionImpl) : Prop where
  accepted  : plain c.data ++ c.queue = c.accepted
  handshake : c.state = .protocol ∨ c.state = .handshake → plain c.data = []
  connected : c.state = .connected ∨ c.state = .closing → c.queue = []

variable {c : ConnectionImpl}

/-- The handler is given a buffer: one of the handshake, or one for which nothing waits. -/
theorem InOrder.onData (h : InOrder c) (buffer : Bytes) (handshake : Bool)
    (hset : handshake = false → c.state = .connected) : InOrder (c.onData buffer handshake) := by
  cases handshake with
  | true =>
      have hplain : plain (c.data ++ [(buffer, true)]) = plain c.data := by rw [plain_append]; exact List.append_nil _
      exact ⟨by rw [ConnectionImpl.onData, hplain]; exact h.accepted,
        fun hs => by rw [ConnectionImpl.onData, hplain]; exact h.handshake hs, h.connected⟩
  | false =>
      have hstate := hset rfl
      have hqueue := h.connected (.inl hstate)
      have hall : plain c.data = c.accepted := by simpa [hqueue] using h.accepted
      refine ⟨?_, fun hs => ?_, h.connected⟩
      · show plain (c.data ++ [(buffer, false)]) ++ c.queue = c.accepted ++ [buffer]
        rw [plain_append, hqueue, List.append_nil, hall]
        rfl
      · have hs' : c.state = .protocol ∨ c.state = .handshake := hs
        rw [hstate] at hs'
        rcases hs' with hs' | hs' <;> cases hs'

theorem InOrder.push (h : InOrder c) (buffer : Bytes) (hstate : c.state ≠ .connected) (hopen : c.state ≠ .closing) :
    InOrder (c.push buffer) where
  accepted := by
    show plain c.data ++ (c.queue ++ [buffer]) = c.accepted ++ [buffer]
    rw [← List.append_assoc, h.accepted]
  handshake := h.handshake
  connected hs := by
    rcases hs with hs | hs
    · exact absurd hs hstate
    · exact absurd hs hopen

theorem InOrder.send (h : InOrder c) (buffer : Bytes) (partOfHandshake partOfShutdown : Bool) :
    InOrder (c.send buffer partOfHandshake partOfShutdown).1 := by
  unfold ConnectionImpl.send
  split
  · exact h
  · rename_i hopen
    split
    · exact h
    · split
      · rename_i hnow
        refine h.onData buffer partOfHandshake fun hfalse => ?_
        rcases hnow with hnow | hnow
        · exact hnow.1
        · exact absurd (hnow.symm.trans hfalse) (by decide)
      · rename_i hlater
        refine h.push buffer (fun hstate => hlater (.inl ⟨hstate, h.connected (.inl hstate)⟩)) fun hstate => ?_
        exact hopen (.inl hstate)

theorem InOrder.sendBuffer (h : InOrder c) (buffer : Bytes) : InOrder (c.sendBuffer buffer).1 := by
  unfold ConnectionImpl.sendBuffer
  split
  · exact h
  · rename_i hstate
    have hconn : c.state = .connected := not_not.mp hstate
    rw [if_pos (h.connected (.inl hconn))]
    exact h.onData buffer false fun _ => hconn

theorem InOrder.tell (h : InOrder c) (i : Incoming) : InOrder (c.tell i) := ⟨h.accepted, h.handshake, h.connected⟩

/-- Sending leaves the state of the connection as it is. -/
theorem state_send (buffer : Bytes) (partOfHandshake partOfShutdown : Bool) :
    (c.send buffer partOfHandshake partOfShutdown).1.state = c.state := by
  unfold ConnectionImpl.send
  split
  · rfl
  · split
    · rfl
    · split <;> rfl

theorem state_sendBuffer (buffer : Bytes) : (c.sendBuffer buffer).1.state = c.state := by
  unfold ConnectionImpl.sendBuffer
  split
  · rfl
  · split <;> rfl

/-- Once nothing waits in the queue, the connection may be closing. -/
theorem InOrder.sendClose (h : InOrder c) (hconn : c.state = .connected) : InOrder c.sendClose := by
  have hsent := h.send (connectionClose.buffer 0) false true
  have hstate := (state_send (c := c) (connectionClose.buffer 0) false true).trans hconn
  exact ⟨hsent.accepted, fun hs => (by rcases hs with hs | hs <;> cases hs), fun _ => hsent.connected (.inl hstate)⟩

/-- While the state says connected and the queue is not yet empty, frames go to its end. -/
theorem send_queue (frames : List Bytes) : ∀ {c : ConnectionImpl}, c.state = .connected →
    plain c.data ++ c.queue = c.accepted →
    let c' := frames.foldl (fun c buffer => (ConnectionImpl.send c buffer false false).1) c
    plain c'.data ++ c'.queue = c'.accepted ∧ c'.state = .connected := by
  induction frames with
  | nil => exact fun hstate h => ⟨h, hstate⟩
  | cons buffer frames ih =>
      intro c hstate h
      have hsend : (c.send buffer false false).1.state = .connected ∧
          plain (c.send buffer false false).1.data ++ (c.send buffer false false).1.queue =
            (c.send buffer false false).1.accepted := by
        unfold ConnectionImpl.send
        rw [if_neg (by rw [hstate]; rintro (h | h) <;> cases h)]
        split
        · exact ⟨hstate, h⟩
        · split
          · rename_i hnow
            have hqueue : c.queue = [] := by
              rcases hnow with hnow | hnow
              · exact hnow.2
              · cases hnow
            refine ⟨hstate, ?_⟩
            show plain (c.data ++ [(buffer, false)]) ++ c.queue = c.accepted ++ [buffer]
            rw [plain_append, hqueue, List.append_nil, ← h, hqueue, List.append_nil]
            rfl
          · refine ⟨hstate, ?_⟩
            show plain c.data ++ (c.queue ++ [buffer]) = c.accepted ++ [buffer]
            rw [← List.append_assoc, h]
      exact ih hsend.1 hsend.2

theorem InOrder.setConnected (h : InOrder c) (frames : List Bytes) : InOrder (c.setConnected frames) := by
  obtain ⟨haccepted, hstate⟩ := send_queue frames (c := { c with state := .connected, events := c.events ++ [.connected] })
    rfl h.accepted
  unfold ConnectionImpl.setConnected
  dsimp only at haccepted hstate ⊢
  generalize frames.foldl (fun c buffer => (ConnectionImpl.send c buffer false false).1)
    { c with state := .connected, events := c.events ++ [.connected] } = c₁ at haccepted hstate ⊢
  have hflushed : InOrder { c₁ with data := c₁.data ++ c₁.queue.map (·, false), queue := [] } := by
    refine ⟨?_, fun hs => ?_, fun _ => rfl⟩
    · show plain (c₁.data ++ c₁.queue.map (·, false)) ++ [] = c₁.accepted
      rw [plain_append, plain_queue, List.append_nil, haccepted]
    · have hs' : c₁.state = .protocol ∨ c₁.state = .handshake := hs
      rw [hstate] at hs'
      rcases hs' with hs' | hs' <;> cases hs'
  split
  · exact hflushed.sendClose hstate
  · exact hflushed

/-- **Every step keeps order.** -/
theorem InOrder.step (h : InOrder c) (a : ConnectionLabel) : InOrder (c.step a) := by
  cases a with
  | send buffer partOfHandshake partOfShutdown => exact h.send buffer partOfHandshake partOfShutdown
  | sendBuffer buffer => exact h.sendBuffer buffer
  | setProtocolOk =>
      show InOrder c.setProtocolOk
      unfold ConnectionImpl.setProtocolOk
      split
      · rename_i hstate
        exact ⟨h.accepted, fun _ => h.handshake (.inl hstate), fun hs => by rcases hs with hs | hs <;> cases hs⟩
      · exact h
  | setCapacity channels size => exact ⟨h.accepted, h.handshake, h.connected⟩
  | setConnected frames => exact h.setConnected frames
  | parsed =>
      show InOrder c.parsed
      unfold ConnectionImpl.parsed
      split
      · rename_i hclose
        have hstate : c.state = .connected := by
          simp only [Bool.and_eq_true, decide_eq_true_eq] at hclose
          exact hclose.1.2
        exact h.sendClose hstate
      · exact h
  | close ids =>
      show InOrder (c.close ids)
      unfold ConnectionImpl.close
      split
      · exact h
      · dsimp only
        split
        · exact ⟨h.accepted, h.handshake, h.connected⟩
        · rename_i hclose
          have hstate : c.state = .connected := by
            simp only [Bool.or_eq_true, not_or, decide_eq_true_eq, ne_eq, not_not] at hclose
            exact hclose.2
          exact InOrder.sendClose (c := { c with closed := true, channels := _ })
            ⟨h.accepted, h.handshake, h.connected⟩ hstate
  | reportError message =>
      exact ⟨h.accepted, fun hs => (by rcases hs with hs | hs <;> cases hs), fun hs => (by rcases hs with hs | hs <;> cases hs)⟩
  | reportClosed =>
      exact ⟨h.accepted, fun hs => (by rcases hs with hs | hs <;> cases hs), fun hs => (by rcases hs with hs | hs <;> cases hs)⟩
  | channels channels => exact ⟨h.accepted, h.handshake, h.connected⟩

theorem inOrder_init (startOK vhost : Bytes) (channels : List (Nat × ChannelImpl)) :
    InOrder (.init startOK vhost channels) :=
  ⟨rfl, fun _ => rfl, fun _ => rfl⟩

theorem inOrder_run (h : InOrder c) (tr : List ConnectionLabel) : InOrder (tr.foldl ConnectionImpl.step c) := by
  induction tr generalizing c with
  | nil => exact h
  | cons a tr ih => exact ih (h.step a)

/-- **No frame is lost, doubled or overtaken by the handshake.** In every run what the connection accepted has gone
    out in order or waits in the queue behind it; before the connection is set up nothing of it has gone out, and as
    long as it is set up all of it has. -/
theorem connection_in_order (startOK vhost : Bytes) (channels : List (Nat × ChannelImpl)) (tr : List ConnectionLabel) :
    let c := tr.foldl ConnectionImpl.step (.init startOK vhost channels)
    plain c.data ++ c.queue = c.accepted ∧
      (c.state = .protocol ∨ c.state = .handshake → plain c.data = [] ∧ c.queue = c.accepted) ∧
      (c.state = .connected ∨ c.state = .closing → plain c.data = c.accepted) := by
  have h := inOrder_run (inOrder_init startOK vhost channels) tr
  refine ⟨h.accepted, fun hs => ⟨h.handshake hs, ?_⟩, fun hs => ?_⟩
  · have haccepted := h.accepted
    rwa [h.handshake hs] at haccepted
  · have haccepted := h.accepted
    rwa [h.connected hs, List.append_nil] at haccepted

/-! ## Closing

Only `sendClose` makes the state `closing`, and it is called where no channel waits and the queue is empty, so the
close frame is the last that was sent. In that state no `send` gives anything to the handler any more. -/

/-- What sending the close frame leaves behind. -/
structure Closing (c : ConnectionImpl) : Prop where
  closed   : c.closed = true
  channels : ∀ p ∈ c.channels, p.2.waiting = false
  last     : c.data.getLast? = some (connectionClose.buffer 0, false)

theorem waiting_receive_closing (c : ChannelImpl) : (c.receive .connectionClosing).waiting = c.waiting := by
  unfold ChannelImpl.receive
  split <;> rfl

/-- The close frame goes out behind everything else. -/
theorem closing_sendClose (hclosed : c.closed = true) (hconn : c.state = .connected) (hqueue : c.queue = [])
    (hwaiting : c.waiting = false) : Closing c.sendClose := by
  have hsend : (c.send (connectionClose.buffer 0) false true).1 = c.onData (connectionClose.buffer 0) false := by
    unfold ConnectionImpl.send
    rw [if_neg (by rw [hconn]; rintro (h | h) <;> cases h), if_neg (by simp), if_pos (.inl ⟨hconn, hqueue⟩)]
  refine ⟨?_, fun p hp => ?_, ?_⟩
  · show (c.send (connectionClose.buffer 0) false true).1.closed = true
    rw [hsend]
    exact hclosed
  · have hp' : p ∈ (c.send (connectionClose.buffer 0) false true).1.channels.map
        fun p => (p.1, p.2.receive .connectionClosing) := hp
    rw [hsend] at hp'
    obtain ⟨q, hq, rfl⟩ := List.mem_map.mp hp'
    rw [waiting_receive_closing]
    have hnone := List.any_eq_false.mp hwaiting q hq
    simpa using hnone
  · show (c.send (connectionClose.buffer 0) false true).1.data.getLast? = _
    rw [hsend]
    exact List.getLast?_concat ..

/-- Only sending the close frame makes the connection a closing one. -/
theorem closing_step (h : InOrder c) {a : ConnectionLabel} (hbefore : c.state ≠ .closing)
    (hafter : (c.step a).state = .closing) : Closing (c.step a) := by
  cases a with
  | send buffer partOfHandshake partOfShutdown =>
      exact absurd ((state_send buffer partOfHandshake partOfShutdown).symm.trans hafter) hbefore
  | sendBuffer buffer => exact absurd ((state_sendBuffer buffer).symm.trans hafter) hbefore
  | setProtocolOk =>
      have hne : c.setProtocolOk.state ≠ .closing := by
        unfold ConnectionImpl.setProtocolOk
        split
        · exact fun h => nomatch h
        · exact hbefore
      exact absurd hafter hne
  | setCapacity channels size => exact absurd hafter hbefore
  | setConnected frames =>
      change (c.setConnected frames).state = .closing at hafter
      show Closing (c.setConnected frames)
      obtain ⟨-, hstate⟩ := send_queue frames (c := { c with state := .connected, events := c.events ++ [.connected] })
        rfl h.accepted
      unfold ConnectionImpl.setConnected at hafter ⊢
      dsimp only at hafter hstate ⊢
      split
      · rename_i hclose
        simp only [Bool.and_eq_true, decide_eq_true_eq, Bool.not_eq_true'] at hclose
        exact closing_sendClose hclose.1.1 hclose.1.2 rfl hclose.2
      · rename_i hclose
        rw [if_neg hclose] at hafter
        exact absurd (hstate.symm.trans hafter) (by decide)
  | parsed =>
      change c.parsed.state = .closing at hafter
      show Closing c.parsed
      unfold ConnectionImpl.parsed at hafter ⊢
      split
      · rename_i hclose
        simp only [Bool.and_eq_true, decide_eq_true_eq, Bool.not_eq_true'] at hclose
        exact closing_sendClose hclose.1.1 hclose.1.2 (h.connected (.inl hclose.1.2)) hclose.2
      · rename_i hclose
        rw [if_neg hclose] at hafter
        exact absurd hafter hbefore
  | close ids =>
      change (c.close ids).state = .closing at hafter
      show Closing (c.close ids)
      unfold ConnectionImpl.close at hafter ⊢
      dsimp only at hafter ⊢
      split
      · rename_i hclosed
        rw [if_pos hclosed] at hafter
        exact absurd hafter hbefore
      · rename_i hclosed
        rw [if_neg hclosed] at hafter
        split
        · rename_i hwait
          rw [if_pos hwait] at hafter
          exact absurd hafter hbefore
        · rename_i hwait
          simp only [Bool.or_eq_true, not_or, decide_eq_true_eq, ne_eq, not_not, Bool.not_eq_true] at hwait
          exact closing_sendClose rfl hwait.2 (h.connected (.inl hwait.2)) hwait.1
  | reportError message => cases hafter
  | reportClosed => cases hafter
  | channels channels => exact absurd hafter hbefore

theorem silent_of_eq {c' : ConnectionImpl} (h : c' = c) (hdone : c.state = .closing ∨ c.state = .closed) :
    c'.data = c.data ∧ (c'.state = .closing ∨ c'.state = .closed) := by
  rw [h]
  exact ⟨rfl, hdone⟩

/-- Once closing or closed, a connection sends nothing, unless it is set up again. -/
theorem silent_step {a : ConnectionLabel} (hdone : c.state = .closing ∨ c.state = .closed)
    (ha : ∀ frames, a ≠ .setConnected frames) :
    (c.step a).data = c.data ∧ ((c.step a).state = .closing ∨ (c.step a).state = .closed) := by
  have hnot : c.state ≠ .connected := by
    rcases hdone with h | h <;> rw [h] <;> decide
  cases a with
  | send buffer partOfHandshake partOfShutdown =>
      have hsend : (c.send buffer partOfHandshake partOfShutdown).1 = c := by rw [ConnectionImpl.send, if_pos hdone]
      exact silent_of_eq hsend hdone
  | sendBuffer buffer =>
      have hsend : (c.sendBuffer buffer).1 = c := by rw [ConnectionImpl.sendBuffer, if_pos hnot]
      exact silent_of_eq hsend hdone
  | setProtocolOk =>
      have hprotocol : c.state ≠ .protocol := by rcases hdone with h | h <;> rw [h] <;> decide
      have hsame : c.setProtocolOk = c := by rw [ConnectionImpl.setProtocolOk, if_neg hprotocol]
      exact silent_of_eq hsame hdone
  | setCapacity channels size => exact ⟨rfl, hdone⟩
  | setConnected frames => exact absurd rfl (ha frames)
  | parsed =>
      have hsame : c.parsed = c := by rw [ConnectionImpl.parsed, if_neg (by simp [hnot])]
      exact silent_of_eq hsame hdone
  | close ids =>
      show (c.close ids).data = c.data ∧ ((c.close ids).state = .closing ∨ (c.close ids).state = .closed)
      unfold ConnectionImpl.close
      split
      · exact ⟨rfl, hdone⟩
      · dsimp only
        rw [if_pos (by simp [hnot])]
        exact ⟨rfl, hdone⟩
  | reportError message => exact ⟨rfl, .inr rfl⟩
  | reportClosed => exact ⟨rfl, .inr rfl⟩
  | channels channels => exact ⟨rfl, hdone⟩

theorem silent_run {tr : List ConnectionLabel} (hdone : c.state = .closing ∨ c.state = .closed)
    (htr : ∀ a ∈ tr, ∀ frames, a ≠ .setConnected frames) : (tr.foldl ConnectionImpl.step c).data = c.data := by
  induction tr generalizing c with
  | nil => rfl
  | cons a tr ih =>
      obtain ⟨hdata, hdone'⟩ := silent_step hdone (htr a List.mem_cons_self)
      exact (ih hdone' fun b hb => htr b (List.mem_cons_of_mem _ hb)).trans hdata

/-- **The close frame is the last.** In every run, when the connection becomes a closing one, the program has closed
    it, no channel waits for an answer or holds frames back, and the close frame has just gone out; after it nothing
    does, unless the server sets the connection up once more. -/
theorem close_is_last (startOK vhost : Bytes) (channels : List (Nat × ChannelImpl)) (tr : List ConnectionLabel)
    (a : ConnectionLabel) (hbefore : (tr.foldl ConnectionImpl.step (.init startOK vhost channels)).state ≠ .closing)
    (hafter : ((tr.foldl ConnectionImpl.step (.init startOK vhost channels)).step a).state = .closing)
    (tr' : List ConnectionLabel) (htr' : ∀ b ∈ tr', ∀ frames, b ≠ .setConnected frames) :
    let c := (tr.foldl ConnectionImpl.step (.init startOK vhost channels)).step a
    c.closed = true ∧ (∀ p ∈ c.channels, p.2.waiting = false) ∧
      c.data.getLast? = some (connectionClose.buffer 0, false) ∧ (tr'.foldl ConnectionImpl.step c).data = c.data := by
  have hclosing := closing_step (inOrder_run (inOrder_init startOK vhost channels) tr) hbefore hafter
  exact ⟨hclosing.closed, hclosing.channels, hclosing.last, silent_run (.inl hafter) htr'⟩

/-- Channel 1, whose open frame has no answer yet when the connection is closed. -/
def openingChannel : ChannelImpl := .attach [1]

/-- The channel once its open frame and then its close frame have been answered. -/
def closedChannel : ChannelImpl :=
  ((openingChannel.call (.closeConnection (channelClose.buffer 1) 1)).receive (.openOk [])).receive (.closeOk [])

/-- The connection is set up and closed while its channel waits. The close frame goes out at the end of the `parse`
    that brings the last answer, and what is sent behind it does not. -/
def closeWaiting : List ConnectionLabel :=
  [.setProtocolOk, .setConnected [[1]], .close id, .parsed, .channels [(1, closedChannel)]]

theorem close_is_last_waiting :
    let c := (closeWaiting.foldl ConnectionImpl.step (.init [] [] [(1, openingChannel)])).step .parsed
    c.closed = true ∧ (∀ p ∈ c.channels, p.2.waiting = false) ∧
      c.data.getLast? = some (connectionClose.buffer 0, false) ∧
      (([.send [2] false false, .parsed] : List ConnectionLabel).foldl ConnectionImpl.step c).data = c.data := by
  have hbefore : (closeWaiting.foldl ConnectionImpl.step (.init [] [] [(1, openingChannel)])).state = .connected := by
    decide +kernel
  exact close_is_last [] [] [(1, openingChannel)] closeWaiting .parsed (by rw [hbefore]; decide) (by decide +kernel)
    [.send [2] false false, .parsed] (by simp)

end NewOrbit.Amqp
