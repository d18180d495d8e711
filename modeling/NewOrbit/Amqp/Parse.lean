import NewOrbit.Amqp.Connection
import NewOrbit.Rabbit.PocoFrames

/-!
# `Amqp.Parse` — `ConnectionImpl::parse`

`parse` recognizes one frame after another at the front of the buffer, has each processed, and says how many octets
it took. A frame that is not all there waits for the next call; an exception closes the connection.

The members of a frame are read from what is left of the whole buffer, not from the payload alone, so a frame that
says less than its members take is read on into the next one. Frames that were filled by the library are read as they
were (`process_buffer`), and a front part of a stream of such frames is consumed up to the last complete one
(`parse_prefix`).
-/

namespace NewOrbit.Amqp
open CString Framing Wire

/-! ## Frames on arrival

What `ReceivedFrame` looks at: seven octets of header, the limit on the size, and the octet that ends the frame. -/

/-- `ReceivedFrame`: the header of a frame, and the octets that can be read behind it. -/
structure ReceivedFrame where
  type        : Nat
  channel     : Nat
  payloadSize : UInt32
  rest        : Bytes

def ReceivedFrame.totalSize (f : ReceivedFrame) : Nat := (f.payloadSize + 8).toNat

def frameHeader : Received (Nat × Nat × Nat) := do
  let type ← nextUint 1
  let channel ← nextUint 2
  (fun payloadSize => (type, channel, payloadSize)) <$> nextUint 4

/-- The constructor, and `complete`; a frame of type 0 counts as incomplete. -/
def receivedFrame (max : UInt32) (buffer : Bytes) : Except ProtocolException (Option ReceivedFrame) :=
  if buffer.length < 8 then .ok none
  else do
    let ((type, channel, payloadSize), rest) ← frameHeader buffer
    let payloadSize := UInt32.ofNat payloadSize
    if 0 < max ∧ max - 8 < payloadSize then throw ⟨"frame size exceeded"⟩
    if (payloadSize + 8).toNat ≤ buffer.length then
      if buffer[(payloadSize + 7).toNat]? = some 206 then
        if type = 0 then pure none else pure (some ⟨type, channel, payloadSize, rest⟩)
      else throw ⟨"invalid end of frame marker"⟩
    else pure none

/-! ## Processing

A frame for a channel goes to that channel, where a callback of the program may call the channel in turn (`Program`).
-/

/-- What the program calls on a channel when a frame makes the library call it back. -/
abbrev Program := Nat → ChannelImpl → FrameContent → List Call

def Deliver.content (frame : Deliver) : FrameContent :=
  .method ⟨.basicDeliver, frame.consumerTag, frame.deliveryTag, frame.redelivered, frame.exchange, frame.routingKey, ()⟩

/-- What a frame is for its channel. (Of the answers, `basicGetOK` is left out: neither program calls `get`.) -/
def FrameContent.incoming : FrameContent → Option (List Call → Incoming)
  | header bodySize metadata => some (.header bodySize metadata)
  | body payload             => some (.body payload)
  | heartbeat                => none
  | method f                 =>
    match f with
    | ⟨.channelOpenOK, _⟩         => some .openOk
    | ⟨.channelFlowOK, _⟩         => some (.reply .ok)
    | ⟨.channelClose, _, text, _⟩ => some fun _ => .closeByServer text
    | ⟨.channelCloseOK, _⟩        => some .closeOk
    | ⟨.exchangeDeclareOK, _⟩     => some (.reply .ok)
    | ⟨.exchangeDeleteOK, _⟩      => some (.reply .ok)
    | ⟨.exchangeBindOK, _⟩        => some (.reply .ok)
    | ⟨.exchangeUnbindOK, _⟩      => some (.reply .ok)
    | ⟨.queueDeclareOK, name, messageCount, consumerCount, _⟩ =>
      some (.reply (.queueDeclareOk name messageCount.val consumerCount.val))
    | ⟨.queueBindOK, _⟩                 => some (.reply .ok)
    | ⟨.queueUnbindOK, _⟩               => some (.reply .ok)
    | ⟨.queuePurgeOK, messageCount, _⟩  => some (.reply (.deleteOk messageCount.val))
    | ⟨.queueDeleteOK, messageCount, _⟩ => some (.reply (.deleteOk messageCount.val))
    | ⟨.basicQosOK, _⟩                  => some (.reply .ok)
    | ⟨.basicConsumeOK, consumerTag, _⟩ => some (.reply (.consumerOk consumerTag))
    | ⟨.basicCancelOK, consumerTag, _⟩  => some (.reply (.consumerOk consumerTag))
    | ⟨.basicDeliver, consumerTag, deliveryTag, redelivered, exchange, routingKey, _⟩ =>
      some fun _ => .deliver ⟨consumerTag, deliveryTag, redelivered, exchange, routingKey⟩
    | ⟨.basicGetEmpty, _⟩               => some (.reply .ok)
    | ⟨.basicRecoverOK, _⟩              => some .recoverOk
    | ⟨.transactionSelectOK, _⟩         => some (.reply .ok)
    | ⟨.transactionCommitOK, _⟩         => some (.reply .ok)
    | ⟨.transactionRollbackOK, _⟩       => some (.reply .ok)
    | _                                 => none

namespace ConnectionImpl

/-- The channel of that number hears of a frame, if there is one. -/
def toChannel (c : ConnectionImpl) (channel : Nat) (incoming : ChannelImpl → Incoming) : ConnectionImpl :=
  match SortedMap.get c.channels channel with
  | none    => c
  | some ch => { c with channels := SortedMap.put c.channels channel (ch.receive (incoming ch)) }

/-- The `process` of the frame classes. A heartbeat goes back with its header as it came. -/
def handle (program : Program) (c : ConnectionImpl) (f : ReceivedFrame) (content : FrameContent) :
    Except ProtocolException ConnectionImpl :=
  match content with
  | .heartbeat => .ok (c.send (8 :: (be 2 f.channel ++ (be 4 f.payloadSize.toNat ++ [206]))) false false).1
  | .method ⟨.connectionStart, _⟩ => .ok (c.setProtocolOk.send c.startOK true false).1
  | .method ⟨.connectionTune, channels, frameMax, heartbeat, _⟩ =>
    let tuneOK : FrameContent := .method ⟨.connectionTuneOK, channels, frameMax, heartbeat, ()⟩
    let openFrame : FrameContent := .method ⟨.connectionOpen, c.vhost, ([] : Bytes), (0 : UInt8), ()⟩
    let c := c.setCapacity channels.val (UInt32.ofNat frameMax.val)
    .ok ((c.send (tuneOK.buffer 0) true false).1.send (openFrame.buffer 0) true false).1
  | .method ⟨.connectionOpenOK, _⟩ => .ok (c.setConnected [])
  | .method ⟨.connectionClose, _, text, _⟩ =>
    .ok ((c.send (connectionCloseOK.buffer 0) false false).1.reportError (cstr text))
  | .method ⟨.connectionCloseOK, _⟩ => .ok c.reportClosed
  | .method ⟨.channelClose, _, text, _⟩ =>
    .ok ((c.send (FrameContent.buffer (.method ⟨.channelCloseOK, ()⟩) f.channel) false false).1.toChannel f.channel
      fun _ => .closeByServer text)
  | .method ⟨.basicReturn, _⟩ => .ok c
  | content =>
    match content.incoming, content with
    | some incoming, _         => .ok (c.toChannel f.channel fun ch => incoming (program f.channel ch content))
    | none,          .method m => .error ⟨"unimplemented frame type 1 class " ++ toString m.method.classID ++
        " method " ++ toString m.method.methodID⟩
    | none,          _         => .ok c

/-- `ReceivedFrame::process`. -/
def process (program : Program) (c : ConnectionImpl) (f : ReceivedFrame) : Except ProtocolException ConnectionImpl := do
  let (content, _) ← FrameContent.read f.type f.payloadSize.toNat f.rest
  c.handle program f content

/-- The loop of `parse`; every frame takes at least one octet. -/
def parseFuel (program : Program) : Nat → ConnectionImpl → Bytes → ConnectionImpl × Nat
  | 0,        c, _      => (c, 0)
  | fuel + 1, c, buffer =>
    if buffer = [] then (c.parsed, 0)
    else
      match receivedFrame c.maxFrame buffer with
      | .error exception => (c.reportError (bytes exception.what), 0)
      | .ok none         => (c, 0)
      | .ok (some f)     =>
        match c.process program f with
        | .error exception => (c.reportError (bytes exception.what), 0)
        | .ok c            =>
          let (c, processed) := parseFuel program fuel c (buffer.drop f.totalSize)
          (c, f.totalSize + processed)

def parse (program : Program) (c : ConnectionImpl) (buffer : Bytes) : ConnectionImpl × Nat :=
  if c.state = .closed then (c, 0) else parseFuel program (buffer.length + 1) c buffer

end ConnectionImpl

/-! ## A frame that is all there

The round trips of the members, the header and the last octet are put together: a frame that the library has filled is
recognized whatever stands behind it, and processed as the frame it is. -/

/-- A frame the library can write and the connection takes. -/
structure Acceptable (max : UInt32) (channel : Nat) (f : FrameContent) : Prop where
  fits    : f.Fits
  channel : channel < 256 ^ 2
  size    : f.size + 8 < 256 ^ 4
  max     : 0 < max → UInt32.ofNat f.size ≤ max - 8

section Frame
variable {max : UInt32} {channel : Nat} {f : FrameContent}

/-- The header on its own. -/
def FrameContent.front (f : FrameContent) (channel : Nat) : Bytes := f.type :: (be 2 channel ++ be 4 f.size)

theorem buffer_eq (f : FrameContent) (channel : Nat) : f.buffer channel = f.front channel ++ (f.payload ++ [206]) := by
  simp [FrameContent.buffer, FrameContent.front]

theorem length_front (f : FrameContent) (channel : Nat) : (f.front channel).length = 7 := by
  simp [FrameContent.front]

theorem length_buffer (f : FrameContent) (channel : Nat) : (f.buffer channel).length = f.size + 8 := by
  simp only [buffer_eq, List.length_append, length_front, f.length_payload, List.length_singleton]
  omega

theorem reads_frameHeader (h : Acceptable max channel f) :
    Reads frameHeader (f.front channel) (f.type.toNat, channel, f.size) := by
  have hsize : f.size < 256 ^ 4 := by have := h.size; omega
  exact (reads_octet f.type).bind ((reads_unsigned outOfRange 2 h.channel).bind ((reads_unsigned outOfRange 4 hsize).map _))

theorem toNat_size (h : Acceptable max channel f) : (UInt32.ofNat f.size).toNat = f.size := by
  have hsize := h.size
  rw [UInt32.toNat_ofNat']
  exact Nat.mod_eq_of_lt (by omega)

theorem toNat_size_add (h : Acceptable max channel f) {n : Nat} (hn : n ≤ 8) :
    (UInt32.ofNat f.size + UInt32.ofNat n).toNat = f.size + n := by
  have hsize := h.size
  rw [← UInt32.ofNat_add, UInt32.toNat_ofNat']
  exact Nat.mod_eq_of_lt (by omega)

theorem max_not_exceeded (h : Acceptable max channel f) : ¬ (0 < max ∧ max - 8 < UInt32.ofNat f.size) := by
  rintro ⟨hpos, hlt⟩
  exact absurd (h.max hpos) (UInt32.not_le.mpr hlt)

theorem type_ne_zero (f : FrameContent) : f.type.toNat ≠ 0 := by
  cases f <;> simp [FrameContent.type]

/-- A complete frame is recognized, whatever stands behind it. -/
theorem receivedFrame_buffer (h : Acceptable max channel f) (rest : Bytes) :
    receivedFrame max (f.buffer channel ++ rest) =
      .ok (some ⟨f.type.toNat, channel, UInt32.ofNat f.size, f.payload ++ 206 :: rest⟩) := by
  have hall : f.buffer channel ++ rest = f.front channel ++ (f.payload ++ 206 :: rest) := by simp [buffer_eq]
  have hlen : (f.front channel ++ (f.payload ++ 206 :: rest)).length = f.size + 8 + rest.length := by
    rw [← hall, List.length_append, length_buffer]
  have hmark : (f.front channel ++ (f.payload ++ 206 :: rest))[f.size + 7]? = some 206 := by
    rw [List.getElem?_append_right (by rw [length_front]; omega), length_front, Nat.add_sub_cancel,
      List.getElem?_append_right (by rw [f.length_payload]), f.length_payload, Nat.sub_self]
    rfl
  rw [hall, receivedFrame, if_neg (by omega), reads_frameHeader h]
  show (if 0 < max ∧ max - 8 < UInt32.ofNat f.size then _ else _) = _
  rw [if_neg (max_not_exceeded h)]
  show (if (UInt32.ofNat f.size + UInt32.ofNat 8).toNat ≤ _ then _ else _) = _
  rw [if_pos (by rw [toNat_size_add h (Nat.le_refl 8), hlen]; omega)]
  show (if _[(UInt32.ofNat f.size + UInt32.ofNat 7).toNat]? = some 206 then _ else _) = _
  rw [if_pos (by rw [toNat_size_add h (by decide)]; exact hmark)]
  rw [if_neg (type_ne_zero f)]
  rfl

/-- A frame that is not all there waits. -/
theorem receivedFrame_waits (h : Acceptable max channel f) {bs : Bytes} (hpre : bs <+: f.buffer channel)
    (hlt : bs.length < (f.buffer channel).length) : receivedFrame max bs = .ok none := by
  rw [receivedFrame]
  split
  · rfl
  · rename_i hlong
    obtain ⟨more, rfl⟩ : f.front channel <+: bs := by
      refine List.prefix_of_prefix_length_le ?_ hpre (by rw [length_front]; omega)
      exact buffer_eq f channel ▸ List.prefix_append _ _
    rw [reads_frameHeader h]
    show (if 0 < max ∧ max - 8 < UInt32.ofNat f.size then _ else _) = _
    rw [if_neg (max_not_exceeded h)]
    show (if (UInt32.ofNat f.size + UInt32.ofNat 8).toNat ≤ _ then _ else _) = _
    rw [length_buffer] at hlt
    rw [if_neg (by rw [toNat_size_add h (Nat.le_refl 8)]; omega)]
    rfl

/-- **A frame is processed as what was written**, whatever stands behind it. -/
theorem process_buffer (program : Program) (c : ConnectionImpl) (h : Acceptable max channel f) (rest : Bytes) :
    c.process program ⟨f.type.toNat, channel, UInt32.ofNat f.size, f.payload ++ 206 :: rest⟩ =
      c.handle program ⟨f.type.toNat, channel, UInt32.ofNat f.size, f.payload ++ 206 :: rest⟩ f := by
  have hread := FrameContent.reads h.fits (206 :: rest)
  rw [ConnectionImpl.process]
  show (FrameContent.read f.type.toNat (UInt32.ofNat f.size).toNat (f.payload ++ 206 :: rest) >>= _) = _
  rw [toNat_size h, hread]
  rfl

/-- **Every frame comes back from the wire.** Whatever stands behind it, a frame of any class that fits is recognized
    with its channel, takes as many octets as it wrote, and is read as it was. -/
theorem frame_read_back (max : UInt32) (channel : Nat) (f : FrameContent) (h : Acceptable max channel f) (rest : Bytes) :
    ∃ rf, receivedFrame max (f.buffer channel ++ rest) = .ok (some rf) ∧ rf.channel = channel ∧
      rf.totalSize = (f.buffer channel).length ∧
      FrameContent.read rf.type rf.payloadSize.toNat rf.rest = .ok (f, 206 :: rest) := by
  refine ⟨_, receivedFrame_buffer h rest, rfl, ?_, ?_⟩
  · rw [length_buffer]
    exact toNat_size_add h (Nat.le_refl 8)
  · rw [toNat_size h]
    exact FrameContent.reads h.fits (206 :: rest)

end Frame

/-- The close frame of a connection. -/
theorem frame_read_back_close : ∃ rf, receivedFrame 10000 (connectionClose.buffer 0 ++ [1, 2]) = .ok (some rf) ∧
    rf.channel = 0 ∧ rf.totalSize = (connectionClose.buffer 0).length ∧
    FrameContent.read rf.type rf.payloadSize.toNat rf.rest = .ok (connectionClose, 206 :: [1, 2]) := by
  have htext : (bytes "shutdown").length < 256 := by decide
  exact frame_read_back 10000 0 connectionClose
    ⟨⟨trivial, htext, trivial, trivial, trivial⟩, by decide, by decide, fun _ => by decide⟩ [1, 2]

/-! ## A stream of frames

As the frames of a stream are recognized one after another, the channels have heard of all complete ones when `parse`
returns, and it says how many octets these were. -/

/-- A frame for a channel that is no more than that: everything but the close frame. -/
def FrameContent.ForChannel : FrameContent → Prop
  | method ⟨.channelClose, _⟩ => False
  | f                         => f.incoming.isSome

/-- The octets of a frame with its channel. -/
def octetsOf (p : Nat × FrameContent) : Bytes := p.2.buffer p.1

namespace ConnectionImpl

/-- The channel hears of the frame. -/
def hear (program : Program) (c : ConnectionImpl) (p : Nat × FrameContent) : ConnectionImpl :=
  match p.2.incoming with
  | some incoming => c.toChannel p.1 fun ch => incoming (program p.1 ch p.2)
  | none          => c

theorem handle_of_forChannel (program : Program) (c : ConnectionImpl) (rf : ReceivedFrame) {f : FrameContent}
    (h : f.ForChannel) : c.handle program rf f = .ok (c.hear program (rf.channel, f)) := by
  cases f with
  | heartbeat => cases h
  | header bodySize metadata => rfl
  | body payload => rfl
  | method m =>
      obtain ⟨method, arguments⟩ := m
      cases method <;> first | rfl | cases h

/-- What hearing of a frame leaves alone. -/
theorem hear_same (program : Program) (c : ConnectionImpl) (p : Nat × FrameContent) :
    (c.hear program p).state = c.state ∧ (c.hear program p).closed = c.closed ∧
      (c.hear program p).maxFrame = c.maxFrame := by
  unfold hear toChannel
  split
  · split <;> exact ⟨rfl, rfl, rfl⟩
  · exact ⟨rfl, rfl, rfl⟩

theorem foldl_hear_same (program : Program) (fs : List (Nat × FrameContent)) (c : ConnectionImpl) :
    (fs.foldl (hear program) c).state = c.state ∧ (fs.foldl (hear program) c).closed = c.closed ∧
      (fs.foldl (hear program) c).maxFrame = c.maxFrame := by
  induction fs generalizing c with
  | nil => exact ⟨rfl, rfl, rfl⟩
  | cons p fs ih =>
      obtain ⟨h1, h2, h3⟩ := ih (c.hear program p)
      obtain ⟨g1, g2, g3⟩ := hear_same program c p
      exact ⟨h1.trans g1, h2.trans g2, h3.trans g3⟩

end ConnectionImpl

open Rabbit in
/-- The payload size stands where a frame is cut by it. -/
theorem payloadLength_buffer {max : UInt32} {channel : Nat} {f : FrameContent} (h : Acceptable max channel f) :
    payloadLength (f.buffer channel) = f.size := by
  have hsize : f.size < 256 ^ 4 := by have := h.size; omega
  have hdrop : (f.buffer channel).drop 3 = be 4 f.size ++ (f.payload ++ [206]) := by
    have hsplit : f.buffer channel = (f.type :: be 2 channel) ++ (be 4 f.size ++ (f.payload ++ [206])) := rfl
    rw [hsplit, List.drop_left' (by simp)]
  rw [payloadLength, hdrop, List.take_left' (length_be ..), ofBe_be hsize]

theorem isFrame_buffer {max : UInt32} {channel : Nat} {f : FrameContent} (h : Acceptable max channel f) :
    Rabbit.IsFrame (f.buffer channel) := by
  rw [Rabbit.IsFrame, length_buffer, payloadLength_buffer h, Nat.add_comm]

theorem takeFrame_waits {max : UInt32} {channel : Nat} {f : FrameContent} (h : Acceptable max channel f) {bs : Bytes}
    (hpre : bs <+: f.buffer channel) (hlt : bs.length < (f.buffer channel).length) : Rabbit.takeFrame bs = none := by
  unfold Rabbit.takeFrame
  rw [if_neg]
  obtain ⟨more, hmore⟩ := hpre
  rw [length_buffer] at hlt
  by_cases hlong : 7 ≤ bs.length
  · have hpayload : Rabbit.payloadLength bs = f.size := by
      rw [← Rabbit.payloadLength_append hlong more, hmore, payloadLength_buffer h]
    omega
  · omega

/-- **`parse` consumes the complete frames**, each as the channel of its number hears of it, and leaves what is not
    all there. -/
theorem parseFuel_prefix (program : Program) (fs : List (Nat × FrameContent)) : ∀ {fuel : Nat} {c : ConnectionImpl}
    {data : Bytes}, data <+: fs.flatMap octetsOf → data.length < fuel →
    (∀ p ∈ fs, Acceptable c.maxFrame p.1 p.2 ∧ p.2.ForChannel) → c.closed = false →
    Rabbit.frames data = (fs.take (Rabbit.frames data).length).map octetsOf ∧
      c.parseFuel program fuel data = ((fs.take (Rabbit.frames data).length).foldl (ConnectionImpl.hear program) c,
        (Rabbit.frames data).flatten.length) := by
  induction fs with
  | nil =>
      intro fuel c data hdata hfuel _ hclosed
      obtain rfl : data = [] := List.prefix_nil.mp hdata
      obtain ⟨fuel, rfl⟩ := Nat.exists_eq_succ_of_ne_zero (show fuel ≠ 0 by omega)
      refine ⟨rfl, ?_⟩
      show (c.parsed, 0) = (c, 0)
      rw [ConnectionImpl.parsed, hclosed]
      rfl
  | cons p fs ih =>
      intro fuel c data hdata hfuel hfs hclosed
      obtain ⟨fuel, rfl⟩ := Nat.exists_eq_succ_of_ne_zero (show fuel ≠ 0 by omega)
      obtain ⟨haccept, hchannel⟩ := hfs p List.mem_cons_self
      rw [List.flatMap_cons] at hdata
      rcases Nat.lt_or_ge data.length (octetsOf p).length with hlt | hge
      · -- The first frame is not all there.
        have hpre : data <+: octetsOf p :=
          List.prefix_of_prefix_length_le hdata (List.prefix_append _ _) (Nat.le_of_lt hlt)
        have hnone : Rabbit.frames data = [] := Framing.Code.split_of_none (takeFrame_waits haccept hpre hlt)
        rw [hnone]
        refine ⟨rfl, ?_⟩
        rw [ConnectionImpl.parseFuel]
        split
        · show (c.parsed, 0) = (c, 0)
          rw [ConnectionImpl.parsed, hclosed]
          rfl
        · rw [receivedFrame_waits haccept hpre hlt]
          rfl
      · obtain ⟨more, rfl⟩ : octetsOf p <+: data := List.prefix_of_prefix_length_le (List.prefix_append _ _) hdata hge
        have hmore : more <+: fs.flatMap octetsOf := (List.prefix_append_right_inj _).mp hdata
        have hlen : (octetsOf p).length = p.2.size + 8 := length_buffer p.2 p.1
        rw [List.length_append] at hfuel
        have hsame := ConnectionImpl.hear_same program c p
        obtain ⟨hframes, hparse⟩ := @ih fuel (c.hear program p) more hmore (by omega)
          (fun q hq => by rw [hsame.2.2]; exact hfs q (List.mem_cons_of_mem _ hq)) (hsame.2.1.trans hclosed)
        have hsplit : Rabbit.frames (octetsOf p ++ more) = octetsOf p :: Rabbit.frames more :=
          Rabbit.frameCode.split_of_some (Rabbit.frameCode.dec_enc _ (isFrame_buffer haccept) more)
        have hne : octetsOf p ++ more ≠ [] := by
          intro h
          have hzero := congrArg List.length h
          rw [List.length_append, hlen] at hzero
          simp at hzero
        have htotal : (UInt32.ofNat p.2.size + 8).toNat = (octetsOf p).length := by
          rw [hlen]
          exact toNat_size_add haccept (Nat.le_refl 8)
        rw [hsplit, List.length_cons, List.take_succ_cons, List.map_cons, List.foldl_cons, ← hframes]
        refine ⟨rfl, ?_⟩
        rw [ConnectionImpl.parseFuel, if_neg hne, show octetsOf p ++ more = p.2.buffer p.1 ++ more from rfl,
          receivedFrame_buffer haccept more]
        simp only [process_buffer program c haccept more, ConnectionImpl.handle_of_forChannel program c _ hchannel,
          ReceivedFrame.totalSize]
        rw [htotal, show p.2.buffer p.1 ++ more = octetsOf p ++ more from rfl, List.drop_left, hparse,
          List.flatten_cons, List.length_append]

theorem parse_prefix (program : Program) {fs : List (Nat × FrameContent)} {c : ConnectionImpl} {data : Bytes}
    (hdata : data <+: fs.flatMap octetsOf) (hfs : ∀ p ∈ fs, Acceptable c.maxFrame p.1 p.2 ∧ p.2.ForChannel)
    (hopen : c.state ≠ .closed) (hclosed : c.closed = false) :
    Rabbit.frames data = (fs.take (Rabbit.frames data).length).map octetsOf ∧
      c.parse program data = ((fs.take (Rabbit.frames data).length).foldl (ConnectionImpl.hear program) c,
        (Rabbit.frames data).flatten.length) := by
  rw [ConnectionImpl.parse, if_neg hopen]
  exact parseFuel_prefix program fs hdata (Nat.lt_succ_self _) hfs hclosed

end NewOrbit.Amqp
