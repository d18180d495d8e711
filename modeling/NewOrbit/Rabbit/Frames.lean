import NewOrbit.Lib.Framing
import NewOrbit.Rabbit.Receive

/-!
# `Rabbit.Frames` — the frames AMQP-CPP sends for a publish and for an ack

`Channel::publish` makes a method frame, a header frame and the body frames, `Channel::ack` one method frame
(AMQP-CPP 2.1.4); each is handed to `onData` by itself. `Frame.encode` is the layout of `ExtFrame` and
`decode` how a peer takes frames off the stream again (`ReceivedFrame`); `code` is the contract between them.
-/

namespace NewOrbit.Rabbit
open CString Framing

/-! ## Frames on the wire -/

structure Frame where
  type    : UInt8
  channel : Nat
  payload : Bytes
  deriving DecidableEq, Repr

/-- Type, channel, payload size, payload, and the end-of-frame octet. -/
def Frame.encode (f : Frame) : Bytes :=
  f.type :: (be 2 f.channel ++ (be 4 f.payload.length ++ (f.payload ++ [206])))

/-- The next frame of the stream, once it is there with its end-of-frame octet. -/
def decode : Bytes → Option (Frame × Bytes)
  | type :: c1 :: c0 :: s3 :: s2 :: s1 :: s0 :: rest =>
    let size := ofBe [s3, s2, s1, s0]
    if rest[size]? = some 206 then some (⟨type, ofBe [c1, c0], rest.take size⟩, rest.drop (size + 1)) else none
  | _ => none

/-- The fields fit their octets. -/
def Frame.Fits (f : Frame) : Prop := f.channel < 65536 ∧ f.payload.length < 4294967296

theorem be_two (n : Nat) : be 2 n = [UInt8.ofNat (n / 256), UInt8.ofNat n] := rfl

theorem be_four (n : Nat) : be 4 n =
    [UInt8.ofNat (n / 256 / 256 / 256), UInt8.ofNat (n / 256 / 256), UInt8.ofNat (n / 256), UInt8.ofNat n] := rfl

theorem decode_encode {f : Frame} (hf : f.Fits) (rest : Bytes) : decode (f.encode ++ rest) = some (f, rest) := by
  have hchannel : ofBe (be 2 f.channel) = f.channel := ofBe_be hf.1
  have hsize : ofBe (be 4 f.payload.length) = f.payload.length := ofBe_be hf.2
  rw [be_two] at hchannel
  rw [be_four] at hsize
  simp only [Frame.encode, be_two, be_four, List.cons_append, List.nil_append, List.append_assoc, decode, hsize,
    hchannel]
  rw [if_pos (by rw [List.getElem?_append_right (Nat.le_refl _), Nat.sub_self]; rfl), List.take_left,
    ← List.drop_drop, List.drop_left]
  rfl

theorem decode_append {bs rest : Bytes} {f : Frame} (h : decode bs = some (f, rest)) (more : Bytes) :
    decode (bs ++ more) = some (f, rest ++ more) := by
  unfold decode at h
  split at h
  · rename_i type c1 c0 s3 s2 s1 s0 tail
    dsimp only at h
    split at h
    · rename_i hend
      cases h
      -- The end-of-frame octet is there, so nothing of the frame lies in what follows.
      have hlt : ofBe [s3, s2, s1, s0] < tail.length := (List.getElem?_eq_some_iff.mp hend).1
      simp only [List.cons_append, decode]
      rw [List.getElem?_append_left hlt, if_pos hend, List.take_append_of_le_length (by omega),
        List.drop_append_of_le_length (by omega)]
    · cases h
  · cases h

theorem decode_shorter {bs rest : Bytes} {f : Frame} (h : decode bs = some (f, rest)) : rest.length < bs.length := by
  unfold decode at h
  split at h
  · dsimp only at h
    split at h
    · cases h
      simp only [List.length_drop, List.length_cons]
      omega
    · cases h
  · cases h

/-- **The wire format is a code.** -/
theorem code : Code Frame.encode decode Frame.Fits where
  dec_enc _ hf rest := decode_encode hf rest
  dec_append _ _ _ h more := decode_append h more
  dec_shorter _ _ _ h := decode_shorter h

theorem length_encode (f : Frame) : f.encode.length = f.payload.length + 8 := by
  simp [Frame.encode]
  omega

/-- `decode` takes as many bytes as the frame has. -/
theorem length_encode_of_decode {bs rest : Bytes} {f : Frame} (h : decode bs = some (f, rest)) :
    f.encode.length + rest.length ≤ bs.length := by
  unfold decode at h
  split at h
  · rename_i tail
    dsimp only at h
    split at h
    · rename_i hend
      cases h
      have hlt := (List.getElem?_eq_some_iff.mp hend).1
      rw [length_encode, List.length_take, List.length_drop]
      simp only [List.length_cons]
      omega
    · cases h
  · cases h

/-! ## Publish and ack -/

/-- `ShortString::fill`: one octet of length, then the text. -/
def shortString (s : Bytes) : Bytes := UInt8.ofNat s.length :: s

/-- `BasicPublishFrame` to the default exchange, neither mandatory nor immediate. -/
def publishFrame (channel : Nat) (routingKey : Bytes) : Frame :=
  ⟨1, channel, be 2 60 ++ be 2 40 ++ (be 2 0 ++ shortString [] ++ shortString routingKey ++ [0])⟩

/-- `BasicHeaderFrame` of a reply: of the properties only the correlation id is set. -/
def headerFrame (channel : Nat) (env : Message) : Frame :=
  ⟨2, channel, be 2 60 ++ (be 2 0 ++ be 8 env.body.length ++ ([4, 0] ++ shortString env.correlationID))⟩

/-- The loop of `ChannelImpl::publish` that cuts the body; each round takes at least one byte. -/
def bodyChunks (maxpayload : Nat) : Nat → Bytes → List Bytes
  | 0,        _         => []
  | _ + 1,    []        => []
  | fuel + 1, b :: data => (b :: data).take maxpayload :: bodyChunks maxpayload fuel ((b :: data).drop maxpayload)

def bodyFrames (channel maxpayload : Nat) (body : Bytes) : List Frame :=
  (bodyChunks maxpayload body.length body).map fun chunk => ⟨3, channel, chunk⟩

/-- The frames of `channel.publish("", routingKey, env)`. -/
def publishFrames (channel maxpayload : Nat) (routingKey : Bytes) (env : Message) : List Frame :=
  publishFrame channel routingKey :: headerFrame channel env :: bodyFrames channel maxpayload env.body

/-- `BasicAckFrame`, not multiple. -/
def ackFrame (channel deliveryTag : Nat) : Frame :=
  ⟨1, channel, be 2 60 ++ be 2 80 ++ (be 8 deliveryTag ++ [0])⟩

/-- The body frames carry the whole body. -/
theorem flatten_bodyChunks {maxpayload : Nat} (hmax : 0 < maxpayload) {fuel : Nat} {body : Bytes}
    (hfuel : body.length ≤ fuel) : (bodyChunks maxpayload fuel body).flatten = body := by
  induction fuel generalizing body with
  | zero => rw [List.eq_nil_of_length_eq_zero (Nat.le_zero.mp hfuel)]; rfl
  | succ fuel ih =>
      cases body with
      | nil => rfl
      | cons b body =>
          have hdrop : ((b :: body).drop maxpayload).length ≤ fuel := by
            rw [List.length_drop]
            simp only [List.length_cons] at hfuel ⊢
            omega
          rw [bodyChunks, List.flatten_cons, ih hdrop, List.take_append_drop]

theorem length_of_mem_bodyChunks {maxpayload fuel : Nat} {body chunk : Bytes}
    (h : chunk ∈ bodyChunks maxpayload fuel body) : chunk.length ≤ maxpayload := by
  induction fuel generalizing body with
  | zero => cases h
  | succ fuel ih =>
      cases body with
      | nil => cases h
      | cons b body =>
          rcases List.mem_cons.mp h with rfl | h
          · exact List.length_take_le _ _
          · exact ih h

/-- An ack is told from the frames of a publish by its method id or its type. -/
theorem ackFrame_not_mem_publishFrames (channel maxpayload deliveryTag : Nat) (routingKey : Bytes) (env : Message) :
    ackFrame channel deliveryTag ∉ publishFrames channel maxpayload routingKey env := by
  intro h
  rcases List.mem_cons.mp h with h | h
  · have hmethod := congrArg (fun f : Frame => f.payload.take 4) h
    exact absurd hmethod (by
      show be 2 60 ++ be 2 80 ≠ be 2 60 ++ be 2 40
      decide)
  · rcases List.mem_cons.mp h with h | h
    · exact absurd (congrArg Frame.type h) (by show (1 : UInt8) ≠ 2; decide)
    · obtain ⟨chunk, -, hchunk⟩ := List.mem_map.mp h
      exact absurd (congrArg Frame.type hchunk) (by show (3 : UInt8) ≠ 1; decide)

/-- Acks of different tags are different frames. -/
theorem ackFrame_inj {channel t t' : Nat} (ht : t < 18446744073709551616) (ht' : t' < 18446744073709551616)
    (h : ackFrame channel t = ackFrame channel t') : t = t' := by
  -- The payloads differ in the eight octets of the tag only.
  have hpayload := congrArg Frame.payload h
  simp only [ackFrame, List.append_cancel_left_eq, List.append_cancel_right_eq] at hpayload
  exact be_inj ht ht' hpayload

/-- A frame for this connection: it fits the wire format and the output buffer. -/
def Sendable (size : Nat) (f : Frame) : Prop := f.Fits ∧ f.encode.length ≤ size

theorem sendable_of_length {size channel : Nat} {f : Frame} (hch : f.channel = channel) (hlt : channel < 65536)
    (hlen : f.payload.length + 8 ≤ size) (hsize : size ≤ 4294967296) : Sendable size f :=
  ⟨⟨by omega, by omega⟩, by rw [length_encode]; exact hlen⟩

theorem sendable_ackFrame {size channel : Nat} (hlt : channel < 65536) (hsize : 1024 ≤ size)
    (hsize' : size ≤ 4294967296) (deliveryTag : Nat) : Sendable size (ackFrame channel deliveryTag) :=
  sendable_of_length rfl hlt (by simp [ackFrame]; omega) hsize'

/-- Short strings have at most 255 bytes, and body chunks at most `maxpayload`. -/
theorem sendable_publishFrames {size channel maxpayload : Nat} (hlt : channel < 65536) (hsize : 1024 ≤ size)
    (hsize' : size ≤ 4294967296) (hmax : maxpayload + 8 ≤ size) {routingKey : Bytes} {env : Message}
    (hkey : routingKey.length ≤ 255) (hcorr : env.correlationID.length ≤ 255) :
    ∀ f ∈ publishFrames channel maxpayload routingKey env, Sendable size f := by
  intro f hf
  rcases List.mem_cons.mp hf with rfl | hf
  · exact sendable_of_length rfl hlt (by simp [publishFrame, shortString]; omega) hsize'
  · rcases List.mem_cons.mp hf with rfl | hf
    · exact sendable_of_length rfl hlt (by simp [headerFrame, shortString]; omega) hsize'
    · obtain ⟨chunk, hchunk, rfl⟩ := List.mem_map.mp hf
      have hle := length_of_mem_bodyChunks hchunk
      exact sendable_of_length rfl hlt (show chunk.length + 8 ≤ size by omega) hsize'

end NewOrbit.Rabbit
