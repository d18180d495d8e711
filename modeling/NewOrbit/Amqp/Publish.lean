import NewOrbit.Amqp.Connection
import NewOrbit.Rabbit.Frames

/-!
# `Amqp.Publish` — the frames of a publish and of an ack, as frames of the library

`Rabbit.Frames` has the octets of the frames the programs send; here they are the frames of `Amqp.Method`, so what
holds of every frame of the library holds of them.
-/

namespace NewOrbit.Amqp
open CString Framing
open Rabbit (Message)

/-- A frame, octet for octet. -/
theorem encode_eq {frame : Rabbit.Frame} {f : FrameContent} {channel : Nat} (htype : frame.type = f.type)
    (hchannel : frame.channel = channel) (hpayload : frame.payload = f.payload) : frame.encode = f.buffer channel := by
  rw [Rabbit.Frame.encode, htype, hchannel, hpayload, f.length_payload]
  rfl

/-- `BasicPublishFrame` to the default exchange. -/
def basicPublish (routingKey : Bytes) : FrameContent :=
  .method ⟨.basicPublish, cut 2 0, ([] : Bytes), routingKey, (0 : UInt8), ()⟩

/-- `BasicAckFrame`, not multiple. -/
def basicAck (deliveryTag : Fin (256 ^ 8)) : FrameContent := .method ⟨.basicAck, deliveryTag, (0 : UInt8), ()⟩

/-- The properties of a reply. -/
def replyProperties (env : Message) : MetaData := MetaData.init.setCorrelationID env.correlationID

theorem encode_publishFrame (channel : Nat) (routingKey : Bytes) :
    (Rabbit.publishFrame channel routingKey).encode = (basicPublish routingKey).buffer channel := by
  refine encode_eq rfl rfl ?_
  have hpayload : (basicPublish routingKey).payload = be 2 60 ++ (be 2 40 ++ (be 2 0 ++ ((be 1 0 ++ []) ++
      ((be 1 routingKey.length ++ routingKey) ++ ([0] ++ []))))) := rfl
  rw [hpayload]
  simp [Rabbit.publishFrame, Rabbit.shortString, be]

theorem encode_ackFrame (channel : Nat) (deliveryTag : Fin (256 ^ 8)) :
    (Rabbit.ackFrame channel deliveryTag).encode = (basicAck deliveryTag).buffer channel := by
  refine encode_eq rfl rfl ?_
  have hpayload : (basicAck deliveryTag).payload = be 2 60 ++ (be 2 80 ++ (be 8 deliveryTag ++ ([0] ++ []))) := rfl
  rw [hpayload]
  simp [Rabbit.ackFrame]

/-- Of the properties of a reply only the correlation id is written. -/
theorem fill_replyProperties (env : Message) :
    (replyProperties env).fill = [4, 0] ++ Rabbit.shortString env.correlationID := by
  have hwritten : ∀ p, (replyProperties env).written p =
      if p = .correlationID then Rabbit.shortString env.correlationID else [] := by
    intro p
    have hhas : (replyProperties env).has p = decide (p = .correlationID) := by
      refine (MetaData.has_set MetaData.init .correlationID p env.correlationID).trans ?_
      cases p <;> rfl
    rw [MetaData.written, hhas]
    by_cases hp : p = .correlationID
    · subst hp
      have hvalue : (replyProperties env).value .correlationID = env.correlationID :=
        MetaData.value_set_self MetaData.init .correlationID env.correlationID
      have hfill : (Field.shortString env.correlationID).fill = Rabbit.shortString env.correlationID := by
        rw [Field.fill, be_one, Rabbit.shortString, List.singleton_append]
      rw [if_pos (decide_eq_true rfl), if_pos rfl, hvalue]
      exact hfill
    · simp [hp]
  rw [MetaData.fill]
  show 4 :: 0 :: order.flatMap (replyProperties env).written = _
  simp [order, hwritten]

theorem encode_headerFrame (channel : Nat) (env : Message) (h : env.body.length < 256 ^ 8) :
    (Rabbit.headerFrame channel env).encode =
      (FrameContent.header ⟨env.body.length, h⟩ (replyProperties env)).buffer channel := by
  refine encode_eq rfl rfl ?_
  simp [Rabbit.headerFrame, FrameContent.payload, fill_replyProperties]

/-- **A publish is its frames of the library, octet for octet**: the method frame, the header with the correlation id,
    and the pieces of the body. -/
theorem encode_publishFrames (channel maxpayload : Nat) (routingKey : Bytes) (env : Message)
    (h : env.body.length < 256 ^ 8) :
    (Rabbit.publishFrames channel maxpayload routingKey env).map Rabbit.Frame.encode =
      (basicPublish routingKey :: .header ⟨env.body.length, h⟩ (replyProperties env) ::
        (Rabbit.bodyChunks maxpayload env.body.length env.body).map .body).map fun f => f.buffer channel := by
  simp only [Rabbit.publishFrames, Rabbit.bodyFrames, List.map_cons, List.map_map, encode_publishFrame,
    encode_headerFrame channel env h]
  rfl

end NewOrbit.Amqp
