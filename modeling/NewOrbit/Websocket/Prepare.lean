import NewOrbit.Websocket.Close
import NewOrbit.Websocket.Receive

/-!
# `Websocket.Prepare` — the frames that are prepared

Each message that is sent becomes one frame, with a key where the endpoint is a client. A prepared message is the
octets of that frame (`Frames`).
-/

namespace NewOrbit.Websocket
open CString Octets Utf8

/-- The frame of a message. -/
def outgoing (server : Bool) (key : MaskingKey) (op : Opcode) (fin : Bool) (payload : Bytes) (fits : payload.length < 2 ^ 64) :
    Frame where
  fin
  rsv1    := false
  rsv2    := false
  rsv3    := false
  opcode  := op
  key     := if server then none else some key
  payload
  fits

/-- A prepared header and the payload behind it are the frame. -/
theorem prepareHeader_frame {f : Frame} {little : Bool} {e : ExtendedHeader} (he : e.Holds (f.extended little)) :
    prepareHeader f.basic e ++ f.masked little = f.octets little := by
  have htake := he.take
  rw [f.length_extended] at htake
  rw [prepareHeader, htake]
  rfl

/-- What `write_frame` puts into its buffers of a message. -/
def Message.octets (m : Message) : Bytes := m.header ++ m.payload

/-- A message that is prepared as this frame. -/
structure Frames (server little : Bool) (m : Message) (f : Frame) : Prop where
  octets : m.octets = f.octets little
  opcode : m.opcode = f.opcode
  size   : m.payload.length = f.payload.length
  masked : f.key.isSome = !server
  rsv    : f.rsv1 = false ∧ f.rsv2 = false ∧ f.rsv3 = false

variable {h : Hybi13} {key : MaskingKey} {op : Opcode} {payload : Bytes} {input out msg : Message}

/-- The octets of a frame, as both functions write them. -/
theorem frames_outgoing {fin : Bool} (fits : payload.length < 2 ^ 64)
    (hheader : msg.header = prepareHeader (.make op payload.length fin (!h.server) false false false)
      (if !h.server then ExtendedHeader.ofSizeKey h.little payload.length key else ExtendedHeader.ofSize payload.length))
    (hpayload : msg.payload = if !h.server then byteMask h.little payload key 0 else payload) (hop : msg.opcode = op) :
    Frames h.server h.little msg (outgoing h.server key op fin payload fits) := by
  have hmasked : (outgoing h.server key op fin payload fits).masked h.little = msg.payload := by
    rw [hpayload, Frame.masked, outgoing]
    cases h.server <;> rfl
  have hbasic : (outgoing h.server key op fin payload fits).basic = .make op payload.length fin (!h.server) false false false := by
    rw [Frame.basic, outgoing]
    cases h.server <;> rfl
  have hholds : (if !h.server then ExtendedHeader.ofSizeKey h.little payload.length key
      else ExtendedHeader.ofSize payload.length).Holds ((outgoing h.server key op fin payload fits).extended h.little) := by
    rw [Frame.extended, outgoing]
    cases h.server with
    | false => exact ExtendedHeader.holds_ofSizeKey h.little payload.length key
    | true =>
        show (ExtendedHeader.ofSize payload.length).Holds (sizeField payload.length ++ [])
        rw [List.append_nil]
        exact ExtendedHeader.holds_ofSize payload.length
  refine ⟨?_, hop, ?_, ?_, rfl, rfl, rfl⟩
  · rw [Message.octets, hheader, ← hbasic, ← hmasked]
    exact prepareHeader_frame hholds
  · rw [← hmasked]
    exact Frame.length_masked _ _
  · rw [outgoing]
    cases h.server <;> rfl

/-- **A data frame** is prepared of a message that is not a control message; a text is well formed. -/
theorem prepareDataFrame_ok (fits : input.payload.length < 2 ^ 64) (hok : h.prepareDataFrame key input out = .ok msg) :
    Frames h.server h.little msg (outgoing h.server key input.opcode input.fin input.payload fits) ∧
      input.opcode.isControl = false ∧ (input.opcode = .text → WellFormed input.payload) := by
  rw [Hybi13.prepareDataFrame] at hok
  split at hok
  · cases hok
  split at hok
  · cases hok
  rename_i hctl htext
  cases hok
  have hlen : (if !h.server then byteMask h.little input.payload key 0 else input.payload).length = input.payload.length := by
    split
    · rw [byteMask_eq, length_mask]
    · rfl
  refine ⟨frames_outgoing fits ?_ rfl rfl, Bool.eq_false_iff.mpr hctl, fun hop => ?_⟩
  · dsimp only
    rw [hlen]
  · rw [Bool.and_eq_true, not_and, hop] at htext
    have hvalid : validate input.payload = true := by simpa using htext (by simp)
    exact (wellFormed_iff _).mpr ((validate_read _).mp hvalid)

/-- **A control frame** is prepared of at most 125 octets. -/
theorem prepareControl_ok (hok : h.prepareControl key op payload out = .ok msg) :
    ∃ fits, Frames h.server h.little msg (outgoing h.server key op true payload fits) ∧ op.isControl = true ∧
      payload.length ≤ payloadSizeBasic := by
  rw [Hybi13.prepareControl] at hok
  split at hok
  · cases hok
  split at hok
  · cases hok
  rename_i hctl hsize
  cases hok
  have hle : payload.length ≤ payloadSizeBasic := Nat.le_of_not_lt hsize
  have hfits : payload.length < 2 ^ 64 := Nat.lt_of_le_of_lt hle (by decide)
  exact ⟨hfits, frames_outgoing hfits rfl rfl rfl, by simpa using hctl, hle⟩

theorem prepareControl_some (hctl : op.isControl = true) (hsize : payload.length ≤ payloadSizeBasic) :
    ∃ msg, h.prepareControl key op payload out = .ok msg := by
  rw [Hybi13.prepareControl, hctl, if_neg (by decide), if_neg (Nat.not_lt.mpr hsize)]
  exact ⟨_, rfl⟩

end NewOrbit.Websocket
