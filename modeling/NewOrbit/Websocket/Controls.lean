import NewOrbit.Websocket.Pieces

/-!
# `Websocket.Controls` — control messages

Whatever octets are read, a control message that is handed out is no longer than a frame without an extended header
(`runs_short`).
-/

namespace NewOrbit.Websocket
open CString Turns

namespace Hybi13

variable {h h' : Hybi13} {m : Metadata} {buf : Bytes} {p q : Nat}

/-- What a control frame has announced and what was read of it fit; a data message is no control message. -/
structure Short (h : Hybi13) : Prop where
  header  : h.state = .HEADER_EXTENDED → (getOpcode h.basicHeader).isControl = true →
    (getBasicSize h.basicHeader).toNat ≤ payloadSizeBasic
  message : h.state = .APPLICATION ∨ h.state = .READY → ∀ m, h.current = some m → m.msg.opcode.isControl = true →
    m.msg.payload.length + h.bytesNeeded ≤ payloadSizeBasic
  data    : ∀ m, h.dataMsg = some m → m.msg.opcode.isControl = false

/-- Between two frames only the message that goes on matters. -/
theorem short_of_basic (hstate : h.state = .HEADER_BASIC)
    (hdata : ∀ m, h.dataMsg = some m → m.msg.opcode.isControl = false) : h.Short := by
  refine ⟨fun h => ?_, fun h => ?_, hdata⟩
  · cases hstate.symm.trans h
  · obtain h | h := h <;> cases hstate.symm.trans h

theorem short_init (server little : Bool) (maxMessageSize : Nat) : (init server little maxMessageSize).Short :=
  short_of_basic rfl fun _ h => by cases h

theorem Short.basicRead (hdata : ∀ m, h.dataMsg = some m → m.msg.opcode.isControl = false)
    (hread : h.basicRead p = (h', q, none)) : h'.Short := by
  rw [Hybi13.basicRead] at hread
  split at hread
  · cases hread
  · rename_i hvalid
    cases hread
    refine ⟨fun _ hctl => ?_, fun h => ?_, hdata⟩
    · rw [validateIncomingBasicHeader] at hvalid
      dsimp only at hvalid hctl ⊢
      rw [hctl, Bool.true_and] at hvalid
      split at hvalid
      · cases hvalid
      · rename_i hsize
        exact Nat.not_lt.mp (mt decide_eq_true hsize)
    · obtain h | h := h <;> cases h

theorem Short.extendedRead (hheader : (getOpcode h.basicHeader).isControl = true →
      (getBasicSize h.basicHeader).toNat ≤ payloadSizeBasic)
    (hdata : ∀ m, h.dataMsg = some m → m.msg.opcode.isControl = false)
    (hread : h.extendedRead p = (h', q, none)) : h'.Short := by
  rw [Hybi13.extendedRead] at hread
  split at hread
  · cases hread
  dsimp only at hread
  split at hread
  · rename_i hctl
    cases hread
    refine ⟨(fun h => by cases h), fun _ => ?_, hdata⟩
    rintro _ ⟨⟩ _
    show 0 + getPayloadSize h.basicHeader h.extendedHeader ≤ payloadSizeBasic
    rw [Nat.zero_add, getPayloadSize, if_pos (hheader hctl)]
    exact hheader hctl
  · rename_i hctl
    have hnew : h.newMetadata.msg.opcode.isControl = false := Bool.eq_false_iff.mpr hctl
    split at hread
    · split at hread
      · cases hread
      · cases hread
        refine ⟨(fun h => by cases h), fun _ => ?_, ?_⟩
        · rintro _ ⟨⟩ h
          exact absurd (hnew.symm.trans h) Bool.false_ne_true
        · rintro _ ⟨⟩
          exact hnew
    · rename_i m hm
      split at hread
      · cases hread
      · cases hread
        refine ⟨(fun h => by cases h), fun _ => ?_, ?_⟩
        · rintro _ ⟨⟩ h
          exact absurd ((hdata m hm).symm.trans h) Bool.false_ne_true
        · rintro _ ⟨⟩
          exact hdata m hm

/-- What octets do to a message. -/
theorem absorb_msg (m : Metadata) (little masked : Bool) (buf : Bytes) :
    (m.absorb little masked buf).1.msg.opcode = m.msg.opcode ∧
      (m.absorb little masked buf).1.msg.payload.length = m.msg.payload.length + buf.length := by
  have hlen : (if masked then byteMaskCirc little buf m.preparedKey else (buf, m.preparedKey)).1.length = buf.length := by
    cases masked with
    | false => rfl
    | true => exact List.length_mapIdx
  rw [Metadata.absorb]
  dsimp only
  split
  · exact ⟨rfl, by rw [List.length_append, hlen]⟩
  · exact ⟨rfl, by rw [List.length_append, hlen]⟩

theorem Short.withPayload (hs : h.Short) (hstate : h.state = .APPLICATION) (hm : h.current = some m)
    (hfew : buf.length ≤ h.bytesNeeded) : (h.withPayload m buf).Short := by
  obtain ⟨hop, hlen⟩ := absorb_msg m h.little (getMasked h.basicHeader) buf
  have hsame : (h.withPayload m buf).state = .APPLICATION := (setCurrent_frame h _).1.trans hstate
  refine ⟨fun h => ?_, fun _ x hx hctl => ?_, fun x hx => ?_⟩
  · cases hsame.symm.trans h
  · obtain rfl := Option.some.inj ((current_setCurrent h _).symm.trans hx)
    have hbefore := hs.message (.inl hstate) m hm (hop ▸ hctl)
    rw [hlen]
    show _ + (h.bytesNeeded - buf.length) ≤ _
    omega
  · change (h.setCurrent _).dataMsg = some x at hx
    rw [Hybi13.setCurrent] at hx
    rw [current] at hm
    cases hcur : h.currentMsg with
    | data =>
        rw [hcur] at hx hm
        cases hx
        rw [hop]
        exact hs.data m hm
    | control =>
        rw [hcur] at hx
        exact hs.data x hx

theorem Short.applicationRead (hs : h.Short) (hstate : h.state = .APPLICATION) (hm : h.current = some m)
    (hread : h.applicationRead p = (h', q, none)) : h'.Short := by
  rw [applicationRead_eq hm] at hread
  split at hread
  · split at hread
    · cases hread
    · cases hread
      exact ⟨(fun h => by cases h), fun _ => hs.message (.inl hstate), hs.data⟩
  · cases hread
    exact short_of_basic rfl hs.data

theorem copyBasicHeaderBytes_frame (h : Hybi13) (buf : Bytes) :
    (h.copyBasicHeaderBytes buf).1.state = h.state ∧ (h.copyBasicHeaderBytes buf).1.dataMsg = h.dataMsg := by
  match buf with
  | [] => exact ⟨rfl, rfl⟩
  | [b] =>
      rw [copyBasicHeaderBytes]
      split
      · exact ⟨rfl, rfl⟩
      split <;> exact ⟨rfl, rfl⟩
  | b0 :: b1 :: rest =>
      rw [copyBasicHeaderBytes]
      split
      · exact ⟨rfl, rfl⟩
      split <;> exact ⟨rfl, rfl⟩

/-- **A turn.** -/
theorem Short.turn (hshort : h.Short) (hs : h.Sound) (hready : h.state ≠ .READY)
    (hturn : h.turn buf = (h', p, none)) : h'.Short := by
  cases hstate : h.state with
  | HEADER_BASIC =>
      rw [turn_basic hstate] at hturn
      obtain ⟨hsame, hmsg⟩ := copyBasicHeaderBytes_frame h buf
      have hdata : ∀ x, (h.copyBasicHeaderBytes buf).1.dataMsg = some x → x.msg.opcode.isControl = false := by
        rw [hmsg]
        exact hshort.data
      split at hturn
      · cases hturn
        exact short_of_basic (hsame.trans hstate) hdata
      · exact Short.basicRead hdata hturn
  | HEADER_EXTENDED =>
      rw [turn_extended hstate] at hturn
      split at hturn
      · cases hturn
        refine ⟨fun _ => hshort.header hstate, fun h => ?_, hshort.data⟩
        obtain h | h := h <;> cases hstate.symm.trans h
      · exact Short.extendedRead (h := (h.copyExtendedHeaderBytes buf).1) (hshort.header hstate) hshort.data hturn
  | APPLICATION =>
      obtain ⟨m, hm⟩ := Option.isSome_iff_exists.mp (hs.field_of_state hstate)
      rw [turn_application hstate hm] at hturn
      split at hturn
      · split at hturn
        · cases hturn
          exact hshort
        · exact hshort.applicationRead hstate hm hturn
      · have hfew : (buf.take (min h.bytesNeeded buf.length)).length ≤ h.bytesNeeded := by
          rw [List.length_take]
          omega
        have hmore := hshort.withPayload hstate hm hfew
        split at hturn
        · split at hturn
          · cases hturn
            exact hmore
          · exact hmore.applicationRead ((setCurrent_frame h _).1.trans hstate) (current_setCurrent h _) hturn
        · cases hturn
  | EXTENSION => exact (hs.field_of_state hstate).elim
  | READY => exact absurd hstate hready
  | FATAL_ERROR => exact (hs.field_of_state hstate).elim

/-- **A message that is handed out** is short, if it is a control message. -/
theorem Short.emit {msg : Message} (hshort : h.Short) (hs : h.Sound) (hemit : h.next buf = .emit msg h') :
    (msg.opcode.isControl = true → msg.payload.length ≤ payloadSizeBasic) ∧ h'.Short := by
  obtain ⟨hready, rfl⟩ := next_emit_inv hs hemit
  obtain ⟨m, hm, hnext⟩ := next_ready hs hready
  rw [hnext] at hemit
  cases hemit
  refine ⟨fun hctl => ?_, ?_⟩
  · exact (Nat.le_add_right _ _).trans (hshort.message (.inr hready) m hm hctl)
  · have hcleared : ∀ x, (h.setCurrent none).dataMsg = some x → h.dataMsg = some x := by
      intro x hx
      rw [Hybi13.setCurrent] at hx
      cases hcur : h.currentMsg with
      | data =>
          rw [hcur] at hx
          cases hx
      | control =>
          rw [hcur] at hx
          exact hx
    have hdata : ∀ x, h.getMessage.2.dataMsg = some x → h.dataMsg = some x := by
      intro x hx
      rw [getMessage, ready_iff.mpr hready, hm, Bool.not_true, if_neg Bool.false_ne_true] at hx
      dsimp only at hx
      split at hx
      · exact hcleared x hx
      · cases hx
    obtain ⟨_, _, _, _, ⟨g, hg⟩, _⟩ := getMessage_eq hs hready
    exact short_of_basic (by rw [hg]; rfl) fun x hx => hshort.data x (hdata x hx)

/-- **Whatever octets are read**, control messages are short. -/
theorem runs_short {bs : Bytes} {ms : List Message} {r : Except ProcessorError Hybi13} (hs : h.Sound) (hshort : h.Short)
    (hruns : Runs next h bs ms r) {m : Message} (hm : m ∈ ms) (hctl : m.opcode.isControl = true) :
    m.payload.length ≤ payloadSizeBasic := by
  induction hruns with
  | wait => cases hm
  | fail => cases hm
  | emit hemit _ ih =>
      obtain ⟨hlen, hshort'⟩ := hshort.emit hs hemit
      obtain rfl | hm := List.mem_cons.mp hm
      · exact hlen hctl
      · exact ih (cuttable.good_emit hs hemit) hshort' hm
  | read hread _ ih =>
      obtain ⟨hready, _, hturn⟩ := next_read_inv hs hread
      exact ih (cuttable.good_read hs hread) (hshort.turn hs hready hturn) hm

end Hybi13
end NewOrbit.Websocket
