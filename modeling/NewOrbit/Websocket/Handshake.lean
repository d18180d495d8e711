import NewOrbit.Websocket.Controls
import NewOrbit.Websocket.Sending
import NewOrbit.Websocket.Steps

/-!
# `Websocket.Handshake` — the closing handshake

Whatever code and reason a close frame gives, the answer to it can be prepared (`process_close_state`). So a connection
that has read a close frame is not open any more, and as long as it is not closed it has queued a close frame of its own
(`close_answered`).
-/

namespace NewOrbit.Websocket
open CString

namespace Connection

variable {σ : Type} {app : App σ} {s : σ} {start : Hybi13} {c c' : Connection}

/-- A code and a reason that are allowed go out, and the connection is closing. -/
theorem send_close_frame_state {code : UInt16} {reason : Bytes} {ack : Bool} (terminal : Bool)
    (h : Closes (c.closeInfo code reason ack).1 (c.closeInfo code reason ack).2) :
    (c.send_close_frame code reason ack terminal).1.state = .closing := by
  rw [send_close_frame]
  rcases hinfo : c.closeInfo code reason ack with ⟨code, reason⟩
  rw [hinfo] at h
  obtain ⟨msg, hmsg⟩ : ∃ msg, c.processor.prepareClose c.key code reason (.new .text) = .ok msg := by
    rw [Hybi13.prepareClose_eq _ _ _ h]
    exact prepareControl_some rfl (length_closePayload h)
  dsimp only
  rw [hmsg]
  dsimp only
  rw [enqueue_eq]
  exact state_of_core (core_draw _)

/-- What a close frame is answered with that cannot be read. -/
theorem ack_protocol_error {reason : Bytes} (hsize : reason.length ≤ closeReasonSize) :
    (c.send_close_ack Status.protocol_error reason).1.state = .closing := by
  have hinfo : c.closeInfo Status.protocol_error reason true = (Status.protocol_error, reason) := if_pos (by decide)
  refine send_close_frame_state c.processor.server ?_
  rw [hinfo]
  have hvalid : Status.invalid Status.protocol_error = false := by decide
  have hcode : Status.protocol_error ≠ Status.no_status := by decide
  exact ⟨rfl, fun h => absurd (hvalid.symm.trans h) Bool.false_ne_true, fun h => absurd h hcode, hsize⟩

/-- What a close frame is answered with that was read. -/
theorem ack_extracted {payload : Bytes} (hcode : extract_code payload = (c.remoteCloseCode, none))
    (hreason : (extract_reason payload).1 = c.remoteCloseReason) (hsize : payload.length ≤ payloadSizeBasic) :
    (c.send_close_ack Status.blank []).1.state = .closing := by
  refine send_close_frame_state c.processor.server ?_
  rw [closeInfo, if_neg (not_not.mpr rfl), Bool.not_true, if_neg Bool.false_ne_true]
  split
  · exact ⟨by decide, fun h => absurd h (by decide), fun _ => rfl, Nat.zero_le _⟩
  · rename_i hne
    rw [← hreason]
    exact closes_extracted hcode hne hsize

/-- **A close frame that is read is answered**, unless the connection was closing before. -/
theorem process_close_state {payload : Bytes} (hsize : payload.length ≤ payloadSizeBasic) :
    (c.process_close payload).state ≠ .opened := by
  have hclosing : ∀ state, state = SessionState.closing → state ≠ .opened := fun _ h => by rw [h]; decide
  rw [process_close]
  rcases hcode : extract_code payload with ⟨code, ec⟩
  rcases hreason : extract_reason payload with ⟨reason, ec'⟩
  dsimp only
  split
  · exact hclosing _ (ack_protocol_error (by decide +kernel))
  split
  · exact hclosing _ (ack_protocol_error (by decide +kernel))
  split
  · rename_i hok _ _
    rw [Bool.not_eq_true, Option.isSome_eq_false_iff, Option.isNone_iff_eq_none] at hok
    subst hok
    exact hclosing _ (ack_extracted hcode (congrArg Prod.fst hreason) hsize)
  · rename_i hopen
    have hkept : ∀ d : Connection, d.state = c.state → d.state ≠ .opened := fun d hd h => hopen (hd.symm.trans h)
    split
    · split
      · have hacts : Acts false { c with remoteCloseCode := code, remoteCloseReason := reason, wasClean := true } _ :=
          terminate_acts none
        exact fun h => hopen ((untouched_acts hacts).opened h)
      · exact hkept _ rfl
    · exact hkept _ rfl

/-- Every close frame that was read has been seen to. -/
def Answered (c : Connection) : Prop :=
  ∀ m ∈ c.got, m.opcode = .close → m.payload.length ≤ payloadSizeBasic → c.state ≠ .opened

theorem Answered.untouched (h : c.Answered) (hsame : Untouched c c') : c'.Answered := by
  intro m hm hop hsize hopen
  rw [hsame.got] at hm
  exact h m hm hop hsize (hsame.opened hopen)

/-- One more message was read, and if it is a close frame the connection is not open behind it. -/
theorem Answered.got {msg : Message} (h : c.Answered) (hgot : c'.got = c.got ++ [msg])
    (hopened : c'.state = .opened → c.state = .opened)
    (hmsg : msg.opcode = .close → msg.payload.length ≤ payloadSizeBasic → c'.state ≠ .opened) : c'.Answered := by
  intro m hm hop hsize
  rw [hgot, List.mem_append, List.mem_singleton] at hm
  obtain hm | rfl := hm
  · exact fun hopen => h m hm hop hsize (hopened hopen)
  · exact hmsg hop hsize

/-- **A message that is dispatched.** -/
theorem Answered.dispatch (h : c.Answered) (s : σ) (msg : Message) : (c.dispatch app s msg).1.Answered := by
  rw [Connection.dispatch]
  cases hctl : msg.opcode.isControl with
  | true =>
      rw [Bool.not_true, if_neg Bool.false_ne_true]
      have hacts : Acts true { c with got := c.got ++ [msg] }
          (({ c with got := c.got ++ [msg] } : Connection).process_control_frame app s msg).1 :=
        process_control_frame_acts (List.mem_append_right _ (List.mem_singleton_self msg)) (run_acts _) (run_acts _)
      have hsame := untouched_acts hacts
      refine h.got hsame.got hsame.opened fun hop hsize => ?_
      rw [process_control_frame]
      split
      · rename_i hclosed
        exact fun hopen => by cases hclosed.symm.trans hopen
      rw [if_neg fun hother => hother.1 hop, hop]
      exact process_close_state hsize
  | false =>
      have hdata : msg.opcode ≠ .close := fun hop => by
        rw [hop] at hctl
        cases hctl
      rw [Bool.not_false, if_pos rfl]
      split
      · exact h.got rfl id fun hop => absurd hop hdata
      · have hsame := untouched_acts
          (run_acts (c := { c with got := c.got ++ [msg], handed := c.handed ++ [msg] }) (app.onMessage s msg))
        exact h.got hsame.got hsame.opened fun hop => absurd hop hdata

/-- What was read of control messages is short, whatever was read. -/
theorem Reads.control_short (h : c.Reads start) (hs : start.Sound) (hshort : start.Short) {m : Message} (hm : m ∈ c.got)
    (hctl : m.opcode.isControl = true) : m.payload.length ≤ payloadSizeBasic := by
  obtain ⟨_, hruns⟩ := h.runs
  exact Hybi13.runs_short hs hshort hruns hm hctl

theorem steady_answered : Steady app Answered where
  alike h halike := by
    intro m hm hop hsize
    rw [halike.got] at hm
    rw [halike.state]
    exact h m hm hop hsize
  acts h hacts := h.untouched (untouched_acts hacts)
  dispatch s msg h := h.dispatch s msg

section Runs
variable {t : σ} {tr : List Event} {server little : Bool} {maxMessageSize : Nat} {rng : Nat → MaskingKey}

/-- Whatever happens, the close frames that were read have been seen to. -/
theorem answered_from_init (h : Machine.exec (step app) tr (init server little maxMessageSize rng, s) = some (c, t)) :
    c.Answered := by
  refine Machine.exec_invariant (I := fun x => Answered x.1) (fun x e x' hx hstep => ?_) (fun m hm => by cases hm) h
  refine steady_answered.step (fun y hy => ?_) hx hstep
  exact hx.untouched (untouched_acts (call_acts y))

/-- **The closing handshake.** Whatever a connection is sent and whatever its handlers do, once it has read a close
    frame, with any code and any reason or with none, it is not open: it has queued a close frame of its own, or it is
    closed. -/
theorem close_answered (h : Machine.exec (step app) tr (init server little maxMessageSize rng, s) = some (c, t))
    (hclose : ∃ m ∈ c.got, m.opcode = .close) :
    c.state = .closed ∨ c.state = .closing ∧ ∃ m ∈ c.pushed, m.opcode = .close := by
  obtain ⟨m, hm, hop⟩ := hclose
  have hgood := good_from_init h
  have hsize : m.payload.length ≤ payloadSizeBasic :=
    hgood.reads.control_short (Hybi13.sound_init ..) (Hybi13.short_init ..) hm (by rw [hop]; rfl)
  have hstate : c.state ≠ .opened := answered_from_init h m hm hop hsize
  cases hs : c.state with
  | opened => exact absurd hs hstate
  | closing => exact .inr ⟨rfl, hgood.queue.closing hs⟩
  | closed => exact .inl rfl

/-- A client closes with a code that is reserved. -/
def closeReserved : List Event := [.read [0x88, 0x82, 0, 0, 0, 0, 3, 0xEC]]

theorem close_answered_reserved : ∃ c t, Machine.exec (step Network.quiet) closeReserved
    (init true true 100 (fun _ => ⟨0⟩), ()) = some (c, t) ∧ ∃ m ∈ c.pushed, m.opcode = .close := by
  have hany : (Machine.exec (step Network.quiet) closeReserved (init true true 100 (fun _ => ⟨0⟩), ())).any (fun x =>
      decide (x.1.state ≠ .closed ∧ ∃ m ∈ x.1.got, m.opcode = .close)) = true := by
    decide +kernel
  obtain ⟨⟨c, t⟩, hrun, hdec⟩ := (Option.any_eq_true _ _).mp hany
  obtain ⟨hlive, hclose⟩ := of_decide_eq_true hdec
  obtain hclosed | ⟨_, hpushed⟩ := close_answered hrun hclose
  · exact absurd hclosed hlive
  · exact ⟨c, t, hrun, hpushed⟩

end Runs

end Connection
end NewOrbit.Websocket
