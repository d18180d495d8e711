import NewOrbit.Websocket.Connection
import NewOrbit.Websocket.Fragments

/-!
# `Websocket.Queue` — what is sent

Whatever calls the functions of a connection, and whatever handlers do, comes to a few acts (`Act`): a message is
queued, the connection is closed, or nothing that matters changes. So what holds of the queue is shown once for each
act and once for each end of a write (`Queue`): the frames leave in the order they were queued in, a queued message
never waits for nobody, and behind a close frame there are only close frames.
-/

namespace NewOrbit.Websocket
open CString Octets Utf8

/-- A frame as a connection sends it. -/
structure Frame.Sent (server : Bool) (f : Frame) : Prop where
  fin     : f.fin = true
  rsv     : f.rsv1 = false ∧ f.rsv2 = false ∧ f.rsv3 = false
  masked  : f.key.isSome = !server
  control : f.opcode.isControl = true →
    f.payload.length ≤ payloadSizeBasic ∧ (f.opcode = .ping ∨ f.opcode = .pong ∨ f.opcode = .close)
  text    : f.opcode = .text → WellFormed f.payload

/-- What of a frame was given to `send`. -/
def Frame.given (f : Frame) : Opcode × Bytes := (f.opcode, f.payload)

namespace Connection

/-- A connection without what says nothing about its messages. -/
def core (c : Connection) : Connection :=
  { c with
      drawn := 0, localCloseCode := 0, localCloseReason := [], remoteCloseCode := 0, remoteCloseReason := [], ec := none
      handshakeTimer := false }

theorem state_of_core {c c' : Connection} (h : c'.core = c.core) : c'.state = c.state :=
  show c'.core.state = c.core.state from congrArg state h

theorem got_of_core {c c' : Connection} (h : c'.core = c.core) : c'.got = c.got :=
  show c'.core.got = c.core.got from congrArg got h

/-- A message is queued behind the others. -/
theorem enqueue_eq (c : Connection) (msg : Message) :
    c.enqueue msg = { c with
      sendBufferSize := c.sendBufferSize + msg.payload.length, sendQueue := c.sendQueue ++ [msg]
      pushed := c.pushed ++ [msg], posted := if c.writeFlag then c.posted else c.posted + 1 } := by
  have hne : (c.sendQueue ++ [msg]).isEmpty = false := by simp
  rw [enqueue, write_push]
  dsimp only
  rw [hne]
  cases c.writeFlag <;> rfl

/-- What the functions of a connection come to, reading and writing apart; `talks` where they may send messages. -/
inductive Act (talks : Bool) : Connection → Connection → Prop
  /-- Nothing that matters changes. -/
  | note {c c' : Connection} (h : c'.core = c.core) : Act talks c c'
  | data {c : Connection} {msg : Message} {f : Frame} (htalks : talks = true) (hopen : c.state = .opened)
      (hmsg : Frames c.processor.server c.processor.little msg f) (hf : f.Sent c.processor.server)
      (hdata : f.opcode.isControl = false) :
      Act talks c (({ c with sent := c.sent ++ [(f.opcode, f.payload)] } : Connection).enqueue msg)
  | control {c : Connection} {msg : Message} {f : Frame} (hopen : c.state = .opened)
      (hmsg : Frames c.processor.server c.processor.little msg f) (hf : f.Sent c.processor.server)
      (hop : f.opcode = .ping ∨ f.opcode = .pong) :
      Act talks c (c.enqueue msg)
  | close {c : Connection} {msg : Message} {f : Frame} (hopen : c.state ≠ .closed)
      (hmsg : Frames c.processor.server c.processor.little msg f) (hf : f.Sent c.processor.server)
      (hop : f.opcode = .close) :
      Act talks c (({ c with state := .closing } : Connection).enqueue msg)
  | clean {c : Connection} (hstate : c.state = .closing) (hgot : ∃ m ∈ c.got, m.opcode = .close) :
      Act talks c { c with wasClean := true }
  | terminate {c : Connection} (hopen : c.state ≠ .closed) :
      Act talks c { c with state := .closed, closeCalls := c.closeCalls + 1 }

/-- One act after the other. -/
abbrev Acts (talks : Bool) : Connection → Connection → Prop := Relation.ReflTransGen (Act talks)

variable {talks : Bool} {c c' : Connection} {msg : Message}

theorem Act.acts (h : Act talks c c') : Acts talks c c' := .single h

theorem acts_note (h : c'.core = c.core) : Acts talks c c' := (Act.note h).acts

/-! ## The functions come to acts

Each function is followed once, from its guards to the acts that are left. The handlers are covered by saying that a
handler may call any function that an application calls. -/

theorem core_draw (c : Connection) : c.draw.core = c.core := by
  rw [draw]
  split <;> rfl

theorem core_enqueue (c : Connection) (msg : Message) : (c.enqueue msg).core = c.core.enqueue msg := by
  rw [enqueue_eq, enqueue_eq]
  rfl

/-- The number that is drawn does not matter. -/
theorem acts_draw (h : Acts talks c (c'.enqueue msg)) : Acts talks c (c'.draw.enqueue msg) := by
  refine h.trans (acts_note ?_)
  rw [core_enqueue, core_enqueue, core_draw]

theorem send_acts (payload : Bytes) (op : Opcode) (fits : payload.length < 2 ^ 64) : Acts true c (c.send payload op).1 := by
  rw [send]
  split
  · exact .refl
  · rename_i hopen
    rcases hprep : c.processor.prepareDataFrame c.key { Message.new op with payload } (.new op) with e | msg
    · exact .refl
    · obtain ⟨hmsg, hctl, htext⟩ := prepareDataFrame_ok fits hprep
      exact acts_draw (Act.data rfl (not_not.mp hopen) hmsg
        ⟨rfl, hmsg.rsv, hmsg.masked, fun h => absurd (hctl.symm.trans h) Bool.false_ne_true, htext⟩ hctl).acts

/-- What is prepared of a control message. -/
theorem sent_control {h : Hybi13} {key : MaskingKey} {op : Opcode} {payload : Bytes} {out : Message}
    (hok : h.prepareControl key op payload out = .ok msg) (hop : op = .ping ∨ op = .pong ∨ op = .close) :
    ∃ f : Frame, Frames h.server h.little msg f ∧ f.Sent h.server ∧ f.opcode = op ∧ f.payload = payload := by
  obtain ⟨fits, hmsg, _, hsize⟩ := prepareControl_ok hok
  refine ⟨_, hmsg, ⟨rfl, hmsg.rsv, hmsg.masked, fun _ => ⟨hsize, hop⟩, fun htext => ?_⟩, rfl, rfl⟩
  change op = .text at htext
  subst htext
  obtain h | h | h := hop <;> cases h

theorem ping_acts (payload : Bytes) : Acts talks c (c.ping payload).1 := by
  rw [ping, sendControl]
  split
  · exact .refl
  · rename_i hopen
    rcases hprep : c.processor.preparePing c.key payload (.new .text) with e | msg
    · exact .refl
    · obtain ⟨f, hmsg, hf, hop, _⟩ := sent_control hprep (.inl rfl)
      exact acts_draw (Act.control (not_not.mp hopen) hmsg hf (.inl hop)).acts

theorem pong_acts (payload : Bytes) : Acts talks c (c.pong payload).1 := by
  rw [pong, sendControl]
  split
  · exact .refl
  · rename_i hopen
    rcases hprep : c.processor.preparePong c.key payload (.new .text) with e | msg
    · exact .refl
    · obtain ⟨f, hmsg, hf, hop, _⟩ := sent_control hprep (.inr (.inl rfl))
      exact acts_draw (Act.control (not_not.mp hopen) hmsg hf (.inr hop)).acts

theorem send_close_frame_acts (code : UInt16) (reason : Bytes) {ack : Bool} (terminal : Bool) (hopen : c.state ≠ .closed)
    (hgot : ack = true → ∃ m ∈ c.got, m.opcode = .close) : Acts talks c (c.send_close_frame code reason ack terminal).1 := by
  rw [send_close_frame]
  rcases c.closeInfo code reason ack with ⟨code, reason⟩
  dsimp only
  rcases hprep : Hybi13.prepareClose c.processor c.key code reason (.new .text) with e | msg
  · exact acts_note rfl
  · obtain ⟨_, hcontrol⟩ := Hybi13.prepareClose_ok hprep
    obtain ⟨f, hmsg, hf, hop, _⟩ := sent_control hcontrol (.inr (.inr rfl))
    have hmsg' : Frames c.processor.server c.processor.little { msg with terminal := terminal || msg.terminal } f :=
      ⟨hmsg.octets, hmsg.opcode, hmsg.size, hmsg.masked, hmsg.rsv⟩
    have hpush : Acts talks c _ := (Act.close hopen hmsg' hf hop).acts
    cases ack with
    | false =>
        refine hpush.trans (acts_note ?_)
        dsimp only
        rw [core_enqueue, core_enqueue, core_draw]
        rfl
    | true =>
        refine (hpush.trans (Act.clean (by rw [enqueue_eq]) (by rw [enqueue_eq]; exact hgot rfl)).acts).trans (acts_note ?_)
        dsimp only
        rw [core_enqueue, core_draw, enqueue_eq, enqueue_eq]
        rfl

theorem close_acts (code : UInt16) (reason : Bytes) : Acts talks c (c.close code reason).1 := by
  rw [close]
  split
  · exact .refl
  · rename_i hopen
    refine send_close_frame_acts code _ _ (fun h => ?_) (fun h => by cases h)
    rw [not_not.mp hopen] at h
    cases h

theorem call_acts (x : Call) : Acts true c (c.call x).1 := by
  cases x with
  | send payload op fits => exact send_acts payload op fits
  | ping payload => exact ping_acts payload
  | pong payload => exact pong_acts payload
  | close code reason => exact close_acts code reason

/-- Whatever a handler is. -/
theorem run_acts {α : Type} (script : Script α) : Acts true c (c.run script).1 := by
  induction script generalizing c with
  | done a => exact .refl
  | call x next ih => exact (call_acts x).trans (ih _)

theorem terminate_acts (ec : Option Ec) : Acts talks c (c.terminate ec) := by
  have hnote : ∀ d : Connection, d.core = c.core → Acts talks c
      (if d.state ≠ .closed then { d with state := .closed, closeCalls := d.closeCalls + 1 } else d) := by
    intro d hd
    refine (acts_note hd).trans ?_
    split
    · rename_i hopen
      exact (Act.terminate hopen).acts
    · exact .refl
  cases ec with
  | none => exact hnote _ rfl
  | some e => exact hnote _ rfl

theorem send_close_ack_acts (code : UInt16) (reason : Bytes) (hopen : c.state ≠ .closed)
    (hgot : ∃ m ∈ c.got, m.opcode = .close) : Acts talks c (c.send_close_ack code reason).1 :=
  send_close_frame_acts code reason _ hopen fun _ => hgot

theorem process_close_acts (payload : Bytes) (hopen : c.state ≠ .closed) (hgot : ∃ m ∈ c.got, m.opcode = .close) :
    Acts talks c (c.process_close payload) := by
  have hack : ∀ d : Connection, d.core = c.core → ∀ code reason, Acts talks c (d.send_close_ack code reason).1 := by
    intro d hd code reason
    refine (acts_note hd).trans (send_close_ack_acts code reason ?_ ?_)
    · rw [state_of_core hd]
      exact hopen
    · rw [got_of_core hd]
      exact hgot
  rw [process_close]
  rcases extract_code payload with ⟨code, ec⟩
  rcases extract_reason payload with ⟨reason, ec'⟩
  dsimp only
  split
  · exact hack _ (by rfl) _ _
  split
  · exact hack _ (by rfl) _ _
  split
  · exact hack _ (by rfl) _ _
  split
  · rename_i hclosing
    rw [Bool.and_eq_true, decide_eq_true_eq] at hclosing
    have hclean : Acts talks c { c with remoteCloseCode := code, remoteCloseReason := reason, wasClean := true } :=
      (Act.clean hclosing.1 hgot).acts.trans (acts_note rfl)
    split
    · exact hclean.trans (terminate_acts none)
    · exact hclean
  · exact acts_note rfl

section Reading
variable {σ : Type} {app : App σ} {s : σ}

theorem process_control_frame_acts (hgot : msg ∈ c.got) (hping : Acts talks c (c.run (app.onPing s msg.payload)).1)
    (hpong : Acts talks c (c.run (app.onPong s msg.payload)).1) : Acts talks c (c.process_control_frame app s msg).1 := by
  rw [process_control_frame]
  split
  · exact .refl
  split
  · exact .refl
  rename_i hopen _
  split
  · dsimp only
    refine hping.trans ?_
    split
    · exact pong_acts _
    · exact .refl
  · exact hpong
  · rename_i hop
    exact process_close_acts _ hopen ⟨msg, hgot, hop⟩
  · exact .refl

end Reading

theorem refuse_acts (e : ProcessorError) : Acts talks { c with failed := some e } (c.refuse e) := by
  rw [refuse]
  have hclose : Acts talks { c with failed := some e } _ := close_acts e.to_ws (bytes e.message)
  rcases hres : ({ c with failed := some e } : Connection).close e.to_ws (bytes e.message) with ⟨d, ec⟩
  rw [hres] at hclose
  cases ec with
  | none => exact hclose
  | some e => exact hclose.trans (terminate_acts _)

theorem handle_read_error_acts (ec : Ec) : Acts talks c (c.handle_read_error ec) := by
  rw [handle_read_error]
  split
  · exact .refl
  split
  · exact terminate_acts none
  · exact terminate_acts _

/-! ## The queue

The messages that were queued are the ones written and the ones that wait. They stand in the order of the calls, and
from the first close message on there are only those, because no function queues another kind in a state that is not
open. A message that waits has a turn of `write_frame` posted for it or a write outstanding. -/

/-- The frames that were queued, and what `send` took of them. -/
structure Framed (server little : Bool) (pushed : List Message) (sent : List (Opcode × Bytes)) (fs : List Frame) : Prop where
  pushed : List.Forall₂ (Frames server little) pushed fs
  sent   : (dataFrames fs).map Frame.given = sent
  each   : ∀ f ∈ fs, f.Sent server

theorem octets_framed {server little : Bool} {msgs : List Message} {fs : List Frame}
    (h : List.Forall₂ (Frames server little) msgs fs) : msgs.flatMap Message.octets = fs.flatMap (·.octets little) := by
  induction h with
  | nil => rfl
  | cons hmsg _ ih => rw [List.flatMap_cons, List.flatMap_cons, hmsg.octets, ih]

theorem Framed.opcodes {server little : Bool} {pushed : List Message} {sent : List (Opcode × Bytes)} {fs : List Frame}
    (h : Framed server little pushed sent fs) : fs.map Frame.opcode = pushed.map Message.opcode := by
  refine List.forall₂_eq_eq_eq ▸ List.forall₂_map_left_iff.mpr (List.forall₂_map_right_iff.mpr ?_)
  exact h.pushed.flip.imp fun _ _ hframe => hframe.opcode.symm

/-- The close frames are where the close messages are. -/
theorem split_frames {fs : List Frame} {pushed before after : List Message}
    (hops : fs.map Frame.opcode = pushed.map Message.opcode) (heq : pushed = before ++ after)
    (hbefore : ∀ m ∈ before, m.opcode ≠ .close) (hafter : ∀ m ∈ after, m.opcode = .close) :
    ∃ first last, fs = first ++ last ∧ (∀ f ∈ first, f.opcode ≠ .close) ∧ ∀ f ∈ last, f.opcode = .close := by
  rw [heq, List.map_append] at hops
  obtain ⟨first, last, rfl, hfirst, hlast⟩ := List.map_eq_append_iff.mp hops
  refine ⟨first, last, rfl, fun f hf => ?_, fun f hf => ?_⟩
  · obtain ⟨m, hm, hop⟩ := List.mem_map.mp (hfirst ▸ List.mem_map_of_mem hf)
    rw [← hop]
    exact hbefore m hm
  · obtain ⟨m, hm, hop⟩ := List.mem_map.mp (hlast ▸ List.mem_map_of_mem hf)
    rw [← hop]
    exact hafter m hm

/-- How far an outstanding write is, or the last one was. A write that failed is the last one. -/
def Written (c : Connection) (state : SessionState) : Prop :=
  match c.writing with
  | some rest =>
    c.writeFlag = true ∧ c.currentMsgs ≠ [] ∧ c.transmitted ++ rest = c.wrote.flatMap Message.octets
  | none =>
    if c.writeFlag then state = .closed ∧ c.transmitted <+: c.wrote.flatMap Message.octets
    else c.currentMsgs = [] ∧ c.transmitted = c.wrote.flatMap Message.octets

/-- What holds of the queue of a connection. -/
structure Queue (c : Connection) : Prop where
  framed  : ∃ fs, Framed c.processor.server c.processor.little c.pushed c.sent fs
  queue   : c.pushed = c.wrote ++ c.sendQueue
  size    : c.sendBufferSize = bufferSize c.sendQueue
  wake    : c.sendQueue ≠ [] → 0 < c.posted ∨ c.writeFlag = true
  written : c.Written c.state
  order   : ∃ before after, c.pushed = before ++ after ∧ (∀ m ∈ before, m.opcode ≠ .close) ∧
    (∀ m ∈ after, m.opcode = .close) ∧ (c.state = .opened → after = [])
  closing : c.state = .closing → ∃ m ∈ c.pushed, m.opcode = .close
  clean   : c.wasClean = true → (∃ m ∈ c.pushed, m.opcode = .close) ∧ ∃ m ∈ c.got, m.opcode = .close
  calls   : c.closeCalls = if c.state = .closed then 1 else 0

/-- No write of a connection that is not closed has failed. -/
theorem Written.of_live {state : SessionState} (h : c.Written state) (hlive : state ≠ .closed) (state' : SessionState) :
    c.Written state' := by
  rw [Written] at h ⊢
  cases hw : c.writing with
  | some rest =>
      rw [hw] at h
      exact h
  | none =>
      rw [hw] at h
      cases hflag : c.writeFlag with
      | false =>
          rw [hflag] at h
          exact h
      | true =>
          rw [hflag] at h
          exact absurd h.1 hlive

theorem queue_init (server little : Bool) (maxMessageSize : Nat) (rng : Nat → MaskingKey) :
    (init server little maxMessageSize rng).Queue where
  framed  := ⟨[], .nil, rfl, (fun _ h => by cases h)⟩
  queue   := rfl
  size    := rfl
  wake    := fun h => absurd rfl h
  written := ⟨rfl, rfl⟩
  order   := ⟨[], [], rfl, (fun _ h => by cases h), (fun _ h => by cases h), fun _ => rfl⟩
  closing := fun h => by cases h
  clean   := fun h => by cases h
  calls   := rfl

theorem Queue.of_core (h : c.core.Queue) : c.Queue where
  framed  := h.framed
  queue   := h.queue
  size    := h.size
  wake    := h.wake
  written := h.written
  order   := h.order
  closing := h.closing
  clean   := h.clean
  calls   := h.calls

theorem Queue.core (h : c.Queue) : c.core.Queue where
  framed  := h.framed
  queue   := h.queue
  size    := h.size
  wake    := h.wake
  written := h.written
  order   := h.order
  closing := h.closing
  clean   := h.clean
  calls   := h.calls

theorem bufferSize_append (xs ys : List Message) : bufferSize (xs ++ ys) = bufferSize xs + bufferSize ys := by
  induction xs with
  | nil => exact (Nat.zero_add _).symm
  | cons x xs ih =>
      show x.payload.length + bufferSize (xs ++ ys) = _
      rw [ih, bufferSize, Nat.add_assoc]

/-- **A message that is queued** keeps the queue, whichever it is: it is a close frame if there was one before. -/
theorem Queue.enqueue {f : Frame} (h : c.Queue) (state : SessionState) (sent : List (Opcode × Bytes))
    (hmsg : Frames c.processor.server c.processor.little msg f) (hf : f.Sent c.processor.server)
    (hsent : (dataFrames [f]).map Frame.given = sent) (hopen : c.state ≠ .closed)
    (hstate : f.opcode ≠ .close ∧ c.state = .opened ∧ state = .opened ∨ f.opcode = .close ∧ state = .closing) :
    (({ c with state, sent := c.sent ++ sent } : Connection).enqueue msg).Queue := by
  rw [enqueue_eq]
  have hlive : state ≠ .closed := by
    obtain ⟨_, _, rfl⟩ | ⟨_, rfl⟩ := hstate <;> decide
  obtain ⟨fs, hfs⟩ := h.framed
  refine ⟨⟨fs ++ [f], ?_, ?_, ?_⟩, ?_, ?_, fun _ => ?_, ?_, ?_, fun hclosing => ?_, fun hclean => ?_, ?_⟩
  · exact List.rel_append hfs.pushed (.cons hmsg .nil)
  · rw [dataFrames, List.filter_append, List.map_append]
    exact congrArg₂ _ hfs.sent hsent
  · intro g hg
    obtain hg | hg := List.mem_append.mp hg
    · exact hfs.each g hg
    · exact List.mem_singleton.mp hg ▸ hf
  · show c.pushed ++ [msg] = c.wrote ++ (c.sendQueue ++ [msg])
    rw [h.queue, List.append_assoc]
  · show c.sendBufferSize + _ = bufferSize (c.sendQueue ++ [msg])
    rw [bufferSize_append, h.size]
    rfl
  · show 0 < (if c.writeFlag then c.posted else c.posted + 1) ∨ c.writeFlag = true
    cases c.writeFlag
    · exact .inl (Nat.succ_pos _)
    · exact .inr rfl
  · exact h.written.of_live hopen state
  · obtain ⟨before, after, heq, hbefore, hafter, hopened⟩ := h.order
    obtain ⟨hop, hstate, rfl⟩ | ⟨hop, rfl⟩ := hstate
    · obtain rfl := hopened hstate
      refine ⟨before ++ [msg], [], ?_, fun m hm => ?_, (fun _ h => by cases h), fun _ => rfl⟩
      · show c.pushed ++ [msg] = _
        rw [heq, List.append_nil, List.append_nil]
      · obtain hm | hm := List.mem_append.mp hm
        · exact hbefore m hm
        · rw [List.mem_singleton.mp hm, hmsg.opcode]
          exact hop
    · refine ⟨before, after ++ [msg], ?_, hbefore, fun m hm => ?_, fun h => by cases h⟩
      · show c.pushed ++ [msg] = _
        rw [heq, List.append_assoc]
      · obtain hm | hm := List.mem_append.mp hm
        · exact hafter m hm
        · rw [List.mem_singleton.mp hm, hmsg.opcode]
          exact hop
  · obtain ⟨_, _, rfl⟩ | ⟨hop, _⟩ := hstate
    · cases hclosing
    · exact ⟨msg, List.mem_append_right _ (List.mem_singleton_self _), hmsg.opcode.trans hop⟩
  · obtain ⟨⟨m, hm, hop⟩, hgot⟩ := h.clean hclean
    exact ⟨⟨m, List.mem_append_left _ hm, hop⟩, hgot⟩
  · have hcalls := h.calls
    rw [if_neg hopen] at hcalls
    show c.closeCalls = if state = .closed then 1 else 0
    rw [if_neg hlive]
    exact hcalls

/-- **Acts keep the queue.** -/
theorem Queue.act (h : c.Queue) (hact : Act talks c c') : c'.Queue := by
  cases hact with
  | note hcore => exact .of_core (hcore ▸ h.core)
  | data _ hopen hmsg hf hdata =>
      have hne : c.state ≠ .closed := by rw [hopen]; decide
      have hop : ∀ f : Frame, f.opcode.isControl = false → f.opcode ≠ .close := fun f hf hop => by
        rw [hop] at hf
        cases hf
      have hq := h.enqueue .opened _ hmsg hf rfl hne (.inl ⟨hop _ hdata, hopen, rfl⟩)
      rw [dataFrames_data hdata, ← hopen] at hq
      exact hq
  | @control msg f hopen hmsg hf hop =>
      have hne : c.state ≠ .closed := by rw [hopen]; decide
      have hclose : f.opcode ≠ .close := fun h => by rw [h] at hop; cases hop <;> contradiction
      have hctl : f.opcode.isControl = true := by obtain h | h := hop <;> rw [h] <;> rfl
      have hq := h.enqueue .opened _ hmsg hf rfl hne (.inl ⟨hclose, hopen, rfl⟩)
      rw [dataFrames_control hctl, ← hopen] at hq
      rwa [show c.sent ++ (dataFrames []).map Frame.given = c.sent from List.append_nil _] at hq
  | @close msg f hopen hmsg hf hop =>
      have hctl : f.opcode.isControl = true := by rw [hop]; rfl
      have hq := h.enqueue .closing _ hmsg hf rfl hopen (.inr ⟨hop, rfl⟩)
      rw [dataFrames_control hctl] at hq
      rwa [show c.sent ++ (dataFrames []).map Frame.given = c.sent from List.append_nil _] at hq
  | clean hstate hgot => exact { h with clean := fun _ => ⟨h.closing hstate, hgot⟩ }
  | terminate hopen =>
      obtain ⟨before, after, heq, hbefore, hafter, _⟩ := h.order
      have hcalls := h.calls
      rw [if_neg hopen] at hcalls
      exact { h with
        written := h.written.of_live hopen .closed
        order   := ⟨before, after, heq, hbefore, hafter, fun h => by cases h⟩
        closing := fun h => by cases h
        calls   := by rw [if_pos rfl]; exact congrArg (· + 1) hcalls }

theorem Queue.acts (h : c.Queue) (hacts : Acts talks c c') : c'.Queue := by
  induction hacts with
  | refl => exact h
  | tail _ hact ih => exact ih.act hact

/-! ## Writes

A write takes the front of the queue and is transmitted a part at a time. One that fails closes the connection, so
that it is the last, and what was transmitted is then only the first octets of what was written. -/

/-- What is written together is the front of the queue, and not nothing. -/
theorem batch_eq (queue : List Message) :
    (batch queue).1 ++ (batch queue).2 = queue ∧ ((batch queue).1 = [] → queue = []) := by
  induction queue with
  | nil => exact ⟨rfl, fun _ => rfl⟩
  | cons msg rest ih =>
      rw [batch]
      split
      · exact ⟨rfl, fun h => by cases h⟩
      · exact ⟨by rw [List.cons_append, ih.1], fun h => by cases h⟩

/-- **A write begins** where none is outstanding, of the front of the queue. -/
theorem Queue.write_frame (h : c.Queue) (posted : Nat) : ({ c with posted } : Connection).write_frame.Queue := by
  have hwritten := h.written
  rw [Written] at hwritten
  rw [Connection.write_frame]
  dsimp only
  by_cases hflag : c.writeFlag = true
  · rw [if_pos hflag]
    exact { h with wake := fun _ => .inr hflag }
  rw [if_neg hflag]
  obtain ⟨hqueue, hnil⟩ := batch_eq c.sendQueue
  have hidle : c.writing = none ∧ c.currentMsgs = [] ∧ c.transmitted = c.wrote.flatMap Message.octets := by
    cases hw : c.writing with
    | some rest =>
        rw [hw] at hwritten
        exact absurd hwritten.1 hflag
    | none =>
        rw [hw] at hwritten
        dsimp only at hwritten
        rw [if_neg hflag] at hwritten
        exact ⟨rfl, hwritten⟩
  obtain ⟨hwriting, hcurrent, htransmitted⟩ := hidle
  have hsize : c.sendBufferSize - bufferSize (batch c.sendQueue).1 = bufferSize (batch c.sendQueue).2 := by
    have htotal := bufferSize_append (batch c.sendQueue).1 (batch c.sendQueue).2
    rw [hqueue, ← h.size] at htotal
    omega
  have hpushed : c.pushed = c.wrote ++ (batch c.sendQueue).1 ++ (batch c.sendQueue).2 := by
    rw [List.append_assoc, hqueue]
    exact h.queue
  rw [hcurrent, List.nil_append]
  cases hbatch : (batch c.sendQueue).1 with
  | nil =>
      -- Nothing was queued.
      have hempty := hnil hbatch
      rw [hbatch] at hsize hpushed
      rw [if_pos (show ([] : List Message).isEmpty = true from rfl)]
      refine { h with queue := hpushed, size := hsize, wake := fun hne => absurd ?_ hne, written := ?_ }
      · have hrest : (batch c.sendQueue).2 = [] := by rw [hempty]; rfl
        exact hrest
      · show Written _ c.state
        rw [Written]
        dsimp only
        rw [hwriting]
        dsimp only
        rw [if_neg hflag]
        exact ⟨rfl, by rw [List.append_nil]; exact htransmitted⟩
  | cons msg msgs =>
      rw [hbatch] at hsize hpushed
      refine { h with queue := hpushed, size := hsize, wake := fun _ => .inr rfl, written := ⟨rfl, ?_, ?_⟩ }
      · exact List.cons_ne_nil msg msgs
      · show c.transmitted ++ (msg :: msgs).flatMap Message.octets = (c.wrote ++ msg :: msgs).flatMap Message.octets
        rw [List.flatMap_append, htransmitted]

/-- Octets of an outstanding write are transmitted. -/
theorem Queue.transmit (h : c.Queue) {buf : Bytes} (hwriting : c.writing = some buf) (n : Nat) :
    ({ c with writing := some (buf.drop n), transmitted := c.transmitted ++ buf.take n } : Connection).Queue := by
  have hwritten := h.written
  rw [Written, hwriting] at hwritten
  obtain ⟨hflag, hcurrent, hoctets⟩ := hwritten
  refine { h with written := ⟨hflag, hcurrent, ?_⟩ }
  show c.transmitted ++ buf.take n ++ buf.drop n = _
  rw [List.append_assoc, List.take_append_drop]
  exact hoctets

/-- A connection that terminates is closed, and nothing else of it matters. -/
theorem terminate_eq (c : Connection) (ec : Option Ec) :
    (c.terminate ec).core = ({ c with
      state := .closed, closeCalls := if c.state = .closed then c.closeCalls else c.closeCalls + 1 } : Connection).core := by
  by_cases hs : c.state = .closed
  · have hself : ({ c with state := .closed, closeCalls := c.closeCalls } : Connection) = c := by
      cases c
      cases hs
      rfl
    rw [if_pos hs, hself]
    cases ec <;> rw [terminate] <;> dsimp only <;> rw [if_neg (not_not.mpr hs)] <;> rfl
  · rw [if_neg hs]
    cases ec <;> rw [terminate] <;> dsimp only <;> rw [if_pos hs] <;> rfl

/-- **A write ends**, and the next one is queued if there is anything to write; or the connection is closed. -/
theorem Queue.handle_write_frame (h : c.Queue) {buf : Bytes} (hwriting : c.writing = some buf) (ec : Option Ec)
    (hall : ec = none → buf = []) : (({ c with writing := none } : Connection).handle_write_frame ec).Queue := by
  have hwritten := h.written
  rw [Written, hwriting] at hwritten
  obtain ⟨hflag, hcurrent, hoctets⟩ := hwritten
  -- A connection that is closed has no write after this one.
  have hclosed : ∀ ec, (({ c with writing := none, currentMsgs := [] } : Connection).terminate ec).Queue := by
    intro ec
    obtain ⟨before, after, heq, hbefore, hafter, _⟩ := h.order
    refine .of_core ?_
    rw [terminate_eq]
    refine Queue.core { h with
      written := ?_
      order   := ⟨before, after, heq, hbefore, hafter, fun h => by cases h⟩
      closing := fun h => by cases h
      calls   := ?_ }
    · show Written _ .closed
      rw [Written]
      dsimp only
      rw [if_pos hflag]
      exact ⟨rfl, hoctets ▸ List.prefix_append _ _⟩
    · have hcalls := h.calls
      rw [if_pos rfl]
      dsimp only
      by_cases hs : c.state = .closed
      · rw [if_pos hs] at hcalls ⊢
        exact hcalls
      · rw [if_neg hs] at hcalls ⊢
        exact congrArg (· + 1) hcalls
  cases ec with
  | some e => exact hclosed (some e)
  | none =>
      rw [Connection.handle_write_frame]
      dsimp only
      split
      · exact hclosed none
      · -- All of it was written.
        rw [hall rfl, List.append_nil] at hoctets
        have hdone : ∀ posted, (c.sendQueue ≠ [] → 0 < posted) →
            ({ c with writing := none, currentMsgs := [], writeFlag := false, posted } : Connection).Queue := by
          intro posted hposted
          refine { h with wake := fun hne => .inl (hposted hne), written := ?_ }
          show Written _ c.state
          rw [Written]
          exact ⟨rfl, hoctets⟩
        split
        · exact hdone _ fun _ => Nat.succ_pos _
        · rename_i hempty
          refine hdone _ fun hne => absurd ?_ hempty
          cases hq : c.sendQueue with
          | nil => exact absurd hq hne
          | cons _ _ => rfl

/-- What has been transmitted of what was queued. -/
theorem Queue.transmitted (h : c.Queue) :
    c.transmitted <+: c.pushed.flatMap Message.octets ∧
      (c.state ≠ .closed → c.writing = none → c.sendQueue = [] → c.transmitted = c.pushed.flatMap Message.octets) := by
  have hwritten := h.written
  rw [Written] at hwritten
  have hpushed : c.pushed.flatMap Message.octets = c.wrote.flatMap Message.octets ++ c.sendQueue.flatMap Message.octets := by
    rw [h.queue, List.flatMap_append]
  rw [hpushed]
  cases hw : c.writing with
  | some rest =>
      rw [hw] at hwritten
      obtain ⟨_, _, hoctets⟩ := hwritten
      refine ⟨?_, fun _ h => by cases h⟩
      rw [← hoctets, List.append_assoc]
      exact List.prefix_append _ _
  | none =>
      rw [hw] at hwritten
      dsimp only at hwritten
      split at hwritten
      · refine ⟨hwritten.2.trans (List.prefix_append _ _), fun hlive => absurd hwritten.1 hlive⟩
      · refine ⟨hwritten.2 ▸ List.prefix_append _ _, fun _ _ hqueue => ?_⟩
        rw [hqueue, hwritten.2]
        exact (List.append_nil _).symm

end Connection
end NewOrbit.Websocket
