import NewOrbit.Websocket.Network

/-!
# `Websocket.Sending` — a connection by itself

What a connection sends in any run, whatever the other side sends it and whatever its handlers do: the octets that have
left are the front of whole frames, of which the data frames are what `send` has taken, with nothing but close frames
behind a close frame (`written_in_order`). The close handler is called once (`closed_once`). No message is stuck: the
event loop alone can always write what is queued, or it comes to the message that closes the connection
(`can_drain`).
-/

namespace NewOrbit.Websocket
open CString Octets

namespace Connection

variable {σ : Type} {app : App σ} {s t : σ} {c c' : Connection} {start : Hybi13} {tr : List Event}

/-- Whatever happens, a connection keeps what it keeps. -/
theorem good_exec (h : c.Good start) (hs : start.Sound) (hrun : Machine.exec (step app) tr (c, s) = some (c', t)) :
    c'.Good start :=
  Machine.exec_invariant (I := fun x => Good start x.1) (fun _ _ _ ht hstep => good_step ht hs hstep) h hrun

/-- One octet is sent, the connection is closed, and the first three octets have left. -/
def sendAndClose : List Event :=
  [.call (.send [66] .text (by decide)), .call (.close Status.normal []), .run, .transmit 3]

theorem sendAndClose_runs : ∃ c t, Machine.exec (step Network.quiet) sendAndClose
    (init true true 100 (fun _ => ⟨0⟩), ()) = some (c, t) ∧ c.sent = [(.text, [66])] ∧ c.transmitted = [0x81, 1, 66] := by
  have hany : (Machine.exec (step Network.quiet) sendAndClose (init true true 100 (fun _ => ⟨0⟩), ())).any (fun x =>
      decide (x.1.sent = [(.text, [66])] ∧ x.1.transmitted = [0x81, 1, 66])) = true := by
    decide +kernel
  obtain ⟨⟨c, t⟩, hrun, hdec⟩ := (Option.any_eq_true _ _).mp hany
  exact ⟨c, t, hrun, of_decide_eq_true hdec⟩

section Runs
variable {server little : Bool} {maxMessageSize : Nat} {rng : Nat → MaskingKey}

theorem good_from_init (h : Machine.exec (step app) tr (init server little maxMessageSize rng, s) = some (c, t)) :
    c.Good (.init server little maxMessageSize) :=
  good_exec (good_init server little maxMessageSize rng) (Hybi13.sound_init ..) h

/-- **What leaves a connection**, whatever it is sent and whatever its handlers do, is the front of whole frames. The
    data frames among them are what `send` has taken, in its order, and behind a close frame there are only close
    frames. -/
theorem written_in_order (h : Machine.exec (step app) tr (init server little maxMessageSize rng, s) = some (c, t)) :
    ∃ fs : List Frame, c.transmitted <+: fs.flatMap (·.octets little) ∧ (dataFrames fs).map Frame.given = c.sent ∧
      (∀ f ∈ fs, f.Sent server) ∧
      ∃ first last, fs = first ++ last ∧ (∀ f ∈ first, f.opcode ≠ .close) ∧ ∀ f ∈ last, f.opcode = .close := by
  have hgood := good_from_init h
  obtain ⟨fs, hfs⟩ := hgood.queue.framed
  have hserver : c.processor.server = server := congrArg (·.1) hgood.reads.config
  have hlittle : c.processor.little = little := congrArg (·.2.1) hgood.reads.config
  rw [hserver, hlittle] at hfs
  obtain ⟨before, after, heq, hbefore, hafter, _⟩ := hgood.queue.order
  refine ⟨fs, ?_, hfs.sent, hfs.each, split_frames hfs.opcodes heq hbefore hafter⟩
  rw [← octets_framed hfs.pushed]
  exact hgood.queue.transmitted.1

theorem written_in_order_one : ∃ c t, Machine.exec (step Network.quiet) sendAndClose
    (init true true 100 (fun _ => ⟨0⟩), ()) = some (c, t) ∧
    ∃ fs : List Frame, [0x81, 1, 66] <+: fs.flatMap (·.octets true) ∧
      (dataFrames fs).map Frame.given = [(.text, [66])] ∧ (∀ f ∈ fs, f.Sent true) ∧
      ∃ first last, fs = first ++ last ∧ (∀ f ∈ first, f.opcode ≠ .close) ∧ ∀ f ∈ last, f.opcode = .close := by
  obtain ⟨c, t, hrun, hsent, htransmitted⟩ := sendAndClose_runs
  have hwritten := written_in_order hrun
  rw [hsent, htransmitted] at hwritten
  exact ⟨c, t, hrun, hwritten⟩

/-- **The close handler is called once**, when the connection is closed, and a connection that was closed cleanly has
    sent a close frame and was sent one. -/
theorem closed_once (h : Machine.exec (step app) tr (init server little maxMessageSize rng, s) = some (c, t)) :
    (c.closeCalls = if c.state = .closed then 1 else 0) ∧
      (c.wasClean = true → (∃ m ∈ c.pushed, m.opcode = .close) ∧ ∃ m ∈ c.got, m.opcode = .close) :=
  ⟨(good_from_init h).queue.calls, (good_from_init h).queue.clean⟩

/-- The other side closes, and the answer leaves. -/
def readClose : List Event :=
  [.read [0x88, 0x82, 0, 0, 0, 0, 3, 0xE8], .run, .transmit 4, .written none]

theorem closed_once_clean : ∃ c t, Machine.exec (step Network.quiet) readClose
    (init true true 100 (fun _ => ⟨0⟩), ()) = some (c, t) ∧ c.state = .closed ∧ c.closeCalls = 1 ∧
      (∃ m ∈ c.pushed, m.opcode = .close) ∧ ∃ m ∈ c.got, m.opcode = .close := by
  have hany : (Machine.exec (step Network.quiet) readClose (init true true 100 (fun _ => ⟨0⟩), ())).any (fun x =>
      decide (x.1.state = .closed ∧ x.1.wasClean = true)) = true := by
    decide +kernel
  obtain ⟨⟨c, t⟩, hrun, hdec⟩ := (Option.any_eq_true _ _).mp hany
  obtain ⟨hclosed, hclean⟩ := of_decide_eq_true hdec
  obtain ⟨hcalls, hclose⟩ := closed_once hrun
  rw [hclosed, if_pos rfl] at hcalls
  exact ⟨c, t, hrun, hclosed, hcalls, hclose hclean⟩

end Runs

/-! ## Nothing is stuck -/

/-- The event loop goes on writing, and no write fails. -/
def Event.Writes : Event → Prop
  | .run | .transmit _ | .written none => True
  | _                                  => False

/-- What is left to do for the event loop: two steps for a message that is queued, and one for a write. -/
def work (c : Connection) : Nat := 2 * c.sendQueue.length + if c.writing.isSome then 1 else 0

/-- The end of a write that did not fail. -/
theorem handle_write_frame_ok (c : Connection) :
    (c.handle_write_frame none).pushed = c.pushed ∧ ((c.handle_write_frame none).state = .closed ∨
      (c.handle_write_frame none).sendQueue = c.sendQueue ∧ (c.handle_write_frame none).writing = c.writing) := by
  rw [handle_write_frame]
  dsimp only
  split
  · refine ⟨?_, .inl (terminate_state _ _)⟩
    exact (show (terminate { c with currentMsgs := [] } none).core.pushed = c.pushed by rw [terminate_eq]; rfl)
  split
  · exact ⟨rfl, .inr ⟨rfl, rfl⟩⟩
  · exact ⟨rfl, .inr ⟨rfl, rfl⟩⟩

/-- **The event loop has something to do** as long as there is anything to write, and then there is less. -/
theorem writes_more (app : App σ) (h : c.Queue) (hlive : c.state ≠ .closed) (hwork : 0 < c.work) (s : σ) :
    ∃ tr c', (∀ x ∈ tr, Event.Writes x) ∧ Machine.exec (step app) tr (c, s) = some (c', s) ∧ c'.pushed = c.pushed ∧
      (c'.state = .closed ∨ c'.work < c.work) := by
  cases hwriting : c.writing with
  | some buf =>
      -- The write ends.
      let d : Connection := { c with writing := some [], transmitted := c.transmitted ++ buf }
      have hall : step app (c, s) (.transmit buf.length) = some (d, s) := by
        rw [step, hwriting]
        dsimp only
        rw [if_pos (Nat.le_refl _), List.drop_length, List.take_length]
      have hend : step app (d, s) (.written none) =
          some (({ d with writing := none } : Connection).handle_write_frame none, s) := rfl
      obtain ⟨hpushed, hstate⟩ := handle_write_frame_ok ({ d with writing := none } : Connection)
      refine ⟨[.transmit buf.length, .written none], ({ d with writing := none } : Connection).handle_write_frame none,
        ?_, ?_, hpushed, ?_⟩
      · intro x hx
        obtain rfl | hx := List.mem_cons.mp hx
        · exact trivial
        · exact List.mem_singleton.mp hx ▸ trivial
      · exact Machine.exec_cons_iff.mpr ⟨_, hall, Machine.exec_cons_iff.mpr ⟨_, hend, rfl⟩⟩
      · refine hstate.imp id fun hsame => ?_
        rw [work, work, hsame.1, hsame.2, hwriting]
        exact Nat.lt_succ_self _
  | none =>
      -- A write begins.
      have hqueue : c.sendQueue ≠ [] := fun hnil => by
        rw [work, hnil, hwriting] at hwork
        exact Nat.lt_irrefl 0 hwork
      have hwritten := h.written
      rw [Written, hwriting] at hwritten
      dsimp only at hwritten
      have hflag : ¬c.writeFlag = true := fun hflag => by
        rw [if_pos hflag] at hwritten
        exact hlive hwritten.1
      rw [if_neg hflag] at hwritten
      have hposted : 0 < c.posted := (h.wake hqueue).resolve_right hflag
      obtain ⟨hbatch, hne⟩ := batch_eq c.sendQueue
      have hless : (batch c.sendQueue).2.length < c.sendQueue.length := by
        have hlen := congrArg List.length hbatch
        rw [List.length_append] at hlen
        have hpos := List.length_pos_iff.mpr (mt hne hqueue)
        omega
      have hrun : step app (c, s) .run = some (({ c with posted := c.posted - 1 } : Connection).write_frame, s) := by
        rw [step, if_pos hposted]
      have hrest : (({ c with posted := c.posted - 1 } : Connection).write_frame).sendQueue = (batch c.sendQueue).2 ∧
          (({ c with posted := c.posted - 1 } : Connection).write_frame).pushed = c.pushed := by
        rw [write_frame]
        dsimp only
        rw [if_neg hflag]
        split <;> exact ⟨rfl, rfl⟩
      refine ⟨[.run], ({ c with posted := c.posted - 1 } : Connection).write_frame,
        fun x hx => List.mem_singleton.mp hx ▸ trivial, Machine.exec_cons_iff.mpr ⟨_, hrun, rfl⟩, hrest.2, .inr ?_⟩
      have hbefore : c.work = 2 * c.sendQueue.length := by
        rw [work, hwriting]
        rfl
      have hone : (if (({ c with posted := c.posted - 1 } : Connection).write_frame).writing.isSome then 1 else 0) ≤ 1 := by
        split <;> decide
      rw [hbefore, work, hrest.1]
      omega

/-- The event loop gets to the end of its work. -/
theorem writes_all (app : App σ) (hs : start.Sound) (s : σ) :
    ∀ work (c : Connection), c.work = work → c.Good start → ∃ tr c', (∀ x ∈ tr, Event.Writes x) ∧
      Machine.exec (step app) tr (c, s) = some (c', s) ∧ c'.pushed = c.pushed ∧
        (c'.state = .closed ∨ c'.work = 0) := by
  intro work
  induction work using Nat.strong_induction_on with
  | _ work ih =>
      intro c hwork h
      by_cases hdone : c.state = .closed ∨ c.work = 0
      · exact ⟨[], c, (fun _ h => by cases h), rfl, rfl, hdone⟩
      · obtain ⟨hlive, hpos⟩ := not_or.mp hdone
        obtain ⟨tr, d, htr, hrun, hpushed, hd⟩ := writes_more app h.queue hlive (Nat.pos_of_ne_zero hpos) s
        by_cases hclosed : d.state = .closed
        · exact ⟨tr, d, htr, hrun, hpushed, .inl hclosed⟩
        · have hless := hd.resolve_left hclosed
          rw [hwork] at hless
          obtain ⟨tr', c', htr', hrun', hpushed', hend⟩ := ih d.work hless d rfl (good_exec h hs hrun)
          refine ⟨tr ++ tr', c', fun x hx => ?_, ?_, hpushed'.trans hpushed, hend⟩
          · exact (List.mem_append.mp hx).elim (htr x) (htr' x)
          · rw [Machine.exec_append, hrun]
            exact hrun'

/-- **No message is stuck.** Wherever a run has led, the event loop alone can write all that is queued, if no write
    fails: then all frames that were queued have left, unless one of them closed the connection. -/
theorem can_drain {server little : Bool} {maxMessageSize : Nat} {rng : Nat → MaskingKey}
    (h : Machine.exec (step app) tr (init server little maxMessageSize rng, s) = some (c, t)) :
    ∃ tr' c', (∀ x ∈ tr', Event.Writes x) ∧ Machine.exec (step app) tr' (c, t) = some (c', t) ∧
      (c'.state = .closed ∨ c'.sendQueue = [] ∧ c'.transmitted = c.pushed.flatMap Message.octets) := by
  have hgood := good_from_init h
  have hs : (Hybi13.init server little maxMessageSize).Sound := Hybi13.sound_init ..
  obtain ⟨tr', c', htr', hrun, hpushed, hend⟩ := writes_all app hs t _ c rfl hgood
  refine ⟨tr', c', htr', hrun, ?_⟩
  by_cases hclosed : c'.state = .closed
  · exact .inl hclosed
  · have hdone := hend.resolve_left hclosed
    rw [work] at hdone
    have hqueue : c'.sendQueue = [] := List.length_eq_zero_iff.mp (by omega)
    have hwriting : c'.writing = none := by
      cases hw : c'.writing with
      | none => rfl
      | some rest =>
          rw [hw] at hdone
          exact absurd hdone (Nat.succ_ne_zero _)
    have hall := (good_exec hgood hs hrun).queue.transmitted.2 hclosed hwriting hqueue
    exact .inr ⟨hqueue, hpushed ▸ hall⟩

theorem can_drain_one : ∃ c t, Machine.exec (step Network.quiet) sendAndClose
    (init true true 100 (fun _ => ⟨0⟩), ()) = some (c, t) ∧
    ∃ tr' c', (∀ x ∈ tr', Event.Writes x) ∧ Machine.exec (step Network.quiet) tr' (c, t) = some (c', t) ∧
      (c'.state = .closed ∨ c'.sendQueue = [] ∧ c'.transmitted = c.pushed.flatMap Message.octets) := by
  obtain ⟨c, t, hrun, _⟩ := sendAndClose_runs
  exact ⟨c, t, hrun, can_drain hrun⟩

end Connection
end NewOrbit.Websocket
