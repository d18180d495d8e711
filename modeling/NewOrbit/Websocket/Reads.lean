import NewOrbit.Websocket.Queue

/-!
# `Websocket.Reads` — what is received

What a connection has read is a run of its processor, whatever its handlers do in between (`Reads`), and the messages
it has handed on are the first of those that were complete. So each thing that can happen to a connection keeps its
queue and its reads (`good_step`).
-/

namespace NewOrbit.Websocket
open CString Octets Turns

namespace Hybi13
variable {h : Hybi13}

/-! ## The processor stays that of its side

Reading changes the headers and the messages at hand. Whether the processor is that of a server, the order of octets
and the limit on messages stay as they were set. -/

theorem config_extendedRead (h : Hybi13) (p : Nat) : (h.extendedRead p).1.config = h.config := by
  rw [extendedRead]
  split
  · rfl
  · dsimp only
    split
    · rfl
    · split <;> split <;> rfl

theorem config_processPayloadBytes (h : Hybi13) (buf : Bytes) : (h.processPayloadBytes buf).1.config = h.config := by
  cases hm : h.current with
  | none => rw [processPayloadBytes, hm]
  | some m =>
      rw [processPayloadBytes_eq hm]
      split
      · exact config_setCurrent h _
      · exact config_setCurrent h _

theorem config_applicationRead (h : Hybi13) (p : Nat) : (h.applicationRead p).1.config = h.config := by
  cases hm : h.current with
  | none =>
      rw [applicationRead, finalizeMessage, hm]
      split <;> rfl
  | some m =>
      rw [applicationRead_eq hm]
      split
      · split <;> rfl
      · rfl

theorem config_copyBasicHeaderBytes (h : Hybi13) (buf : Bytes) : (h.copyBasicHeaderBytes buf).1.config = h.config := by
  rw [copyBasicHeaderBytes.eq_def]
  split
  · rfl
  · split
    · rfl
    · split <;> rfl
  · split
    · rfl
    · split <;> rfl

theorem config_turn (h : Hybi13) (buf : Bytes) : (h.turn buf).1.config = h.config := by
  rw [turn]
  split
  · dsimp only
    split
    · exact config_copyBasicHeaderBytes h buf
    · rw [basicRead]
      split <;> exact config_copyBasicHeaderBytes h buf
  · dsimp only
    split
    · rfl
    · exact config_extendedRead _ _
  · rfl
  · have hrest : ∀ r : Hybi13 × Nat × Option ProcessorError, r.1.config = h.config →
        (if r.2.2.isSome then r else if 0 < r.1.bytesNeeded then (r.1, r.2.1, none)
          else r.1.applicationRead r.2.1).1.config = h.config := by
      intro r hr
      split
      · exact hr
      split
      · exact hr
      · exact (config_applicationRead _ _).trans hr
    dsimp only
    split
    · exact hrest _ (config_processPayloadBytes h _)
    · exact hrest (h, 0, none) rfl
  · rfl

theorem config_consumeFuel {fuel : Nat} (h : Hybi13) (buf : Bytes) : (h.consumeFuel fuel buf).1.config = h.config := by
  induction fuel generalizing h buf with
  | zero => rfl
  | succ fuel ih =>
      rw [consumeFuel]
      split
      · have hconfig := config_turn h buf
        rcases hturn : h.turn buf with ⟨h', p, ec⟩
        rw [hturn] at hconfig
        cases ec with
        | none => exact (ih h' _).trans hconfig
        | some ec => exact hconfig
      · rfl

theorem config_getMessage (h : Hybi13) : h.getMessage.2.config = h.config := by
  rw [getMessage]
  split
  · rfl
  split
  · rfl
  · dsimp only
    split <;> exact config_setCurrent h none

end Hybi13

/-- The messages that are not control messages. -/
def dataMessages (ms : List Message) : List Message := ms.filter (!·.opcode.isControl)

namespace Connection

variable {σ : Type} {app : App σ} {s : σ} {talks : Bool} {c c' : Connection} {start : Hybi13} {buf : Bytes} {msg : Message}

/-! ## Acts read nothing

Between one message and the next any handler may queue frames or close the connection. None of that touches the
processor, what was taken or what was handed on. -/

/-- What does not change but by octets that are read or transmitted. -/
structure Untouched (c c' : Connection) : Prop where
  processor   : c'.processor = c.processor
  reading     : c'.reading = c.reading
  taken       : c'.taken = c.taken
  got         : c'.got = c.got
  handed      : c'.handed = c.handed
  failed      : c'.failed = c.failed
  transmitted : c'.transmitted = c.transmitted
  opened      : c'.state = .opened → c.state = .opened

theorem untouched_enqueue (msg : Message) : Untouched c (c.enqueue msg) := by
  rw [enqueue_eq]
  exact ⟨rfl, rfl, rfl, rfl, rfl, rfl, rfl, id⟩

theorem Act.untouched (h : Act talks c c') : Untouched c c' := by
  cases h with
  | note h =>
      refine ⟨?_, ?_, ?_, got_of_core h, ?_, ?_, ?_, fun hopen => state_of_core h ▸ hopen⟩
      · exact (show c'.core.processor = c.core.processor from congrArg _ h)
      · exact (show c'.core.reading = c.core.reading from congrArg _ h)
      · exact (show c'.core.taken = c.core.taken from congrArg _ h)
      · exact (show c'.core.handed = c.core.handed from congrArg _ h)
      · exact (show c'.core.failed = c.core.failed from congrArg _ h)
      · exact (show c'.core.transmitted = c.core.transmitted from congrArg _ h)
  | data _ hopen =>
      rw [enqueue_eq]
      exact ⟨rfl, rfl, rfl, rfl, rfl, rfl, rfl, id⟩
  | control hopen => exact untouched_enqueue _
  | close hopen =>
      rw [enqueue_eq]
      exact ⟨rfl, rfl, rfl, rfl, rfl, rfl, rfl, fun h => by cases h⟩
  | clean hstate => exact ⟨rfl, rfl, rfl, rfl, rfl, rfl, rfl, id⟩
  | terminate hopen => exact ⟨rfl, rfl, rfl, rfl, rfl, rfl, rfl, fun h => by cases h⟩

theorem untouched_acts (h : Acts talks c c') : Untouched c c' := by
  induction h with
  | refl => exact ⟨rfl, rfl, rfl, rfl, rfl, rfl, rfl, id⟩
  | tail _ hact ih =>
      have hlast := hact.untouched
      exact ⟨hlast.processor.trans ih.processor, hlast.reading.trans ih.reading, hlast.taken.trans ih.taken,
        hlast.got.trans ih.got, hlast.handed.trans ih.handed, hlast.failed.trans ih.failed,
        hlast.transmitted.trans ih.transmitted, fun h => ih.opened (hlast.opened h)⟩

/-! ## A read

The loop hands a message on while the connection is open and drops it otherwise, and a handler may run after each.
`Midway` is what holds between two turns: the rest of the read, taken by the processor as it stands now, completes the
run from the start. -/

/-- What has been handed on are the first of the messages that were complete, and all of them as long as the
    connection is open. -/
structure Handed (c : Connection) : Prop where
  first : c.handed <+: dataMessages c.got
  all   : c.state = .opened → c.handed = dataMessages c.got

theorem Handed.untouched (h : c.Handed) (hsame : Untouched c c') : c'.Handed := by
  refine ⟨?_, fun hopen => ?_⟩
  · rw [hsame.handed, hsame.got]
    exact h.first
  · rw [hsame.handed, hsame.got]
    exact h.all (hsame.opened hopen)

/-- What has been read is a run of the processor from its start. After an error nothing is read. -/
structure Reads (start : Hybi13) (c : Connection) : Prop where
  config : c.processor.config = start.config
  handed : c.Handed
  run    : match c.failed with
    | none   => Runs Hybi13.next start c.taken c.got (.ok c.processor)
    | some e => Runs Hybi13.next start c.taken c.got (.error e) ∧ c.reading = false ∧ c.state ≠ .opened

/-- What was read was read in turns, however it ended. -/
theorem Reads.runs (h : c.Reads start) : ∃ r, Runs Hybi13.next start c.taken c.got r := by
  have hrun := h.run
  cases hf : c.failed with
  | none =>
      rw [hf] at hrun
      exact ⟨_, hrun⟩
  | some e =>
      rw [hf] at hrun
      exact ⟨_, hrun.1⟩

theorem Reads.untouched (h : c.Reads start) (hsame : Untouched c c') : c'.Reads start := by
  refine ⟨by rw [hsame.processor]; exact h.config, h.handed.untouched hsame, ?_⟩
  have hrun := h.run
  rw [hsame.failed, hsame.taken, hsame.got, hsame.processor, hsame.reading]
  cases hf : c.failed with
  | none =>
      rw [hf] at hrun
      exact hrun
  | some e =>
      rw [hf] at hrun
      exact ⟨hrun.1, hrun.2.1, fun h => hrun.2.2 (hsame.opened h)⟩

/-- In the middle of a read, with `rest` still to come of `all`. -/
structure Midway (start : Hybi13) (all : Bytes) (c : Connection) (rest : Bytes) : Prop where
  queue  : c.Queue
  config : c.processor.config = start.config
  handed : c.Handed
  failed : c.failed = none
  taken  : c.taken = all
  idle   : c.reading = false
  run    : ∀ ms r, Runs Hybi13.next c.processor rest ms r → Runs Hybi13.next start all (c.got ++ ms) r

theorem Midway.acts {all rest : Bytes} (h : c.Midway start all rest) (hacts : Acts talks c c') :
    c'.Midway start all rest := by
  have hsame := untouched_acts hacts
  refine ⟨h.queue.acts hacts, ?_, h.handed.untouched hsame, hsame.failed.trans h.failed, hsame.taken.trans h.taken,
    hsame.reading.trans h.idle, ?_⟩
  · rw [hsame.processor]
    exact h.config
  · rw [hsame.processor, hsame.got]
    exact h.run

/-- Another processor of the same side changes nothing for the queue. -/
theorem Queue.processor (h : c.Queue) {processor : Hybi13} (hconfig : processor.config = c.processor.config) :
    ({ c with processor } : Connection).Queue := by
  have hserver : processor.server = c.processor.server := congrArg (·.1) hconfig
  have hlittle : processor.little = c.processor.little := congrArg (·.2.1) hconfig
  refine { h with framed := ?_ }
  show ∃ fs, Framed processor.server processor.little c.pushed c.sent fs
  rw [hserver, hlittle]
  exact h.framed

/-- A message that is complete. -/
theorem Queue.got (h : c.Queue) (msg : Message) : ({ c with got := c.got ++ [msg] } : Connection).Queue :=
  { h with
    clean := fun hclean =>
      let ⟨hpushed, m, hm, hop⟩ := h.clean hclean
      ⟨hpushed, m, List.mem_append_left _ hm, hop⟩ }

theorem dataMessages_append (xs ys : List Message) : dataMessages (xs ++ ys) = dataMessages xs ++ dataMessages ys :=
  List.filter_append ..

theorem dataMessages_data (h : msg.opcode.isControl = false) : dataMessages [msg] = [msg] :=
  List.filter_cons_of_pos (by simp [h])

theorem dataMessages_control (h : msg.opcode.isControl = true) : dataMessages [msg] = [] :=
  List.filter_cons_of_neg (by simp [h])

/-- **A message is handed on**, or it is dropped, and a handler runs. -/
theorem Midway.dispatch (app : App σ) (s : σ) {all rest : Bytes} (h : c.Queue)
    (hconfig : c.processor.config = start.config) (hh : c.Handed) (hfailed : c.failed = none) (htaken : c.taken = all)
    (hidle : c.reading = false)
    (hrun : ∀ ms r, Runs Hybi13.next c.processor rest ms r → Runs Hybi13.next start all (c.got ++ msg :: ms) r) :
    (c.dispatch app s msg).1.Midway start all rest ∧ (c.dispatch app s msg).1.processor = c.processor ∧
      (c.dispatch app s msg).1.transmitted = c.transmitted := by
  have hrun' : ∀ ms r, Runs Hybi13.next c.processor rest ms r → Runs Hybi13.next start all ((c.got ++ [msg]) ++ ms) r := by
    intro ms r hms
    rw [List.append_assoc]
    exact hrun ms r hms
  rw [Connection.dispatch]
  cases hctl : msg.opcode.isControl with
  | true =>
      have hhanded : ({ c with got := c.got ++ [msg] } : Connection).Handed := by
        have hsame : dataMessages (c.got ++ [msg]) = dataMessages c.got := by
          rw [dataMessages_append, dataMessages_control hctl, List.append_nil]
        exact ⟨hsame ▸ hh.first, hsame ▸ hh.all⟩
      rw [Bool.not_true, if_neg Bool.false_ne_true]
      have hacts : Acts true { c with got := c.got ++ [msg] }
          (({ c with got := c.got ++ [msg] } : Connection).process_control_frame app s msg).1 :=
        process_control_frame_acts (List.mem_append_right _ (List.mem_singleton_self msg)) (run_acts _) (run_acts _)
      exact ⟨Midway.acts ⟨h.got msg, hconfig, hhanded, hfailed, htaken, hidle, hrun'⟩ hacts,
        (untouched_acts hacts).processor, (untouched_acts hacts).transmitted⟩
  | false =>
      have hmore : dataMessages (c.got ++ [msg]) = dataMessages c.got ++ [msg] := by
        rw [dataMessages_append, dataMessages_data hctl]
      rw [Bool.not_false, if_pos rfl]
      split
      · rename_i hopen
        refine ⟨⟨h.got msg, hconfig, ⟨?_, fun h => absurd h hopen⟩, hfailed, htaken, hidle, hrun'⟩, rfl, rfl⟩
        show c.handed <+: dataMessages (c.got ++ [msg])
        rw [hmore]
        exact hh.first.trans (List.prefix_append _ _)
      · rename_i hopen
        have hall := hh.all (not_not.mp hopen)
        have hhanded : ({ c with got := c.got ++ [msg], handed := c.handed ++ [msg] } : Connection).Handed := by
          have hsame : c.handed ++ [msg] = dataMessages (c.got ++ [msg]) := by rw [hmore, hall]
          exact ⟨hsame ▸ List.prefix_refl _, fun _ => hsame⟩
        have hq : ({ c with got := c.got ++ [msg], handed := c.handed ++ [msg] } : Connection).Queue := { h.got msg with }
        have hacts := run_acts (c := { c with got := c.got ++ [msg], handed := c.handed ++ [msg] }) (app.onMessage s msg)
        exact ⟨Midway.acts ⟨hq, hconfig, hhanded, hfailed, htaken, hidle, hrun'⟩ hacts,
          (untouched_acts hacts).processor, (untouched_acts hacts).transmitted⟩

/-- What a connection keeps. -/
structure Good (start : Hybi13) (c : Connection) : Prop where
  queue : c.Queue
  reads : c.Reads start

theorem Good.acts (h : c.Good start) (hacts : Acts talks c c') : c'.Good start :=
  ⟨h.queue.acts hacts, h.reads.untouched (untouched_acts hacts)⟩

theorem terminate_state (c : Connection) (ec : Option Ec) : (c.terminate ec).state = .closed :=
  state_of_core (terminate_eq c ec)

/-- A connection that is closed without an error waits for the other side. -/
theorem close_state {code : UInt16} {reason : Bytes} (h : (c.close code reason).2 = none) :
    (c.close code reason).1.state = .closing := by
  rw [Connection.close] at h ⊢
  split at h
  · cases h
  · rename_i hopen
    rw [if_neg hopen]
    rw [send_close_frame] at h ⊢
    dsimp only at h ⊢
    generalize c.closeInfo code (reason.take (min reason.length closeReasonSize)) false = info at h ⊢
    rcases hprep : Hybi13.prepareClose c.processor c.key info.1 info.2 (.new .text) with e | msg
    · rw [hprep] at h
      cases h
    · dsimp only
      rw [enqueue_eq, draw]
      split <;> rfl

/-- An error of the processor ends that the connection is open. -/
theorem refuse_state (c : Connection) (e : ProcessorError) : (c.refuse e).state ≠ .opened := by
  rw [refuse]
  rcases hclose : ({ c with failed := some e } : Connection).close e.to_ws (bytes e.message) with ⟨d, ec⟩
  cases ec with
  | none =>
      have hstate := close_state (c := { c with failed := some e }) (congrArg Prod.snd hclose)
      rw [hclose] at hstate
      show d.state ≠ .opened
      rw [hstate]
      decide
  | some ec =>
      show (d.terminate (some ec)).state ≠ .opened
      rw [terminate_state]
      decide

/-- Nothing is left to read. -/
theorem Midway.finished {all : Bytes} (h : c.Midway start all []) (hwait : c.processor.next [] = .wait) :
    ({ c with reading := true } : Connection).Good start := by
  have hrun := h.run [] _ (.wait hwait)
  rw [List.append_nil, ← h.taken] at hrun
  refine ⟨{ h.queue with }, h.config, ⟨h.handed.first, h.handed.all⟩, ?_⟩
  dsimp only
  rw [h.failed]
  exact hrun

/-- What is left to read is refused, and the rest of it with it. -/
theorem Midway.refused {all : Bytes} (h : c.Midway start all buf) {processor : Hybi13} {e : ProcessorError}
    (hconfig : processor.config = c.processor.config) (hfail : Runs Hybi13.next c.processor buf [] (.error e)) :
    (({ c with processor } : Connection).refuse e).Good start ∧
      (({ c with processor } : Connection).refuse e).taken = all ∧
      (({ c with processor } : Connection).refuse e).transmitted = c.transmitted := by
  have hrun := h.run [] _ hfail
  rw [List.append_nil, ← h.taken] at hrun
  have hacts : Acts true ({ c with processor, failed := some e } : Connection)
    (({ c with processor } : Connection).refuse e) := refuse_acts (c := { c with processor }) e
  have hsame := untouched_acts hacts
  have hq : ({ c with processor, failed := some e } : Connection).Queue := { h.queue.processor hconfig with }
  have hhanded : ({ c with processor, failed := some e } : Connection).Handed := ⟨h.handed.first, h.handed.all⟩
  refine ⟨⟨hq.acts hacts, ⟨?_, hhanded.untouched hsame, ?_⟩⟩, hsame.taken.trans h.taken, hsame.transmitted⟩
  · rw [hsame.processor]
    exact hconfig.trans h.config
  · rw [hsame.failed, hsame.taken, hsame.got, hsame.reading]
    exact ⟨hrun, h.idle, refuse_state _ e⟩

/-- **The loop of a read.** -/
theorem Midway.read_loop {all : Bytes} {fuel : Nat} (h : c.Midway start all buf) (hs : c.processor.Sound)
    (hwait : c.processor.next [] = .wait) (hfuel : c.processor.weight buf.length < fuel) :
    (read_loop app fuel c s buf).1.Good start ∧ (read_loop app fuel c s buf).1.taken = all ∧
      (read_loop app fuel c s buf).1.transmitted = c.transmitted := by
  induction fuel generalizing c s buf with
  | zero => omega
  | succ fuel ih =>
      rw [Connection.read_loop]
      by_cases hpos : 0 < buf.length
      · rw [if_pos hpos]
        have hready : c.processor.state ≠ .READY := by
          intro hready
          obtain ⟨_, _, hnext⟩ := Hybi13.next_ready hs hready
          rw [hnext] at hwait
          cases hwait
        have hconfig : (c.processor.consume buf).1.config = c.processor.config := Hybi13.config_consumeFuel _ _
        rcases hcons : c.processor.consume buf with ⟨processor, n, ec⟩
        rw [hcons] at hconfig
        obtain ⟨hfail, hgo⟩ := Hybi13.runs_consume hs hcons
        cases ec with
        | some e => exact h.refused hconfig (hfail e rfl)
        | none =>
            obtain ⟨hs', _, hstop, hrest⟩ := hgo rfl
            have hless := (Hybi13.weight_consumeFuel hs hcons).2 (Nat.succ_ne_zero _) hready hpos
            dsimp only at hs' hstop hrest ⊢
            by_cases hr : processor.state = .READY
            · obtain ⟨m, hm, hget, hsound, ⟨g, hg⟩, hweight⟩ := Hybi13.getMessage_eq hs' hr
              obtain ⟨_, hm', hnext⟩ := Hybi13.next_ready hs' hr
              rw [hm] at hm'
              cases hm'
              have hless' := hweight (buf.drop n).length
              have hconfig' := (Hybi13.config_getMessage processor).trans hconfig
              rw [if_pos (Hybi13.ready_iff.mpr hr), hget]
              have hhanded : ({ c with processor := processor.getMessage.2 } : Connection).Handed :=
                ⟨h.handed.first, h.handed.all⟩
              have hrun : ∀ ms r, Runs Hybi13.next processor.getMessage.2 (buf.drop n) ms r →
                  Runs Hybi13.next start all (c.got ++ m.msg :: ms) r := fun ms r hms =>
                h.run _ _ (hrest _ _ (.emit (hnext _) hms))
              obtain ⟨hmid, hprocessor, htransmitted⟩ := Midway.dispatch app s (h.queue.processor hconfig')
                (hconfig'.trans h.config) hhanded h.failed h.taken h.idle hrun
              refine (ih hmid ?_ ?_ ?_).imp id fun h => ⟨h.1, h.2.trans htransmitted⟩
              · rw [hprocessor]
                exact hsound
              · rw [hprocessor]
                show processor.getMessage.2.next [] = _
                rw [hg]
                exact Hybi13.next_resetHeaders g
              · rw [hprocessor]
                show processor.getMessage.2.weight _ < _
                omega
            · obtain hr' | ⟨_, hwait'⟩ := hstop
              · exact absurd hr' hr
              · rw [if_neg (mt Hybi13.ready_iff.mp hr)]
                exact ih ⟨h.queue.processor hconfig, hconfig.trans h.config, ⟨h.handed.first, h.handed.all⟩, h.failed,
                  h.taken, h.idle, fun ms r hms => h.run ms r (hrest ms r hms)⟩ hs' hwait' (by dsimp only; omega)
      · rw [if_neg hpos]
        obtain rfl := List.length_eq_zero_iff.mp (Nat.eq_zero_of_not_pos hpos)
        exact ⟨h.finished hwait, h.taken, rfl⟩

theorem good_init (server little : Bool) (maxMessageSize : Nat) (rng : Nat → MaskingKey) :
    (init server little maxMessageSize rng).Good (.init server little maxMessageSize) :=
  ⟨queue_init .., rfl, ⟨List.prefix_refl _, fun _ => rfl⟩, .wait (Hybi13.next_resetHeaders _)⟩

/-! ## What can happen

A call, a turn of the event loop, a part of a write and a timer leave the reads alone; a read leaves the queue as its
acts do. -/

theorem untouched_write_frame (c : Connection) (posted : Nat) :
    Untouched c ({ c with posted } : Connection).write_frame := by
  rw [write_frame]
  dsimp only
  split
  · exact ⟨rfl, rfl, rfl, rfl, rfl, rfl, rfl, id⟩
  split
  · exact ⟨rfl, rfl, rfl, rfl, rfl, rfl, rfl, id⟩
  · exact ⟨rfl, rfl, rfl, rfl, rfl, rfl, rfl, id⟩

theorem untouched_handle_write_frame (c : Connection) (ec : Option Ec) :
    Untouched c (({ c with writing := none } : Connection).handle_write_frame ec) := by
  have hterminate : ∀ ec, Untouched c (({ c with writing := none, currentMsgs := [] } : Connection).terminate ec) := by
    intro ec
    have hsame := untouched_acts (@terminate_acts false { c with writing := none, currentMsgs := [] } ec)
    exact ⟨hsame.processor, hsame.reading, hsame.taken, hsame.got, hsame.handed, hsame.failed, hsame.transmitted,
      hsame.opened⟩
  cases ec with
  | some e => exact hterminate (some e)
  | none =>
      rw [handle_write_frame]
      dsimp only
      split
      · exact hterminate none
      split
      · exact ⟨rfl, rfl, rfl, rfl, rfl, rfl, rfl, id⟩
      · exact ⟨rfl, rfl, rfl, rfl, rfl, rfl, rfl, id⟩

/-- **A read** goes on where the one before it stopped. -/
theorem good_read (app : App σ) (h : c.Good start) (hs : start.Sound) (hreading : c.reading = true) (s : σ) (buf : Bytes) :
    (({ c with reading := false } : Connection).handle_read_frame app s buf).1.Good start ∧
      (({ c with reading := false } : Connection).handle_read_frame app s buf).1.taken = c.taken ++ buf ∧
      (({ c with reading := false } : Connection).handle_read_frame app s buf).1.transmitted = c.transmitted := by
  have hrun := h.reads.run
  have hfailed : c.failed = none := by
    cases hf : c.failed with
    | none => rfl
    | some e =>
        rw [hf] at hrun
        rw [hrun.2.1] at hreading
        cases hreading
  rw [hfailed] at hrun
  have hmid : ({ c with reading := false, taken := c.taken ++ buf } : Connection).Midway start (c.taken ++ buf) buf :=
    ⟨{ h.queue with }, h.reads.config, ⟨h.reads.handed.first, h.reads.handed.all⟩, hfailed, rfl, rfl,
      fun ms r hms => Hybi13.cuttable.append hs hrun rfl hms⟩
  exact hmid.read_loop (Hybi13.cuttable.good_run hs hrun rfl) (hrun.waits rfl) (Hybi13.weight_lt _ _)

/-- **Each thing that can happen** keeps what a connection keeps. -/
theorem good_step {t : σ} {x : Event} (h : c.Good start) (hs : start.Sound)
    (hstep : step app (c, s) x = some (c', t)) : c'.Good start := by
  cases x with
  | call x =>
      cases hstep
      exact h.acts (call_acts x)
  | run =>
      rw [step] at hstep
      split at hstep
      · cases hstep
        exact ⟨h.queue.write_frame _, h.reads.untouched (untouched_write_frame c _)⟩
      · cases hstep
  | transmit n =>
      rw [step] at hstep
      split at hstep
      · rename_i buf hwriting
        split at hstep
        · cases hstep
          exact ⟨h.queue.transmit hwriting n, h.reads.config, ⟨h.reads.handed.first, h.reads.handed.all⟩, h.reads.run⟩
        · cases hstep
      · cases hstep
  | written ec =>
      rw [step] at hstep
      split at hstep
      · rename_i buf hwriting
        split at hstep
        · cases hstep
        · rename_i hall
          cases hstep
          exact ⟨h.queue.handle_write_frame hwriting ec fun hec => not_not.mp fun hne => hall ⟨hec, hne⟩,
            h.reads.untouched (untouched_handle_write_frame c ec)⟩
      · cases hstep
  | read buf =>
      rw [step] at hstep
      split at hstep
      · rename_i hread
        have hgood := (good_read app h hs hread.1 s buf).1
        rw [Option.some.inj hstep] at hgood
        exact hgood
      · cases hstep
  | readFailed ec =>
      rw [step] at hstep
      split at hstep
      · cases hstep
        have hnone : ({ c with reading := false } : Connection).Good start := by
          refine ⟨{ h.queue with }, h.reads.config, ⟨h.reads.handed.first, h.reads.handed.all⟩, ?_⟩
          have hrun := h.reads.run
          cases hf : c.failed with
          | none =>
              rw [hf] at hrun
              exact hrun
          | some e =>
              rw [hf] at hrun
              exact ⟨hrun.1, rfl, hrun.2.2⟩
        exact hnone.acts (@handle_read_error_acts false _ ec)
      · cases hstep
  | timeout =>
      rw [step] at hstep
      split at hstep
      · cases hstep
        have hnote : Acts true c { c with handshakeTimer := false } := acts_note rfl
        exact h.acts (hnote.trans (terminate_acts _))
      · cases hstep

end Connection
end NewOrbit.Websocket
