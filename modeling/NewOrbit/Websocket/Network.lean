import Mathlib.Logic.Function.Basic
import NewOrbit.Lib.Machine
import NewOrbit.Websocket.Reads

/-!
# `Websocket.Network` — two connections

A client and a server, with the octets on their way to either side. Anything that can happen to one of them happens
at any time: its application calls, writes go out piece by piece and fail, what came is read piece by piece, timers
expire. Whatever happens, what one side hands on are the first of the messages that the other side sent
(`messages_in_order`), and all of them once nothing is under way (`messages_complete`). As long as one side sends
only texts and binary messages, of a size the other takes, the frame processor of the other has no error
(`never_failed`). And a side that has read a close frame has read all that the other ever sends
(`close_is_complete`).
-/

namespace NewOrbit.Websocket
open CString Octets Turns

inductive Side
  | client | server
  deriving DecidableEq, Repr

def Side.other : Side → Side
  | client => server
  | server => client

theorem Side.other_ne (i : Side) : i.other ≠ i := by cases i <;> decide

def Side.isServer : Side → Bool
  | client => false
  | server => true

theorem Side.isServer_other (i : Side) : i.other.isServer = !i.isServer := by cases i <;> rfl

/-- The octets that come with an event. -/
def Connection.Event.arrives : Connection.Event → Bytes
  | .read buf => buf
  | _         => []

/-- The octets that leave with an event. -/
def Connection.Event.leaves (c : Connection) : Connection.Event → Bytes
  | .transmit n => (c.writing.getD []).take n
  | _           => []

variable {σ : Side → Type}

/-- `wire i` are the octets on their way to `i`. -/
structure Network (σ : Side → Type) where
  con  : Side → Connection
  app  : (i : Side) → σ i
  wire : Side → Bytes

/-- What the two sides are set up with. -/
structure Setup (σ : Side → Type) where
  little         : Side → Bool
  maxMessageSize : Side → Nat
  rng            : Side → Nat → MaskingKey
  handlers       : (i : Side) → App (σ i)
  app            : (i : Side) → σ i

namespace Setup

/-- The processor of a side, as it is made. -/
def start (u : Setup σ) (i : Side) : Hybi13 := .init i.isServer (u.little i) (u.maxMessageSize i)

def init (u : Setup σ) : Network σ where
  con i := .init i.isServer (u.little i) (u.maxMessageSize i) (u.rng i)
  app   := u.app
  wire _ := []

/-- Something happens to one side; what it reads is what came first of the octets on their way. -/
def step (u : Setup σ) (n : Network σ) : Side × Connection.Event → Option (Network σ)
  | (i, x) =>
    if x.arrives.isPrefixOf (n.wire i) then
      (Connection.step (u.handlers i) (n.con i, n.app i) x).map fun (c, s) =>
        { con  := Function.update n.con i c
          app  := Function.update n.app i s
          wire := fun j => if j = i then (n.wire i).drop x.arrives.length else n.wire j ++ x.leaves (n.con i) }
    else none

end Setup

/-! ## Frames that are whole messages

A connection sends each message as one frame. The other side, which masks or not as it should, takes such a frame as a
message of its own, unless it is too big. The two need not have the same order of octets (`octets_recode`). -/

section Whole
variable {f : Frame} {fs : List Frame} {server : Bool} {max : Nat}

/-- The frame on a machine with the other order of octets. -/
def Frame.recode (little little' : Bool) (f : Frame) : Frame :=
  { f with key := f.key.map fun key => ⟨UInt32.ofNat (load little' (key.c little))⟩ }

theorem octets_recode (little little' : Bool) (f : Frame) : (f.recode little little').octets little' = f.octets little := by
  have hkey : ∀ key : MaskingKey, (MaskingKey.mk (UInt32.ofNat (load little' (key.c little)))).c little' = key.c little := by
    intro key
    have hlen : (key.c little).length = 4 := length_store ..
    have hlt : load little' (key.c little) < 2 ^ 32 := by
      have hload : load little' (key.c little) < 256 ^ (key.c little).length := load_lt _
      rw [hlen] at hload
      exact hload
    rw [MaskingKey.c, UInt32.toNat_ofNat_of_lt' hlt]
    have hstore : store little' (key.c little).length (load little' (key.c little)) = key.c little := store_load _
    rw [hlen] at hstore
    exact hstore
  have hbasic : (f.recode little little').basic = f.basic := by
    rw [Frame.basic, Frame.basic, Frame.recode]
    cases f.key <;> rfl
  rw [Frame.octets, Frame.octets, hbasic, Frame.extended, Frame.extended, Frame.masked, Frame.masked, Frame.recode]
  cases f.key with
  | none => rfl
  | some key =>
      dsimp only [Option.map_some]
      rw [byteMask, byteMask, hkey]

/-- A frame that is a whole message completes it. -/
theorem accept_whole {unfinished : Unfinished} {done : Option Message} (hfin : f.fin = true)
    (haccept : accept server max none f = .ok (unfinished, done)) : unfinished = none ∧ done = some f.message := by
  rw [accept] at haccept
  split at haccept
  · cases haccept
  split at haccept
  · cases haccept
    exact ⟨rfl, rfl⟩
  · dsimp only [Option.getD_none] at haccept
    split at haccept
    · cases haccept
    · obtain ⟨hopen, _⟩ | hdone := Frame.extend_ok haccept
      · rw [hfin] at hopen
        cases hopen
      · exact hdone

/-- **Of frames that are whole messages** the first are handed on, and all unless one is refused. -/
theorem acceptAll_whole (hfin : ∀ f ∈ fs, f.fin = true) :
    (acceptAll server max none fs).1 <+: fs.map Frame.message ∧
      ∀ unfinished, (acceptAll server max none fs).2 = .ok unfinished →
        unfinished = none ∧ (acceptAll server max none fs).1 = fs.map Frame.message := by
  induction fs with
  | nil => exact ⟨List.prefix_refl _, fun _ h => ⟨(Except.ok.inj h).symm, rfl⟩⟩
  | cons f fs ih =>
      rw [acceptAll]
      rcases haccept : accept server max none f with ec | ⟨unfinished, done⟩
      · exact ⟨List.nil_prefix, fun _ h => by cases h⟩
      · obtain ⟨rfl, rfl⟩ := accept_whole (hfin f (List.mem_cons_self ..)) haccept
        obtain ⟨hfirst, hall⟩ := ih fun g hg => hfin g (List.mem_cons_of_mem _ hg)
        dsimp only
        rw [Option.toList_some, List.singleton_append, List.map_cons]
        refine ⟨(List.prefix_cons_inj _).mpr hfirst, fun unfinished hok => ?_⟩
        obtain ⟨hnone, heq⟩ := hall unfinished hok
        exact ⟨hnone, by rw [heq]⟩

/-- A frame that the other side sends is plain, whatever its opcode. -/
theorem plain_sent (hf : f.Sent (!server)) (hdata : f.opcode.isControl = false → f.opcode = .text ∨ f.opcode = .binary) :
    f.Plain server := by
  refine ⟨hf.rsv, ?_, by rw [hf.masked, Bool.not_not], fun hctl => ⟨hf.fin, (hf.control hctl).1⟩⟩
  cases hctl : f.opcode.isControl with
  | true => obtain h | h | h := (hf.control hctl).2 <;> rw [h] <;> rfl
  | false => obtain h | h := hdata hctl <;> rw [h] <;> rfl

/-- **A text or a binary message is accepted**, unless it is too big, and so is a control message. -/
theorem accept_sent (hf : f.Sent (!server))
    (hdata : f.opcode.isControl = false → (f.opcode = .text ∨ f.opcode = .binary) ∧ f.payload.length ≤ max) :
    accept server max none f = .ok (none, some f.message) := by
  have hplain := plain_sent hf fun hctl => (hdata hctl).1
  cases hctl : f.opcode.isControl with
  | true => exact accept_control hplain hctl
  | false =>
      obtain ⟨hop, hsize⟩ := hdata hctl
      have hfits : (([] : Bytes).length + f.payload.length) % 2 ^ 64 = f.payload.length := by
        rw [List.length_nil, Nat.zero_add]
        exact Nat.mod_eq_of_lt f.fits
      have htext : f.opcode = .text → Utf8.read Utf8.start f.payload = some Utf8.start := fun htext =>
        (Utf8.wellFormed_iff _).mp (hf.text htext)
      have hgood : ¬(f.opcode = .text ∧ Utf8.read Utf8.start f.payload = none) := fun h => by
        rw [htext h.1] at h
        cases h.2
      have hend : ¬(f.opcode = .text ∧ Utf8.read Utf8.start f.payload ≠ some Utf8.start) := fun h => h.2 (htext h.1)
      have hcontinuation : f.opcode ≠ .continuation := fun h => by
        rw [h] at hop
        cases hop <;> contradiction
      rw [accept, hplain.refused_eq, if_neg (by simp [hcontinuation])]
      dsimp only [Option.getD_none]
      rw [hctl, if_neg Bool.false_ne_true, if_neg (by rw [hfits]; omega), Frame.extend, hf.fin]
      dsimp only [List.nil_append]
      rw [if_neg hgood, if_neg (by simp), if_neg hend]
      rfl

/-- Where every frame is accepted there is no error. -/
theorem acceptAll_sent (hf : ∀ f ∈ fs, f.Sent (!server))
    (hdata : ∀ f ∈ fs, f.opcode.isControl = false → (f.opcode = .text ∨ f.opcode = .binary) ∧ f.payload.length ≤ max) :
    (acceptAll server max none fs).2 = .ok none := by
  induction fs with
  | nil => rfl
  | cons f fs ih =>
      rw [acceptAll, accept_sent (hf f (List.mem_cons_self ..)) (hdata f (List.mem_cons_self ..))]
      exact ih (fun g hg => hf g (List.mem_cons_of_mem _ hg)) fun g hg => hdata g (List.mem_cons_of_mem _ hg)

end Whole

namespace Connection

variable {τ : Type} {app : App τ} {c c' : Connection} {s t : τ} {x : Event} {start : Hybi13}

/-- What is read and what is transmitted in a step. -/
theorem step_octets (h : c.Good start) (hs : start.Sound) (hstep : step app (c, s) x = some (c', t)) :
    c'.taken = c.taken ++ x.arrives ∧ c'.transmitted = c.transmitted ++ x.leaves c := by
  have hquiet : ∀ d : Connection, Untouched c d → d.taken = c.taken ++ [] ∧ d.transmitted = c.transmitted ++ [] := by
    intro d hd
    rw [List.append_nil, List.append_nil]
    exact ⟨hd.taken, hd.transmitted⟩
  cases x with
  | call x =>
      cases hstep
      exact hquiet _ (untouched_acts (call_acts x))
  | run =>
      rw [step] at hstep
      split at hstep
      · cases hstep
        exact hquiet _ (untouched_write_frame c _)
      · cases hstep
  | transmit n =>
      rw [step] at hstep
      split at hstep
      · rename_i buf hwriting
        split at hstep
        · cases hstep
          refine ⟨(List.append_nil _).symm, ?_⟩
          rw [Event.leaves, hwriting]
          rfl
        · cases hstep
      · cases hstep
  | written ec =>
      rw [step] at hstep
      split at hstep
      · split at hstep
        · cases hstep
        · cases hstep
          exact hquiet _ (untouched_handle_write_frame c ec)
      · cases hstep
  | read buf =>
      rw [step] at hstep
      split at hstep
      · rename_i hread
        obtain ⟨_, htaken, htransmitted⟩ := good_read app h hs hread.1 s buf
        rw [Option.some.inj hstep] at htaken htransmitted
        exact ⟨htaken, htransmitted.trans (List.append_nil _).symm⟩
      · cases hstep
  | readFailed ec =>
      rw [step] at hstep
      split at hstep
      · cases hstep
        have hsame := untouched_acts (@handle_read_error_acts false { c with reading := false } ec)
        exact ⟨hsame.taken.trans (List.append_nil _).symm, hsame.transmitted.trans (List.append_nil _).symm⟩
      · cases hstep
  | timeout =>
      rw [step] at hstep
      split at hstep
      · cases hstep
        have hnote : Acts true c { c with handshakeTimer := false } := acts_note rfl
        exact hquiet _ (untouched_acts (hnote.trans (terminate_acts _)))
      · cases hstep

end Connection

/-! ## Two connections

What one side has transmitted is what the other has read and what is on its way. So the frames that one side reads are
the first of those the other has queued, and what is shown of one connection's reads and of the other's queue meets
here. -/

namespace Network

variable {u : Setup σ} {n n' : Network σ} {i : Side}

/-- What two connections keep: what the one has transmitted the other has read, or it is on its way. -/
structure Good (u : Setup σ) (n : Network σ) : Prop where
  con  : ∀ i, (n.con i).Good (u.start i)
  wire : ∀ i, (n.con i.other).transmitted = (n.con i).taken ++ n.wire i

theorem sound_start (u : Setup σ) (i : Side) : (u.start i).Sound := Hybi13.sound_init ..

theorem good_init (u : Setup σ) : u.init.Good u := ⟨fun _ => Connection.good_init .., fun _ => rfl⟩

/-- **Each thing that can happen to one side** keeps what the two keep. -/
theorem good_step {l : Side × Connection.Event} (h : n.Good u) (hstep : u.step n l = some n') : n'.Good u := by
  obtain ⟨i, x⟩ := l
  rw [Setup.step] at hstep
  split at hstep
  · rename_i harrives
    obtain ⟨⟨c, s⟩, hcon, rfl⟩ := Option.map_eq_some_iff.mp hstep
    obtain ⟨rest, hrest⟩ := List.isPrefixOf_iff_prefix.mp harrives
    obtain ⟨htaken, htransmitted⟩ := Connection.step_octets (h.con i) (sound_start u i) hcon
    refine ⟨fun j => ?_, fun j => ?_⟩
    · by_cases hj : j = i
      · subst hj
        dsimp only
        rw [Function.update_self]
        exact Connection.good_step (h.con j) (sound_start u j) hcon
      · dsimp only
        rw [Function.update_of_ne hj]
        exact h.con j
    · dsimp only
      by_cases hj : j = i
      · subst hj
        rw [Function.update_of_ne (Side.other_ne j), Function.update_self, if_pos rfl, htaken, h.wire j, ← hrest,
          List.drop_left, List.append_assoc]
      · have hother : j.other = i := by cases i <;> cases j <;> first | rfl | exact absurd rfl hj
        rw [hother, Function.update_self, Function.update_of_ne hj, if_neg hj, htransmitted, ← hother, h.wire j,
          List.append_assoc]
  · cases hstep

theorem good_run {tr : List (Side × Connection.Event)} (h : Machine.exec u.step tr u.init = some n) : n.Good u :=
  Machine.exec_invariant (fun _ _ _ ht hstep => good_step ht hstep) (good_init u) h

/-- What of a message was given to `send`. -/
def given (m : Message) : Opcode × Bytes := (m.opcode, m.payload)

/-- The frames that one side has queued, as the other side reads them. -/
theorem frames_sent (h : n.Good u) (i : Side) :
    ∃ fs : List Frame, (dataFrames fs).map Frame.given = (n.con i.other).sent ∧ (∀ f ∈ fs, f.Sent (!i.isServer)) ∧
      (n.con i.other).pushed.flatMap Message.octets = fs.flatMap (·.octets (u.little i)) ∧
      fs.map Frame.opcode = (n.con i.other).pushed.map Message.opcode := by
  obtain ⟨fs, hfs⟩ := (h.con i.other).queue.framed
  have hconfig := (h.con i.other).reads.config
  have hserver : (n.con i.other).processor.server = !i.isServer := (congrArg (·.1) hconfig).trans i.isServer_other
  have hlittle : (n.con i.other).processor.little = u.little i.other := congrArg (·.2.1) hconfig
  rw [hserver, hlittle] at hfs
  refine ⟨fs.map (Frame.recode (u.little i.other) (u.little i)), ?_, ?_, ?_, ?_⟩
  · rw [← hfs.sent, dataFrames, List.filter_map, List.map_map]
    rfl
  · intro f hf
    obtain ⟨g, hg, rfl⟩ := List.mem_map.mp hf
    have hsent := hfs.each g hg
    refine ⟨hsent.fin, hsent.rsv, ?_, hsent.control, hsent.text⟩
    rw [Frame.recode, Option.isSome_map]
    exact hsent.masked
  · rw [List.flatMap_map]
    simp only [octets_recode]
    exact Connection.octets_framed hfs.pushed
  · rw [List.map_map, ← hfs.opcodes]
    rfl

/-- **What one side has read** is the front of a run over the frames that the other has queued, and all of it once
    everything was written and read. -/
theorem received (h : n.Good u) (i : Side) :
    ∃ fs : List Frame, (dataFrames fs).map Frame.given = (n.con i.other).sent ∧ (∀ f ∈ fs, f.Sent (!i.isServer)) ∧
      fs.map Frame.opcode = (n.con i.other).pushed.map Message.opcode ∧
      (n.con i).got <+: (acceptAll i.isServer (u.maxMessageSize i) none fs).1 ∧
      (∀ e, (n.con i).failed = some e → (acceptAll i.isServer (u.maxMessageSize i) none fs).2 = .error e) ∧
      ((n.con i).failed = none → (n.con i).taken = (n.con i.other).pushed.flatMap Message.octets →
        (n.con i).got = (acceptAll i.isServer (u.maxMessageSize i) none fs).1 ∧
          ∃ unfinished, (acceptAll i.isServer (u.maxMessageSize i) none fs).2 = .ok unfinished) := by
  obtain ⟨fs, hsent, heach, hoctets, hops⟩ := frames_sent h i
  obtain ⟨r, hall, hend⟩ := Hybi13.runs_frames_init i.isServer (u.little i) (u.maxMessageSize i) fs
  change Runs Hybi13.next (u.start i) _ _ r at hall
  obtain ⟨rest, hrest⟩ : (n.con i).taken <+: fs.flatMap (·.octets (u.little i)) := by
    refine (List.prefix_append (n.con i).taken (n.wire i)).trans ?_
    rw [← h.wire i, ← hoctets]
    exact (h.con i.other).queue.transmitted.1
  have hrun := (h.con i).reads.run
  have hs := sound_start u i
  rw [← hrest] at hall
  refine ⟨fs, hsent, heach, hops, ?_, fun e he => ?_, fun hnone htaken => ?_⟩
  · have htotal : ∀ t : Hybi13, t.Sound → ∃ ms r, Runs Hybi13.next t rest ms r := fun t ht => Hybi13.runs_total ht rest
    obtain ⟨_, hruns⟩ := (h.con i).reads.runs
    exact Hybi13.cuttable.prefix_of_append htotal hs hruns hall
  · rw [he] at hrun
    obtain ⟨_, rfl⟩ := (Hybi13.cuttable.append_error hs hrun.1 rfl rest).det hall
    exact (hend e).mp rfl
  · rw [hnone] at hrun
    have hempty : rest = [] := by
      rw [hoctets, ← hrest] at htaken
      exact List.self_eq_append_right.mp htaken
    rw [hempty, List.append_nil] at hall
    obtain ⟨hgot, rfl⟩ := hrun.det hall
    refine ⟨hgot, ?_⟩
    cases haccept : (acceptAll i.isServer (u.maxMessageSize i) none fs).2 with
    | error ec => cases (hend ec).mpr haccept
    | ok unfinished => exact ⟨unfinished, rfl⟩

/-- The data messages of frames that are whole messages were given to `send`. -/
theorem given_messages (fs : List Frame) :
    (dataMessages (fs.map Frame.message)).map given = (dataFrames fs).map Frame.given := by
  rw [dataMessages, List.filter_map, List.map_map, dataFrames]
  rfl

/-- What has been handed on are the first of the messages that the other side has taken. -/
theorem Good.handed_first (h : n.Good u) (i : Side) : (n.con i).handed.map given <+: (n.con i.other).sent := by
  obtain ⟨fs, hsent, heach, _, hgot, _⟩ := received h i
  have hwhole : (acceptAll i.isServer (u.maxMessageSize i) none fs).1 <+: fs.map Frame.message :=
    (acceptAll_whole fun f hf => (heach f hf).fin).1
  rw [← hsent, ← given_messages]
  refine List.IsPrefix.map given ?_
  exact (h.con i).reads.handed.first.trans (List.IsPrefix.filter _ (hgot.trans hwhole))

/-- Nothing is under way to a side that is open: the other side is not closed, and has written all it queued. -/
structure Settled (n : Network σ) (i : Side) : Prop where
  opened  : (n.con i).state = .opened
  other   : (n.con i.other).state ≠ .closed
  queue   : (n.con i.other).sendQueue = []
  writing : (n.con i.other).writing = none
  wire    : n.wire i = []

/-- What has been handed on is all that the other side has taken. -/
theorem Good.handed_all (h : n.Good u) (hsettled : n.Settled i) :
    (n.con i).handed.map given = (n.con i.other).sent := by
  obtain ⟨fs, hsent, heach, _, _, _, hall⟩ := received h i
  have hnone : (n.con i).failed = none := by
    have hrun := (h.con i).reads.run
    cases hf : (n.con i).failed with
    | none => rfl
    | some e =>
        rw [hf] at hrun
        exact absurd hsettled.opened hrun.2.2
  have htaken : (n.con i).taken = (n.con i.other).pushed.flatMap Message.octets := by
    have htransmitted := (h.con i.other).queue.transmitted.2 hsettled.other hsettled.writing hsettled.queue
    rw [← htransmitted, h.wire i, hsettled.wire, List.append_nil]
  obtain ⟨hgot, unfinished, hok⟩ := hall hnone htaken
  have hwhole := (acceptAll_whole (fun f hf => (heach f hf).fin)).2 unfinished hok
  rw [(h.con i).reads.handed.all hsettled.opened, hgot, hwhole.2, given_messages, hsent]

/-- **Messages come in order.** Whatever happens to a client and a server in whatever order, the messages that one of
    them has handed to its handler are the first of those that the other has taken to send: none is lost between
    two that came, none comes twice, and none is changed. -/
theorem messages_in_order {tr : List (Side × Connection.Event)} (h : Machine.exec u.step tr u.init = some n) (i : Side) :
    (n.con i).handed.map given <+: (n.con i.other).sent :=
  (good_run h).handed_first i

/-- **Messages are complete.** As long as both sides are open, the messages that one of them has handed on are all
    that the other has taken to send, once nothing is queued there and nothing is on its way. -/
theorem messages_complete {tr : List (Side × Connection.Event)} (h : Machine.exec u.step tr u.init = some n) {i : Side}
    (hopen : (n.con i).state = .opened) (hother : (n.con i.other).state ≠ .closed)
    (hqueue : (n.con i.other).sendQueue = []) (hwriting : (n.con i.other).writing = none) (hwire : n.wire i = []) :
    (n.con i).handed.map given = (n.con i.other).sent :=
  (good_run h).handed_all ⟨hopen, hother, hqueue, hwriting, hwire⟩

/-- **A close frame says that nothing is missing.** A side that has read a close frame has read all the messages that
    the other side has ever taken to send, and the other side sends no more. -/
theorem close_is_complete {tr : List (Side × Connection.Event)} (h : Machine.exec u.step tr u.init = some n) {i : Side}
    (hclose : ∃ m ∈ (n.con i).got, m.opcode = .close) :
    (dataMessages (n.con i).got).map given = (n.con i.other).sent ∧ (n.con i.other).state ≠ .opened := by
  have hgood := good_run h
  obtain ⟨fs, hsent, heach, hops, haccept, _⟩ := received hgood i
  obtain ⟨before, after, heq, hbefore, hafter, hopened⟩ := (hgood.con i.other).queue.order
  obtain ⟨first, last, rfl, hfirst, hlast⟩ := Connection.split_frames hops heq hbefore hafter
  have hgot : (n.con i).got <+: (first ++ last).map Frame.message :=
    haccept.trans (acceptAll_whole fun f hf => (heach f hf).fin).1
  obtain ⟨m, hm, hop⟩ := hclose
  -- The close frame is not among the first, so these have been read before it.
  have hread : first.map Frame.message <+: (n.con i).got := by
    rw [List.map_append] at hgot
    refine (List.prefix_or_prefix_of_prefix hgot (List.prefix_append _ _)).resolve_left fun hfew => ?_
    obtain ⟨f, hf, rfl⟩ := List.mem_map.mp (hfew.subset hm)
    exact hfirst f hf hop
  have hnone : dataFrames last = [] := by
    rw [dataFrames, List.filter_eq_nil_iff]
    intro f hf
    rw [hlast f hf]
    decide
  have hall : dataFrames (first ++ last) = dataFrames first := by
    rw [dataFrames, List.filter_append]
    exact (congrArg _ hnone).trans (List.append_nil _)
  refine ⟨?_, fun hopen => ?_⟩
  · have hmost := List.IsPrefix.map given (List.IsPrefix.filter (!·.opcode.isControl) hgot)
    have hleast := List.IsPrefix.map given (List.IsPrefix.filter (!·.opcode.isControl) hread)
    change (dataMessages (n.con i).got).map given <+: (dataMessages ((first ++ last).map Frame.message)).map given at hmost
    change (dataMessages (first.map Frame.message)).map given <+: (dataMessages (n.con i).got).map given at hleast
    rw [given_messages, hall] at hmost
    rw [given_messages] at hleast
    rw [← hsent, hall]
    exact hmost.eq_of_length_le hleast.length_le
  · -- An open side has queued no close frame.
    rw [hopened hopen, List.append_nil] at heq
    obtain ⟨f, hf, rfl⟩ := List.mem_map.mp (hgot.subset hm)
    have hmem : f.opcode ∈ (n.con i.other).pushed.map Message.opcode := hops ▸ List.mem_map_of_mem hf
    obtain ⟨m, hm', hop'⟩ := List.mem_map.mp hmem
    exact hbefore m (heq ▸ hm') (hop'.trans hop)

/-- **No frame processor ends with an error on what the other side sends**, if that is texts and binary messages of a
    size it takes. What the payload of a close frame says is not looked at here. -/
theorem never_failed {tr : List (Side × Connection.Event)} (h : Machine.exec u.step tr u.init = some n) {i : Side}
    (hsent : ∀ m ∈ (n.con i.other).sent, (m.1 = .text ∨ m.1 = .binary) ∧ m.2.length ≤ u.maxMessageSize i) :
    (n.con i).failed = none := by
  obtain ⟨fs, hgiven, heach, _, _, herror, _⟩ := received (good_run h) i
  have hok : (acceptAll i.isServer (u.maxMessageSize i) none fs).2 = .ok none := by
    refine acceptAll_sent heach fun f hf hctl => ?_
    refine hsent f.given ?_
    rw [← hgiven]
    exact List.mem_map_of_mem (List.mem_filter.mpr ⟨hf, by simp [hctl]⟩)
  cases hf : (n.con i).failed with
  | none => rfl
  | some e =>
      rw [herror e hf] at hok
      cases hok

/-! ## Two messages

The second message arrives in two pieces, and the first piece comes with the end of the message before. -/

/-- Handlers that call nothing. -/
def quiet : App Unit where
  onMessage s _ := .done s
  onPing s _    := .done (s, true)
  onPong s _    := .done s

/-- Two such sides. The key of the client is 0, which masks nothing. -/
def quietSetup : Setup fun _ => Unit where
  little _         := true
  maxMessageSize _ := 100
  rng _ _          := ⟨0⟩
  handlers _       := quiet
  app _            := ()

/-- The client sends two messages in one write; what has come so far ends inside the second. -/
def oneOfTwo : List (Side × Connection.Event) :=
  [(.client, .call (.send [65] .text (by decide))), (.client, .call (.send [1, 2] .binary (by decide))),
    (.client, .run), (.client, .transmit 15), (.client, .written none), (.server, .read [0x81, 0x81, 0]),
    (.server, .read [0, 0, 0, 65, 0x82])]

/-- And then the rest. -/
def twoMessages : List (Side × Connection.Event) :=
  oneOfTwo ++ [(.server, .read [0x82, 0, 0, 0, 0, 1]), (.server, .read [2])]

theorem oneOfTwo_ends : ∃ n, Machine.exec quietSetup.step oneOfTwo quietSetup.init = some n ∧
    (n.con .client).sent = [(.text, [65]), (.binary, [1, 2])] ∧ (n.con .server).handed.length = 1 := by
  have hany : (Machine.exec quietSetup.step oneOfTwo quietSetup.init).any (fun n => decide
      ((n.con .client).sent = [(.text, [65]), (.binary, [1, 2])] ∧ (n.con .server).handed.length = 1)) = true := by
    decide +kernel
  obtain ⟨n, hn, hdec⟩ := (Option.any_eq_true _ _).mp hany
  exact ⟨n, hn, of_decide_eq_true hdec⟩

theorem twoMessages_ends : ∃ n, Machine.exec quietSetup.step twoMessages quietSetup.init = some n ∧
    (n.con .client).sent = [(.text, [65]), (.binary, [1, 2])] ∧ (n.con .client).state = .opened ∧
    (n.con .server).state = .opened ∧ (n.con .client).sendQueue.length = 0 ∧ (n.con .client).writing = none ∧
    n.wire .server = [] := by
  have hany : (Machine.exec quietSetup.step twoMessages quietSetup.init).any (fun n => decide
      ((n.con .client).sent = [(.text, [65]), (.binary, [1, 2])] ∧ (n.con .client).state = .opened ∧
        (n.con .server).state = .opened ∧ (n.con .client).sendQueue.length = 0 ∧ (n.con .client).writing = none ∧
        n.wire .server = [])) = true := by
    decide +kernel
  obtain ⟨n, hn, hdec⟩ := (Option.any_eq_true _ _).mp hany
  exact ⟨n, hn, of_decide_eq_true hdec⟩

theorem messages_in_order_first : ∃ n, Machine.exec quietSetup.step oneOfTwo quietSetup.init = some n ∧
    (n.con .server).handed.length = 1 ∧ (n.con .server).handed.map given <+: [(.text, [65]), (.binary, [1, 2])] := by
  obtain ⟨n, hn, hsent, hhanded⟩ := oneOfTwo_ends
  exact ⟨n, hn, hhanded, hsent ▸ messages_in_order hn .server⟩

theorem messages_complete_two : ∃ n, Machine.exec quietSetup.step twoMessages quietSetup.init = some n ∧
    (n.con .server).handed.map given = [(.text, [65]), (.binary, [1, 2])] := by
  obtain ⟨n, hn, hsent, hclient, hserver, hqueue, hwriting, hwire⟩ := twoMessages_ends
  have hlive : (n.con .client).state ≠ .closed := by rw [hclient]; decide
  exact ⟨n, hn, hsent ▸ messages_complete (i := .server) hn hserver hlive (List.length_eq_zero_iff.mp hqueue) hwriting
    hwire⟩

theorem never_failed_two : ∃ n, Machine.exec quietSetup.step twoMessages quietSetup.init = some n ∧
    (n.con .server).failed = none := by
  obtain ⟨n, hn, hsent, _⟩ := twoMessages_ends
  refine ⟨n, hn, never_failed (i := .server) hn fun m hm => ?_⟩
  rw [show Side.other .server = .client from rfl, hsent] at hm
  rcases List.mem_cons.mp hm with rfl | hm
  · exact ⟨.inl rfl, by decide⟩
  · rw [List.mem_singleton.mp hm]
    exact ⟨.inr rfl, by decide⟩

/-- The client sends one octet and closes. -/
def messageAndClose : List (Side × Connection.Event) :=
  [(.client, .call (.send [65] .text (by decide))), (.client, .call (.close Status.normal [])), (.client, .run),
    (.client, .transmit 15), (.server, .read [0x81, 0x81, 0, 0, 0, 0, 65, 0x88, 0x82, 0, 0, 0, 0, 3, 0xE8])]

theorem close_is_complete_one : ∃ n, Machine.exec quietSetup.step messageAndClose quietSetup.init = some n ∧
    (dataMessages (n.con .server).got).map given = [(.text, [65])] ∧ (n.con .client).state ≠ .opened := by
  have hany : (Machine.exec quietSetup.step messageAndClose quietSetup.init).any (fun n => decide
      ((n.con .client).sent = [(.text, [65])] ∧ ∃ m ∈ (n.con .server).got, m.opcode = .close)) = true := by
    decide +kernel
  obtain ⟨n, hn, hdec⟩ := (Option.any_eq_true _ _).mp hany
  obtain ⟨hsent, hclose⟩ := of_decide_eq_true hdec
  obtain ⟨hall, hstate⟩ := close_is_complete (i := .server) hn hclose
  exact ⟨n, hn, hall.trans hsent, hstate⟩

end Network
end NewOrbit.Websocket
