import Mathlib.Logic.Function.Basic
import Mathlib.Tactic.Tauto
import NewOrbit.Lib.Machine
import NewOrbit.Rabbit.Frames
import NewOrbit.Rabbit.PocoHandler

/-!
# `Rabbit.Acks` — the broker sees a reply before it sees the ack

A callback only hands frames to `onData`; they reach the broker later, in pieces, and a crash loses whatever was
not transmitted. The machine follows every byte from `onData` to the broker over any number of workers, each
with its own connection, through crashes and redeliveries; connections that are gone are kept in `closed`.

The invariant of a connection (`ConnInv`) is about one list: the frames of its callbacks, block by block, each
block the reply's frames and then the ack. What the socket and the buffer hold encodes a front part of it, what
the broker has read is a front part of that, so an ack that was read has its block's reply before it
(`acked_after_reply`).
-/

namespace NewOrbit.Rabbit.Acks
open CString Framing

/-! ## The machine -/

/-- A request with a number of its own, which tells it from any other with the same text. -/
structure Request where
  id      : Nat
  message : Message

/-- The connection of a worker, as the broker and the worker see it. -/
structure Conn where
  /-- What the broker delivered; the delivery tags count from 1. -/
  delivered : List Request
  /-- How many callbacks have begun. -/
  handled   : Nat
  /-- The frames the running callback has still to hand to `onData`. -/
  todo      : List Frame
  handler   : Handler
  /-- How many bytes of the socket have arrived at the broker. -/
  arrived   : Nat

/-- The streams start behind the frames that set the consumer up: the broker has read those before it delivers. -/
def Conn.fresh : Conn := ⟨[], 0, [], .init, 0⟩

/-- The frames the broker has read. -/
def Conn.received (c : Conn) : List Frame := split decode (c.handler.socket.take c.arrived)

structure State where
  queue  : List Request
  next   : Nat
  conn   : Nat → Conn
  closed : List Conn

def init : State := ⟨[], 0, fun _ => .fresh, []⟩

inductive Step where
  | submit (m : Message)
  | deliver (w : Nat)
  | callback (w : Nat) (env : Env)
  | onData (w : Nat)
  | flush (w : Nat)
  | arrive (w : Nat) (n : Nat)
  | crash (w : Nat) (n i : Nat)

variable (h : Host) (channel maxpayload : Nat)

def State.put (s : State) (w : Nat) (c : Conn) : State := { s with conn := Function.update s.conn w c }

def Conn.arrive (c : Conn) (n : Nat) : Conn := { c with arrived := min (c.arrived + n) c.handler.socket.length }

/-- The deliveries whose ack the broker has not read. -/
def Conn.unacked (c : Conn) : List Request :=
  (c.delivered.zipIdx.filter fun (_, k) => ackFrame channel (k + 1) ∉ c.received).map Prod.fst

/-- `submit` takes any message that fits an AMQP method: its short strings have one octet of length.
    `setQos(1)` makes the broker hold back a delivery until the one before is acked; nothing here needs that. -/
def step (s : State) : Step → Option State
  | .submit m =>
      if m.replyTo.length ≤ 255 ∧ m.correlationID.length ≤ 255 then
        some { s with queue := s.queue ++ [⟨s.next, m⟩], next := s.next + 1 }
      else none
  | .deliver w =>
      match s.queue with
      | r :: queue =>
        if (s.conn w).delivered.length + 1 < 18446744073709551616 then
          some { s.put w { s.conn w with delivered := (s.conn w).delivered ++ [r] } with queue }
        else none
      | [] => none
  | .callback w env =>
      match (s.conn w).todo, (s.conn w).delivered[(s.conn w).handled]? with
      | [], some r =>
        match reply h env r.message with
        | .ok j =>
          let frames := publishFrames channel maxpayload r.message.replyTo (envelope h r.message j)
          some (s.put w { s.conn w with
            handled := (s.conn w).handled + 1
            todo := frames ++ [ackFrame channel ((s.conn w).handled + 1)] })
        -- A fault ends the process, with nothing published: that is a `crash`.
        | .error _ => none
      | _, _ => none
  | .onData w =>
      match (s.conn w).todo with
      | f :: todo => some (s.put w { s.conn w with handler := (s.conn w).handler.onData f.encode, todo })
      | []        => none
  | .flush w => some (s.put w { s.conn w with handler := (s.conn w).handler.sendDataFromBuffer })
  | .arrive w n => some (s.put w ((s.conn w).arrive n))
  | .crash w n i =>
      -- Some of what is on the wire still arrives; what is in the buffer is lost with the process.
      -- The broker may put the unacked deliveries anywhere in the queue.
      let c := (s.conn w).arrive n
      some { s.put w .fresh with
        queue  := s.queue.take i ++ c.unacked channel ++ s.queue.drop i
        closed := s.closed ++ [c] }

/-! ## What a connection keeps

The log has an entry for each callback that has begun, and an entry says which frames its callback hands over. What
was handed over so far and what is still to be (`todo`) make up the frames of the log, and the stream, on the socket
or in the buffer, is the octets of the first part. A flush moves octets from the buffer to the socket and is not seen.
-/

/-- A callback that has begun: its delivery tag, its request and the JSON it answers with. -/
structure Entry where
  tag     : Nat
  request : Request
  json    : Json

def Entry.replyFrames (e : Entry) : List Frame :=
  publishFrames channel maxpayload e.request.message.replyTo (envelope h e.request.message e.json)

/-- The frames of a callback: the reply, then the ack. -/
def Entry.block (e : Entry) : List Frame := e.replyFrames h channel maxpayload ++ [ackFrame channel e.tag]

structure ConnInv (c : Conn) (sent : List Frame) (log : List Entry) : Prop where
  stream   : c.handler.stream = sent.flatMap Frame.encode
  program  : sent ++ c.todo = log.flatMap (Entry.block h channel maxpayload)
  handled  : log.length = c.handled
  entry    : ∀ k e, log[k]? = some e → e.tag = k + 1 ∧ c.delivered[k]? = some e.request ∧
    ∃ env, reply h env e.request.message = .ok e.json
  sendable : ∀ e ∈ log, ∀ f ∈ e.block h channel maxpayload, Sendable BUFFER_SIZE f
  size     : c.handler.outBuffer.size = BUFFER_SIZE
  tags     : c.delivered.length < 18446744073709551616
  short    : ∀ r ∈ c.delivered, r.message.replyTo.length ≤ 255 ∧ r.message.correlationID.length ≤ 255

def ConnOk (c : Conn) : Prop := ∃ sent log, ConnInv h channel maxpayload c sent log

variable {h channel maxpayload}

theorem connOk_fresh : ConnOk h channel maxpayload .fresh :=
  ⟨[], [], {
    stream := rfl
    program := rfl
    handled := rfl
    entry := nofun
    sendable := nofun
    size := rfl
    tags := by decide
    short := nofun }⟩

theorem ConnOk.deliver {c : Conn} {r : Request} (hc : ConnOk h channel maxpayload c)
    (hlen : c.delivered.length + 1 < 18446744073709551616)
    (hr : r.message.replyTo.length ≤ 255 ∧ r.message.correlationID.length ≤ 255) :
    ConnOk h channel maxpayload { c with delivered := c.delivered ++ [r] } := by
  obtain ⟨sent, log, hi⟩ := hc
  refine ⟨sent, log, { hi with entry := ?_, tags := ?_, short := ?_ }⟩
  · intro k e he
    obtain ⟨htag, hreq, hreply⟩ := hi.entry k e he
    have hlt : k < c.delivered.length := (List.getElem?_eq_some_iff.mp hreq).1
    exact ⟨htag, by rw [List.getElem?_append_left hlt]; exact hreq, hreply⟩
  · rw [List.length_append]
    exact hlen
  · intro r' hr'
    rcases List.mem_append.mp hr' with hr' | hr'
    · exact hi.short r' hr'
    · exact List.mem_singleton.mp hr' ▸ hr

theorem ConnOk.callback {c : Conn} {r : Request} {env : Env} {j : Json} (hch : channel < 65536)
    (hmax : maxpayload + 8 ≤ BUFFER_SIZE) (hc : ConnOk h channel maxpayload c) (htodo : c.todo = [])
    (hr : c.delivered[c.handled]? = some r) (hj : reply h env r.message = .ok j) :
    ConnOk h channel maxpayload { c with
      handled := c.handled + 1
      todo := publishFrames channel maxpayload r.message.replyTo (envelope h r.message j) ++
        [ackFrame channel (c.handled + 1)] } := by
  obtain ⟨sent, log, hi⟩ := hc
  have hprogram := hi.program
  rw [htodo, List.append_nil] at hprogram
  have hmem : r ∈ c.delivered := List.mem_of_getElem? hr
  obtain ⟨hkey, hcorr⟩ := hi.short r hmem
  refine ⟨sent, log ++ [⟨c.handled + 1, r, j⟩],
    { hi with program := ?_, handled := ?_, entry := ?_, sendable := ?_ }⟩
  · rw [List.flatMap_append, ← hprogram, List.flatMap_singleton]
    rfl
  · rw [List.length_append, hi.handled]
    rfl
  · intro k e he
    rcases Nat.lt_or_ge k log.length with hlt | hge
    · exact hi.entry k e (by rwa [List.getElem?_append_left hlt] at he)
    · rw [List.getElem?_append_right hge] at he
      rw [List.getElem?_singleton, Option.ite_none_right_eq_some] at he
      obtain ⟨hk, he⟩ := he
      cases he
      obtain rfl : k = c.handled := by have := hi.handled; omega
      exact ⟨rfl, hr, env, hj⟩
  · intro e he
    rcases List.mem_append.mp he with he | he
    · exact hi.sendable e he
    · obtain rfl := List.mem_singleton.mp he
      intro f hf
      rcases List.mem_append.mp hf with hf | hf
      · exact sendable_publishFrames hch (by decide) (by decide) hmax hkey
          (show (envelope h r.message j).correlationID.length ≤ 255 from hcorr) f hf
      · rw [List.mem_singleton.mp hf]
        exact sendable_ackFrame hch (by decide) (by decide) _

theorem ConnOk.onData {c : Conn} {f : Frame} {todo : List Frame} (hc : ConnOk h channel maxpayload c)
    (htodo : c.todo = f :: todo) :
    ConnOk h channel maxpayload { c with handler := c.handler.onData f.encode, todo } := by
  obtain ⟨sent, log, hi⟩ := hc
  have hprogram := hi.program
  rw [htodo, List.append_cons] at hprogram
  have hf : Sendable BUFFER_SIZE f := by
    have hmem : f ∈ log.flatMap (Entry.block h channel maxpayload) := by
      rw [← hprogram]
      simp
    obtain ⟨e, he, hfe⟩ := List.mem_flatMap.mp hmem
    exact hi.sendable e he f hfe
  refine ⟨sent ++ [f], log, { hi with stream := ?_, program := hprogram, size := ?_ }⟩
  · rw [Handler.onData_stream _ _ (by rw [hi.size]; exact hf.2), hi.stream, List.flatMap_append,
      List.flatMap_singleton]
  · rw [Handler.size_onData, hi.size]

theorem ConnOk.flush {c : Conn} (hc : ConnOk h channel maxpayload c) :
    ConnOk h channel maxpayload { c with handler := c.handler.sendDataFromBuffer } := by
  obtain ⟨sent, log, hi⟩ := hc
  exact ⟨sent, log, { hi with
    stream := by rw [Handler.stream_sendDataFromBuffer, hi.stream]
    size := by rw [Handler.size_sendDataFromBuffer, hi.size] }⟩

theorem ConnOk.arrive {c : Conn} (hc : ConnOk h channel maxpayload c) (n : Nat) :
    ConnOk h channel maxpayload (c.arrive n) := by
  obtain ⟨sent, log, hi⟩ := hc
  exact ⟨sent, log, { hi with }⟩

/-! ## What the broker has read

The broker has a front part of the socket's octets and splits it into frames. Frames are read as they were written
(`Framing.Code.split_prefix_of_sent`), so it has read a front part of the log's frames. An ack frame is no frame of a
reply and carries the tag of its block, so up to an ack the blocks are complete. The other way round, a callback whose
last octets are still in the buffer has its ack neither on the socket nor at the broker (`ConnOk.ack_not_mem`). -/

/-- The broker has read the reply to the request, as the callback published it. -/
def Answered (h : Host) (channel maxpayload : Nat) (frames : List Frame) (r : Request) : Prop :=
  ∃ env j pre post, reply h env r.message = .ok j ∧
    frames = pre ++ publishFrames channel maxpayload r.message.replyTo (envelope h r.message j) ++ post

/-- The callback has handed its reply over: the bytes are on the wire or in the buffer. -/
def Conn.Published (h : Host) (channel maxpayload : Nat) (c : Conn) (r : Request) : Prop :=
  ∃ env j pre post, reply h env r.message = .ok j ∧ c.handler.stream =
    pre ++ (publishFrames channel maxpayload r.message.replyTo (envelope h r.message j)).flatMap Frame.encode ++ post

/-- Every callback that has begun has a delivery. -/
theorem ConnInv.handled_le {c : Conn} {sent : List Frame} {log : List Entry}
    (hi : ConnInv h channel maxpayload c sent log) : c.handled ≤ c.delivered.length := by
  rcases Nat.eq_zero_or_pos c.handled with _ | _
  · omega
  · have hlen := hi.handled
    have hlt : log.length - 1 < log.length := by omega
    have hreq := (List.getElem?_eq_some_iff.mp (hi.entry _ _ (List.getElem?_eq_getElem hlt)).2.1).1
    omega

/-- The broker reads a front part of what the callbacks handed over. -/
theorem ConnInv.received_prefix {c : Conn} {sent : List Frame} {log : List Entry}
    (hi : ConnInv h channel maxpayload c sent log) : split decode c.handler.socket <+: sent := by
  have hsent : sent <+: log.flatMap (Entry.block h channel maxpayload) := ⟨c.todo, hi.program⟩
  have hfits : ∀ f ∈ sent, f.Fits := by
    intro f hf
    obtain ⟨e, he, hfe⟩ := List.mem_flatMap.mp (hsent.subset hf)
    exact (hi.sendable e he f hfe).1
  refine code.split_prefix_of_sent hfits ?_
  rw [← hi.stream]
  exact List.prefix_append _ _

/-- What has arrived is a front part of what the socket was given. -/
theorem Conn.received_prefix (c : Conn) : c.received <+: split decode c.handler.socket :=
  code.split_mono (List.take_prefix _ _)

/-- An ack stands only at the end of a block, so the blocks up to it are complete. -/
theorem ConnInv.block_of_ack {c : Conn} {sent : List Frame} {log : List Entry}
    (hinv : ConnInv h channel maxpayload c sent log) {i tag : Nat} (htag : tag < 18446744073709551616)
    (hi : (log.flatMap (Entry.block h channel maxpayload))[i]? = some (ackFrame channel tag)) :
    ∃ l₁ e l₂, log = l₁ ++ e :: l₂ ∧ l₁.length + 1 = tag ∧
      (log.flatMap (Entry.block h channel maxpayload)).take i
        = l₁.flatMap (Entry.block h channel maxpayload) ++ e.replyFrames h channel maxpayload := by
  have hmarked : ∀ e : Entry, ackFrame channel tag ∉ e.replyFrames h channel maxpayload := by
    intro e
    exact ackFrame_not_mem_publishFrames channel maxpayload tag _ _
  have hblock : ∀ e : Entry, e.block h channel maxpayload =
      e.replyFrames h channel maxpayload ++ [ackFrame channel e.tag] := fun _ => rfl
  obtain ⟨l₁, e, l₂, hlog, hmark, hbefore⟩ := take_of_mark hblock hmarked hi
  have he : log[l₁.length]? = some e := by
    rw [hlog, List.getElem?_append_right (Nat.le_refl _), Nat.sub_self]
    rfl
  obtain ⟨hetag, hreq, -⟩ := hinv.entry _ e he
  have hlt : l₁.length < c.delivered.length := (List.getElem?_eq_some_iff.mp hreq).1
  have heq : e.tag = tag := ackFrame_inj (by have := hinv.tags; omega) htag hmark
  exact ⟨l₁, e, l₂, hlog, hetag ▸ heq, hbefore⟩

/-- **On every connection an ack comes after its reply**, and its callback has begun. -/
theorem ConnOk.answered_before_ack {c : Conn} (hc : ConnOk h channel maxpayload c) {i tag : Nat}
    (htag : tag < 18446744073709551616) (hi : c.received[i]? = some (ackFrame channel tag)) :
    ∃ r, 1 ≤ tag ∧ tag ≤ c.handled ∧ c.delivered[tag - 1]? = some r ∧
      Answered h channel maxpayload (c.received.take i) r := by
  obtain ⟨sent, log, hinv⟩ := hc
  have hread : c.received <+: log.flatMap (Entry.block h channel maxpayload) :=
    (c.received_prefix.trans hinv.received_prefix).trans ⟨c.todo, hinv.program⟩
  have hilt : i < c.received.length := (List.getElem?_eq_some_iff.mp hi).1
  have hi' : (log.flatMap (Entry.block h channel maxpayload))[i]? = some (ackFrame channel tag) := by
    obtain ⟨rest, hrest⟩ := hread
    rw [← hrest, List.getElem?_append_left hilt, hi]
  have htake : (log.flatMap (Entry.block h channel maxpayload)).take i = c.received.take i := by
    obtain ⟨rest, hrest⟩ := hread
    rw [← hrest, List.take_append_of_le_length (by omega)]
  obtain ⟨l₁, e, l₂, hlog, hltag, hbefore⟩ := hinv.block_of_ack htag hi'
  have he : log[l₁.length]? = some e := by
    rw [hlog, List.getElem?_append_right (Nat.le_refl _), Nat.sub_self]
    rfl
  obtain ⟨-, hreq, env, hreply⟩ := hinv.entry _ e he
  have hlen := congrArg List.length hlog
  rw [List.length_append, List.length_cons, hinv.handled] at hlen
  refine ⟨e.request, by omega, by omega, ?_, env, e.json, l₁.flatMap (Entry.block h channel maxpayload), [],
    hreply, ?_⟩
  · rw [← hltag]
    exact hreq
  · rw [List.append_nil, ← htake]
    exact hbefore

/-- **The ack of a callback that runs is not on the wire**: it is still to be handed over, or its last bytes are in the
    buffer. -/
theorem ConnOk.ack_not_mem {c : Conn} (hc : ConnOk h channel maxpayload c)
    (hpending : c.todo ≠ [] ∨ c.handler.outBuffer.data ≠ []) : ackFrame channel c.handled ∉ c.received := by
  obtain ⟨sent, log, hinv⟩ := hc
  intro hmem
  obtain ⟨i, hi⟩ := List.getElem?_of_mem (c.received_prefix.subset hmem)
  have hprogram := congrArg List.length hinv.program
  rw [List.length_append] at hprogram
  have hilt : i < (split decode c.handler.socket).length := (List.getElem?_eq_some_iff.mp hi).1
  have hle := hinv.received_prefix.length_le
  -- What the socket was given lacks a frame of the last block.
  have hlt : i + 1 < (log.flatMap (Entry.block h channel maxpayload)).length := by
    rcases hpending with htodo | hdata
    · have htodo := List.length_pos_iff.mpr htodo
      omega
    · have hne : (split decode c.handler.socket).length ≠ sent.length := by
        intro heq
        have hbytes := code.length_flatMap_split_le (fun _ _ _ => length_encode_of_decode) c.handler.socket
        have hstream := congrArg List.length hinv.stream
        rw [hinv.received_prefix.eq_of_length heq] at hbytes
        rw [Handler.stream, List.length_append] at hstream
        have hdata := List.length_pos_iff.mpr hdata
        omega
      omega
  have hi' : (log.flatMap (Entry.block h channel maxpayload))[i]? = some (ackFrame channel c.handled) := by
    obtain ⟨rest, hrest⟩ := hinv.received_prefix
    rw [← hinv.program, ← hrest, List.append_assoc, List.getElem?_append_left hilt, hi]
  have hhandled := hinv.handled_le
  obtain ⟨l₁, e, l₂, hlog, hltag, hbefore⟩ := hinv.block_of_ack (by have := hinv.tags; omega) hi'
  -- The block of the ack is the last one, so the ack is the last frame.
  obtain rfl : l₂ = [] := by
    have hlen := congrArg List.length hlog
    rw [List.length_append, List.length_cons, hinv.handled] at hlen
    exact List.eq_nil_of_length_eq_zero (by omega)
  have htake := congrArg List.length hbefore
  rw [List.length_take, List.length_append] at htake
  rw [hlog, List.flatMap_append, List.flatMap_singleton, List.length_append, Entry.block, List.length_append,
    List.length_singleton] at hlt
  rw [hlog, List.flatMap_append, List.flatMap_singleton, List.length_append, Entry.block, List.length_append,
    List.length_singleton] at htake
  omega

/-! ## Every run

A request that was submitted is in the queue, on a live connection, or acked on one that is gone: a delivery takes it
from the first place to the second, and a crash to the third, or back. -/

/-- A connection of the run: live, or lost in a crash. -/
def State.HasConn (s : State) (c : Conn) : Prop := (∃ w, s.conn w = c) ∨ c ∈ s.closed

/-- Where a request can be: in the queue, delivered on a live connection, or acked on one that is gone. -/
def Located (channel : Nat) (s : State) (id : Nat) : Prop :=
  (∃ r ∈ s.queue, r.id = id) ∨ (∃ w, ∃ r ∈ (s.conn w).delivered, r.id = id) ∨
    ∃ c ∈ s.closed, ∃ k r, c.delivered[k]? = some r ∧ r.id = id ∧ ackFrame channel (k + 1) ∈ c.received

structure Inv (h : Host) (channel maxpayload : Nat) (s : State) : Prop where
  conns   : ∀ c, s.HasConn c → ConnOk h channel maxpayload c
  queue   : ∀ r ∈ s.queue, r.message.replyTo.length ≤ 255 ∧ r.message.correlationID.length ≤ 255
  located : ∀ id < s.next, Located channel s id

theorem inv_init : Inv h channel maxpayload init where
  conns c hc := by
    rcases hc with ⟨w, rfl⟩ | hc
    · exact connOk_fresh
    · cases hc
  queue := nofun
  located _ hid := absurd hid (Nat.not_lt_zero _)

theorem conn_put (s : State) (w : Nat) (c : Conn) (w' : Nat) :
    (s.put w c).conn w' = if w' = w then c else s.conn w' :=
  Function.update_apply s.conn w c w'

theorem hasConn_put {s : State} {w : Nat} {c c' : Conn} (hc : (s.put w c).HasConn c') : c' = c ∨ s.HasConn c' := by
  rcases hc with ⟨w', rfl⟩ | hc
  · rw [conn_put]
    by_cases hw : w' = w
    · exact .inl (if_pos hw)
    · exact .inr (.inl ⟨w', (if_neg hw).symm⟩)
  · exact .inr (.inr hc)

/-- A step on one connection that leaves its deliveries moves no request. -/
theorem Inv.put {s : State} (hi : Inv h channel maxpayload s) {w : Nat} {c : Conn}
    (hc : ConnOk h channel maxpayload c) (hdel : c.delivered = (s.conn w).delivered) :
    Inv h channel maxpayload (s.put w c) where
  conns c' hc' := by
    rcases hasConn_put hc' with rfl | hc'
    · exact hc
    · exact hi.conns c' hc'
  queue := hi.queue
  located id hid := by
    rcases hi.located id hid with hq | ⟨w', r, hr, hrid⟩ | hclosed
    · exact .inl hq
    · refine .inr (.inl ⟨w', r, ?_, hrid⟩)
      rw [conn_put]
      by_cases hw : w' = w
      · rw [if_pos hw, hdel, ← hw]; exact hr
      · rw [if_neg hw]; exact hr
    · exact .inr (.inr hclosed)

theorem inv_submit {s s' : State} {m : Message} (hi : Inv h channel maxpayload s)
    (hstep : step h channel maxpayload s (.submit m) = some s') : Inv h channel maxpayload s' := by
  simp only [step, Option.ite_none_right_eq_some, Option.some.injEq] at hstep
  obtain ⟨hshort, rfl⟩ := hstep
  refine ⟨hi.conns, ?_, ?_⟩
  · intro r hr
    rcases List.mem_append.mp hr with hr | hr
    · exact hi.queue r hr
    · rw [List.mem_singleton.mp hr]; exact hshort
  · intro id hid
    rcases Nat.lt_succ_iff_lt_or_eq.mp hid with hlt | rfl
    · rcases hi.located id hlt with ⟨r, hr, hrid⟩ | hrest
      · exact .inl ⟨r, List.mem_append_left _ hr, hrid⟩
      · exact .inr hrest
    · exact .inl ⟨⟨s.next, m⟩, by simp, rfl⟩

theorem inv_deliver {s s' : State} {w : Nat} (hi : Inv h channel maxpayload s)
    (hstep : step h channel maxpayload s (.deliver w) = some s') : Inv h channel maxpayload s' := by
  simp only [step] at hstep
  split at hstep
  · rename_i r queue hq
    rw [Option.ite_none_right_eq_some] at hstep
    obtain ⟨hlen, hs'⟩ := hstep
    cases hs'
    refine ⟨?_, fun r' hr' => hi.queue r' (hq ▸ List.mem_cons_of_mem r hr'), ?_⟩
    · intro c hc
      rcases hasConn_put hc with rfl | hc
      · exact (hi.conns _ (.inl ⟨w, rfl⟩)).deliver hlen (hi.queue r (hq ▸ List.mem_cons_self))
      · exact hi.conns c hc
    · intro id hid
      -- Deliveries only grow, so a request that was on a live connection stays there.
      have hstay : ∀ w', ∀ r' ∈ (s.conn w').delivered, ∃ w'', r' ∈
          ((s.put w { s.conn w with delivered := (s.conn w).delivered ++ [r] }).conn w'').delivered := by
        intro w' r' hr'
        refine ⟨w', ?_⟩
        rw [conn_put]
        by_cases hw : w' = w
        · rw [if_pos hw]; exact List.mem_append_left _ (hw ▸ hr')
        · rw [if_neg hw]; exact hr'
      rcases hi.located id hid with ⟨r', hr', hrid⟩ | ⟨w', r', hr', hrid⟩ | hclosed
      · rw [hq] at hr'
        rcases List.mem_cons.mp hr' with rfl | hr'
        · refine .inr (.inl ⟨w, r', ?_, hrid⟩)
          show r' ∈ ((s.put w _).conn w).delivered
          rw [conn_put, if_pos rfl]
          exact List.mem_append_right _ (List.mem_singleton_self r')
        · exact .inl ⟨r', hr', hrid⟩
      · obtain ⟨w'', hw''⟩ := hstay w' r' hr'
        exact .inr (.inl ⟨w'', r', hw'', hrid⟩)
      · exact .inr (.inr hclosed)
  · cases hstep

theorem mem_unacked {c : Conn} {r : Request} :
    r ∈ c.unacked channel ↔ ∃ k, c.delivered[k]? = some r ∧ ackFrame channel (k + 1) ∉ c.received := by
  rw [Conn.unacked, List.mem_map]
  constructor
  · rintro ⟨⟨r', k⟩, hmem, rfl⟩
    obtain ⟨hmem, hack⟩ := List.mem_filter.mp hmem
    exact ⟨k, List.mk_mem_zipIdx_iff_getElem?.mp hmem, by simpa using hack⟩
  · rintro ⟨k, hr, hack⟩
    exact ⟨(r, k), List.mem_filter.mpr ⟨List.mk_mem_zipIdx_iff_getElem?.mpr hr, by simpa using hack⟩, rfl⟩

theorem delivered_of_mem_unacked {c : Conn} {r : Request} (hr : r ∈ c.unacked channel) : r ∈ c.delivered := by
  obtain ⟨k, hk, -⟩ := mem_unacked.mp hr
  exact List.mem_of_getElem? hk

/-- Among the unacked deliveries, what is at one place of the connection only. -/
theorem countP_unacked {c : Conn} {P : Request → Bool} {k : Nat} {r : Request} (hr : c.delivered[k]? = some r)
    (hP : P r = true) (honly : ∀ k' r', c.delivered[k']? = some r' → P r' = true → k' = k) :
    (c.unacked channel).countP P = if ackFrame channel (k + 1) ∈ c.received then 0 else 1 := by
  have hcongr : c.delivered.zipIdx.countP (fun x => P x.1 && decide (ackFrame channel (x.2 + 1) ∉ c.received)) =
      c.delivered.zipIdx.countP fun x => x.2 == k && decide (ackFrame channel (k + 1) ∉ c.received) := by
    refine List.countP_congr ?_
    rintro ⟨r', k'⟩ hmem
    have hr' : c.delivered[k']? = some r' := List.mk_mem_zipIdx_iff_getElem?.mp hmem
    by_cases hk : k' = k
    · subst hk
      obtain rfl : r' = r := Option.some.inj (hr'.symm.trans hr)
      simp [hP]
    · have hnot : P r' = false := by
        rw [Bool.eq_false_iff]
        exact fun hP' => hk (honly k' r' hr' hP')
      simp [hnot, hk]
  have hone : c.delivered.zipIdx.countP (fun x => x.2 == k) = 1 := by
    have hmem : k ∈ List.range' 0 c.delivered.length := by
      simpa using (List.getElem?_eq_some_iff.mp hr).1
    have hcount : (List.range' 0 c.delivered.length).count k = 1 := by
      rw [(List.nodup_range' 1).count, if_pos hmem]
    rw [← List.zipIdx_map_snd 0 c.delivered, List.count, List.countP_map] at hcount
    exact hcount
  rw [Conn.unacked, List.countP_map, List.countP_filter]
  refine hcongr.trans ?_
  by_cases hack : ackFrame channel (k + 1) ∈ c.received
  · simp [hack]
  · simpa [hack] using hone

/-- A crash: what the broker has no ack for goes back to the queue, and the rest stays acked. -/
theorem inv_crash {s s' : State} {w n i : Nat} (hi : Inv h channel maxpayload s)
    (hstep : step h channel maxpayload s (.crash w n i) = some s') : Inv h channel maxpayload s' := by
  cases hstep
  have hok : ConnOk h channel maxpayload ((s.conn w).arrive n) := (hi.conns _ (.inl ⟨w, rfl⟩)).arrive n
  have hqueue : ∀ r, r ∈ s.queue ∨ r ∈ ((s.conn w).arrive n).unacked channel ↔
      r ∈ s.queue.take i ++ ((s.conn w).arrive n).unacked channel ++ s.queue.drop i := by
    intro r
    conv_lhs => rw [← List.take_append_drop i s.queue]
    simp only [List.mem_append]
    tauto
  refine ⟨?_, ?_, ?_⟩
  · intro c hc
    rcases hc with ⟨w', rfl⟩ | hc
    · show ConnOk h channel maxpayload ((s.put w .fresh).conn w')
      rw [conn_put]
      by_cases hw : w' = w
      · rw [if_pos hw]; exact connOk_fresh
      · rw [if_neg hw]; exact hi.conns _ (.inl ⟨w', rfl⟩)
    · rcases List.mem_append.mp hc with hc | hc
      · exact hi.conns c (.inr hc)
      · rw [List.mem_singleton.mp hc]; exact hok
  · intro r hr
    rcases (hqueue r).mpr hr with hr | hr
    · exact hi.queue r hr
    · obtain ⟨sent, log, hinv⟩ := hok
      exact hinv.short r (delivered_of_mem_unacked hr)
  · intro id hid
    rcases hi.located id hid with ⟨r, hr, hrid⟩ | ⟨w', r, hr, hrid⟩ | ⟨c, hc, hrest⟩
    · exact .inl ⟨r, (hqueue r).mp (.inl hr), hrid⟩
    · by_cases hw : w' = w
      · subst hw
        obtain ⟨k, hk⟩ := List.getElem?_of_mem hr
        -- Whether the broker read the ack before the crash decides where the request is now.
        by_cases hack : ackFrame channel (k + 1) ∈ ((s.conn w').arrive n).received
        · exact .inr (.inr ⟨_, List.mem_append_right _ (List.mem_singleton_self _), k, r, hk, hrid, hack⟩)
        · exact .inl ⟨r, (hqueue r).mp (.inr (mem_unacked.mpr ⟨k, hk, hack⟩)), hrid⟩
      · refine .inr (.inl ⟨w', r, ?_, hrid⟩)
        show r ∈ ((s.put w .fresh).conn w').delivered
        rw [conn_put, if_neg hw]
        exact hr
    · exact .inr (.inr ⟨c, List.mem_append_left _ hc, hrest⟩)

theorem inv_step (hch : channel < 65536) (hmax : maxpayload + 8 ≤ BUFFER_SIZE) {s s' : State} {a : Step}
    (hi : Inv h channel maxpayload s) (hstep : step h channel maxpayload s a = some s') :
    Inv h channel maxpayload s' := by
  have hlive : ∀ w, ConnOk h channel maxpayload (s.conn w) := by
    intro w
    exact hi.conns _ (.inl ⟨w, rfl⟩)
  cases a with
  | submit m => exact inv_submit hi hstep
  | deliver w => exact inv_deliver hi hstep
  | callback w env =>
      simp only [step] at hstep
      split at hstep
      · rename_i r htodo hr
        split at hstep
        · rename_i j hj
          cases hstep
          exact hi.put ((hlive w).callback hch hmax htodo hr hj) rfl
        · cases hstep
      · cases hstep
  | onData w =>
      simp only [step] at hstep
      split at hstep
      · rename_i f todo htodo
        cases hstep
        exact hi.put ((hlive w).onData htodo) rfl
      · cases hstep
  | flush w =>
      cases hstep
      exact hi.put (hlive w).flush rfl
  | arrive w n =>
      cases hstep
      exact hi.put ((hlive w).arrive n) rfl
  | crash w n i => exact inv_crash hi hstep

/-- A request whose ack was read is answered. -/
theorem ConnOk.answered_of_ack {c : Conn} (hc : ConnOk h channel maxpayload c) {k : Nat} {r : Request}
    (hr : c.delivered[k]? = some r) (hack : ackFrame channel (k + 1) ∈ c.received) :
    k < c.handled ∧ Answered h channel maxpayload c.received r := by
  obtain ⟨i, hi⟩ := List.getElem?_of_mem hack
  have htag : k + 1 < 18446744073709551616 := by
    obtain ⟨sent, log, hinv⟩ := hc
    have hk : k < c.delivered.length := (List.getElem?_eq_some_iff.mp hr).1
    have := hinv.tags
    omega
  obtain ⟨r', -, hle, hr', env, j, pre, post, hreply, htake⟩ := hc.answered_before_ack htag hi
  rw [Nat.add_sub_cancel, hr, Option.some.injEq] at hr'
  subst hr'
  refine ⟨hle, env, j, pre, post ++ c.received.drop i, hreply, ?_⟩
  rw [← List.append_assoc, ← htake, List.take_append_drop]

/-- What the broker has read of a reply was published. -/
theorem ConnOk.published_of_answered {c : Conn} (hc : ConnOk h channel maxpayload c) {r : Request}
    (hr : Answered h channel maxpayload c.received r) : c.Published h channel maxpayload r := by
  obtain ⟨sent, log, hinv⟩ := hc
  obtain ⟨env, j, pre, post, hreply, hread⟩ := hr
  obtain ⟨rest, hrest⟩ := c.received_prefix.trans hinv.received_prefix
  refine ⟨env, j, pre.flatMap Frame.encode, (post ++ rest).flatMap Frame.encode, hreply, ?_⟩
  rw [hinv.stream, ← hrest, hread]
  simp only [List.flatMap_append, List.append_assoc]

/-- Once a callback has handed over all its frames, so is every reply up to then. -/
theorem ConnOk.published_of_handled {c : Conn} (hc : ConnOk h channel maxpayload c) (htodo : c.todo = []) {k : Nat}
    {r : Request} (hk : k < c.handled) (hr : c.delivered[k]? = some r) : c.Published h channel maxpayload r := by
  obtain ⟨sent, log, hinv⟩ := hc
  have hlt : k < log.length := by rw [hinv.handled]; exact hk
  have he : log[k]? = some log[k] := List.getElem?_eq_getElem hlt
  obtain ⟨-, hreq, env, hreply⟩ := hinv.entry k _ he
  obtain rfl : r = log[k].request := Option.some.inj (hr.symm.trans hreq)
  have hlog : log = log.take k ++ log[k] :: log.drop (k + 1) := by
    rw [List.getElem_cons_drop, List.take_append_drop]
  have hprogram := hinv.program
  rw [htodo, List.append_nil] at hprogram
  refine ⟨env, log[k].json, ((log.take k).flatMap (Entry.block h channel maxpayload)).flatMap Frame.encode,
    ([ackFrame channel log[k].tag] ++ (log.drop (k + 1)).flatMap (Entry.block h channel maxpayload)).flatMap
      Frame.encode, hreply, ?_⟩
  rw [hinv.stream, hprogram]
  conv_lhs => rw [hlog]
  simp only [List.flatMap_append, List.flatMap_cons, Entry.block, Entry.replyFrames, List.append_assoc,
    List.flatMap_nil, List.append_nil]

/-- **No ack overtakes its reply.** In every reachable state, on every connection: an ack that the broker has
    read is for a request it delivered there, and it had read the whole reply to that request before. Hence
    every request submitted is in the queue, or delivered and unacked on a live connection, or answered. -/
theorem acked_after_reply (h : Host) {channel maxpayload : Nat} (hch : channel < 65536)
    (hmax : maxpayload + 8 ≤ BUFFER_SIZE) (tr : List Step) (s : State)
    (hrun : Machine.exec (step h channel maxpayload) tr init = some s) :
    (∀ c, s.HasConn c → ∀ i tag, tag < 18446744073709551616 → c.received[i]? = some (ackFrame channel tag) →
      ∃ r, 1 ≤ tag ∧ c.delivered[tag - 1]? = some r ∧ Answered h channel maxpayload (c.received.take i) r) ∧
    ∀ id < s.next, (∃ r ∈ s.queue, r.id = id) ∨
      (∃ w, ∃ r ∈ (s.conn w).unacked channel, r.id = id) ∨
      ∃ c, s.HasConn c ∧ ∃ r ∈ c.delivered, r.id = id ∧ Answered h channel maxpayload c.received r := by
  have hi : Inv h channel maxpayload s := by
    apply Machine.exec_invariant (I := Inv h channel maxpayload) _ inv_init hrun
    intro _ _ _ hi ha
    exact inv_step hch hmax hi ha
  have hbefore : ∀ c, s.HasConn c → ∀ i tag, tag < 18446744073709551616 →
      c.received[i]? = some (ackFrame channel tag) →
      ∃ r, 1 ≤ tag ∧ c.delivered[tag - 1]? = some r ∧ Answered h channel maxpayload (c.received.take i) r := by
    intro c hc i tag htag hack
    obtain ⟨r, hpos, -, hr, hanswered⟩ := (hi.conns c hc).answered_before_ack htag hack
    exact ⟨r, hpos, hr, hanswered⟩
  refine ⟨hbefore, ?_⟩
  intro id hid
  rcases hi.located id hid with hq | ⟨w, r, hr, hrid⟩ | ⟨c, hc, k, r, hr, hrid, hack⟩
  · exact .inl hq
  · obtain ⟨k, hk⟩ := List.getElem?_of_mem hr
    by_cases hack : ackFrame channel (k + 1) ∈ (s.conn w).received
    · exact .inr (.inr ⟨_, .inl ⟨w, rfl⟩, r, hr, hrid, ((hi.conns _ (.inl ⟨w, rfl⟩)).answered_of_ack hk hack).2⟩)
    · exact .inr (.inl ⟨w, r, mem_unacked.mpr ⟨k, hk, hack⟩, hrid⟩)
  · exact .inr (.inr ⟨c, .inr hc, r, List.mem_of_getElem? hr, hrid, ((hi.conns c (.inr hc)).answered_of_ack hr hack).2⟩)

/-! ### One request, answered after a crash -/

/-- A worker answers the request; the crash hits while the last body byte is on its way. -/
def crashRun : List Step :=
  [.submit (sampleMessage (flatText (.object sampleFields))), .deliver 0, .callback 0 sampleEnv, .onData 0, .onData 0,
   .onData 0, .onData 0, .flush 0, .arrive 0 100, .crash 0 200 0]

/-- Another worker gets the request again, and everything arrives. -/
def redeliveredRun : List Step :=
  crashRun ++ [.deliver 1, .callback 1 sampleEnv, .onData 1, .onData 1, .onData 1, .onData 1, .flush 1, .arrive 1 1000]

def after (tr : List Step) : State := (Machine.exec (step sampleHost 1 131064) tr init).getD init

theorem exec_after {tr : List Step} (hsome : (Machine.exec (step sampleHost 1 131064) tr init).isSome = true) :
    Machine.exec (step sampleHost 1 131064) tr init = some (after tr) := by
  obtain ⟨s, hs⟩ := Option.isSome_iff_exists.mp hsome
  rw [after, hs, Option.getD_some]

/-- The broker has read the reply's three frames before the ack on the second connection; on the first it read
    no ack, and the request went back to the queue. -/
theorem acked_after_reply_redelivered :
    (∃ r, ((after redeliveredRun).conn 1).delivered[0]? = some r ∧
      Answered sampleHost 1 131064 (((after redeliveredRun).conn 1).received.take 3) r) ∧
    (after crashRun).queue.map Request.id = [0] := by
  obtain ⟨hbefore, -⟩ := @acked_after_reply sampleHost 1 131064 (by decide) (by decide) redeliveredRun
    (after redeliveredRun) (exec_after (by decide +kernel))
  obtain ⟨r, -, hr, hanswered⟩ := hbefore _ (.inl ⟨1, rfl⟩) 3 1 (by decide) (by decide +kernel)
  exact ⟨⟨r, hr, hanswered⟩, by decide +kernel⟩

end NewOrbit.Rabbit.Acks
