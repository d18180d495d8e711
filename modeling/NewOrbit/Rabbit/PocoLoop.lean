import NewOrbit.Lib.Framing
import NewOrbit.Lib.Lossy
import NewOrbit.Rabbit.PocoHandler

/-!
# `Rabbit.PocoLoop` — `SimplePocoHandler::loop`

A round of the loop takes what the socket has, lets the connection parse the input buffer, moves what was not
consumed to the front, and flushes the output buffer. The label of a round is what the loop does not decide
itself: the bytes that arrive, and — when `parse` is called — how many bytes it consumes and which callbacks it
makes. Callbacks may also come from outside the loop.

Both buffers are lossy streams (`Lib.Lossy`). The result of `inputBuffer.write` is not looked at, so what was
received is consumed or kept exactly when every arrival fitted (`consumed_iff`); `onData` flushes once, so a chunk
is sent or kept whole exactly when it fits the free space and one more buffer (`sent_iff`).
-/

namespace NewOrbit.Rabbit
open CString Framing

/-- What the connection, or the program, calls. -/
inductive Callback
  | onData (data : Bytes)
  | onConnected
  | onClosed
  | quit
  deriving DecidableEq, Repr

/-- What a callback means for the output buffer. -/
def Callback.calls : Callback → List Handler.Call
  | .onData data => [.onData data]
  | _            => []

/-- A call of `connection->parse`: its result, and the callbacks it makes. -/
structure Parse where
  count     : Nat
  callbacks : List Callback
  deriving DecidableEq, Repr

/-- What one round of the loop is given; `arrival` is empty when the socket has nothing. -/
structure Round where
  arrival : Bytes
  parse   : Option Parse
  deriving DecidableEq, Repr

/-- `SimplePocoHandlerImpl`, with the bytes consumed by each call of `parse` so far. -/
structure Poco where
  connected   : Bool
  connection  : Bool
  quit        : Bool
  inputBuffer : Buffer
  output      : Handler
  consumed    : List Bytes
  aborted     : Bool

namespace Poco

def init : Poco := ⟨false, false, false, .empty BUFFER_SIZE, .init, [], false⟩

def callback (s : Poco) : Callback → Poco
  | .onData data => { s with connection := true, output := s.output.onData data }
  | .onConnected => { s with connected := true }
  | .onClosed    => { s with quit := true }
  | .quit        => { s with quit := true }

def sendDataFromBuffer (s : Poco) : Poco := { s with output := s.output.sendDataFromBuffer }

/-- The result of `write` is not looked at. -/
def receive (s : Poco) (arrival : Bytes) : Poco :=
  if 0 < arrival.length then { s with inputBuffer := (s.inputBuffer.write arrival).1 } else s

/-- What `loop` does with the input buffer once `parse` returned `count`. -/
def afterParse (b : Buffer) (count : Nat) : Option Buffer :=
  if count = b.available then some b.drain
  else if 0 < count then b.shl count
  else some b

def parse (s : Poco) (p : Parse) : Poco :=
  let s' := p.callbacks.foldl callback s
  match afterParse s'.inputBuffer p.count with
  | some b => { s' with inputBuffer := b, consumed := s'.consumed ++ [s.inputBuffer.data.take p.count] }
  | none   => { s' with aborted := true }

/-- One round, if the loop is still running: `parse` is called when there is a connection and something to parse,
    and consumes no more than it was given. -/
def round (s : Poco) (r : Round) : Option Poco :=
  if s.quit || s.aborted then none
  else
    let s := s.receive r.arrival
    if s.connection && decide (s.inputBuffer.available ≠ 0) then
      match r.parse with
      | some p =>
          if p.count ≤ s.inputBuffer.available then
            let s := s.parse p
            some (if s.aborted then s else s.sendDataFromBuffer)
          else none
      | none => none
    else match r.parse with
      | some _ => none
      | none   => some s.sendDataFromBuffer

/-- What `loop` does when it finds `quit` set. -/
def leave (s : Poco) : Poco :=
  if s.quit && decide (s.output.outBuffer.available ≠ 0) then s.sendDataFromBuffer else s

inductive Action
  | call (c : Callback)
  | round (r : Round)
  deriving DecidableEq, Repr

def step (s : Poco) : Action → Option Poco
  | .call c  => if s.aborted then none else some (s.callback c)
  | .round r => s.round r

/-- The bytes that arrive from the socket. -/
def Action.arrival : Action → Bytes
  | .call _  => []
  | .round r => r.arrival

/-! ## What a step does

Three things happen: a callback, a round with `parse`, and a round without it (`step_cases`). Each changes one of the
two buffers at a time, so that the two sides can be looked at apart. -/

@[simp] theorem consumed_sendDataFromBuffer (s : Poco) : s.sendDataFromBuffer.consumed = s.consumed := rfl

@[simp] theorem inputBuffer_sendDataFromBuffer (s : Poco) :
    s.sendDataFromBuffer.inputBuffer = s.inputBuffer := rfl

@[simp] theorem aborted_sendDataFromBuffer (s : Poco) : s.sendDataFromBuffer.aborted = s.aborted := rfl

/-- A callback leaves the input side alone. -/
theorem callback_input (s : Poco) (c : Callback) :
    (s.callback c).inputBuffer = s.inputBuffer ∧ (s.callback c).consumed = s.consumed ∧
      (s.callback c).aborted = s.aborted := by
  cases c <;> exact ⟨rfl, rfl, rfl⟩

theorem callbacks_input (s : Poco) (cs : List Callback) :
    (cs.foldl callback s).inputBuffer = s.inputBuffer ∧ (cs.foldl callback s).consumed = s.consumed ∧
      (cs.foldl callback s).aborted = s.aborted := by
  induction cs generalizing s with
  | nil => exact ⟨rfl, rfl, rfl⟩
  | cons c cs ih =>
      obtain ⟨hbuffer, hconsumed, haborted⟩ := ih (s.callback c)
      obtain ⟨hb, hc, ha⟩ := s.callback_input c
      exact ⟨hbuffer.trans hb, hconsumed.trans hc, haborted.trans ha⟩

/-- What is in the input buffer once `arrival` was received. -/
def incoming (s : Poco) (arrival : Bytes) : Bytes := s.inputBuffer.data ++ arrival.take s.inputBuffer.free

/-- Receiving changes the input buffer only. -/
theorem receive_eq (s : Poco) (arrival : Bytes) : ∃ b, s.receive arrival = { s with inputBuffer := b } := by
  unfold receive
  split
  · exact ⟨_, rfl⟩
  · exact ⟨_, rfl⟩

theorem data_receive (s : Poco) (arrival : Bytes) : (s.receive arrival).inputBuffer.data = s.incoming arrival := by
  unfold receive incoming
  split
  · exact s.inputBuffer.data_write arrival
  · rename_i hlen
    obtain rfl : arrival = [] := List.eq_nil_of_length_eq_zero (by omega)
    rw [List.take_nil, List.append_nil]

section Receive
variable (s : Poco) (arrival : Bytes)

@[simp] theorem connection_receive : (s.receive arrival).connection = s.connection := by
  obtain ⟨b, hb⟩ := s.receive_eq arrival
  rw [hb]

@[simp] theorem consumed_receive : (s.receive arrival).consumed = s.consumed := by
  obtain ⟨b, hb⟩ := s.receive_eq arrival
  rw [hb]

@[simp] theorem output_receive : (s.receive arrival).output = s.output := by
  obtain ⟨b, hb⟩ := s.receive_eq arrival
  rw [hb]

@[simp] theorem aborted_receive : (s.receive arrival).aborted = s.aborted := by
  obtain ⟨b, hb⟩ := s.receive_eq arrival
  rw [hb]

end Receive

/-- **The assertion of `shl` holds**: it is called with less than the buffer has. What is consumed is gone from the
    front, and nothing else. -/
theorem afterParse_of_le {b : Buffer} {count : Nat} (h : count ≤ b.available) :
    ∃ b', afterParse b count = some b' ∧ b'.data = b.data.drop count := by
  unfold afterParse
  by_cases hall : count = b.available
  · rw [if_pos hall]
    exact ⟨_, rfl, (List.drop_eq_nil_of_le (Nat.le_of_eq hall.symm)).symm⟩
  · rw [if_neg hall]
    by_cases hpos : 0 < count
    · rw [if_pos hpos, Buffer.shl, if_pos (by omega)]
      exact ⟨_, rfl, rfl⟩
    · obtain rfl : count = 0 := by omega
      exact ⟨b, rfl, rfl⟩

theorem parse_eq {s : Poco} {p : Parse} (h : p.count ≤ s.inputBuffer.available) :
    ∃ b, b.data = s.inputBuffer.data.drop p.count ∧
      s.parse p = { p.callbacks.foldl callback s with
        inputBuffer := b, consumed := s.consumed ++ [s.inputBuffer.data.take p.count] } := by
  obtain ⟨hbuffer, hconsumed, _⟩ := s.callbacks_input p.callbacks
  obtain ⟨b, hafter, hdata⟩ := afterParse_of_le (b := s.inputBuffer) h
  refine ⟨b, hdata, ?_⟩
  unfold parse
  dsimp only
  rw [hbuffer, hafter, hconsumed]

/-- **What a step does**: a callback; or a round that parses; or a round that has nothing to parse, or no
    connection yet. -/
theorem step_cases {s t : Poco} {a : Action} (h : step s a = some t) :
    (∃ c, a = .call c ∧ t = s.callback c) ∨
    (∃ arrival p, a = .round ⟨arrival, some p⟩ ∧ s.aborted = false ∧ p.count ≤ (s.incoming arrival).length ∧
      ∃ b u, u = s.receive arrival ∧ b.data = (s.incoming arrival).drop p.count ∧
        t = { (p.callbacks.foldl callback u).sendDataFromBuffer with
          inputBuffer := b, consumed := s.consumed ++ [(s.incoming arrival).take p.count] }) ∨
    (∃ arrival, a = .round ⟨arrival, none⟩ ∧ (s.connection = true → s.incoming arrival = []) ∧
      t = (s.receive arrival).sendDataFromBuffer) := by
  cases a with
  | call c =>
      left
      unfold step at h
      dsimp only at h
      split at h
      · cases h
      · exact ⟨c, rfl, (Option.some.inj h).symm⟩
  | round r =>
      right
      obtain ⟨arrival, parse⟩ := r
      unfold step round at h
      dsimp only at h
      split at h
      · cases h
      · rename_i hrunning
        have haborted : s.aborted = false := by simp_all
        split at h
        · -- There is a connection and something to parse.
          left
          cases parse with
          | none => cases h
          | some p =>
              dsimp only at h
              split at h
              · rename_i hcount
                obtain ⟨b', hb', hparse⟩ := parse_eq hcount
                have hrunning' : ((s.receive arrival).parse p).aborted = false := by
                  rw [hparse]
                  show (p.callbacks.foldl callback (s.receive arrival)).aborted = false
                  rw [((s.receive arrival).callbacks_input p.callbacks).2.2, aborted_receive]
                  exact haborted
                rw [hrunning', hparse, data_receive, consumed_receive] at h
                rw [Buffer.available, data_receive] at hcount
                rw [data_receive] at hb'
                exact ⟨arrival, p, rfl, haborted, hcount, b', _, rfl, hb', (Option.some.inj h).symm⟩
              · cases h
        · right
          rename_i hidle
          cases parse with
          | some p => cases h
          | none =>
              refine ⟨arrival, rfl, fun hconn => ?_, (Option.some.inj h).symm⟩
              rw [connection_receive, hconn, Buffer.available, data_receive] at hidle
              simpa using hidle

/-! ## The input side

What was consumed and what is kept make one stream, which takes of an arrival the octets there is room for. A run
keeps all that arrived exactly if each arrival fitted (`Lossy.Takes`). -/

/-- The bytes `parse` consumed so far, and then those in the input buffer. -/
def inputStream (s : Poco) : Bytes := s.consumed.flatten ++ s.inputBuffer.data

/-- The arrival of a round fits the free space of the input buffer. -/
def ArrivalFits (s : Poco) (a : Action) : Prop := a.arrival.length ≤ s.inputBuffer.free

/-- The input side takes of every arrival what the input buffer has room for. -/
theorem inputStream_takes : Lossy.Takes step inputStream Action.arrival fun s _ => s.inputBuffer.free := by
  intro s a t h
  unfold inputStream
  rcases step_cases h with ⟨c, rfl, rfl⟩ | ⟨arrival, p, rfl, -, -, b, u, -, hb, rfl⟩ | ⟨arrival, rfl, -, rfl⟩
  · obtain ⟨hbuffer, hconsumed, -⟩ := s.callback_input c
    rw [hbuffer, hconsumed]
    simp [Action.arrival]
  · show (s.consumed ++ [(s.incoming arrival).take p.count]).flatten ++ b.data = _
    rw [hb, List.flatten_append, List.flatten_singleton, List.append_assoc, List.take_append_drop, List.append_assoc]
    rfl
  · show (s.receive arrival).consumed.flatten ++ (s.receive arrival).inputBuffer.data = _
    rw [consumed_receive, data_receive, incoming, List.append_assoc]
    rfl

/-- **What was received is consumed or kept exactly when every arrival fitted.** -/
theorem consumed_iff (tr : List Action) (t : Poco) (h : Machine.exec step tr init = some t) :
    t.consumed.flatten ++ t.inputBuffer.data = tr.flatMap Action.arrival ↔ Machine.Each step ArrivalFits tr init :=
  inputStream_takes.stream_eq_iff h

theorem free_init : init.inputBuffer.free = BUFFER_SIZE := by
  unfold Buffer.free init Buffer.empty
  exact Nat.sub_zero _

/-- A round without a connection only receives and flushes. -/
theorem step_round_of_not_connection {s : Poco} (hquit : s.quit = false) (haborted : s.aborted = false)
    (hconn : s.connection = false) (arrival : Bytes) :
    step s (.round ⟨arrival, none⟩) = some (s.receive arrival).sendDataFromBuffer := by
  unfold step round
  simp [hquit, haborted, hconn]

/-- **Received bytes can be lost.** One byte more than the input buffer is long arrives at once. -/
theorem not_always_consumed :
    ¬ ∀ (tr : List Action) (t : Poco), Machine.exec step tr init = some t →
      t.consumed.flatten ++ t.inputBuffer.data = tr.flatMap Action.arrival := by
  intro hall
  generalize harrival : List.replicate (BUFFER_SIZE + 1) (0 : UInt8) = arrival
  have hlen : arrival.length = BUFFER_SIZE + 1 := by rw [← harrival, List.length_replicate]
  have hrun : Machine.exec step [.round ⟨arrival, none⟩] init = some (init.receive arrival).sendDataFromBuffer :=
    Machine.exec_cons_iff.mpr ⟨_, step_round_of_not_connection rfl rfl rfl arrival, rfl⟩
  have hconsumed : (init.receive arrival).consumed = [] := init.consumed_receive arrival
  -- The empty buffer takes at most its size.
  have hle : (init.incoming arrival).length ≤ BUFFER_SIZE := by
    have hempty : init.inputBuffer.data = [] := rfl
    rw [incoming, List.length_append, List.length_take, free_init, hempty, List.length_nil]
    omega
  have hkept := hall _ _ hrun
  rw [consumed_sendDataFromBuffer, inputBuffer_sendDataFromBuffer, hconsumed, data_receive, List.flatten_nil,
    List.nil_append, List.flatMap_singleton] at hkept
  have hlen' : (init.incoming arrival).length = arrival.length := congrArg List.length hkept
  omega

/-- A connection appears, three bytes arrive, and the first two are consumed. -/
def consumeTwo : List Action := [.call (.onData [65]), .round ⟨[1, 2, 3], some ⟨2, []⟩⟩]

theorem consumed_iff_two : Machine.Each step ArrivalFits consumeTwo init :=
  (consumed_iff consumeTwo ((Machine.exec step consumeTwo init).get (by decide +kernel)) (Option.some_get _).symm).mp
    (by decide +kernel)

/-! ## The output side

A run is a list of calls of the output side, a round ending with a flush. What holds of any such calls is shown for
the handler alone. -/

/-- The calls on the output side in one step; a round ends with a flush. -/
def Action.calls : Action → List Handler.Call
  | .call c            => c.calls
  | .round ⟨_, some p⟩ => p.callbacks.flatMap Callback.calls ++ [.flush]
  | .round ⟨_, none⟩   => [.flush]

theorem callback_output (s : Poco) (c : Callback) :
    (s.callback c).output = c.calls.foldl Handler.call s.output := by
  cases c <;> rfl

theorem callbacks_output (s : Poco) (cs : List Callback) :
    (cs.foldl callback s).output = (cs.flatMap Callback.calls).foldl Handler.call s.output := by
  induction cs generalizing s with
  | nil => rfl
  | cons c cs ih => rw [List.foldl_cons, ih, callback_output, List.flatMap_cons, List.foldl_append]

theorem step_output {s t : Poco} {a : Action} (h : step s a = some t) :
    t.output = a.calls.foldl Handler.call s.output := by
  rcases step_cases h with ⟨c, rfl, rfl⟩ | ⟨arrival, p, rfl, -, -, b, u, rfl, -, rfl⟩ | ⟨arrival, rfl, -, rfl⟩
  · exact s.callback_output c
  · show (p.callbacks.foldl callback (s.receive arrival)).output.sendDataFromBuffer = _
    rw [callbacks_output, output_receive, Action.calls, List.foldl_append]
    rfl
  · show (s.receive arrival).output.sendDataFromBuffer = _
    rw [output_receive]
    rfl

/-- The output side of a run, call by call. -/
theorem exec_output {tr : List Action} {s t : Poco} (h : Machine.exec step tr s = some t) :
    t.output = (tr.flatMap Action.calls).foldl Handler.call s.output := by
  refine Machine.exec_trace (I := fun tr t => t.output = (tr.flatMap Action.calls).foldl Handler.call s.output)
    rfl (fun tr t a u ih ha => ?_) h
  rw [step_output ha, ih, List.flatMap_append, List.foldl_append, List.flatMap_singleton]

/-- `loop` leaves nothing in the output buffer. -/
theorem leave_output {s : Poco} (hquit : s.quit = true) : s.leave.output = s.output.sendDataFromBuffer := by
  unfold leave
  by_cases hempty : s.output.outBuffer.available = 0
  · simp [hquit, hempty, Handler.sendDataFromBuffer]
  · simp [hquit, hempty, sendDataFromBuffer]

/-- **What is sent.** For any chunks and flushes: the bytes on the wire and then those in the output buffer are the
    chunks in call order exactly when every chunk fits the free space at its call and one more buffer, so in any
    case when no chunk is longer than the buffer. When `loop` returns after `quit`, the output buffer is empty, and
    the wire alone has the chunks under the same condition. -/
theorem sent_iff :
    (∀ calls : List Handler.Call, let h := calls.foldl Handler.call Handler.init
      h.socket ++ h.outBuffer.data = calls.flatMap Handler.Call.chunk ↔ Handler.ChunksFit calls) ∧
    (∀ calls : List Handler.Call, (∀ data, .onData data ∈ calls → data.length ≤ BUFFER_SIZE) →
      let h := calls.foldl Handler.call Handler.init
      h.socket ++ h.outBuffer.data = calls.flatMap Handler.Call.chunk) ∧
    (∀ (tr : List Action) (t : Poco), Machine.exec step tr init = some t → t.quit = true →
      t.leave.output.outBuffer.data = [] ∧
        (t.leave.output.socket = (tr.flatMap Action.calls).flatMap Handler.Call.chunk ↔
          Handler.ChunksFit (tr.flatMap Action.calls))) := by
  refine ⟨Handler.stream_calls_iff, fun calls hle => ?_, fun tr t hrun hquit => ?_⟩
  · exact (Handler.stream_calls_iff calls).mpr (Handler.chunksFit_of_le hle)
  · have hdata := t.output.data_sendDataFromBuffer
    have hstream := t.output.stream_sendDataFromBuffer
    rw [Handler.stream, hdata, List.append_nil] at hstream
    have houtput : t.output = (tr.flatMap Action.calls).foldl Handler.call Handler.init := exec_output hrun
    rw [leave_output hquit]
    refine ⟨hdata, ?_⟩
    rw [hstream, houtput]
    exact Handler.stream_calls_iff _

/-- The protocol header, and then `quit`. -/
def headerThenQuit : List Action := [.call (.onData [65, 77, 81, 80]), .call .quit]

theorem sent_iff_headerThenQuit :
    ((Machine.exec step headerThenQuit init).get (by decide +kernel)).leave.output.outBuffer.data = [] ∧
      (([.onData [65, 77], .flush, .onData [81]] : List Handler.Call).foldl Handler.call Handler.init).socket
        ++ (([.onData [65, 77], .flush, .onData [81]] : List Handler.Call).foldl Handler.call
          Handler.init).outBuffer.data = [65, 77, 81] :=
  ⟨(sent_iff.2.2 headerThenQuit _ (Option.some_get _).symm (by decide +kernel)).1,
    sent_iff.2.1 [.onData [65, 77], .flush, .onData [81]] (by
      intro data hdata
      simp only [List.mem_cons, Handler.Call.onData.injEq, reduceCtorEq, List.not_mem_nil, or_false, false_or] at hdata
      rcases hdata with rfl | rfl
      all_goals decide)⟩

end Poco

end NewOrbit.Rabbit
