import NewOrbit.Lib.CString
import NewOrbit.Lib.Lossy

/-!
# `Rabbit.PocoHandler` — the output buffer of `SimplePocoHandler`

`onData` collects the frames of AMQP-CPP in a buffer of fixed size, which `loop` flushes to the socket between
two callbacks; a frame that does not fit any more flushes the buffer itself and leaves its rest behind.
`onData_stream` is what the rest of the program relies on: as long as no frame is longer than the buffer, what
the socket was given followed by what is buffered is everything `onData` received, in order.
-/

namespace NewOrbit.Rabbit
open CString

def BUFFER_SIZE : Nat := 8 * 1024 * 1024

/-! ## `Buffer` -/

/-- `m_data` has a fixed size; `data` is its first `m_use` bytes. -/
structure Buffer where
  size : Nat
  data : Bytes
  fits : data.length ≤ size

namespace Buffer

def empty (size : Nat) : Buffer := ⟨size, [], Nat.zero_le size⟩

/-- How many of `n` bytes a `write` takes. -/
def room (b : Buffer) (n : Nat) : Nat :=
  -- A full buffer takes nothing, one with room for everything takes all, any other is filled up.
  if b.data.length = b.size then 0
  else if n + b.data.length < b.size then n
  else b.size - b.data.length

theorem room_le (b : Buffer) (n : Nat) : b.data.length + b.room n ≤ b.size := by
  have := b.fits
  unfold room
  split
  · omega
  · split <;> omega

def write (b : Buffer) (data : Bytes) : Buffer × Nat :=
  ({ size := b.size
     data := b.data ++ data.take (b.room data.length)
     fits := by
      have := b.room_le data.length
      rw [List.length_append, List.length_take]
      omega }, b.room data.length)

def drain (b : Buffer) : Buffer := empty b.size

def available (b : Buffer) : Nat := b.data.length

/-- Drop the first `count` bytes; `none` is the failing assertion `count < m_use`. -/
def shl (b : Buffer) (count : Nat) : Option Buffer :=
  if count < b.available then
    some { b with
      data := b.data.drop count
      fits := by
        have := b.fits
        rw [List.length_drop]
        omega }
  else none

/-- The free space. -/
def free (b : Buffer) : Nat := b.size - b.data.length

/-- A `write` takes everything or fills the buffer. -/
theorem room_eq_min (b : Buffer) (n : Nat) : b.room n = min n b.free := by
  have := b.fits
  unfold room free
  split
  · omega
  · split <;> omega

theorem data_write (b : Buffer) (data : Bytes) : (b.write data).1.data = b.data ++ data.take b.free := by
  show b.data ++ data.take (b.room data.length) = _
  rw [room_eq_min, Nat.min_comm, ← List.take_eq_take_min]

end Buffer

/-! ## The handler -/

/-- The output side: the buffer, and every byte `sendBytes` was given so far. -/
structure Handler where
  outBuffer : Buffer
  socket    : Bytes

namespace Handler

def init : Handler := ⟨.empty BUFFER_SIZE, []⟩

def sendDataFromBuffer (h : Handler) : Handler :=
  if h.outBuffer.available = 0 then h
  else { outBuffer := h.outBuffer.drain, socket := h.socket ++ h.outBuffer.data }

def onData (h : Handler) (data : Bytes) : Handler :=
  let (outBuffer, writen) := h.outBuffer.write data
  let h := { h with outBuffer }
  if writen = data.length then h
  else
    let h := h.sendDataFromBuffer
    -- The result of the second `write` is not looked at: what does not fit is lost.
    { h with outBuffer := (h.outBuffer.write (data.drop writen)).1 }

/-- The socket's bytes, then the buffered ones. -/
def stream (h : Handler) : Bytes := h.socket ++ h.outBuffer.data

theorem stream_write (h : Handler) (data : Bytes) :
    stream { h with outBuffer := (h.outBuffer.write data).1 } = h.stream ++ data.take h.outBuffer.free := by
  rw [stream, Buffer.data_write, stream, List.append_assoc]

@[simp] theorem stream_sendDataFromBuffer (h : Handler) : h.sendDataFromBuffer.stream = h.stream := by
  unfold sendDataFromBuffer
  split
  · rfl
  · simp [stream, Buffer.drain, Buffer.empty]

@[simp] theorem size_sendDataFromBuffer (h : Handler) : h.sendDataFromBuffer.outBuffer.size = h.outBuffer.size := by
  unfold sendDataFromBuffer
  split <;> rfl

/-- Nothing is left in the buffer after a flush. -/
theorem data_sendDataFromBuffer (h : Handler) : h.sendDataFromBuffer.outBuffer.data = [] := by
  unfold sendDataFromBuffer
  split
  · exact List.eq_nil_of_length_eq_zero ‹_›
  · rfl

@[simp] theorem size_onData (h : Handler) (data : Bytes) : (h.onData data).outBuffer.size = h.outBuffer.size := by
  unfold onData
  dsimp only
  split
  · rfl
  · exact size_sendDataFromBuffer _

/-- A flushed buffer is free from end to end. -/
theorem free_sendDataFromBuffer (h : Handler) : h.sendDataFromBuffer.outBuffer.free = h.outBuffer.size := by
  rw [Buffer.free, data_sendDataFromBuffer, size_sendDataFromBuffer, List.length_nil, Nat.sub_zero]

/-- **What `onData` takes of a chunk**: what the buffer has room for, and once more the size of the buffer. -/
theorem onData_stream_take (h : Handler) (data : Bytes) :
    (h.onData data).stream = h.stream ++ data.take (h.outBuffer.free + h.outBuffer.size) := by
  unfold onData
  dsimp only
  split
  · rename_i hall
    have hfree : data.length ≤ h.outBuffer.free := by
      have hroom : h.outBuffer.room data.length = data.length := hall
      rw [Buffer.room_eq_min] at hroom
      omega
    rw [stream_write, List.take_of_length_le hfree, List.take_of_length_le (by omega)]
  · -- The buffer is full now: it is flushed, and the rest of the chunk meets the empty buffer.
    rename_i hsome
    have hroom : (h.outBuffer.write data).2 = h.outBuffer.free := by
      show h.outBuffer.room data.length = _
      have hne : ¬ h.outBuffer.room data.length = data.length := hsome
      rw [Buffer.room_eq_min] at hne ⊢
      omega
    rw [hroom]
    generalize hh : ({ h with outBuffer := (h.outBuffer.write data).1 } : Handler) = h1
    have hstream : h1.stream = h.stream ++ data.take h.outBuffer.free := by rw [← hh, stream_write]
    have hsize : h1.outBuffer.size = h.outBuffer.size := by rw [← hh]; rfl
    calc stream { h1.sendDataFromBuffer with
          outBuffer := (h1.sendDataFromBuffer.outBuffer.write (data.drop h.outBuffer.free)).1 }
        = h1.sendDataFromBuffer.stream ++ (data.drop h.outBuffer.free).take h.outBuffer.size := by
          rw [stream_write, free_sendDataFromBuffer, hsize]
      _ = h.stream ++ (data.take h.outBuffer.free ++ (data.drop h.outBuffer.free).take h.outBuffer.size) := by
          rw [stream_sendDataFromBuffer, hstream, List.append_assoc]
      _ = h.stream ++ data.take (h.outBuffer.free + h.outBuffer.size) := by rw [List.take_add]

/-- **A chunk no longer than the buffer goes into the stream whole.** -/
theorem onData_stream (h : Handler) (data : Bytes) (hlen : data.length ≤ h.outBuffer.size) :
    (h.onData data).stream = h.stream ++ data := by
  rw [onData_stream_take, List.take_of_length_le (by omega)]

/-- The last bytes of a chunk are in the buffer until the next flush. -/
theorem data_onData_ne_nil (h : Handler) {data : Bytes} (hne : data ≠ []) (hsize : 0 < h.outBuffer.size) :
    (h.onData data).outBuffer.data ≠ [] := by
  have hpos : 0 < data.length := List.length_pos_iff.mpr hne
  have hfill : ∀ (b : Buffer) (bs : Bytes), 0 < bs.length → 0 < b.free → (b.write bs).1.data ≠ [] := by
    intro b bs hbs hfree hnil
    have hlen := congrArg List.length (b.data_write bs)
    rw [hnil, List.length_append, List.length_take, List.length_nil] at hlen
    omega
  unfold onData
  dsimp only
  split
  · rename_i hall
    refine hfill _ _ hpos ?_
    have hroom : h.outBuffer.room data.length = data.length := hall
    rw [Buffer.room_eq_min] at hroom
    omega
  · rename_i hsome
    have hle : h.outBuffer.room data.length ≤ data.length := by
      rw [Buffer.room_eq_min]
      exact Nat.min_le_left _ _
    have hne' : ¬ h.outBuffer.room data.length = data.length := hsome
    refine hfill _ _ ?_ ?_
    · rw [List.length_drop]
      show 0 < data.length - h.outBuffer.room data.length
      omega
    · rw [free_sendDataFromBuffer]
      exact hsize

/-! ## Any sequence of calls -/

/-- What is called on the output side: `onData` with a chunk, or a flush of the loop. -/
inductive Call
  | onData (data : Bytes)
  | flush
  deriving DecidableEq, Repr

def Call.chunk : Call → Bytes
  | onData data => data
  | flush       => []

def call (h : Handler) : Call → Handler
  | .onData data => h.onData data
  | .flush       => h.sendDataFromBuffer

@[simp] theorem size_call (h : Handler) (c : Call) : (h.call c).outBuffer.size = h.outBuffer.size := by
  cases c with
  | onData data => exact h.size_onData data
  | flush => exact h.size_sendDataFromBuffer

theorem size_calls (h : Handler) (calls : List Call) : (calls.foldl call h).outBuffer.size = h.outBuffer.size := by
  induction calls generalizing h with
  | nil => rfl
  | cons c cs ih => rw [List.foldl_cons, ih, size_call]

/-- The output side takes of every chunk what the buffer has room for, and once more the size of the buffer. -/
theorem stream_takes : Lossy.Takes (fun h c => some (call h c)) stream Call.chunk
    fun h _ => h.outBuffer.free + h.outBuffer.size := by
  intro h c h' hcall
  obtain rfl : h.call c = h' := Option.some.inj hcall
  cases c with
  | onData data => exact h.onData_stream_take data
  | flush =>
      show h.sendDataFromBuffer.stream = _
      rw [stream_sendDataFromBuffer, Call.chunk, List.take_nil, List.append_nil]

/-- Every chunk fits the free space at its call and one more buffer. -/
def ChunksFit (calls : List Call) : Prop :=
  ∀ before data after, calls = before ++ .onData data :: after →
    data.length ≤ (before.foldl call init).outBuffer.free + BUFFER_SIZE

/-- **What was handed over is sent or kept exactly when every chunk fitted.** -/
theorem stream_calls_iff (calls : List Call) :
    (calls.foldl call init).stream = calls.flatMap Call.chunk ↔ ChunksFit calls := by
  have hstream := stream_takes.stream_eq_iff (Machine.exec_some call calls init)
  rw [show init.stream = [] from rfl, List.nil_append] at hstream
  have hsize : ∀ before : List Call, (before.foldl call init).outBuffer.size = BUFFER_SIZE := size_calls init
  refine hstream.trans ⟨fun heach before data after hcalls => ?_, fun hfit before c after hcalls h hrun => ?_⟩
  · rw [← hsize before]
    exact heach before (.onData data) after hcalls _ (Machine.exec_some call before init)
  · obtain rfl : before.foldl call init = h := Option.some.inj ((Machine.exec_some call before init).symm.trans hrun)
    cases c with
    | flush => exact Nat.zero_le _
    | onData data =>
        show data.length ≤ _ + (before.foldl call init).outBuffer.size
        rw [hsize before]
        exact hfit before data after hcalls

/-- Chunks no longer than the buffer fit in any case. -/
theorem chunksFit_of_le {calls : List Call} (h : ∀ data, .onData data ∈ calls → data.length ≤ BUFFER_SIZE) :
    ChunksFit calls := by
  rintro before data after rfl
  have hdata := h data (List.mem_append_right _ List.mem_cons_self)
  omega

end Handler

end NewOrbit.Rabbit
