import NewOrbit.Rabbit.Receive

/-!
# `Rabbit.Send` — the client

`send.cpp` builds a request on every tick of its timer, remembers it under a fresh uuid, and publishes it with
the uuid as correlation id and its temporary queue as reply-to; of the replies that come in it accepts those
whose correlation id it remembers.
-/

namespace NewOrbit.Rabbit
open CString

/-- What one tick reads from outside: three `rand()`, the address and the clock. -/
structure Draw where
  rand1 : Nat
  rand2 : Nat
  rand3 : Nat
  ip    : String
  clock : Clock

def addInformation (d : Draw) (j : Json) (cid : String) : Except Fault Json := do
  let j ← j.put "num1" (.number_integer (d.rand1 % 10 + 1))
  let j ← j.put "num2" (.number_integer (d.rand2 % 1000))
  let j ← j.put "cal_type" (.number_integer (d.rand3 % 2 + 1))
  let j ← j.put "client_ip" (.string d.ip)
  let j ← j.put "client_ver" (.string "V2")
  let j ← j.put "cid" (.string cid)
  j.put "request_time" (.string (getCurrentTime d.clock))

/-- `map<string, string> messagesSent`. -/
abbrev MessagesSent := List (Bytes × Bytes)

/-- `map::insert` leaves a key that is there. -/
def MessagesSent.insert (sent : MessagesSent) (key val : Bytes) : MessagesSent :=
  if (sent.lookup key).isSome then sent else sent ++ [(key, val)]

/-- The timer's callback: the JSON it builds, what it remembers, and the request it publishes. -/
def tick (h : Host) (d : Draw) (correlationId : String) (tempQueueName : Bytes) (messagesSent : MessagesSent) :
    Except Fault (Json × MessagesSent × Message) := do
  let mes_json ← addInformation d .null correlationId
  let message := h.dump mes_json
  return (mes_json, messagesSent.insert (bytes correlationId) message,
    ⟨message, bytes correlationId, tempQueueName⟩)

/-- `receiveCallback`: the reply is looked at if its correlation id is remembered. -/
def receiveCallback (messagesSent : MessagesSent) (m : Message) : Bool :=
  (messagesSent.lookup m.correlationID).isSome

/-! ## What a tick builds -/

def requestFields (d : Draw) (cid : String) : List (String × Json) :=
  Fields.set "request_time" (.string (getCurrentTime d.clock)) (Fields.set "cid" (.string cid)
    (Fields.set "client_ver" (.string "V2") (Fields.set "client_ip" (.string d.ip)
      (Fields.set "cal_type" (.number_integer (d.rand3 % 2 + 1))
        (Fields.set "num2" (.number_integer (d.rand2 % 1000)) [("num1", .number_integer (d.rand1 % 10 + 1))])))))

theorem tick_eq (h : Host) (d : Draw) (correlationId : String) (tempQueueName : Bytes) (sent : MessagesSent) :
    tick h d correlationId tempQueueName sent = .ok (.object (requestFields d correlationId),
      sent.insert (bytes correlationId) (h.dump (.object (requestFields d correlationId))),
      ⟨h.dump (.object (requestFields d correlationId)), bytes correlationId, tempQueueName⟩) := rfl

theorem MessagesSent.lookup_insert_self {sent : MessagesSent} {key val : Bytes} (hnew : sent.lookup key = none) :
    (sent.insert key val).lookup key = some val := by
  simp [insert, hnew, List.lookup_append]

theorem MessagesSent.lookup_insert_of_ne {sent : MessagesSent} {key key' val : Bytes} (hne : key' ≠ key) :
    (sent.insert key val).lookup key' = sent.lookup key' := by
  unfold insert
  split
  · rfl
  · have hfalse : (key' == key) = false := by simpa using hne
    simp [List.lookup_append, List.lookup_cons, hfalse]

/-- What is remembered stays remembered. -/
theorem MessagesSent.lookup_insert_of_some {sent : MessagesSent} {key key' val val' : Bytes}
    (h : sent.lookup key' = some val') : (sent.insert key val).lookup key' = some val' := by
  unfold insert
  split
  · exact h
  · simp [List.lookup_append, h]

/-- A tick for concrete runs. -/
def sampleDraw : Draw := ⟨2, 4, 0, "10.0.0.7", sampleEnv.clock⟩

end NewOrbit.Rabbit
