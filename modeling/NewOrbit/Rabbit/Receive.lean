import NewOrbit.Rabbit.Duration

/-!
# `Rabbit.Receive` — the worker's callback, stage by stage

`receive.cpp` answers one delivery of the `requests` queue in five effects: a document inserted into the audit
collection, the reply published, the delivery acked, and the document updated, after the request has been
parsed. `onReceived` runs them in order; the functions before it are the source's, and each has one lemma that
says when it returns and what it changes. What the stages read from outside is an `Env`; `json::parse`,
`json::dump` and `bsoncxx::from_json` are the `Host` they call.
-/

namespace NewOrbit.Rabbit
open CString

/-! ## The calculation -/

def doCalculation (num1 num2 calc_type : Int) : Option Int :=
  -- `generatePrimes(1200000)` prints and changes nothing.
  if calc_type = 1 then int (num1 + num2) else (int (num1 + num2)).bind fun n => int (n * 1000)

theorem doCalculation_eq_some {num1 num2 calc_type n : Int} :
    doCalculation num1 num2 calc_type = some n ↔
      InInt (num1 + num2) ∧ (calc_type = 1 ∧ n = num1 + num2 ∨
        calc_type ≠ 1 ∧ InInt ((num1 + num2) * 1000) ∧ n = (num1 + num2) * 1000) := by
  unfold doCalculation
  by_cases h1 : calc_type = 1
  · simp [h1, eq_comm]
  · simp only [h1, if_false, Option.bind_eq_some_iff, int_eq_some, false_and, false_or]
    constructor
    · rintro ⟨m, ⟨hm, rfl⟩, hn, rfl⟩
      exact ⟨hm, h1, hn, rfl⟩
    · rintro ⟨hm, -, hn, rfl⟩
      exact ⟨_, ⟨hm, rfl⟩, hn, rfl⟩

/-! ## The audit collection -/

/-- A document, as the fields it was read from; `_id` and the order of the fields are read by nothing. -/
abbrev Doc := List (String × Json)

/-- The filter `{"cid": cid}`. -/
def hasCid (cid : String) (d : Doc) : Bool :=
  match Fields.get "cid" d with
  | some (.string c) => c == cid
  | _                => false

@[simp] theorem hasCid_iff {cid : String} {d : Doc} :
    hasCid cid d = true ↔ Fields.get "cid" d = some (.string cid) := by
  unfold hasCid
  split <;> simp_all

/-- The libraries the callback calls. `from_json` is `bsoncxx::from_json` applied to the dumped text. -/
structure Host where
  parse     : Bytes → Except Fault Json
  dump      : Json → Bytes
  from_json : Json → Except Fault Doc

/-- What the callback reads from outside while it answers one delivery; the three database calls succeed
    (`none`) or throw. -/
structure Env where
  ip         : String
  clock      : Clock
  insert_one : Option Fault
  find_one   : Option Fault
  update_one : Option Fault

/-- `from_json` keeps the two fields that the collection is searched and read by. -/
structure Host.Lawful (h : Host) : Prop where
  cid : ∀ fs d s, h.from_json (.object fs) = .ok d → Fields.get "cid" fs = some (.string s) →
    Fields.get "cid" d = some (.string s)
  response_sent : ∀ fs d b, h.from_json (.object fs) = .ok d →
    Fields.get "response_sent" fs = some (.boolean b) → Fields.get "response_sent" d = some (.boolean b)

def call : Option Fault → Except Fault Unit
  | none   => .ok ()
  | some e => .error e

@[simp] theorem call_eq_ok {o : Option Fault} {u : Unit} : call o = .ok u ↔ o = none := by
  cases o <;> simp [call]

def auditRequest (h : Host) (env : Env) (j : Json) (requestsCollection : List Doc) :
    Except Fault (Json × List Doc) := do
  let j ← j.put "response_sent" (.boolean false)
  let d ← h.from_json j
  call env.insert_one
  return (j, requestsCollection ++ [d])

/-- `update_one`: the first document the filter selects. -/
def updateOne (sel : Doc → Bool) (f : Doc → Doc) : List Doc → List Doc
  | []      => []
  | d :: ds => if sel d then f d :: ds else d :: updateOne sel f ds

/-- The `$set` of `auditResponse`. -/
def setResponse (response_time duration : String) (response : Int) (d : Doc) : Doc :=
  Fields.set "cal_duration" (.string duration)
    (Fields.set "response" (.number_integer response)
      (Fields.set "response_time" (.string response_time)
        (Fields.set "response_sent" (.boolean true) d)))

def auditResponse (env : Env) (j : Json) (cid : String) (requestsCollection : List Doc) :
    Except Fault (List Doc) := do
  call env.find_one
  if requestsCollection.any (hasCid cid) then
    let response_time ← j.strAt "response_time"
    let duration ← j.strAt "cal_duration"
    let response ← j.intAt "response"
    call env.update_one
    return updateOne (hasCid cid) (setResponse response_time duration response) requestsCollection
  else
    return requestsCollection

/-! ## The callback -/

/-- `AMQP::Message`, as the callback reads it. -/
structure Message where
  body          : Bytes
  correlationID : Bytes
  replyTo       : Bytes
  deriving DecidableEq, Repr

def addServerMetaData (env : Env) (j : Json) : Except Fault Json := do
  let j ← j.put "server_ver" (.string "V1")
  let j ← j.put "server_ip" (.string env.ip)
  let j ← j.put "response_time" (.string (getCurrentTime env.clock))
  let duration ← getCalDuration (← j.strAt "request_time") (← j.strAt "response_time")
  j.put "cal_duration" (.string duration)

/-- The callback up to the first effect: the parsed body and its `cid`. -/
def request (h : Host) (m : Message) : Except Fault (Json × String) := do
  let j ← h.parse m.body
  let cid ← j.strAt "cid"
  return (j, cid)

/-- The reply's JSON. -/
def respond (env : Env) (j : Json) : Except Fault Json := do
  let res ← orFault .undefined (doCalculation (← j.intAt "num1") (← j.intAt "num2") (← j.intAt "cal_type"))
  let j ← j.put "response" (.number_integer res)
  let j ← addServerMetaData env j
  j.put "response_sent" (.boolean true)

/-- The JSON that answers a message: `auditRequest` has marked the request before it is answered. -/
def reply (h : Host) (env : Env) (m : Message) : Except Fault Json := do
  let (j, _) ← request h m
  let j ← j.put "response_sent" (.boolean false)
  respond env j

/-- What the callback hands to the channel: a publish to the default exchange, or an ack. -/
inductive Sent where
  | publish (routingKey : Bytes) (env : Message)
  | ack (deliveryTag : Nat)
  deriving DecidableEq, Repr

/-- The envelope of a reply carries the request's correlation id and no reply-to. -/
def envelope (h : Host) (m : Message) (j : Json) : Message :=
  ⟨h.dump j, m.correlationID, []⟩

/-- What one worker changes outside of itself. -/
structure World where
  requests : List Doc
  channel  : List Sent

def onReceived (h : Host) (env : Env) (m : Message) (deliveryTag : Nat) (w : World) :
    World × Except Fault Unit :=
  match request h m with
  | .error e     => (w, .error e)
  | .ok (j, _)   =>
    match auditRequest h env j w.requests with
    | .error e       => (w, .error e)
    | .ok (j, requests) =>
      match respond env j with
      -- The document stays in the collection, and nothing is published.
      | .error e => (⟨requests, w.channel⟩, .error e)
      | .ok j    =>
        let channel := w.channel ++ [.publish m.replyTo (envelope h m j), .ack deliveryTag]
        match j.strAt "cid" >>= fun cid => auditResponse env j cid requests with
        -- The reply and the ack are out, and the document is not marked.
        | .error e    => (⟨requests, channel⟩, .error e)
        | .ok requests => (⟨requests, channel⟩, .ok ())

/-! ## When the stages return, and what they leave -/

theorem request_eq_ok {h : Host} {m : Message} {j : Json} {cid : String} :
    request h m = .ok (j, cid) ↔
      h.parse m.body = .ok j ∧ ∃ fs, j = .object fs ∧ Fields.get "cid" fs = some (.string cid) := by
  simp only [request, bind_eq_ok, pure, Except.pure, Except.ok.injEq, Prod.mk.injEq]
  constructor
  · rintro ⟨_, hparse, _, hcid, rfl, rfl⟩
    exact ⟨hparse, Json.strAt_eq_ok.mp hcid⟩
  · rintro ⟨hparse, hcid⟩
    exact ⟨j, hparse, cid, Json.strAt_eq_ok.mpr hcid, rfl, rfl⟩

/-- The fields of a request as the audit collection records it. -/
def auditedFields (fs : List (String × Json)) : List (String × Json) :=
  Fields.set "response_sent" (.boolean false) fs

theorem auditRequest_eq_ok {h : Host} {env : Env} {fs : List (String × Json)} {ds ds' : List Doc} {j : Json} :
    auditRequest h env (.object fs) ds = .ok (j, ds') ↔
      j = .object (auditedFields fs) ∧ env.insert_one = none ∧
        ∃ d, h.from_json (.object (auditedFields fs)) = .ok d ∧ ds' = ds ++ [d] := by
  simp only [auditRequest, Json.put_object, bind_eq_ok, Except.ok.injEq, exists_eq_left', call_eq_ok, pure,
    Except.pure, Prod.mk.injEq, auditedFields]
  constructor
  · rintro ⟨d, hd, _, hins, rfl, rfl⟩
    exact ⟨rfl, hins, d, hd, rfl⟩
  · rintro ⟨rfl, hins, d, hd, rfl⟩
    exact ⟨d, hd, (), hins, rfl, rfl⟩

/-- The three numbers of a request, and the result computed from them. -/
def Calculated (fs : List (String × Json)) (res : Int) : Prop :=
  ∃ num1 num2 cal_type, Json.intAt "num1" (.object fs) = .ok num1 ∧ Json.intAt "num2" (.object fs) = .ok num2 ∧
    Json.intAt "cal_type" (.object fs) = .ok cal_type ∧ doCalculation num1 num2 cal_type = some res

/-- Marking a request as recorded changes none of its own fields. -/
theorem get_auditedFields {key : String} (hkey : key ≠ "response_sent") (fs : List (String × Json)) :
    Fields.get key (auditedFields fs) = Fields.get key fs := Fields.get_set_of_ne hkey _ fs

theorem intAt_auditedFields {key : String} (hkey : key ≠ "response_sent") (fs : List (String × Json)) :
    Json.intAt key (.object (auditedFields fs)) = Json.intAt key (.object fs) := by
  simp only [Json.intAt, Json.index, get_auditedFields hkey]

theorem calculated_auditedFields {fs : List (String × Json)} {res : Int} :
    Calculated (auditedFields fs) res ↔ Calculated fs res := by
  simp only [Calculated, intAt_auditedFields (show "num1" ≠ "response_sent" by decide),
    intAt_auditedFields (show "num2" ≠ "response_sent" by decide),
    intAt_auditedFields (show "cal_type" ≠ "response_sent" by decide)]

/-- The fields of a reply: those of the request, and what the worker adds. -/
def replyFields (env : Env) (res : Int) (duration : String) (fs : List (String × Json)) : List (String × Json) :=
  Fields.set "response_sent" (.boolean true) (Fields.set "cal_duration" (.string duration)
    (Fields.set "response_time" (.string (getCurrentTime env.clock)) (Fields.set "server_ip" (.string env.ip)
      (Fields.set "server_ver" (.string "V1") (Fields.set "response" (.number_integer res) fs)))))

/-- A field the worker does not write is the request's. -/
theorem get_replyFields {env : Env} {res : Int} {duration key : String} {fs : List (String × Json)}
    (hkey : key ∉ ["response_sent", "cal_duration", "response_time", "server_ip", "server_ver", "response"]) :
    Fields.get key (replyFields env res duration fs) = Fields.get key fs := by
  simp only [List.mem_cons, List.not_mem_nil, or_false, not_or] at hkey
  obtain ⟨h1, h2, h3, h4, h5, h6⟩ := hkey
  simp only [replyFields, Fields.get_set_of_ne h1, Fields.get_set_of_ne h2, Fields.get_set_of_ne h3,
    Fields.get_set_of_ne h4, Fields.get_set_of_ne h5, Fields.get_set_of_ne h6]

theorem get_response_replyFields {env : Env} {res : Int} {duration : String} {fs : List (String × Json)} :
    Fields.get "response" (replyFields env res duration fs) = some (.number_integer res) := by
  rw [replyFields, Fields.get_set_of_ne (by decide), Fields.get_set_of_ne (by decide),
    Fields.get_set_of_ne (by decide), Fields.get_set_of_ne (by decide), Fields.get_set_of_ne (by decide),
    Fields.get_set_self]

theorem strAt_object {key s : String} {fs : List (String × Json)} :
    Json.strAt key (.object fs) = .ok s ↔ Fields.get key fs = some (.string s) := by
  rw [Json.strAt_eq_ok]
  constructor
  · rintro ⟨_, heq, h⟩
    cases heq
    exact h
  · intro h
    exact ⟨fs, rfl, h⟩

theorem addServerMetaData_eq_ok {env : Env} {fs : List (String × Json)} {j : Json} :
    addServerMetaData env (.object fs) = .ok j ↔
      ∃ request_time duration, Fields.get "request_time" fs = some (.string request_time) ∧
        getCalDuration request_time (getCurrentTime env.clock) = .ok duration ∧
        j = .object (Fields.set "cal_duration" (.string duration)
          (Fields.set "response_time" (.string (getCurrentTime env.clock))
            (Fields.set "server_ip" (.string env.ip) (Fields.set "server_ver" (.string "V1") fs)))) := by
  have hreq : ∀ s, Json.strAt "request_time" (.object (Fields.set "response_time"
      (.string (getCurrentTime env.clock)) (Fields.set "server_ip" (.string env.ip)
        (Fields.set "server_ver" (.string "V1") fs)))) = .ok s ↔
      Fields.get "request_time" fs = some (.string s) := by
    intro s
    rw [strAt_object, Fields.get_set_of_ne (by decide), Fields.get_set_of_ne (by decide),
      Fields.get_set_of_ne (by decide)]
  simp only [addServerMetaData, Json.put_object, bind_eq_ok, Except.ok.injEq, exists_eq_left', hreq,
    strAt_object, Fields.get_set_self, Option.some.injEq, Json.string.injEq]
  constructor
  · rintro ⟨s, hs, duration, hdur, rfl⟩
    exact ⟨s, duration, hs, hdur, rfl⟩
  · rintro ⟨s, duration, hs, hdur, rfl⟩
    exact ⟨s, hs, duration, hdur, rfl⟩

theorem respond_eq_ok {env : Env} {fs : List (String × Json)} {j : Json} :
    respond env (.object fs) = .ok j ↔
      ∃ res request_time duration, Calculated fs res ∧ Fields.get "request_time" fs = some (.string request_time) ∧
        getCalDuration request_time (getCurrentTime env.clock) = .ok duration ∧
        j = .object (replyFields env res duration fs) := by
  simp only [respond, bind_eq_ok, orFault_eq_ok, Json.put_object, Except.ok.injEq, exists_eq_left',
    addServerMetaData_eq_ok, Calculated]
  constructor
  · rintro ⟨n1, h1, n2, h2, t, h3, res, hres, _, ⟨rt, dur, hrt, hdur, rfl⟩, hj⟩
    rw [Fields.get_set_of_ne (by decide)] at hrt
    rw [Json.put_object, Except.ok.injEq] at hj
    exact ⟨res, rt, dur, ⟨n1, n2, t, h1, h2, h3, hres⟩, hrt, hdur, hj.symm⟩
  · rintro ⟨res, rt, dur, ⟨n1, n2, t, h1, h2, h3, hres⟩, hrt, hdur, rfl⟩
    have hrt' : Fields.get "request_time" (Fields.set "response" (.number_integer res) fs) =
        some (.string rt) := by
      rw [Fields.get_set_of_ne (by decide)]
      exact hrt
    exact ⟨n1, h1, n2, h2, t, h3, res, hres, _, ⟨rt, dur, hrt', hdur, rfl⟩, rfl⟩

/-- The reply to a message: the fields of its body, with the result computed from its numbers. -/
theorem reply_eq_ok {h : Host} {env : Env} {m : Message} {j : Json} :
    reply h env m = .ok j ↔ ∃ fs cid res request_time duration, h.parse m.body = .ok (.object fs) ∧
      Fields.get "cid" fs = some (.string cid) ∧ Calculated fs res ∧
      Fields.get "request_time" fs = some (.string request_time) ∧
      getCalDuration request_time (getCurrentTime env.clock) = .ok duration ∧
      j = .object (replyFields env res duration (auditedFields fs)) := by
  simp only [reply, bind_eq_ok]
  constructor
  · rintro ⟨⟨j0, cid⟩, hreq, j1, hput, hresp⟩
    obtain ⟨hparse, fs, rfl, hcid⟩ := request_eq_ok.mp hreq
    cases hput
    obtain ⟨res, rt, duration, hres, hrt, hdur, rfl⟩ := respond_eq_ok.mp hresp
    rw [Fields.get_set_of_ne (by decide)] at hrt
    exact ⟨fs, cid, res, rt, duration, hparse, hcid, calculated_auditedFields.mp hres, hrt, hdur, rfl⟩
  · rintro ⟨fs, cid, res, rt, duration, hparse, hcid, hres, hrt, hdur, rfl⟩
    refine ⟨(.object fs, cid), request_eq_ok.mpr ⟨hparse, fs, rfl, hcid⟩, .object (auditedFields fs), rfl, ?_⟩
    exact respond_eq_ok.mpr ⟨res, rt, duration, calculated_auditedFields.mpr hres,
      by rw [get_auditedFields (by decide)]; exact hrt, hdur, rfl⟩

/-- On the reply's fields `auditResponse` fails only where the database does. -/
theorem auditResponse_eq_ok {env env' : Env} {res : Int} {duration cid : String} {fs : List (String × Json)}
    {ds ds' : List Doc} :
    auditResponse env' (.object (replyFields env res duration fs)) cid ds = .ok ds' ↔
      env'.find_one = none ∧
        (ds.any (hasCid cid) = true ∧ env'.update_one = none ∧
            ds' = updateOne (hasCid cid) (setResponse (getCurrentTime env.clock) duration (toInt res)) ds ∨
          ds.any (hasCid cid) = false ∧ ds' = ds) := by
  have htime : Json.strAt "response_time" (.object (replyFields env res duration fs)) =
      .ok (getCurrentTime env.clock) := by
    rw [strAt_object, replyFields, Fields.get_set_of_ne (by decide), Fields.get_set_of_ne (by decide),
      Fields.get_set_self]
  have hdur : Json.strAt "cal_duration" (.object (replyFields env res duration fs)) = .ok duration := by
    rw [strAt_object, replyFields, Fields.get_set_of_ne (by decide), Fields.get_set_self]
  have hres : Json.intAt "response" (.object (replyFields env res duration fs)) = .ok (toInt res) := by
    exact Json.intAt_eq_ok.mpr ⟨_, .number_integer res, rfl, get_response_replyFields, rfl⟩
  cases hany : ds.any (hasCid cid) with
  | true =>
      simp only [auditResponse, hany, htime, hdur, hres, if_true, bind_eq_ok, call_eq_ok, Except.ok.injEq,
        exists_eq_left', pure, Except.pure, true_and, false_and, or_false, Bool.true_eq_false]
      constructor
      · rintro ⟨_, hfind, _, hupdate, rfl⟩
        exact ⟨hfind, hupdate, rfl⟩
      · rintro ⟨hfind, hupdate, rfl⟩
        exact ⟨(), hfind, (), hupdate, rfl⟩
  | false =>
      simp only [auditResponse, hany, Bool.false_eq_true, if_false, bind_eq_ok, call_eq_ok, Except.ok.injEq, pure,
        Except.pure, true_and, false_and, false_or]
      constructor
      · rintro ⟨_, hfind, rfl⟩
        exact ⟨hfind, rfl⟩
      · rintro ⟨hfind, rfl⟩
        exact ⟨(), hfind, rfl⟩

/-! ## A host for concrete runs

The texts it reads are a given list of values as it prints them; `flatText` prints an object of strings,
integers and booleans that need no escape. -/

def flatText : Json → String
  | .boolean b        => if b then "true" else "false"
  | .number_integer n => toString n
  | .string s         => "\"" ++ s ++ "\""
  | .object fs        => "\x7b" ++ ",".intercalate (fs.map fun kv => "\"" ++ kv.1 ++ "\":" ++ scalarText kv.2) ++ "\x7d"
  | _                 => "null"
where
  scalarText : Json → String
    | .boolean b        => if b then "true" else "false"
    | .number_integer n => toString n
    | .string s         => "\"" ++ s ++ "\""
    | _                 => "null"

def flatHost (texts : List Json) : Host where
  parse b := match texts.find? (fun j => bytes (flatText j) = b) with
    | some j => .ok j
    | none   => .error (.parse_error 101 "syntax error while parsing value")
  dump j := bytes (flatText j)
  from_json
    | .object fs => .ok fs
    | _          => .error (.bson_exception "not an object")

theorem flatHost_lawful (texts : List Json) : (flatHost texts).Lawful where
  cid fs d s hd hs := by cases hd; exact hs
  response_sent fs d b hd hb := by cases hd; exact hb

/-- A request as the client builds it. -/
def sampleFields : List (String × Json) :=
  [("cal_type", .number_integer 1), ("cid", .string "c1"), ("client_ip", .string "10.0.0.7"),
   ("client_ver", .string "V2"), ("num1", .number_integer 3), ("num2", .number_integer 4),
   ("request_time", .string "Tue Aug 18 2020 08:51:13.539")]

def sampleEnv : Env where
  ip := "10.0.0.9"
  clock := ⟨31874000000, by decide, ⟨2, 7, 18, 8, 51, 14, 2020⟩⟩
  insert_one := none
  find_one := none
  update_one := none

def sampleHost : Host := flatHost [.object sampleFields, .object []]

def sampleMessage (body : String) : Message := ⟨bytes body, bytes "c1", bytes "amq.gen-1"⟩

end NewOrbit.Rabbit
