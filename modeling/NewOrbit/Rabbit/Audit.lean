import NewOrbit.Rabbit.Acks
import NewOrbit.Rabbit.Documents

/-!
# `Rabbit.Audit` — the audit collection across crashes and redeliveries

Any number of workers take requests off the queue, over the connections of `Rabbit.Acks`: the callback records the
request, hands the reply and the ack to the output buffer, and marks the record; the buffer is flushed only once the
callback has returned. A worker may crash before every one of these steps, with part of what it has sent still on its
way, and the broker redelivers what it has no ack for. The broker's redelivered flag is not read, `insert_one` is
unconditional and `update_one` touches one document, so a redelivery after `insert_one` leaves its trace in the
collection for good.

`audit_consistent_iff` says exactly which requests end up consistent: those no worker crashed on after recording them
and before the broker had read their ack. The invariant is stated request by request: where the request is (`Phase`),
how far its callback is there (`Progress`), and what the collection holds for it then (`Holds`).
-/

namespace NewOrbit.Rabbit.Audit

/-! ## The machine -/

/-- How far a worker is with its callback: between two of them, behind `insert_one` with the request's JSON, or behind
    `publish` and `ack` with the reply's. -/
inductive Stage where
  | idle
  | audited (j : Json)
  | answered (j : Json)
  deriving DecidableEq

/-- Queue and connections, the callbacks, and the audit collection. Of the last three fields nothing is read but
    `submitted`, by `submit`: they record the `cid`s submitted and taken, and those a worker crashed on after their
    `insert_one` and before the broker had read their ack. -/
structure State where
  acks      : Acks.State
  stage     : Nat → Stage
  requests  : List Doc
  submitted : List String
  taken     : List String
  torn      : List String

inductive Step where
  | submit (m : Message)
  | deliver (w : Nat)
  | auditRequest (w : Nat) (env : Env)
  | publish (w : Nat) (env : Env)
  | onData (w : Nat)
  | auditResponse (w : Nat) (env : Env)
  | flush (w : Nat)
  | arrive (w : Nat) (n : Nat)
  | crash (w : Nat) (n i : Nat)

/-- How many deliveries of its connection a worker has recorded, and how many callbacks it has ended. -/
def Stage.begun (handled : Nat) : Stage → Nat
  | .audited _ => handled + 1
  | _          => handled

def Stage.ended (handled : Nat) : Stage → Nat
  | .answered _ => handled - 1
  | _           => handled

def State.begun (s : State) (w : Nat) : Nat := (s.stage w).begun (s.acks.conn w).handled

def State.ended (s : State) (w : Nat) : Nat := (s.stage w).ended (s.acks.conn w).handled

def State.goto (s : State) (w : Nat) (st : Stage) : State := { s with stage := Function.update s.stage w st }

variable (h : Host) (channel maxpayload : Nat)

/-- The `cid`s recorded on a connection whose acks the broker has not read, once `n` more bytes have arrived. -/
def State.tornBy (s : State) (w n : Nat) : List String :=
  let c := (s.acks.conn w).arrive n
  (Acks.Conn.unacked channel { c with delivered := c.delivered.take (s.begun w) }).filterMap fun r => cidOf h r.message

/-- A stage that throws is not a step here: it is the worker's crash at that point. -/
def step (s : State) : Step → Option State
  | .submit m =>
      -- The clients draw their `cid`s as fresh uuids; a message without a `cid` may come at any time.
      if ∀ c ∈ cidOf h m, c ∉ s.submitted ∧ s.requests.all (!hasCid c ·) then
        (Acks.step h channel maxpayload s.acks (.submit m)).map fun acks =>
          { s with acks, submitted := s.submitted ++ (cidOf h m).toList }
      else none
  | .deliver w =>
      (Acks.step h channel maxpayload s.acks (.deliver w)).map fun acks =>
        { s with acks, taken := s.taken ++ (s.acks.queue.head?.bind fun r => cidOf h r.message).toList }
  | .auditRequest w env =>
      match s.stage w, (s.acks.conn w).delivered[(s.acks.conn w).handled]? with
      | .idle, some r =>
        match request h r.message >>= fun (j, _) => Rabbit.auditRequest h env j s.requests with
        | .ok (j, requests) => some { s.goto w (.audited j) with requests }
        | .error _          => none
      | _, _ => none
  | .publish w env =>
      match s.stage w with
      | .audited j =>
        match respond env j with
        | .ok j =>
          (Acks.step h channel maxpayload s.acks (.callback w env)).map fun acks =>
            { s.goto w (.answered j) with acks }
        | .error _ => none
      | _ => none
  | .onData w => (Acks.step h channel maxpayload s.acks (.onData w)).map fun acks => { s with acks }
  | .auditResponse w env =>
      match s.stage w, (s.acks.conn w).todo with
      | .answered j, [] =>
        match j.strAt "cid" >>= fun cid => Rabbit.auditResponse env j cid s.requests with
        | .ok requests => some { s.goto w .idle with requests }
        | .error _     => none
      | _, _ => none
  | .flush w =>
      match s.stage w with
      | .idle => (Acks.step h channel maxpayload s.acks (.flush w)).map fun acks => { s with acks }
      | _     => none
  | .arrive w n => (Acks.step h channel maxpayload s.acks (.arrive w n)).map fun acks => { s with acks }
  | .crash w n i =>
      (Acks.step h channel maxpayload s.acks (.crash w n i)).map fun acks =>
        { s.goto w .idle with acks, torn := s.torn ++ s.tornBy h channel w n }

/-- Any collection to start with, and nothing in flight. -/
def init (requests : List Doc) : State := ⟨Acks.init, fun _ => .idle, requests, [], [], []⟩

/-- The queue is empty, and the callback of every delivery has returned. -/
def Quiescent (s : State) : Prop :=
  s.acks.queue = [] ∧ ∀ w, s.stage w = .idle ∧ (s.acks.conn w).handled = (s.acks.conn w).delivered.length

/-- A worker has published a reply to a request with the `cid`. -/
def Published (s : State) (cid : String) : Prop :=
  ∃ c, s.acks.HasConn c ∧ ∃ r ∈ c.delivered, cidOf h r.message = some cid ∧ c.Published h channel maxpayload r

/-- The broker has read one. -/
def Replied (s : State) (cid : String) : Prop :=
  ∃ c, s.acks.HasConn c ∧ ∃ r ∈ c.delivered, cidOf h r.message = some cid ∧
    Acks.Answered h channel maxpayload c.received r

/-- The collection holds exactly one document for the `cid`, and says that it was answered iff it was. -/
def Consistent (s : State) (cid : String) : Prop :=
  ∃ d, s.requests.filter (hasCid cid) = [d] ∧
    (Fields.get "response_sent" d = some (.boolean true) ↔ Published h channel maxpayload s cid)

/-! ### What a step can do

A step of a worker touches its connection and its stage, so its effect is always a `move`, with the collection changed
beside it by the two stages that write to it. `Moves` has one case for each step with everything the step has checked;
the proofs below look at these cases and never at `step`. On the connections every step is one of `Rabbit.Acks`
(`acks_step`), or nothing, so the invariant proved there holds here in every state. -/

/-- A worker goes on to a stage, with this connection. -/
def State.move (s : State) (w : Nat) (st : Stage) (c : Acks.Conn) : State :=
  { s.goto w st with acks := s.acks.put w c }

/-- The state after a delivery. -/
def State.deliver (s : State) (w : Nat) (r : Acks.Request) (queue : List Acks.Request) : State := { s with
  acks := { s.acks.put w { s.acks.conn w with delivered := (s.acks.conn w).delivered ++ [r] } with queue }
  taken := s.taken ++ (cidOf h r.message).toList }

/-- The state after a crash. -/
def State.crash (s : State) (w n i : Nat) : State := { s.goto w .idle with
  acks := { s.acks.put w .fresh with
    queue  := s.acks.queue.take i ++ ((s.acks.conn w).arrive n).unacked channel ++ s.acks.queue.drop i
    closed := s.acks.closed ++ [(s.acks.conn w).arrive n] }
  torn := s.torn ++ s.tornBy h channel w n }

inductive Moves (s : State) : Step → State → Prop
  | submit {m : Message} (hfresh : ∀ c ∈ cidOf h m, c ∉ s.submitted ∧ s.requests.all (!hasCid c ·)) :
      Moves s (.submit m) { s with
        acks := { s.acks with queue := s.acks.queue ++ [⟨s.acks.next, m⟩], next := s.acks.next + 1 }
        submitted := s.submitted ++ (cidOf h m).toList }
  | deliver {w : Nat} (r : Acks.Request) (queue : List Acks.Request) (hq : s.acks.queue = r :: queue) :
      Moves s (.deliver w) (s.deliver h w r queue)
  | auditRequest {w : Nat} {env : Env} (r : Acks.Request) (j : Json) (requests : List Doc) (hw : s.stage w = .idle)
      (hr : (s.acks.conn w).delivered[(s.acks.conn w).handled]? = some r)
      (hrun : (request h r.message >>= fun (j, _) => Rabbit.auditRequest h env j s.requests) = .ok (j, requests)) :
      Moves s (.auditRequest w env) { s.move w (.audited j) (s.acks.conn w) with requests }
  | publish {w : Nat} {env : Env} (j0 j : Json) (todo : List Frame) (hw : s.stage w = .audited j0)
      (hrun : respond env j0 = .ok j) (htodo : todo ≠ []) :
      Moves s (.publish w env)
        (s.move w (.answered j) { s.acks.conn w with handled := (s.acks.conn w).handled + 1, todo })
  | onData {w : Nat} (f : Frame) (todo : List Frame) (htodo : (s.acks.conn w).todo = f :: todo) :
      Moves s (.onData w) (s.move w (s.stage w)
        { s.acks.conn w with handler := (s.acks.conn w).handler.onData f.encode, todo })
  | auditResponse {w : Nat} {env : Env} (j : Json) (requests : List Doc) (hw : s.stage w = .answered j)
      (htodo : (s.acks.conn w).todo = [])
      (hrun : (j.strAt "cid" >>= fun cid => Rabbit.auditResponse env j cid s.requests) = .ok requests) :
      Moves s (.auditResponse w env) { s.move w .idle (s.acks.conn w) with requests }
  | flush {w : Nat} (hw : s.stage w = .idle) :
      Moves s (.flush w) (s.move w (s.stage w)
        { s.acks.conn w with handler := (s.acks.conn w).handler.sendDataFromBuffer })
  | arrive {w n : Nat} : Moves s (.arrive w n) (s.move w (s.stage w) ((s.acks.conn w).arrive n))
  | crash {w n i : Nat} : Moves s (.crash w n i) (s.crash h channel w n i)

/-- The worker that takes a step. -/
def Step.worker : Step → Option Nat
  | .submit _          => none
  | .deliver w         => some w
  | .auditRequest w _  => some w
  | .publish w _       => some w
  | .onData w          => some w
  | .auditResponse w _ => some w
  | .flush w           => some w
  | .arrive w _        => some w
  | .crash w _ _       => some w

theorem goto_stage_self (s : State) (w : Nat) : s.goto w (s.stage w) = s := by
  rw [State.goto, Function.update_eq_self]

/-- A step of the callback that leaves the connection alone. -/
theorem move_conn_self (s : State) (w : Nat) (st : Stage) : s.move w st (s.acks.conn w) = s.goto w st := by
  rw [State.move, Acks.State.put, Function.update_eq_self]
  rfl

/-- A step on one connection that leaves the callback of its worker alone. -/
theorem move_stage_self (s : State) (w : Nat) (c : Acks.Conn) :
    s.move w (s.stage w) c = { s with acks := s.acks.put w c } := by
  rw [State.move, goto_stage_self]

variable {h channel maxpayload}

/-- A step that is taken is one of these. -/
theorem moves_of_step {s s' : State} {a : Step} (hstep : step h channel maxpayload s a = some s') :
    Moves h channel s a s' := by
  cases a with
  | submit m =>
      simp only [step, Option.ite_none_right_eq_some, Option.map_eq_some_iff] at hstep
      obtain ⟨hfresh, acks, hacks, rfl⟩ := hstep
      simp only [Acks.step, Option.ite_none_right_eq_some, Option.some.injEq] at hacks
      obtain ⟨-, rfl⟩ := hacks
      exact .submit hfresh
  | deliver w =>
      obtain ⟨acks, hacks, rfl⟩ := Option.map_eq_some_iff.mp hstep
      simp only [Acks.step] at hacks
      split at hacks
      · rename_i r queue hq
        rw [Option.ite_none_right_eq_some] at hacks
        obtain ⟨-, hacks⟩ := hacks
        cases hacks
        rw [hq]
        exact .deliver r queue hq
      · cases hacks
  | auditRequest w env =>
      simp only [step] at hstep
      split at hstep
      · rename_i r hw hr
        split at hstep
        · rename_i j requests hrun
          cases hstep
          rw [← move_conn_self]
          exact .auditRequest r j requests hw hr hrun
        · cases hstep
      · cases hstep
  | publish w env =>
      simp only [step] at hstep
      split at hstep
      · rename_i j0 hw
        split at hstep
        · rename_i j hrun
          obtain ⟨acks, hacks, rfl⟩ := Option.map_eq_some_iff.mp hstep
          simp only [Acks.step] at hacks
          split at hacks
          · split at hacks
            · cases hacks
              exact .publish j0 j _ hw hrun (by simp)
            · cases hacks
          · cases hacks
        · cases hstep
      · cases hstep
  | onData w =>
      obtain ⟨acks, hacks, rfl⟩ := Option.map_eq_some_iff.mp hstep
      simp only [Acks.step] at hacks
      split at hacks
      · rename_i f todo htodo
        cases hacks
        rw [← move_stage_self]
        exact .onData f todo htodo
      · cases hacks
  | auditResponse w env =>
      simp only [step] at hstep
      split at hstep
      · rename_i j hw htodo
        split at hstep
        · rename_i requests hrun
          cases hstep
          rw [← move_conn_self]
          exact .auditResponse j requests hw htodo hrun
        · cases hstep
      · cases hstep
  | flush w =>
      simp only [step] at hstep
      split at hstep
      · rename_i hw
        obtain ⟨acks, hacks, rfl⟩ := Option.map_eq_some_iff.mp hstep
        cases hacks
        rw [← move_stage_self]
        exact .flush hw
      · cases hstep
  | arrive w n =>
      cases hstep
      beta_reduce
      rw [← move_stage_self]
      exact .arrive
  | crash w n i =>
      cases hstep
      exact .crash

/-- **Every step is one of the connections**, or leaves them alone. -/
theorem acks_step {s s' : State} {a : Step} (hstep : step h channel maxpayload s a = some s') :
    s'.acks = s.acks ∨ ∃ b, Acks.step h channel maxpayload s.acks b = some s'.acks := by
  have hmap : ∀ {b : Acks.Step} {f : Acks.State → State}, (∀ acks, (f acks).acks = acks) →
      (Acks.step h channel maxpayload s.acks b).map f = some s' →
        ∃ b, Acks.step h channel maxpayload s.acks b = some s'.acks := by
    intro b f hf hrun
    obtain ⟨acks, hacks, rfl⟩ := Option.map_eq_some_iff.mp hrun
    exact ⟨b, by rw [hacks, hf]⟩
  cases a with
  | submit m =>
      simp only [step, Option.ite_none_right_eq_some] at hstep
      exact .inr (hmap (fun _ => rfl) hstep.2)
  | auditRequest w env =>
      simp only [step] at hstep
      split at hstep
      · split at hstep
        · cases hstep
          exact .inl rfl
        · cases hstep
      · cases hstep
  | auditResponse w env =>
      simp only [step] at hstep
      split at hstep
      · split at hstep
        · cases hstep
          exact .inl rfl
        · cases hstep
      · cases hstep
  | publish w env =>
      simp only [step] at hstep
      split at hstep
      · split at hstep
        · exact .inr (hmap (fun _ => rfl) hstep)
        · cases hstep
      · cases hstep
  | flush w =>
      simp only [step] at hstep
      split at hstep
      · exact .inr (hmap (fun _ => rfl) hstep)
      · cases hstep
  | deliver w => exact .inr (hmap (fun _ => rfl) hstep)
  | onData w => exact .inr (hmap (fun _ => rfl) hstep)
  | arrive w n => exact .inr ⟨.arrive w n, by cases hstep; rfl⟩
  | crash w n i => exact .inr ⟨.crash w n i, by cases hstep; rfl⟩

theorem goto_stage (s : State) (w w' : Nat) (st : Stage) :
    (s.goto w st).stage w' = if w' = w then st else s.stage w' :=
  Function.update_apply s.stage w st w'

theorem move_stage (s : State) (w w' : Nat) (st : Stage) (x : Acks.Conn) :
    (s.move w st x).stage w' = if w' = w then st else s.stage w' :=
  goto_stage s w w' st

theorem move_conn (s : State) (w w' : Nat) (st : Stage) (x : Acks.Conn) :
    (s.move w st x).acks.conn w' = if w' = w then x else s.acks.conn w' :=
  Acks.conn_put s.acks w x w'

/-- The steps of the other workers leave a worker as it is. -/
theorem untouched_step {s s' : State} {a : Step} (hstep : step h channel maxpayload s a = some s') {w : Nat}
    (hw : a.worker ≠ some w) : s'.stage w = s.stage w ∧ s'.acks.conn w = s.acks.conn w := by
  have hmove : ∀ {v} st x, v ≠ w →
      (s.move v st x).stage w = s.stage w ∧ (s.move v st x).acks.conn w = s.acks.conn w := by
    intro v st x hv
    rw [move_stage, move_conn, if_neg (Ne.symm hv), if_neg (Ne.symm hv)]
    exact ⟨rfl, rfl⟩
  have hv : ∀ v, a.worker = some v → v ≠ w := fun v hv heq => hw (heq ▸ hv)
  cases moves_of_step hstep with
  | submit hfresh => exact ⟨rfl, rfl⟩
  | deliver r queue hq =>
      refine ⟨rfl, ?_⟩
      show (s.acks.put _ _).conn w = _
      rw [Acks.conn_put, if_neg (Ne.symm (hv _ rfl))]
  | crash => exact hmove .idle .fresh (hv _ rfl)
  | auditRequest r j requests hw hr hrun => exact hmove _ _ (hv _ rfl)
  | publish j0 j todo hw hrun htodo => exact hmove _ _ (hv _ rfl)
  | onData f todo htodo => exact hmove _ _ (hv _ rfl)
  | auditResponse j requests hw htodo hrun => exact hmove _ _ (hv _ rfl)
  | flush hw => exact hmove _ _ (hv _ rfl)
  | arrive => exact hmove _ _ (hv _ rfl)

theorem untouched {tr : List Step} {s s' : State} (hrun : Machine.exec (step h channel maxpayload) tr s = some s')
    {w : Nat} (hw : ∀ a ∈ tr, a.worker ≠ some w) : s'.stage w = s.stage w ∧ s'.acks.conn w = s.acks.conn w := by
  induction tr generalizing s with
  | nil =>
      cases hrun
      exact ⟨rfl, rfl⟩
  | cons a tr ih =>
      obtain ⟨s1, hstep, hrun⟩ := Machine.exec_cons_iff.mp hrun
      obtain ⟨hstage, hconn⟩ := untouched_step hstep (hw a List.mem_cons_self)
      obtain ⟨hstage', hconn'⟩ := ih hrun fun b hb => hw b (List.mem_cons_of_mem a hb)
      exact ⟨hstage'.trans hstage, hconn'.trans hconn⟩

/-- A run of the first `n` workers is quiescent if they are. -/
theorem quiescent_of_lt {requests : List Doc} {tr : List Step} {s : State} (n : Nat)
    (hrun : Machine.exec (step h channel maxpayload) tr (init requests) = some s)
    (htr : ∀ a ∈ tr, ∀ w ∈ a.worker, w < n) (hqueue : s.acks.queue = [])
    (hidle : ∀ w < n, s.stage w = .idle ∧ (s.acks.conn w).handled = (s.acks.conn w).delivered.length) :
    Quiescent s := by
  refine ⟨hqueue, fun w => ?_⟩
  rcases Nat.lt_or_ge w n with hlt | hge
  · exact hidle w hlt
  · obtain ⟨hstage, hconn⟩ := untouched (w := w) hrun fun a ha hw => absurd (htr a ha w hw) (Nat.not_lt_of_ge hge)
    rw [hstage, hconn]
    exact ⟨rfl, rfl⟩

/-! ## The invariant, request by request

A request is at one place at a time (`Fits.at_iff`, `Fits.queue`), since its `cid` is submitted once and a crash takes
it away from one place to put it at another. How many documents it has follows from how far its last delivery has come
and from whether it was torn before. That the broker's ack is behind `update_one` is not said here but proved
(`lt_ended_of_ack`), from what the buffer still holds while a callback runs (`Stage.Wf`). -/

/-- Where a request is: not submitted yet, in the queue, with a worker as its `k`-th delivery, or acked by a worker that
    is gone. -/
inductive Phase where
  | unknown
  | queued
  | held (w k : Nat)
  | gone

/-- How far the last delivery of a request has come: not recorded yet, recorded, or its record marked. -/
inductive Progress where
  | waiting
  | recorded
  | completed

def Stage.progress (handled : Nat) (st : Stage) (k : Nat) : Progress :=
  if k < st.ended handled then .completed else if k < st.begun handled then .recorded else .waiting

def State.progress (s : State) : Phase → Progress
  | .held w k => (s.stage w).progress (s.acks.conn w).handled k
  | .gone     => .completed
  | _         => .waiting

def Phase.inQueue : Phase → Nat
  | .queued => 1
  | _       => 0

/-- What the documents of a request look like. One that was never torn has one document from `auditRequest` on; a torn
    one has its document before it is delivered again, and then one too many. -/
def Holds (docs : List Doc) (torn : Prop) : Progress → Prop
  | .waiting   => (¬ torn → docs = []) ∧ (torn → docs ≠ [])
  | .recorded  => (¬ torn → ∃ d, docs = [d]) ∧ (torn → 2 ≤ docs.length)
  | .completed => (¬ torn → ∃ d, docs = [d] ∧ SentTrue d) ∧ (torn → 2 ≤ docs.length)

section
variable (h : Host) (channel maxpayload : Nat)

/-- The `k`-th delivery of the worker is a request with this `cid`. -/
def At (s : State) (c : String) (w k : Nat) : Prop :=
  ∃ r, (s.acks.conn w).delivered[k]? = some r ∧ cidOf h r.message = some c

/-- A worker that is gone had a request with this `cid`, and the broker has read its ack. -/
def Gone (s : State) (c : String) : Prop :=
  ∃ x ∈ s.acks.closed, ∃ k r, x.delivered[k]? = some r ∧ cidOf h r.message = some c ∧
    ackFrame channel (k + 1) ∈ x.received

structure Fits (s : State) (c : String) (p : Phase) : Prop where
  queue     : s.acks.queue.countP (fun r => cidOf h r.message = some c) = p.inQueue
  at_iff    : ∀ w k, At h s c w k ↔ p = .held w k
  gone      : p = .gone → Gone h channel s c
  submitted : c ∈ s.submitted ↔ p ≠ .unknown
  taken     : c ∈ s.taken → p ≠ .unknown
  unknown   : p = .unknown → c ∉ s.torn
  holds     : p ≠ .unknown → Holds (s.requests.filter (hasCid c)) (c ∈ s.torn) (s.progress p)

/-- What the stage of a worker says about its connection. While a callback is behind `publish` and `ack`, a part of what
    it has sent is still to be handed over, or in the buffer. -/
def Stage.Wf (c : Acks.Conn) : Stage → Prop
  | .idle       => c.todo = []
  | .audited j  => c.todo = [] ∧ ∃ r fs, c.delivered[c.handled]? = some r ∧ j = .object fs ∧ Carries h r.message fs
  | .answered j => (c.todo ≠ [] ∨ c.handler.outBuffer.data ≠ []) ∧
      ∃ k r, c.handled = k + 1 ∧ c.delivered[k]? = some r ∧ IsReply h r.message j

structure Inv (s : State) : Prop where
  acks : Acks.Inv h channel maxpayload s.acks
  wf   : ∀ w, (s.stage w).Wf h (s.acks.conn w)
  fits : ∀ c, ∃ p, Fits h channel s c p

/-! ### What a step leaves alone

Most requests see nothing of a step. `Same` is what they see the same, `Frame` the part of it that says where they
are; a request keeps its phase over either. -/

/-- The request `c` is in the same place. -/
structure Frame (c : String) (s s' : State) : Prop where
  queue     : s'.acks.queue.countP (fun r => cidOf h r.message = some c) =
    s.acks.queue.countP (fun r => cidOf h r.message = some c)
  at_iff    : ∀ w k, At h s' c w k ↔ At h s c w k
  closed    : s.acks.closed ⊆ s'.acks.closed
  submitted : c ∈ s'.submitted ↔ c ∈ s.submitted
  taken     : c ∈ s'.taken ↔ c ∈ s.taken

/-- The two states look the same for the request `c`. -/
structure Same (c : String) (s s' : State) : Prop extends Frame h c s s' where
  progress : ∀ w k, At h s c w k → s'.progress (.held w k) = s.progress (.held w k)
  requests : s'.requests.filter (hasCid c) = s.requests.filter (hasCid c)
  torn     : c ∈ s'.torn ↔ c ∈ s.torn

end

theorem Fits.of_frame {c : String} {s s' : State} {p : Phase} (hf : Fits h channel s c p) (hs : Frame h c s s')
    (hunknown : p = .unknown → c ∉ s'.torn)
    (hholds : p ≠ .unknown → Holds (s'.requests.filter (hasCid c)) (c ∈ s'.torn) (s'.progress p)) :
    Fits h channel s' c p where
  queue := by rw [hs.queue]; exact hf.queue
  at_iff w k := by rw [hs.at_iff]; exact hf.at_iff w k
  gone hp := by
    obtain ⟨x, hx, hread⟩ := hf.gone hp
    exact ⟨x, hs.closed hx, hread⟩
  submitted := by rw [hs.submitted]; exact hf.submitted
  taken := by rw [hs.taken]; exact hf.taken
  unknown := hunknown
  holds := hholds

theorem Fits.of_same {c : String} {s s' : State} {p : Phase} (hf : Fits h channel s c p) (hs : Same h c s s') :
    Fits h channel s' c p := by
  refine hf.of_frame hs.toFrame (by rw [hs.torn]; exact hf.unknown) ?_
  intro hp
  rw [hs.requests, propext hs.torn]
  have hprogress : s'.progress p = s.progress p := by
    cases p with
    | held w k => exact hs.progress w k ((hf.at_iff w k).mpr rfl)
    | _ => rfl
  rw [hprogress]
  exact hf.holds hp

theorem move_progress (s : State) (w w' k : Nat) (st : Stage) (x : Acks.Conn) :
    (s.move w st x).progress (.held w' k) =
      if w' = w then st.progress x.handled k else s.progress (.held w' k) := by
  rw [State.progress, State.progress, move_stage, move_conn]
  by_cases hw : w' = w
  · rw [if_pos hw, if_pos hw, if_pos hw]
  · rw [if_neg hw, if_neg hw, if_neg hw]

section Move
variable {s : State} {w : Nat} {st : Stage} {x : Acks.Conn}

theorem at_move (hdel : x.delivered = (s.acks.conn w).delivered) (c : String) (w' k : Nat) :
    At h (s.move w st x) c w' k ↔ At h s c w' k := by
  rw [At, At, move_conn]
  by_cases hw : w' = w
  · rw [if_pos hw, hw, hdel]
  · rw [if_neg hw]

theorem frame_move (hdel : x.delivered = (s.acks.conn w).delivered) (c : String) :
    Frame h c s (s.move w st x) where
  queue := rfl
  at_iff := at_move hdel c
  closed := List.Subset.refl _
  submitted := Iff.rfl
  taken := Iff.rfl

/-- A worker's move is not seen by the requests whose delivery is as far as it was. -/
theorem same_move (hdel : x.delivered = (s.acks.conn w).delivered) {c : String}
    (hprog : ∀ k, At h s c w k → st.progress x.handled k = (s.stage w).progress (s.acks.conn w).handled k) :
    Same h c s (s.move w st x) where
  toFrame := frame_move hdel c
  progress w' k hat := by
    rw [move_progress]
    by_cases hw : w' = w
    · rw [if_pos hw, hw]
      exact hprog k (hw ▸ hat)
    · rw [if_neg hw]
  requests := rfl
  torn := Iff.rfl

theorem wf_move (hwf : ∀ w, (s.stage w).Wf h (s.acks.conn w)) (hst : st.Wf h x) (w' : Nat) :
    ((s.move w st x).stage w').Wf h ((s.move w st x).acks.conn w') := by
  rw [move_stage, move_conn]
  by_cases hw : w' = w
  · rw [if_pos hw, if_pos hw]
    exact hst
  · rw [if_neg hw, if_neg hw]
    exact hwf w'

end Move

/-! ### How far the deliveries are

The three places where a delivery moves on, each by one: behind `insert_one`, behind `update_one`, and never behind
`publish`, which changes the number of the delivery together with the stage. -/

theorem begun_le {c : Acks.Conn} {st : Stage} (hc : Acks.ConnOk h channel maxpayload c) (hwf : st.Wf h c) :
    st.begun c.handled ≤ c.delivered.length := by
  obtain ⟨sent, log, hinv⟩ := hc
  cases st with
  | audited j =>
      obtain ⟨-, r, fs, hr, -⟩ := hwf
      exact (List.getElem?_eq_some_iff.mp hr).1
  | _ => exact hinv.handled_le

theorem ended_le_begun (handled : Nat) (st : Stage) : st.ended handled ≤ st.begun handled := by
  cases st <;> simp only [Stage.ended, Stage.begun] <;> omega

/-- Recording a delivery moves that delivery on, and no other. -/
theorem progress_audited (handled k : Nat) (j : Json) :
    (Stage.audited j).progress handled k =
      if k = handled then .recorded else Stage.idle.progress handled k := by
  simp only [Stage.progress, Stage.ended, Stage.begun]
  grind

theorem progress_answered (handled k : Nat) (j j' : Json) :
    (Stage.answered j').progress (handled + 1) k = (Stage.audited j).progress handled k := rfl

/-- And so does the end of its callback. -/
theorem progress_idle (handled k : Nat) (j : Json) :
    Stage.idle.progress (handled + 1) k =
      if k = handled then .completed else (Stage.answered j).progress (handled + 1) k := by
  simp only [Stage.progress, Stage.ended, Stage.begun]
  grind

/-- The delivery a worker takes up next has not been recorded, and the one whose callback runs has not been marked. -/
theorem progress_of_le {handled k : Nat} {st : Stage} (hk : st.begun handled ≤ k) :
    st.progress handled k = .waiting := by
  have hended := ended_le_begun handled st
  rw [Stage.progress, if_neg (by omega), if_neg (by omega)]

theorem progress_running (handled : Nat) (j : Json) : (Stage.answered j).progress (handled + 1) handled = .recorded := by
  have hended : ¬ handled < (Stage.answered j).ended (handled + 1) := Nat.lt_irrefl handled
  have hbegun : handled < (Stage.answered j).begun (handled + 1) := Nat.lt_succ_self handled
  rw [Stage.progress, if_neg hended, if_pos hbegun]

/-- An untorn request had no document yet; a torn one gets a document beside those it has. -/
theorem holds_recorded {docs : List Doc} {torn : Prop} (d : Doc) (hh : Holds docs torn .waiting) :
    Holds (docs ++ [d]) torn .recorded := by
  obtain ⟨hclean, htorn⟩ := hh
  constructor
  · intro hnt
    exact ⟨d, by rw [hclean hnt]; rfl⟩
  · intro ht
    have hpos := List.length_pos_iff.mpr (htorn ht)
    rw [List.length_append]
    exact Nat.succ_le_succ hpos

/-- The one document is marked; a torn request stays with one too many. -/
theorem holds_completed {ds ds' : List Doc} {c : String} {torn : Prop}
    (hcase : ds.filter (hasCid c) = [] ∧ ds' = ds ∨ ∃ response_time duration response,
      ds' = updateOne (hasCid c) (setResponse response_time duration response) ds)
    (hh : Holds (ds.filter (hasCid c)) torn .recorded) : Holds (ds'.filter (hasCid c)) torn .completed := by
  obtain ⟨hclean, htorn⟩ := hh
  rcases hcase with ⟨hnil, -⟩ | ⟨rt, dur, res, rfl⟩
  · -- The document of the request is there, so the search cannot come back empty.
    rw [hnil] at hclean htorn
    by_cases ht : torn
    · exact absurd (htorn ht) (by decide)
    · obtain ⟨d, hd⟩ := hclean ht
      cases hd
  · rw [filter_updateOne_self (fun k d => hasCid_setResponse k rt dur res d) ds]
    constructor
    · intro hnt
      obtain ⟨d, hd⟩ := hclean hnt
      exact ⟨_, by rw [hd], sentTrue_setResponse rt dur res d⟩
    · intro ht
      have hlen := htorn ht
      cases hds : ds.filter (hasCid c) with
      | nil => rw [hds] at hlen; exact absurd hlen (by decide)
      | cons d ds => rw [hds] at hlen; exact hlen

/-- A recorded request that goes back to the queue has its document already. -/
theorem holds_requeue {docs : List Doc} {torn : Prop} {handled k : Nat} {st : Stage}
    (hh : Holds docs torn (st.progress handled k)) : Holds docs (torn ∨ k < st.begun handled) .waiting := by
  by_cases hk : k < st.begun handled
  · have hne : docs ≠ [] := by
      rw [Stage.progress, if_pos hk] at hh
      rintro rfl
      by_cases ht : torn
      · split at hh <;> exact absurd (hh.2 ht) (by decide)
      · split at hh <;> obtain ⟨d, hd⟩ := hh.1 ht
        · exact absurd hd.1 nofun
        · exact absurd hd nofun
    exact ⟨fun hnt => absurd (.inr hk) hnt, fun _ => hne⟩
  · rw [progress_of_le (Nat.le_of_not_lt hk)] at hh
    rw [propext (or_iff_left hk)]
    exact hh

/-- **The broker has no ack of a delivery whose callback has not returned.** -/
theorem lt_ended_of_ack {c : Acks.Conn} {st : Stage} (hc : Acks.ConnOk h channel maxpayload c) (hwf : st.Wf h c)
    (n : Nat) {k : Nat} {r : Acks.Request} (hr : c.delivered[k]? = some r)
    (hack : ackFrame channel (k + 1) ∈ (c.arrive n).received) : k < st.ended c.handled := by
  have hlt : k < c.handled := ((hc.arrive n).answered_of_ack hr hack).1
  cases st with
  | answered j =>
      obtain ⟨hpending, k', -, hk', -⟩ := hwf
      have hne : k ≠ k' := by
        rintro rfl
        exact (hc.arrive n).ack_not_mem hpending (by rw [← hk'] at hack; exact hack)
      simp only [Stage.ended]
      omega
  | _ => exact hlt

/-! ### The steps

A step is about one message, or about none: what is left to show is where the request of that message goes. -/

/-- A step that every request sees the same after. -/
theorem Inv.of_same {s s' : State} (hi : Inv h channel maxpayload s) (hacks : Acks.Inv h channel maxpayload s'.acks)
    (hwf : ∀ w, (s'.stage w).Wf h (s'.acks.conn w)) (hsame : ∀ c, Same h c s s') : Inv h channel maxpayload s' where
  acks := hacks
  wf := hwf
  fits c := by
    obtain ⟨p, hp⟩ := hi.fits c
    exact ⟨p, hp.of_same (hsame c)⟩

/-- A step about one message: the requests with another `cid` see nothing, the one with its `cid` moves on. -/
theorem Inv.of_step {s s' : State} (hi : Inv h channel maxpayload s) (hacks : Acks.Inv h channel maxpayload s'.acks)
    (m : Message) (hwf : ∀ w, (s'.stage w).Wf h (s'.acks.conn w)) (hother : ∀ c, cidOf h m ≠ some c → Same h c s s')
    (hself : ∀ c, cidOf h m = some c → ∀ p, Fits h channel s c p → ∃ p', Fits h channel s' c p') :
    Inv h channel maxpayload s' where
  acks := hacks
  wf := hwf
  fits c := by
    obtain ⟨p, hp⟩ := hi.fits c
    by_cases hc : cidOf h m = some c
    · exact hself c hc p hp
    · exact ⟨p, hp.of_same (hother c hc)⟩

theorem Inv.conn {s : State} (hi : Inv h channel maxpayload s) (w : Nat) :
    Acks.ConnOk h channel maxpayload (s.acks.conn w) := hi.acks.conns _ (.inl ⟨w, rfl⟩)

theorem mem_toList_cidOf {m : Message} {c : String} {l : List String} (hc : cidOf h m ≠ some c) :
    c ∈ l ++ (cidOf h m).toList ↔ c ∈ l := by
  rw [List.mem_append, Option.mem_toList]
  exact or_iff_left hc

theorem mem_append_cidOf {m : Message} {c : String} (l : List String) (hc : cidOf h m = some c) :
    c ∈ l ++ (cidOf h m).toList := by
  rw [List.mem_append, Option.mem_toList]
  exact .inr hc

/-- A delivery changes nothing for the callback that runs. -/
theorem wf_deliver {c : Acks.Conn} {st : Stage} {r : Acks.Request} (hst : st.Wf h c) :
    st.Wf h { c with delivered := c.delivered ++ [r] } := by
  have hkeep : ∀ {k : Nat} {r' : Acks.Request}, c.delivered[k]? = some r' → (c.delivered ++ [r])[k]? = some r' := by
    intro k r' hr'
    rw [List.getElem?_append_left (List.getElem?_eq_some_iff.mp hr').1, hr']
  cases st with
  | idle => exact hst
  | audited j =>
      obtain ⟨htodo, r', fs, hr', hrest⟩ := hst
      exact ⟨htodo, r', fs, hkeep hr', hrest⟩
  | answered j =>
      obtain ⟨hpending, k, r', hk, hr', hreply⟩ := hst
      exact ⟨hpending, k, r', hk, hkeep hr', hreply⟩

theorem at_deliver {s : State} {queue : List Acks.Request} {c : String} (w : Nat) (r : Acks.Request) (w' k : Nat) :
    At h (s.deliver h w r queue) c w' k ↔
      At h s c w' k ∨ w' = w ∧ k = (s.acks.conn w).delivered.length ∧ cidOf h r.message = some c := by
  unfold At
  show (∃ r', ((s.acks.put w _).conn w').delivered[k]? = some r' ∧ _) ↔ _
  rw [Acks.conn_put]
  by_cases hw : w' = w
  · subst hw
    rw [if_pos rfl]
    dsimp only
    rcases Nat.lt_trichotomy k (s.acks.conn w').delivered.length with hk | rfl | hk
    · rw [List.getElem?_append_left hk]
      simp [Nat.ne_of_lt hk]
    · simp
    · rw [List.getElem?_eq_none (by simp; omega), List.getElem?_eq_none (Nat.le_of_lt hk)]
      simp [Nat.ne_of_gt hk]
  · rw [if_neg hw]
    simp [hw]

theorem progress_deliver (s : State) (w : Nat) (r : Acks.Request) (queue : List Acks.Request) (w' k : Nat) :
    (s.deliver h w r queue).progress (.held w' k) = s.progress (.held w' k) := by
  show (s.stage w').progress ((s.acks.put w _).conn w').handled k = _
  rw [Acks.conn_put]
  by_cases hw : w' = w
  · rw [if_pos hw, hw]
    rfl
  · rw [if_neg hw]
    rfl

/-- A request that is in the queue once is with no worker, so it goes to this worker alone. -/
theorem Fits.deliver {s : State} {c : String} {w : Nat} {r : Acks.Request} {queue : List Acks.Request}
    (hbegun : s.begun w ≤ (s.acks.conn w).delivered.length) (hp : Fits h channel s c .queued)
    (hq : s.acks.queue = r :: queue) (hc : cidOf h r.message = some c) :
    Fits h channel (s.deliver h w r queue) c (.held w (s.acks.conn w).delivered.length) where
  queue := by
    have hcount := hp.queue
    rw [hq, List.countP_cons_of_pos (by simpa using hc)] at hcount
    exact Nat.succ_injective hcount
  at_iff w' k := by
    rw [at_deliver, hp.at_iff, Phase.held.injEq]
    grind
  gone := nofun
  submitted := ⟨fun _ => nofun, fun _ => hp.submitted.mpr nofun⟩
  taken _ := nofun
  unknown := nofun
  holds _ := by
    rw [progress_deliver, State.progress, progress_of_le hbegun]
    exact hp.holds nofun

/-! ### Crashes

A crash sorts the deliveries of its connection by their acks. With the ack read the callback had returned, so the
record is marked and the request is over. Without it the request is back in the queue, and torn if it was recorded:
its document stays, and the next callback inserts another. -/

section Crash
variable {s : State} {w n i : Nat}

theorem at_crash (c : String) (w' k : Nat) : At h (s.crash h channel w n i) c w' k ↔ w' ≠ w ∧ At h s c w' k := by
  unfold At
  show (∃ r, ((s.acks.put w .fresh).conn w').delivered[k]? = some r ∧ _) ↔ _
  rw [Acks.conn_put]
  by_cases hw : w' = w
  · rw [if_pos hw]
    simp [Acks.Conn.fresh, hw]
  · rw [if_neg hw]
    simp [hw]

theorem queue_crash (c : String) :
    (s.crash h channel w n i).acks.queue.countP (fun r => cidOf h r.message = some c) =
      s.acks.queue.countP (fun r => cidOf h r.message = some c) +
        (((s.acks.conn w).arrive n).unacked channel).countP (fun r => cidOf h r.message = some c) := by
  conv_rhs => rw [← List.take_append_drop i s.acks.queue]
  simp only [State.crash, List.countP_append]
  omega

/-- A request is torn by the crash if it is recorded and unacked on the connection. -/
theorem mem_tornBy {c : String} : c ∈ s.tornBy h channel w n ↔
    ∃ k, k < s.begun w ∧ At h s c w k ∧ ackFrame channel (k + 1) ∉ ((s.acks.conn w).arrive n).received := by
  rw [State.tornBy, List.mem_filterMap]
  constructor
  · rintro ⟨r, hr, hc⟩
    obtain ⟨k, hk, hack⟩ := Acks.mem_unacked.mp hr
    rw [List.getElem?_take] at hk
    rw [Option.ite_none_right_eq_some] at hk
    exact ⟨k, hk.1, ⟨r, hk.2, hc⟩, hack⟩
  · rintro ⟨k, hk, ⟨r, hr, hc⟩, hack⟩
    refine ⟨r, Acks.mem_unacked.mpr ⟨k, ?_, hack⟩, hc⟩
    rw [List.getElem?_take, if_pos hk]
    exact hr

/-- A crash is not seen by the requests that are not on its connection. -/
theorem same_crash {c : String} (hat : ∀ k, ¬ At h s c w k) : Same h c s (s.crash h channel w n i) where
  queue := by
    rw [queue_crash, Nat.add_eq_left, List.countP_eq_zero]
    intro r hr hc
    obtain ⟨k, hk, -⟩ := Acks.mem_unacked.mp hr
    exact hat k ⟨r, hk, by simpa using hc⟩
  at_iff w' k := by
    rw [at_crash]
    exact and_iff_right_of_imp fun hw heq => hat k (heq ▸ hw)
  closed := List.subset_append_left _ _
  submitted := Iff.rfl
  taken := Iff.rfl
  progress w' k hw' := by
    have hw : w' ≠ w := by
      rintro rfl
      exact hat k hw'
    show ((s.goto w .idle).stage w').progress ((s.acks.put w .fresh).conn w').handled k = _
    rw [goto_stage, Acks.conn_put, if_neg hw, if_neg hw]
    rfl
  requests := rfl
  torn := by
    show c ∈ s.torn ++ s.tornBy h channel w n ↔ _
    rw [List.mem_append, mem_tornBy]
    exact or_iff_left fun ⟨k, _, hw, _⟩ => hat k hw

/-- On its connection the request is at one place. -/
theorem Fits.countP_unacked {c : String} {k : Nat} (hp : Fits h channel s c (.held w k)) :
    (((s.acks.conn w).arrive n).unacked channel).countP (fun r => cidOf h r.message = some c) =
      if ackFrame channel (k + 1) ∈ ((s.acks.conn w).arrive n).received then 0 else 1 := by
  obtain ⟨r, hr, hc⟩ := (hp.at_iff w k).mpr rfl
  refine Acks.countP_unacked (c := (s.acks.conn w).arrive n) hr (by simpa using hc) ?_
  intro k' r' hr' hc'
  have hheld := (hp.at_iff w k').mp ⟨r', hr', by simpa using hc'⟩
  rw [Phase.held.injEq] at hheld
  exact hheld.2.symm

theorem Fits.not_at_crash {c : String} {k : Nat} (hp : Fits h channel s c (.held w k)) (w' k' : Nat) :
    ¬ At h (s.crash h channel w n i) c w' k' := by
  rw [at_crash, hp.at_iff, Phase.held.injEq]
  rintro ⟨hne, rfl, -⟩
  exact hne rfl

theorem fits_crash_acked (hi : Inv h channel maxpayload s) {c : String} {k : Nat}
    (hp : Fits h channel s c (.held w k))
    (hack : ackFrame channel (k + 1) ∈ ((s.acks.conn w).arrive n).received) :
    Fits h channel (s.crash h channel w n i) c .gone := by
  obtain ⟨r, hr, hc⟩ := (hp.at_iff w k).mpr rfl
  have htorn : c ∈ (s.crash h channel w n i).torn ↔ c ∈ s.torn := by
    show c ∈ s.torn ++ s.tornBy h channel w n ↔ _
    rw [List.mem_append, mem_tornBy]
    refine or_iff_left ?_
    rintro ⟨k', -, hat, hunread⟩
    have hheld := (hp.at_iff w k').mp hat
    rw [Phase.held.injEq] at hheld
    exact hunread (hheld.2 ▸ hack)
  -- The broker reads an ack only after the callback has marked the record.
  have hended : s.progress (.held w k) = .completed :=
    if_pos (lt_ended_of_ack (hi.conn w) (hi.wf w) n hr hack)
  have hholds := hp.holds nofun
  rw [hended] at hholds
  exact {
    queue := by rw [queue_crash, hp.queue, hp.countP_unacked, if_pos hack]; rfl
    at_iff := fun w' k' => ⟨fun hat => absurd hat (hp.not_at_crash w' k'), nofun⟩
    gone := fun _ => ⟨_, List.mem_append_right _ (List.mem_singleton_self _), k, r, hr, hc, hack⟩
    submitted := ⟨fun _ => nofun, fun _ => hp.submitted.mpr nofun⟩
    taken := fun _ => nofun
    unknown := nofun
    holds := fun _ => by rw [propext htorn]; exact hholds }

theorem fits_crash_unacked {c : String} {k : Nat} (hp : Fits h channel s c (.held w k))
    (hack : ackFrame channel (k + 1) ∉ ((s.acks.conn w).arrive n).received) :
    Fits h channel (s.crash h channel w n i) c .queued where
  queue := by rw [queue_crash, hp.queue, hp.countP_unacked, if_neg hack]; rfl
  at_iff w' k' := ⟨fun hat => absurd hat (hp.not_at_crash w' k'), nofun⟩
  gone := nofun
  submitted := ⟨fun _ => nofun, fun _ => hp.submitted.mpr nofun⟩
  taken _ := nofun
  unknown := nofun
  holds _ := by
    have htorn : c ∈ (s.crash h channel w n i).torn ↔ c ∈ s.torn ∨ k < s.begun w := by
      show c ∈ s.torn ++ s.tornBy h channel w n ↔ _
      rw [List.mem_append, mem_tornBy]
      refine or_congr_right ⟨?_, fun hk => ⟨k, hk, (hp.at_iff w k).mpr rfl, hack⟩⟩
      rintro ⟨k', hk', hat, -⟩
      have hheld := (hp.at_iff w k').mp hat
      rw [Phase.held.injEq] at hheld
      exact hheld.2 ▸ hk'
    rw [propext htorn]
    exact holds_requeue (hp.holds nofun)

end Crash

/-! ### Each step keeps the invariant -/

section Steps
variable {s s' : State} (hi : Inv h channel maxpayload s) (hacks : Acks.Inv h channel maxpayload s'.acks)
include hi hacks

theorem inv_submit {m : Message} (hstep : Moves h channel s (.submit m) s') : Inv h channel maxpayload s' := by
  obtain ⟨hfresh⟩ := hstep
  refine hi.of_step hacks m hi.wf ?_ ?_
  · intro c hc
    exact {
      queue := by simp [hc]
      at_iff := fun _ _ => Iff.rfl
      closed := List.Subset.refl _
      submitted := mem_toList_cidOf hc
      taken := Iff.rfl
      progress := fun _ _ _ => rfl
      requests := rfl
      torn := Iff.rfl }
  · intro c hc p hp
    obtain ⟨hnew, hdocs⟩ := hfresh c hc
    -- A fresh `cid` was never submitted, so its request is in no phase yet.
    obtain rfl : p = .unknown := by
      by_contra hne
      exact hnew (hp.submitted.mpr hne)
    have hnone : s.requests.filter (hasCid c) = [] := by
      rw [List.filter_eq_nil_iff]
      intro d hd
      rw [Bool.not_eq_true, ← Bool.not_eq_true']
      exact List.all_eq_true.mp hdocs d hd
    refine ⟨.queued, {
      queue := ?_
      at_iff := fun w k => (hp.at_iff w k).trans ⟨nofun, nofun⟩
      gone := nofun
      submitted := ⟨fun _ => nofun, fun _ => mem_append_cidOf _ hc⟩
      taken := fun _ => nofun
      unknown := nofun
      holds := fun _ => ⟨fun _ => hnone, fun ht => absurd ht (hp.unknown rfl)⟩ }⟩
    have hq := hp.queue
    simp only [List.countP_append, hq, Phase.inQueue, List.countP_singleton, hc, decide_true, if_true]

theorem inv_deliver {w : Nat} (hstep : Moves h channel s (.deliver w) s') : Inv h channel maxpayload s' := by
  cases hstep with
  | deliver r queue hq =>
      have hwf : ∀ w', (s.stage w').Wf h ((s.acks.put w
          { s.acks.conn w with delivered := (s.acks.conn w).delivered ++ [r] }).conn w') := by
        intro w'
        rw [Acks.conn_put]
        by_cases hw : w' = w
        · rw [if_pos hw, hw]
          exact wf_deliver (hi.wf w)
        · rw [if_neg hw]
          exact hi.wf w'
      refine hi.of_step hacks r.message hwf ?_ ?_
      · intro c hc
        exact {
          queue := by simp [State.deliver, hq, hc]
          at_iff := fun w' k => (at_deliver w r w' k).trans (or_iff_left fun hlast => hc hlast.2.2)
          closed := List.Subset.refl _
          submitted := Iff.rfl
          taken := mem_toList_cidOf hc
          progress := fun w' k _ => progress_deliver s w r queue w' k
          requests := rfl
          torn := Iff.rfl }
      · intro c hc p hp
        have hcount := hp.queue
        rw [hq, List.countP_cons_of_pos (by simpa using hc)] at hcount
        cases p with
        | queued => exact ⟨_, hp.deliver (begun_le (hi.conn w) (hi.wf w)) hq hc⟩
        | _ => simp [Phase.inQueue] at hcount

theorem inv_auditRequest {w : Nat} {env : Env} (hlaw : h.Lawful) (hstep : Moves h channel s (.auditRequest w env) s') :
    Inv h channel maxpayload s' := by
  cases hstep with
  | auditRequest r j requests hw hr hrun =>
      obtain ⟨⟨fs, hj, hfs⟩, c0, d, hc0, rfl, hd⟩ := audited_of_request hlaw hrun
      have hwf := hi.wf w
      rw [hw] at hwf
      have hstage : (Stage.audited j).Wf h (s.acks.conn w) := ⟨hwf, r, fs, hr, hj, hfs⟩
      refine hi.of_step hacks r.message (wf_move hi.wf hstage) ?_ ?_
      · intro c hc
        have hne : c0 ≠ c := fun heq => hc (heq ▸ hc0)
        have hmove : Same h c s (s.move w (.audited j) (s.acks.conn w)) := by
          refine same_move rfl ?_
          intro k ⟨r', hr', hc'⟩
          rw [progress_audited, hw, if_neg]
          rintro rfl
          exact hc (Option.some.inj (hr'.symm.trans hr) ▸ hc')
        exact { hmove with requests := filter_append_of_ne hd hne s.requests }
      · intro c hc p hp
        obtain rfl : c0 = c := Option.some.inj (hc0.symm.trans hc)
        obtain rfl := (hp.at_iff w _).mp ⟨r, hr, hc⟩
        have hframe : Frame h c0 s (s.move w (.audited j) (s.acks.conn w)) := frame_move rfl c0
        refine ⟨_, hp.of_frame { hframe with } nofun ?_⟩
        intro _
        have hholds := hp.holds nofun
        rw [State.progress, hw, progress_of_le (by exact Nat.le_refl _)] at hholds
        have hafter := move_progress s w w (s.acks.conn w).handled (.audited j) (s.acks.conn w)
        rw [if_pos rfl, progress_audited, if_pos rfl] at hafter
        show Holds ((s.requests ++ [d]).filter (hasCid c0)) (c0 ∈ s.torn)
          ((s.move w (.audited j) (s.acks.conn w)).progress (.held w (s.acks.conn w).handled))
        rw [hafter, filter_append_of_eq hd]
        exact holds_recorded d hholds

theorem inv_publish {w : Nat} {env : Env} (hstep : Moves h channel s (.publish w env) s') :
    Inv h channel maxpayload s' := by
  cases hstep with
  | publish j0 j todo hw hrun htodo =>
      have hwf := hi.wf w
      rw [hw] at hwf
      obtain ⟨-, r, fs, hr, rfl, hfs⟩ := hwf
      have hstage : (Stage.answered j).Wf h
          { s.acks.conn w with handled := (s.acks.conn w).handled + 1, todo } :=
        ⟨.inl htodo, (s.acks.conn w).handled, r, rfl, hr, reply_of_audited hfs hrun⟩
      refine hi.of_same hacks (wf_move hi.wf hstage) ?_
      intro c
      refine same_move (by rfl) ?_
      intro k _
      rw [hw]
      exact progress_answered _ k _ j

theorem inv_onData {w : Nat} (hstep : Moves h channel s (.onData w) s') : Inv h channel maxpayload s' := by
  cases hstep with
  | onData f todo htodo =>
      have hwf := hi.wf w
      have hstage : (s.stage w).Wf h
          { s.acks.conn w with handler := (s.acks.conn w).handler.onData f.encode, todo } := by
        cases hw : s.stage w with
        | idle =>
            rw [hw] at hwf
            exact absurd (htodo.symm.trans hwf) nofun
        | audited j =>
            rw [hw] at hwf
            exact absurd (htodo.symm.trans hwf.1) nofun
        | answered j =>
            rw [hw] at hwf
            obtain ⟨sent, log, hinv⟩ := hi.conn w
            have hsize : 0 < (s.acks.conn w).handler.outBuffer.size := by rw [hinv.size]; decide
            exact ⟨.inr (Handler.data_onData_ne_nil _ (by rw [Frame.encode]; exact List.cons_ne_nil _ _) hsize), hwf.2⟩
      exact hi.of_same hacks (wf_move hi.wf hstage) fun c => same_move (by rfl) fun k _ => rfl

theorem inv_flush {w : Nat} (hstep : Moves h channel s (.flush w) s') : Inv h channel maxpayload s' := by
  cases hstep with
  | flush hw =>
      have hwf := hi.wf w
      have hstage : (s.stage w).Wf h
          { s.acks.conn w with handler := (s.acks.conn w).handler.sendDataFromBuffer } := by
        rw [hw] at hwf ⊢
        exact hwf
      exact hi.of_same hacks (wf_move hi.wf hstage) fun c => same_move (by rfl) fun k _ => rfl

theorem inv_arrive {w n : Nat} (hstep : Moves h channel s (.arrive w n) s') : Inv h channel maxpayload s' := by
  cases hstep with
  | arrive =>
      have hstage : (s.stage w).Wf h ((s.acks.conn w).arrive n) := by
        have hwf := hi.wf w
        cases hw : s.stage w with
        | _ =>
            rw [hw] at hwf
            exact hwf
      exact hi.of_same hacks (wf_move hi.wf hstage) fun c => same_move (by rfl) fun k _ => rfl

theorem inv_auditResponse {w : Nat} {env : Env} (hstep : Moves h channel s (.auditResponse w env) s') :
    Inv h channel maxpayload s' := by
  cases hstep with
  | auditResponse j requests hw htodo hrun =>
      have hwf := hi.wf w
      rw [hw] at hwf
      obtain ⟨-, k0, r, hk0, hr, hreply⟩ := hwf
      obtain ⟨c0, hc0, hcase⟩ := updated_of_reply hreply hrun
      have hstage : Stage.idle.Wf h (s.acks.conn w) := htodo
      refine hi.of_step hacks r.message (wf_move hi.wf hstage) ?_ ?_
      · intro c hc
        have hne : c0 ≠ c := fun heq => hc (heq ▸ hc0)
        have hmove : Same h c s (s.move w .idle (s.acks.conn w)) := by
          refine same_move rfl ?_
          intro k ⟨r', hr', hc'⟩
          rw [hw, hk0, progress_idle _ _ j, if_neg]
          rintro rfl
          exact hc (Option.some.inj (hr'.symm.trans hr) ▸ hc')
        exact { hmove with
          requests := by
            rcases hcase with ⟨-, rfl⟩ | ⟨rt, dur, res, rfl⟩
            · rfl
            · exact filter_updateOne_of_ne hne (fun k d => hasCid_setResponse k rt dur res d) s.requests }
      · intro c hc p hp
        obtain rfl : c0 = c := Option.some.inj (hc0.symm.trans hc)
        obtain rfl := (hp.at_iff w _).mp ⟨r, hr, hc⟩
        have hframe : Frame h c0 s (s.move w .idle (s.acks.conn w)) := frame_move rfl c0
        refine ⟨_, hp.of_frame { hframe with } nofun ?_⟩
        intro _
        have hholds := hp.holds nofun
        rw [State.progress, hw, hk0, progress_running] at hholds
        have hafter := move_progress s w w k0 .idle (s.acks.conn w)
        rw [if_pos rfl, hk0, progress_idle _ _ j, if_pos rfl] at hafter
        show Holds (requests.filter (hasCid c0)) (c0 ∈ s.torn)
          ((s.move w .idle (s.acks.conn w)).progress (.held w k0))
        rw [hafter]
        exact holds_completed hcase hholds

/-- A crash: a request whose ack the broker has read is over, any other goes back to the queue, torn if it was
    recorded. -/
theorem inv_crash {w n i : Nat} (hstep : Moves h channel s (.crash w n i) s') : Inv h channel maxpayload s' := by
  cases hstep with
  | crash =>
      have hwf : ∀ w', ((s.goto w .idle).stage w').Wf h ((s.acks.put w .fresh).conn w') := wf_move hi.wf rfl
      refine ⟨hacks, hwf, ?_⟩
      intro c
      obtain ⟨p, hp⟩ := hi.fits c
      by_cases hat : ∃ k, At h s c w k
      · obtain ⟨k, hat⟩ := hat
        obtain rfl := (hp.at_iff w k).mp hat
        by_cases hack : ackFrame channel (k + 1) ∈ ((s.acks.conn w).arrive n).received
        · exact ⟨.gone, fits_crash_acked hi hp hack⟩
        · exact ⟨.queued, fits_crash_unacked hp hack⟩
      · exact ⟨p, hp.of_same (same_crash (not_exists.mp hat))⟩

end Steps

/-! ## Every run

In a quiescent state no request is in the queue and none is waiting on its connection, so each that was taken is
completed, and `Holds` says how many documents it has. -/

theorem inv_step (hlaw : h.Lawful) (hch : channel < 65536) (hmax : maxpayload + 8 ≤ BUFFER_SIZE) {s s' : State}
    {a : Step} (hi : Inv h channel maxpayload s) (hstep : step h channel maxpayload s a = some s') :
    Inv h channel maxpayload s' := by
  have hacks : Acks.Inv h channel maxpayload s'.acks := by
    rcases acks_step hstep with heq | ⟨b, hb⟩
    · exact heq ▸ hi.acks
    · exact Acks.inv_step hch hmax hi.acks hb
  have hmoves := moves_of_step hstep
  cases a with
  | submit m => exact inv_submit hi hacks hmoves
  | deliver w => exact inv_deliver hi hacks hmoves
  | auditRequest w env => exact inv_auditRequest hi hacks hlaw hmoves
  | publish w env => exact inv_publish hi hacks hmoves
  | onData w => exact inv_onData hi hacks hmoves
  | auditResponse w env => exact inv_auditResponse hi hacks hmoves
  | flush w => exact inv_flush hi hacks hmoves
  | arrive w n => exact inv_arrive hi hacks hmoves
  | crash w n i => exact inv_crash hi hacks hmoves

theorem inv_init (requests : List Doc) : Inv h channel maxpayload (init requests) where
  acks := Acks.inv_init
  wf _ := rfl
  fits _ := ⟨.unknown, {
    queue := rfl
    at_iff := fun _ _ => ⟨fun ⟨_, hr, _⟩ => (nomatch hr), nofun⟩
    gone := nofun
    submitted := ⟨nofun, fun hne => absurd rfl hne⟩
    taken := nofun
    unknown := fun _ => List.not_mem_nil
    holds := fun hne => absurd rfl hne }⟩

/-- Once the callback of every delivery has returned, a request that was taken is completed, and its reply published. -/
theorem completed_of_quiescent {s : State} {c : String} {p : Phase} (hi : Inv h channel maxpayload s)
    (hq : Quiescent s) (hc : c ∈ s.taken) (hp : Fits h channel s c p) :
    s.progress p = .completed ∧ Published h channel maxpayload s c := by
  cases p with
  | unknown => exact absurd rfl (hp.taken hc)
  | queued => exact absurd hp.queue (by rw [hq.1]; nofun)
  | held w k =>
      obtain ⟨r, hr, hcr⟩ := (hp.at_iff w k).mpr rfl
      obtain ⟨hidle, hhandled⟩ := hq.2 w
      have hk : k < (s.acks.conn w).handled := by
        rw [hhandled]
        exact (List.getElem?_eq_some_iff.mp hr).1
      have hwf := hi.wf w
      rw [hidle] at hwf
      refine ⟨?_, s.acks.conn w, .inl ⟨w, rfl⟩, r, List.mem_of_getElem? hr, hcr,
        (hi.conn w).published_of_handled hwf hk hr⟩
      rw [State.progress, hidle]
      exact if_pos hk
  | gone =>
      obtain ⟨x, hx, k, r, hr, hcr, hack⟩ := hp.gone rfl
      have hok := hi.acks.conns x (.inr hx)
      exact ⟨rfl, x, .inr hx, r, List.mem_of_getElem? hr, hcr,
        hok.published_of_answered (hok.answered_of_ack hr hack).2⟩

/-- Where no ack is on its way, the broker has read the reply to every request that is over. -/
theorem replied_of_unacked {s : State} {c : String} {p : Phase} (hi : Inv h channel maxpayload s)
    (hp : Fits h channel s c p) (hover : s.progress p = .completed)
    (hall : ∀ w, (s.acks.conn w).unacked channel = []) : Replied h channel maxpayload s c := by
  cases p with
  | unknown => cases hover
  | queued => cases hover
  | held w k =>
      obtain ⟨r, hr, hcr⟩ := (hp.at_iff w k).mpr rfl
      have hack : ackFrame channel (k + 1) ∈ (s.acks.conn w).received := by
        by_contra hunread
        have hmem := Acks.mem_unacked.mpr ⟨k, hr, hunread⟩
        rw [hall w] at hmem
        cases hmem
      exact ⟨_, .inl ⟨w, rfl⟩, r, List.mem_of_getElem? hr, hcr, ((hi.conn w).answered_of_ack hr hack).2⟩
  | gone =>
      obtain ⟨x, hx, k, r, hr, hcr, hack⟩ := hp.gone rfl
      exact ⟨x, .inr hx, r, List.mem_of_getElem? hr, hcr, ((hi.acks.conns x (.inr hx)).answered_of_ack hr hack).2⟩

/-- **Which requests the collection tells the truth about.** Once the queue is empty and the callback of every delivery
    has returned, a request that was taken has exactly one document, marked answered iff a reply was published, if and
    only if no worker crashed on it after its `insert_one` and before the broker had read its ack. Where no ack is on
    its way any more, the broker has read the reply. -/
theorem audit_consistent_iff (hlaw : h.Lawful) (hch : channel < 65536) (hmax : maxpayload + 8 ≤ BUFFER_SIZE)
    (requests : List Doc) (tr : List Step) (s : State)
    (hrun : Machine.exec (step h channel maxpayload) tr (init requests) = some s) (hq : Quiescent s) {c : String}
    (hc : c ∈ s.taken) :
    (Consistent h channel maxpayload s c ↔ c ∉ s.torn) ∧
      ((∀ w, (s.acks.conn w).unacked channel = []) → Replied h channel maxpayload s c) := by
  have hi : Inv h channel maxpayload s := by
    apply Machine.exec_invariant (I := Inv h channel maxpayload) _ (inv_init requests) hrun
    intro _ _ _ hi ha
    exact inv_step hlaw hch hmax hi ha
  obtain ⟨p, hp⟩ := hi.fits c
  obtain ⟨hover, hpublished⟩ := completed_of_quiescent hi hq hc hp
  have hholds := hp.holds (hp.taken hc)
  rw [hover] at hholds
  obtain ⟨hclean, htorn⟩ := hholds
  refine ⟨⟨?_, ?_⟩, replied_of_unacked hi hp hover⟩
  · -- A torn request has a document too many.
    rintro ⟨d, hd, -⟩ ht
    have hlen := htorn ht
    rw [hd, List.length_singleton] at hlen
    exact absurd hlen (by decide)
  · intro hnt
    obtain ⟨d, hd, hsent⟩ := hclean hnt
    exact ⟨d, hd, ⟨fun _ => hpublished, fun _ => hsent⟩⟩

/-! ### One request, with and without a crash -/

def sampleRequest : Message := sampleMessage (flatText (.object sampleFields))

/-- A worker's callback: the reply and the ack are in the buffer once it has returned. -/
def callback (w : Nat) : List Step :=
  [.auditRequest w sampleEnv, .publish w sampleEnv, .onData w, .onData w, .onData w, .onData w,
   .auditResponse w sampleEnv]

/-- The state after a run on the sample host, which starts from an empty collection. -/
def after (tr : List Step) : State := (Machine.exec (step sampleHost 1 131064) tr (init [])).getD (init [])

theorem exec_after {tr : List Step}
    (hsome : (Machine.exec (step sampleHost 1 131064) tr (init [])).isSome = true) :
    Machine.exec (step sampleHost 1 131064) tr (init []) = some (after tr) := by
  obtain ⟨s, hs⟩ := Option.isSome_iff_exists.mp hsome
  rw [after, hs, Option.getD_some]

def answered : List Step := [.submit sampleRequest, .deliver 0] ++ callback 0 ++ [.flush 0, .arrive 0 1000]

theorem quiescent_after_answered : Quiescent (after answered) :=
  quiescent_of_lt 1 (exec_after (by decide +kernel)) (by decide) (by decide +kernel) (by decide +kernel)

/-- The broker has read everything: one document, marked, and a reply on the wire. -/
theorem audit_consistent_iff_callback :
    (Consistent sampleHost 1 131064 (after answered) "c1" ↔ "c1" ∉ (after answered).torn) ∧
      ((∀ w, ((after answered).acks.conn w).unacked 1 = []) → Replied sampleHost 1 131064 (after answered) "c1") :=
  audit_consistent_iff (flatHost_lawful [.object sampleFields, .object []]) (by decide) (by decide) [] answered
    (after answered) (exec_after (by decide +kernel)) quiescent_after_answered (by decide +kernel)

/-- The first worker is gone once it has marked the record, and before the reply and the ack have left its buffer. -/
def crashed : List Step :=
  [.submit sampleRequest, .deliver 0] ++ callback 0 ++ [.crash 0 1000 0, .deliver 1] ++ callback 1 ++
    [.flush 1, .arrive 1 1000]

theorem two_documents_after_crash :
    Machine.Reaches (step sampleHost 1 131064) (init []) (after crashed) ∧ Quiescent (after crashed) ∧
      (∀ w, ((after crashed).acks.conn w).unacked 1 = []) ∧ "c1" ∈ (after crashed).taken ∧
      ¬ Consistent sampleHost 1 131064 (after crashed) "c1" := by
  have hrun : Machine.exec (step sampleHost 1 131064) crashed (init []) = some (after crashed) :=
    exec_after (by decide +kernel)
  have htr : ∀ a ∈ crashed, ∀ w ∈ a.worker, w < 2 := by decide
  refine ⟨⟨crashed, hrun⟩, quiescent_of_lt 2 hrun htr (by decide +kernel) (by decide +kernel), fun w => ?_,
    by decide +kernel, ?_⟩
  · rcases Nat.lt_or_ge w 2 with hlt | hge
    · have hread : ∀ w < 2, (((after crashed).acks.conn w).unacked 1).length = 0 := by decide +kernel
      exact List.eq_nil_of_length_eq_zero (hread w hlt)
    · rw [(untouched (w := w) hrun fun a ha hw => absurd (htr a ha w hw) (Nat.not_lt_of_ge hge)).2]
      rfl
  · rintro ⟨d, hd, -⟩
    have htwo : ((after crashed).requests.filter (hasCid "c1")).length = 2 := by decide +kernel
    rw [hd] at htwo
    cases htwo

end NewOrbit.Rabbit.Audit
