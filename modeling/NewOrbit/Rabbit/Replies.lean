import Mathlib.Data.List.InsertIdx
import Mathlib.Logic.Function.Basic
import NewOrbit.Lib.Machine
import NewOrbit.Rabbit.Send

/-!
# `Rabbit.Replies` — an accepted reply answers a request of its client

Any number of clients tick, any number of workers take, answer and ack requests or crash and have them
redelivered, and replies reach clients in any order. Every request on its way is one some client remembers
(`Remembered`), and every reply on its way answers such a request (`Answers`). A client accepts a reply for a
correlation id it remembers; no two clients remember the same one, so the request answered is its own.
-/

namespace NewOrbit.Rabbit.Replies
open CString

/-! ## The machine

The clients, the queue, the workers and the replies on their way make one state. A step is a call of a client's or a
worker's callback, or a crash; where the bodies are read and printed, it runs the functions of both programs. What a
worker publishes or acks is at the broker at once here. That a crash may take it along with the output buffer
(`Rabbit.Acks`) makes no run that is not one of these: the reply is then one that no client receives, and the crash
comes before the ack. -/

/-- A worker's delivery, before and after its reply is published. -/
inductive Stage where
  | idle
  | delivered (m : Message)
  | published (m : Message)

/-- The clients' maps, the request queue, the workers, the replies on their way, and the replies accepted with
    their clients. `dumped` records the JSON values printed so far; nothing reads it. -/
structure State where
  messagesSent : Nat → MessagesSent
  queue        : List Message
  stage        : Nat → Stage
  inflight     : List Message
  accepted     : List (Nat × Message)
  dumped       : List Json

def init : State := ⟨fun _ => [], [], fun _ => .idle, [], [], []⟩

/-- A tick of client `k` uses a uuid and whatever `tempQueueName` is at that time. The broker hands the reply at
    some place to some client: nothing below depends on how it routes. -/
inductive Step where
  | tick (k : Nat) (d : Draw) (uuid : String) (tempQueueName : Bytes)
  | deliver (w : Nat)
  | publish (w : Nat) (env : Env)
  | ack (w : Nat)
  | crash (w : Nat) (i : Nat)
  | receive (k : Nat) (i : Nat)

variable (h : Host)

def State.goto (s : State) (w : Nat) (st : Stage) : State := { s with stage := Function.update s.stage w st }

def State.requeue (s : State) (i : Nat) (m : Message) : State :=
  { s with queue := s.queue.insertIdx (min i s.queue.length) m }

def step (s : State) : Step → Option State
  | .tick k d uuid tempQueueName =>
      match tick h d uuid tempQueueName (s.messagesSent k) with
      | .ok (j, sent, m) => some { s with
          messagesSent := Function.update s.messagesSent k sent
          queue := s.queue ++ [m]
          dumped := s.dumped ++ [j] }
      | .error _ => none
  | .deliver w =>
      match s.stage w, s.queue with
      | .idle, m :: queue => some { s.goto w (.delivered m) with queue }
      | _, _ => none
  | .publish w env =>
      match s.stage w with
      | .delivered m =>
        match reply h env m with
        | .ok j => some { s.goto w (.published m) with
            inflight := s.inflight ++ [envelope h m j]
            dumped := s.dumped ++ [j] }
        | .error _ => none
      | _ => none
  | .ack w =>
      match s.stage w with
      | .published _ => some (s.goto w .idle)
      | _            => none
  | .crash w i =>
      match s.stage w with
      | .idle        => some s
      | .delivered m => some ((s.goto w .idle).requeue i m)
      -- The reply that is on its way stays there: the redelivery brings a second one.
      | .published m => some ((s.goto w .idle).requeue i m)
  | .receive k i =>
      match s.inflight[i]? with
      | some m =>
        let s := { s with inflight := s.inflight.eraseIdx i }
        if receiveCallback (s.messagesSent k) m then some { s with accepted := s.accepted ++ [(k, m)] } else some s
      | none => none

/-- What a step can do, with what it has found. -/
inductive Moves (s : State) : Step → State → Prop
  | tick {k : Nat} {d : Draw} {uuid : String} {tempQueueName : Bytes} :
      Moves s (.tick k d uuid tempQueueName) { s with
        messagesSent := Function.update s.messagesSent k ((s.messagesSent k).insert (bytes uuid)
          (h.dump (.object (requestFields d uuid))))
        queue := s.queue ++ [⟨h.dump (.object (requestFields d uuid)), bytes uuid, tempQueueName⟩]
        dumped := s.dumped ++ [.object (requestFields d uuid)] }
  | deliver {w : Nat} (m : Message) (queue : List Message) (hidle : s.stage w = .idle) (hq : s.queue = m :: queue) :
      Moves s (.deliver w) { s.goto w (.delivered m) with queue }
  | publish {w : Nat} {env : Env} (m : Message) (j : Json) (hw : s.stage w = .delivered m)
      (hrun : reply h env m = .ok j) :
      Moves s (.publish w env) { s.goto w (.published m) with
        inflight := s.inflight ++ [envelope h m j]
        dumped := s.dumped ++ [j] }
  | ack {w : Nat} (m : Message) (hw : s.stage w = .published m) : Moves s (.ack w) (s.goto w .idle)
  | crashIdle {w i : Nat} (hw : s.stage w = .idle) : Moves s (.crash w i) s
  | crashDelivered {w i : Nat} (m : Message) (hw : s.stage w = .delivered m) :
      Moves s (.crash w i) ((s.goto w .idle).requeue i m)
  | crashPublished {w i : Nat} (m : Message) (hw : s.stage w = .published m) :
      Moves s (.crash w i) ((s.goto w .idle).requeue i m)
  | accept {k i : Nat} (m : Message) (hm : s.inflight[i]? = some m)
      (haccept : receiveCallback (s.messagesSent k) m = true) :
      Moves s (.receive k i) { s with inflight := s.inflight.eraseIdx i, accepted := s.accepted ++ [(k, m)] }
  | discard {k i : Nat} (m : Message) (hm : s.inflight[i]? = some m) :
      Moves s (.receive k i) { s with inflight := s.inflight.eraseIdx i }

/-- A step that is taken is one of these. -/
theorem moves_of_step {s s' : State} {a : Step} (hstep : step h s a = some s') : Moves h s a s' := by
  cases a with
  | tick k d uuid tempQueueName =>
      rw [step, tick_eq] at hstep
      cases hstep
      exact .tick
  | deliver w =>
      simp only [step] at hstep
      split at hstep
      · rename_i m queue hidle hq
        cases hstep
        exact .deliver m queue hidle hq
      · cases hstep
  | publish w env =>
      simp only [step] at hstep
      split at hstep
      · rename_i m hw
        split at hstep
        · rename_i j hrun
          cases hstep
          exact .publish m j hw hrun
        · cases hstep
      · cases hstep
  | ack w =>
      simp only [step] at hstep
      split at hstep
      · rename_i m hw
        cases hstep
        exact .ack m hw
      · cases hstep
  | crash w i =>
      simp only [step] at hstep
      split at hstep
      · rename_i hw
        cases hstep
        exact .crashIdle hw
      · rename_i m hw
        cases hstep
        exact .crashDelivered m hw
      · rename_i m hw
        cases hstep
        exact .crashPublished m hw
  | receive k i =>
      simp only [step] at hstep
      split at hstep
      · rename_i m hm
        split at hstep
        · rename_i haccept
          cases hstep
          exact .accept m hm haccept
        · cases hstep
          exact .discard m hm
      · cases hstep

/-- The uuids the ticks of a run drew. -/
def uuids (tr : List Step) : List String :=
  tr.filterMap fun
    | .tick _ _ uuid _ => some uuid
    | _                => none

/-! ## The property

A reply is compared with the request by what both bodies say once they are parsed. -/

/-- The reply carries what the request does, and the result computed from it. -/
structure Answers (js jr : Json) : Prop where
  same     : ∀ key ∈ ["cid", "num1", "num2", "cal_type"], jr.index key = js.index key
  response : ∃ num1 num2 cal_type res, js.intAt "num1" = .ok num1 ∧ js.intAt "num2" = .ok num2 ∧
    js.intAt "cal_type" = .ok cal_type ∧ doCalculation num1 num2 cal_type = some res ∧ jr.intAt "response" = .ok res

/-- What client `k` remembers under `c` is a request whose body reads as `js`. -/
def Remembers (s : State) (k : Nat) (c : Bytes) (js : Json) : Prop :=
  ∃ message, (s.messagesSent k).lookup c = some message ∧ h.parse message = .ok js

/-! ## The invariant

Clients never forget a request, so that what is said of a message on its way stays true however long it takes
(`Grows`). A uuid is issued once, and so a correlation id leads to one client. -/

/-- A request on its way: some client remembers it as it was printed. -/
def Remembered (s : State) (m : Message) : Prop :=
  ∃ k js, (s.messagesSent k).lookup m.correlationID = some (h.dump js) ∧ m.body = h.dump js ∧ js ∈ s.dumped

/-- A reply on its way: it answers a request some client remembers under its correlation id. -/
def AnswersRemembered (s : State) (m : Message) : Prop :=
  ∃ k js jr, (s.messagesSent k).lookup m.correlationID = some (h.dump js) ∧ m.body = h.dump jr ∧ js ∈ s.dumped ∧
    jr ∈ s.dumped ∧ Answers js jr

structure Inv (issued : List String) (s : State) : Prop where
  issued    : ∀ k c message, (s.messagesSent k).lookup c = some message → ∃ uuid ∈ issued, c = bytes uuid
  unique    : ∀ k k' c message message', (s.messagesSent k).lookup c = some message →
    (s.messagesSent k').lookup c = some message' → k = k'
  queue     : ∀ m ∈ s.queue, Remembered h s m
  delivered : ∀ w m, s.stage w = .delivered m → Remembered h s m
  published : ∀ w m, s.stage w = .published m → Remembered h s m
  inflight  : ∀ m ∈ s.inflight, AnswersRemembered h s m
  accepted  : ∀ km ∈ s.accepted, ∃ js jr, (s.messagesSent km.1).lookup km.2.correlationID = some (h.dump js) ∧
    km.2.body = h.dump jr ∧ js ∈ s.dumped ∧ jr ∈ s.dumped ∧ Answers js jr

variable {h}

theorem inv_init : Inv h [] init where
  issued := nofun
  unique := nofun
  queue := nofun
  delivered := nofun
  published := nofun
  inflight := nofun
  accepted := nofun

/-- What is remembered and printed only grows. -/
structure Grows (s s' : State) : Prop where
  sent   : ∀ k c message, (s.messagesSent k).lookup c = some message → (s'.messagesSent k).lookup c = some message
  dumped : ∀ j ∈ s.dumped, j ∈ s'.dumped

theorem Remembered.grows {s s' : State} {m : Message} (hg : Grows s s') (hm : Remembered h s m) :
    Remembered h s' m := by
  obtain ⟨k, js, hlook, hbody, hjs⟩ := hm
  exact ⟨k, js, hg.sent _ _ _ hlook, hbody, hg.dumped _ hjs⟩

theorem AnswersRemembered.grows {s s' : State} {m : Message} (hg : Grows s s') (hm : AnswersRemembered h s m) :
    AnswersRemembered h s' m := by
  obtain ⟨k, js, jr, hlook, hbody, hjs, hjr, hans⟩ := hm
  exact ⟨k, js, jr, hg.sent _ _ _ hlook, hbody, hg.dumped _ hjs, hg.dumped _ hjr, hans⟩

theorem grows_of_eq {s s' : State} (hsent : s'.messagesSent = s.messagesSent) (hdumped : s'.dumped = s.dumped) :
    Grows s s' := by
  constructor
  · intro k c message hlook
    rw [hsent]
    exact hlook
  · intro j hj
    rw [hdumped]
    exact hj

theorem Inv.accepted_grows {issued : List String} {s s' : State} (hi : Inv h issued s) (hg : Grows s s') :
    ∀ km ∈ s.accepted, ∃ js jr, (s'.messagesSent km.1).lookup km.2.correlationID = some (h.dump js) ∧
      km.2.body = h.dump jr ∧ js ∈ s'.dumped ∧ jr ∈ s'.dumped ∧ Answers js jr := by
  intro km hkm
  obtain ⟨js, jr, hlook, hbody, hjs, hjr, hans⟩ := hi.accepted km hkm
  exact ⟨js, jr, hg.sent _ _ _ hlook, hbody, hg.dumped _ hjs, hg.dumped _ hjr, hans⟩

theorem goto_stage (s : State) (w w' : Nat) (st : Stage) :
    (s.goto w st).stage w' = if w' = w then st else s.stage w' :=
  Function.update_apply s.stage w st w'

/-- The reply that is computed answers the request that was parsed. -/
theorem answers_of_reply {env : Env} {m : Message} {js jr : Json} (hparse : h.parse m.body = .ok js)
    (hrun : reply h env m = .ok jr) : Answers js jr := by
  obtain ⟨fs, cid, res, rt, duration, hfs, -, ⟨n1, n2, t, h1, h2, h3, hres⟩, -, -, rfl⟩ := reply_eq_ok.mp hrun
  obtain rfl : js = .object fs := Except.ok.inj (hparse.symm.trans hfs)
  have hint : InInt res := by
    rcases (doCalculation_eq_some.mp hres) with ⟨hsum, ⟨-, rfl⟩ | ⟨-, hbig, rfl⟩⟩
    · exact hsum
    · exact hbig
  constructor
  · intro key hkey
    have hnot : key ∉ ["response_sent", "cal_duration", "response_time", "server_ip", "server_ver", "response"] := by
      simp only [List.mem_cons, List.not_mem_nil, or_false] at hkey
      rcases hkey with rfl | rfl | rfl | rfl <;> decide
    have hne : key ≠ "response_sent" := fun heq => hnot (heq ▸ List.mem_cons_self)
    simp only [Json.index, get_replyFields hnot, get_auditedFields hne]
  · refine ⟨n1, n2, t, res, h1, h2, h3, hres, Json.intAt_eq_ok.mpr ⟨_, .number_integer res, rfl, ?_, ?_⟩⟩
    · exact get_response_replyFields
    · exact congrArg Except.ok (toInt_of_inInt hint)

/-! ### The steps

A step is said by the stages it changes and by what it adds. The two that compute something are the tick, which
remembers the request it queues, and the publishing of a reply, whose fields come from those of the request
(`answers_of_reply`). -/

/-- A worker's step: its own stage is given, the others stay. -/
theorem stages_goto {issued : List String} {s s' : State} (hi : Inv h issued s) (hg : Grows s s') {w : Nat}
    {st : Stage} (hstage : s'.stage = (s.goto w st).stage)
    (hst : ∀ m, st = .delivered m ∨ st = .published m → Remembered h s' m) :
    (∀ w' m, s'.stage w' = .delivered m → Remembered h s' m) ∧
      ∀ w' m, s'.stage w' = .published m → Remembered h s' m := by
  constructor
  · intro w' m hm
    rw [hstage, goto_stage] at hm
    by_cases hw : w' = w
    · rw [if_pos hw] at hm
      exact hst m (.inl hm)
    · rw [if_neg hw] at hm
      exact (hi.delivered w' m hm).grows hg
  · intro w' m hm
    rw [hstage, goto_stage] at hm
    by_cases hw : w' = w
    · rw [if_pos hw] at hm
      exact hst m (.inr hm)
    · rw [if_neg hw] at hm
      exact (hi.published w' m hm).grows hg

/-- A worker that goes back to idle holds nothing. -/
theorem stages_idle {issued : List String} {s s' : State} (hi : Inv h issued s) (hg : Grows s s') {w : Nat}
    (hstage : s'.stage = (s.goto w .idle).stage) :
    (∀ w' m, s'.stage w' = .delivered m → Remembered h s' m) ∧
      ∀ w' m, s'.stage w' = .published m → Remembered h s' m := by
  apply stages_goto hi hg hstage
  intro m hm
  rcases hm with hm | hm
  · cases hm
  · cases hm

section Insert
variable {sent : Nat → MessagesSent} {k k' : Nat} {key val c message : Bytes}

/-- What is remembered after an insertion was remembered before, or is what was inserted. -/
theorem lookup_of_insert
    (hlook : (Function.update sent k ((sent k).insert key val) k').lookup c = some message) :
    (sent k').lookup c = some message ∨ k' = k ∧ c = key := by
  rw [Function.update_apply] at hlook
  by_cases hk : k' = k
  · rw [if_pos hk] at hlook
    by_cases hc : c = key
    · exact .inr ⟨hk, hc⟩
    · rw [MessagesSent.lookup_insert_of_ne hc] at hlook
      exact .inl (hk ▸ hlook)
  · rw [if_neg hk] at hlook
    exact .inl hlook

theorem insert_of_lookup (hlook : (sent k').lookup c = some message) :
    (Function.update sent k ((sent k).insert key val) k').lookup c = some message := by
  rw [Function.update_apply]
  by_cases hk : k' = k
  · rw [if_pos hk]
    exact MessagesSent.lookup_insert_of_some (hk ▸ hlook)
  · rw [if_neg hk]
    exact hlook

end Insert

theorem lookup_tick {issued : List String} {s : State} (hi : Inv h issued s) {uuid : String} (hnew : uuid ∉ issued)
    (k : Nat) : (s.messagesSent k).lookup (bytes uuid) = none := by
  cases hlook : (s.messagesSent k).lookup (bytes uuid) with
  | none => rfl
  | some message =>
      obtain ⟨uuid', hmem, heq⟩ := hi.issued k _ _ hlook
      rw [bytes_injective heq] at hnew
      exact absurd hmem hnew

theorem inv_tick {issued : List String} {s s' : State} {k : Nat} {d : Draw} {uuid : String} {tempQueueName : Bytes}
    (hi : Inv h issued s) (hnew : uuid ∉ issued) (hstep : step h s (.tick k d uuid tempQueueName) = some s') :
    Inv h (issued ++ [uuid]) s' := by
  cases moves_of_step h hstep
  generalize hjs : Json.object (requestFields d uuid) = js
  have hg : Grows s { s with
      messagesSent := Function.update s.messagesSent k ((s.messagesSent k).insert (bytes uuid) (h.dump js))
      queue := s.queue ++ [⟨h.dump js, bytes uuid, tempQueueName⟩]
      dumped := s.dumped ++ [js] } :=
    ⟨fun _ _ _ hlook => insert_of_lookup hlook, fun _ hj => List.mem_append_left _ hj⟩
  exact {
    issued := by
      intro k' c message hlook
      rcases lookup_of_insert hlook with hlook | ⟨-, hc⟩
      · obtain ⟨uuid', hmem, heq⟩ := hi.issued k' c message hlook
        exact ⟨uuid', List.mem_append_left _ hmem, heq⟩
      · exact ⟨uuid, by simp, hc⟩
    unique := by
      intro k1 k2 c m1 m2 h1 h2
      -- A fresh uuid is remembered by nobody, so one key under two clients was there before the tick.
      rcases lookup_of_insert h1 with h1 | ⟨hk1, hc1⟩
      · rcases lookup_of_insert h2 with h2 | ⟨-, hc2⟩
        · exact hi.unique k1 k2 c m1 m2 h1 h2
        · rw [hc2, lookup_tick hi hnew] at h1
          cases h1
      · rcases lookup_of_insert h2 with h2 | ⟨hk2, -⟩
        · rw [hc1, lookup_tick hi hnew] at h2
          cases h2
        · rw [hk1, hk2]
    queue := by
      intro m hm
      rcases List.mem_append.mp hm with hm | hm
      · exact (hi.queue m hm).grows hg
      · rw [List.mem_singleton.mp hm]
        refine ⟨k, js, ?_, rfl, by simp⟩
        show (Function.update s.messagesSent k _ k).lookup (bytes uuid) = _
        rw [Function.update_self]
        exact MessagesSent.lookup_insert_self (lookup_tick hi hnew k)
    delivered := fun w m hw => (hi.delivered w m hw).grows hg
    published := fun w m hw => (hi.published w m hw).grows hg
    inflight := fun m hm => (hi.inflight m hm).grows hg
    accepted := hi.accepted_grows hg }

theorem inv_deliver {issued : List String} {s s' : State} {w : Nat} (hi : Inv h issued s)
    (hstep : step h s (.deliver w) = some s') : Inv h issued s' := by
  cases moves_of_step h hstep with
  | deliver m queue hidle hq =>
      have hg : Grows s { s.goto w (.delivered m) with queue } := grows_of_eq rfl rfl
      have hm : Remembered h s m := hi.queue m (hq ▸ List.mem_cons_self)
      obtain ⟨hdel, hpub⟩ := stages_goto hi hg (w := w) rfl
        (fun m' hm' => by obtain hm' | hm' := hm' <;> cases hm'; exact hm)
      exact { hi with
        queue := fun m' hm' => hi.queue m' (hq ▸ List.mem_cons_of_mem m hm')
        delivered := hdel
        published := hpub }

theorem inv_publish {issued : List String} {s s' : State} {w : Nat} {env : Env} (hi : Inv h issued s)
    (hloss : ∀ j ∈ s'.dumped, h.parse (h.dump j) = .ok j) (hstep : step h s (.publish w env) = some s') :
    Inv h issued s' := by
  cases moves_of_step h hstep with
  | publish m jr hw hrun =>
      have hg : Grows s { s.goto w (.published m) with
          inflight := s.inflight ++ [envelope h m jr], dumped := s.dumped ++ [jr] } :=
        ⟨fun _ _ _ h => h, fun _ h => List.mem_append_left _ h⟩
      have hm := (hi.delivered w m hw).grows hg
      obtain ⟨hdel, hpub⟩ := stages_goto hi hg (w := w) rfl
        (fun m' hm' => by obtain hm' | hm' := hm' <;> cases hm'; exact hm)
      exact { hi with
        queue := fun m' hm' => (hi.queue m' hm').grows hg
        delivered := hdel
        published := hpub
        inflight := by
          intro m' hm'
          rcases List.mem_append.mp hm' with hm' | hm'
          · exact (hi.inflight m' hm').grows hg
          · rw [List.mem_singleton.mp hm']
            obtain ⟨k, js, hlook, hbody, hjs⟩ := hm
            -- The worker reads the body back as it was printed, so its reply answers that very request.
            have hparse : h.parse m.body = .ok js := by rw [hbody]; exact hloss js hjs
            exact ⟨k, js, jr, hlook, rfl, hjs, by simp, answers_of_reply hparse hrun⟩
        accepted := hi.accepted_grows hg }

theorem inv_ack {issued : List String} {s s' : State} {w : Nat} (hi : Inv h issued s)
    (hstep : step h s (.ack w) = some s') : Inv h issued s' := by
  cases moves_of_step h hstep with
  | ack m hw =>
      have hg : Grows s (s.goto w .idle) := grows_of_eq rfl rfl
      obtain ⟨hdel, hpub⟩ := stages_idle hi hg rfl
      exact { hi with delivered := hdel, published := hpub }

/-- A crash puts the message the worker held back into the queue. -/
theorem inv_requeue {issued : List String} {s : State} {w i : Nat} {m : Message} (hi : Inv h issued s)
    (hm : Remembered h s m) : Inv h issued ((s.goto w .idle).requeue i m) := by
  have hg : Grows s ((s.goto w .idle).requeue i m) := grows_of_eq rfl rfl
  obtain ⟨hdel, hpub⟩ := stages_idle hi hg rfl
  exact { hi with
    queue := by
      intro m' hm'
      rcases (List.mem_insertIdx (Nat.min_le_right i _)).mp hm' with rfl | hm'
      · exact hm
      · exact hi.queue m' hm'
    delivered := hdel
    published := hpub }

theorem inv_crash {issued : List String} {s s' : State} {w i : Nat} (hi : Inv h issued s)
    (hstep : step h s (.crash w i) = some s') : Inv h issued s' := by
  cases moves_of_step h hstep with
  | crashIdle hw => exact hi
  | crashDelivered m hw => exact inv_requeue hi (hi.delivered w m hw)
  | crashPublished m hw => exact inv_requeue hi (hi.published w m hw)

theorem inv_receive {issued : List String} {s s' : State} {k i : Nat} (hi : Inv h issued s)
    (hstep : step h s (.receive k i) = some s') : Inv h issued s' := by
  have hrest : ∀ m ∈ s.inflight.eraseIdx i, AnswersRemembered h s m :=
    fun m hm => hi.inflight m (List.mem_of_mem_eraseIdx hm)
  cases moves_of_step h hstep with
  | accept m hm haccept =>
      refine { hi with inflight := hrest, accepted := ?_ }
      intro km hkm
      rcases List.mem_append.mp hkm with hkm | hkm
      · exact hi.accepted km hkm
      · -- The client that accepts remembers the correlation id, and so does the client that sent the request.
        rw [List.mem_singleton.mp hkm]
        obtain ⟨k', js, jr, hlook, hbody, hjs, hjr, hans⟩ := hi.inflight m (List.mem_of_getElem? hm)
        obtain ⟨message, hmessage⟩ := Option.isSome_iff_exists.mp haccept
        obtain rfl := hi.unique k k' _ _ _ hmessage hlook
        exact ⟨js, jr, hlook, hbody, hjs, hjr, hans⟩
  | discard m hm => exact { hi with inflight := hrest }

/-! ## Every run

The run lemma needs that the uuids of a run are distinct and that what is printed is read back as it was. -/

theorem dumped_step {s s' : State} {a : Step} (hstep : step h s a = some s') : ∀ j ∈ s.dumped, j ∈ s'.dumped := by
  intro j hj
  cases moves_of_step h hstep with
  | tick => exact List.mem_append_left _ hj
  | publish m jr hw hrun => exact List.mem_append_left _ hj
  | _ => exact hj

theorem inv_step {issued : List String} {s s' : State} {a : Step} (hi : Inv h issued s)
    (hnew : ∀ uuid ∈ uuids [a], uuid ∉ issued) (hloss : ∀ j ∈ s'.dumped, h.parse (h.dump j) = .ok j)
    (hstep : step h s a = some s') : Inv h (issued ++ uuids [a]) s' := by
  cases a with
  | tick k d uuid q => exact inv_tick hi (hnew uuid (by simp [uuids])) hstep
  | deliver w => exact (List.append_nil issued).symm ▸ inv_deliver hi hstep
  | publish w env => exact (List.append_nil issued).symm ▸ inv_publish hi hloss hstep
  | ack w => exact (List.append_nil issued).symm ▸ inv_ack hi hstep
  | crash w i => exact (List.append_nil issued).symm ▸ inv_crash hi hstep
  | receive k i => exact (List.append_nil issued).symm ▸ inv_receive hi hstep

theorem uuids_append (tr tr' : List Step) : uuids (tr ++ tr') = uuids tr ++ uuids tr' := List.filterMap_append

/-- **An accepted reply answers a request of its own client.** In every run whose uuids are distinct and whose
    JSON values are read back as they were printed: a reply that client `k` accepted has a correlation id under
    which `k` remembers a request; its body carries that request's `cid`, `num1`, `num2` and `cal_type`, and
    `response` is what `doCalculation` makes of them. -/
theorem accepted_answers_own_request (h : Host) (tr : List Step) (s : State)
    (hrun : Machine.exec (step h) tr init = some s) (huuid : (uuids tr).Nodup)
    (hloss : ∀ j ∈ s.dumped, h.parse (h.dump j) = .ok j) {k : Nat} {m : Message} (hacc : (k, m) ∈ s.accepted) :
    ∃ js jr, Remembers h s k m.correlationID js ∧ h.parse m.body = .ok jr ∧ Answers js jr := by
  have hi : (uuids tr).Nodup → (∀ j ∈ s.dumped, h.parse (h.dump j) = .ok j) → Inv h (uuids tr) s := by
    refine Machine.exec_trace (I := fun tr s => (uuids tr).Nodup → (∀ j ∈ s.dumped, h.parse (h.dump j) = .ok j) →
      Inv h (uuids tr) s) (fun _ _ => inv_init) ?_ hrun
    intro tr t a u hI hstep hnodup hl
    rw [uuids_append] at hnodup ⊢
    obtain ⟨hold, -, hdisjoint⟩ := List.nodup_append.mp hnodup
    -- What is asked of the whole run holds of its front part: fewer uuids, and fewer values printed.
    have ht := hI hold (fun j hj => hl j (dumped_step hstep j hj))
    exact inv_step ht (fun uuid hmem hissued => hdisjoint uuid hissued uuid hmem rfl) hl hstep
  obtain ⟨js, jr, hlook, hbody, hjs, hjr, hans⟩ := (hi huuid hloss).accepted (k, m) hacc
  exact ⟨js, jr, ⟨_, hlook, hloss js hjs⟩, by rw [hbody]; exact hloss jr hjr, hans⟩

/-! ### One exchange, with a redelivery

The first worker crashes between its reply and the ack, so that the request is answered twice. -/

/-- A worker publishes its reply and crashes before the ack; a second worker answers again, and the client gets
    both replies. -/
def exchange : List Step :=
  [.tick 0 sampleDraw "c1" (bytes "amq.gen-1"), .deliver 0, .publish 0 sampleEnv, .crash 0 0, .deliver 1,
   .publish 1 sampleEnv, .ack 1, .receive 0 1, .receive 0 0]

def exchangeRequest : Json := .object (requestFields sampleDraw "c1")

def exchangeReply : Json :=
  .object (replyFields sampleEnv 7 "00:00:00.000" (auditedFields (requestFields sampleDraw "c1")))

def exchangeHost : Host := flatHost [exchangeRequest, exchangeReply]

def afterExchange : State := (Machine.exec (step exchangeHost) exchange init).getD init

theorem exec_exchange : Machine.exec (step exchangeHost) exchange init = some afterExchange := by
  have hsome : (Machine.exec (step exchangeHost) exchange init).isSome = true := by decide +kernel
  obtain ⟨s, hs⟩ := Option.isSome_iff_exists.mp hsome
  rw [afterExchange, hs, Option.getD_some]

theorem dumped_exchange : ∀ j ∈ afterExchange.dumped, exchangeHost.parse (exchangeHost.dump j) = .ok j := by
  have hdumped : afterExchange.dumped = [exchangeRequest, exchangeReply, exchangeReply] := by decide +kernel
  have hrequest : exchangeHost.parse (exchangeHost.dump exchangeRequest) = .ok exchangeRequest := by decide +kernel
  have hreply : exchangeHost.parse (exchangeHost.dump exchangeReply) = .ok exchangeReply := by decide +kernel
  rw [hdumped]
  intro j hj
  simp only [List.mem_cons, List.not_mem_nil, or_false] at hj
  rcases hj with rfl | rfl | rfl
  · exact hrequest
  · exact hreply
  · exact hreply

/-- The message both replies arrive as. -/
def exchangeMessage : Message := ⟨exchangeHost.dump exchangeReply, bytes "c1", []⟩

theorem accepted_answers_own_request_exchange :
    ∃ js jr, Remembers exchangeHost afterExchange 0 (bytes "c1") js ∧
      exchangeHost.parse exchangeMessage.body = .ok jr ∧ Answers js jr :=
  accepted_answers_own_request (m := exchangeMessage) exchangeHost exchange afterExchange exec_exchange (by decide)
    dumped_exchange (by decide +kernel)

end NewOrbit.Rabbit.Replies
