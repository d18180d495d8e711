import NewOrbit.Rabbit.Audit
import NewOrbit.Rabbit.Send

/-!
# `Rabbit.Unanswered` — what the collection holds of a request that was not answered

`auditRequest` records the fields the request came with and `response_sent`; the three fields of the answer are
written by `auditResponse`, which marks the document as answered in the same update. So in every run of the audit
machine whose requests come without these fields, a document that is not marked has none of them
(`unanswered_bare`). The requests of `send.cpp` come so (`bare_requestFields`).
-/

namespace NewOrbit.Rabbit.Audit
open CString

/-- The fields that `auditResponse` adds. -/
def answerKeys : List String := ["response", "response_time", "cal_duration"]

def Bare (fs : List (String × Json)) : Prop := ∀ key ∈ answerKeys, Fields.get key fs = none

instance (fs : List (String × Json)) : Decidable (Bare fs) := inferInstanceAs (Decidable (∀ _ ∈ _, _))

/-- A message whose body, if it is an object, is bare. -/
def Message.Bare (h : Host) (m : Message) : Prop := ∀ fs, h.parse m.body = .ok (.object fs) → Audit.Bare fs

/-- `from_json` adds no fields. -/
def AddsNothing (h : Host) : Prop :=
  ∀ fs d key, h.from_json (.object fs) = .ok d → Fields.get key fs = none → Fields.get key d = none

variable {h : Host}

theorem bare_auditedFields {fs : List (String × Json)} (hfs : Bare fs) : Bare (auditedFields fs) := by
  intro key hkey
  rw [get_auditedFields]
  · exact hfs key hkey
  · rintro rfl
    exact absurd hkey (by decide)

/-- The document that `auditRequest` inserts for a bare message. -/
theorem bare_of_audited {m : Message} {env : Env} {ds ds' : List Doc} {j : Json} (hadd : AddsNothing h)
    (hm : Message.Bare h m)
    (hrun : (request h m >>= fun (j, _) => Rabbit.auditRequest h env j ds) = .ok (j, ds')) :
    ∃ d, ds' = ds ++ [d] ∧ Bare d := by
  obtain ⟨⟨j0, c⟩, hreq, haudit⟩ := bind_eq_ok.mp hrun
  obtain ⟨hparse, fs, rfl, -⟩ := request_eq_ok.mp hreq
  obtain ⟨-, -, d, hd, rfl⟩ := auditRequest_eq_ok.mp haudit
  exact ⟨d, rfl, fun key hkey => hadd _ d key hd (bare_auditedFields (hm fs hparse) key hkey)⟩

/-- The collection after `auditResponse`: as it was, or with the `$set` on one document. -/
theorem auditResponse_cases {env : Env} {j : Json} {cid : String} {ds ds' : List Doc}
    (hrun : Rabbit.auditResponse env j cid ds = .ok ds') :
    ds' = ds ∨ ∃ response_time duration response,
      ds' = updateOne (hasCid cid) (setResponse response_time duration response) ds := by
  unfold Rabbit.auditResponse at hrun
  obtain ⟨-, -, hrun⟩ := bind_eq_ok.mp hrun
  split at hrun
  · obtain ⟨response_time, -, hrun⟩ := bind_eq_ok.mp hrun
    obtain ⟨duration, -, hrun⟩ := bind_eq_ok.mp hrun
    obtain ⟨response, -, hrun⟩ := bind_eq_ok.mp hrun
    obtain ⟨-, -, hrun⟩ := bind_eq_ok.mp hrun
    cases hrun
    exact .inr ⟨response_time, duration, response, rfl⟩
  · cases hrun
    exact .inl rfl

theorem mem_updateOne {sel : Doc → Bool} {f : Doc → Doc} {ds : List Doc} {d : Doc} (hd : d ∈ updateOne sel f ds) :
    d ∈ ds ∨ ∃ d' ∈ ds, d = f d' := by
  induction ds with
  | nil => exact .inl hd
  | cons d' ds ih =>
      rw [updateOne] at hd
      split at hd
      · rcases List.mem_cons.mp hd with rfl | hmem
        · exact .inr ⟨d', List.mem_cons_self, rfl⟩
        · exact .inl (List.mem_cons_of_mem _ hmem)
      · rcases List.mem_cons.mp hd with rfl | hmem
        · exact .inl List.mem_cons_self
        · rcases ih hmem with hin | ⟨d'', hin, rfl⟩
          · exact .inl (List.mem_cons_of_mem _ hin)
          · exact .inr ⟨d'', List.mem_cons_of_mem _ hin, rfl⟩

/-! ## The invariant -/

/-- Every message in the queue or with a worker is bare, and so is every document that is not marked. -/
structure Plain (h : Host) (s : State) : Prop where
  queue     : ∀ r ∈ s.acks.queue, Message.Bare h r.message
  delivered : ∀ w, ∀ r ∈ (s.acks.conn w).delivered, Message.Bare h r.message
  requests  : ∀ d ∈ s.requests, SentTrue d ∨ Bare d

/-- A step on a connection that brings no message. -/
theorem plain_move {s : State} (hs : Plain h s) {w : Nat} {st : Stage} {x : Acks.Conn}
    (hdel : x.delivered = (s.acks.conn w).delivered) : Plain h (s.move w st x) where
  queue := hs.queue
  requests := hs.requests
  delivered w' := by
    rw [move_conn]
    split
    · rw [hdel]
      exact hs.delivered w
    · exact hs.delivered w'

/-- A crash brings messages of its connection back to the queue. -/
theorem plain_crash {s : State} (hs : Plain h s) (channel w n i : Nat) : Plain h (s.crash h channel w n i) where
  requests := hs.requests
  queue r hr := by
    rcases List.mem_append.mp hr with hr | hr
    · rcases List.mem_append.mp hr with hr | hr
      · exact hs.queue r (List.mem_of_mem_take hr)
      · have hdel : r ∈ ((s.acks.conn w).arrive n).delivered := Acks.delivered_of_mem_unacked hr
        exact hs.delivered w r hdel
    · exact hs.queue r (List.mem_of_mem_drop hr)
  delivered w' := by
    show ∀ r ∈ ((s.acks.put w .fresh).conn w').delivered, _
    rw [Acks.conn_put]
    split
    · exact nofun
    · exact hs.delivered w'

theorem plain_step (hadd : AddsNothing h) {channel maxpayload : Nat} {s s' : State} {a : Step} (hs : Plain h s)
    (ha : ∀ m, a = .submit m → Message.Bare h m) (hstep : step h channel maxpayload s a = some s') : Plain h s' := by
  cases moves_of_step hstep with
  | submit hfresh =>
      refine ⟨?_, hs.delivered, hs.requests⟩
      intro r hr
      rcases List.mem_append.mp hr with hmem | hmem
      · exact hs.queue r hmem
      · rw [List.mem_singleton.mp hmem]
        exact ha _ rfl
  | @deliver w r queue hq =>
      have hr : Message.Bare h r.message := hs.queue r (by rw [hq]; exact List.mem_cons_self)
      refine ⟨fun r' hr' => hs.queue r' (by rw [hq]; exact List.mem_cons_of_mem r hr'), ?_, hs.requests⟩
      intro w'
      show ∀ r' ∈ ((s.acks.put w _).conn w').delivered, _
      rw [Acks.conn_put]
      split
      · intro r' hr'
        rcases List.mem_append.mp hr' with hmem | hmem
        · exact hs.delivered w r' hmem
        · exact List.mem_singleton.mp hmem ▸ hr
      · exact hs.delivered w'
  | @auditRequest w env r j requests hw hr hrun =>
      obtain ⟨d, rfl, hd⟩ := bare_of_audited hadd (hs.delivered w r (List.mem_of_getElem? hr)) hrun
      have hmove : Plain h (s.move w (.audited j) (s.acks.conn w)) := plain_move hs rfl
      refine ⟨hs.queue, hmove.delivered, ?_⟩
      intro d' hd'
      rcases List.mem_append.mp hd' with hmem | hmem
      · exact hs.requests d' hmem
      · exact .inr (List.mem_singleton.mp hmem ▸ hd)
  | publish j0 j todo hw hrun htodo => exact plain_move hs (by rfl)
  | onData f todo htodo => exact plain_move hs (by rfl)
  | @auditResponse w env j requests hw htodo hrun =>
      obtain ⟨cid, -, hrun⟩ := bind_eq_ok.mp hrun
      have hmove : Plain h (s.move w .idle (s.acks.conn w)) := plain_move hs rfl
      refine ⟨hs.queue, hmove.delivered, ?_⟩
      show ∀ d ∈ requests, SentTrue d ∨ Bare d
      rcases auditResponse_cases hrun with rfl | ⟨response_time, duration, response, rfl⟩
      · exact hs.requests
      · intro d hd
        rcases mem_updateOne hd with hmem | ⟨d', -, rfl⟩
        · exact hs.requests d hmem
        · exact .inl (sentTrue_setResponse response_time duration response d')
  | flush hw => exact plain_move hs (by rfl)
  | arrive => exact plain_move hs (by rfl)
  | crash => exact plain_crash hs channel _ _ _

/-! ## Every run -/

/-- **A request that was not answered has none of the three fields of an answer**, in every state of a run that
    starts from an empty collection and whose requests come without these fields. -/
theorem unanswered_bare (hadd : AddsNothing h) {channel maxpayload : Nat} {tr : List Step} {s : State}
    (hrun : Machine.exec (step h channel maxpayload) tr (init []) = some s)
    (hbare : ∀ m, .submit m ∈ tr → Message.Bare h m) : ∀ d ∈ s.requests, Unsent d → Bare d := by
  have hinit : Plain h (init []) := ⟨nofun, nofun, nofun⟩
  have heach : Machine.Each (step h channel maxpayload) (fun _ a => ∀ m, a = .submit m → Message.Bare h m) tr
      (init []) := by
    rintro before a after rfl t - m rfl
    exact hbare m (by simp)
  have hplain : Plain h s := by
    apply Machine.exec_trace_each (I := fun _ => Plain h) hinit _ hrun heach
    intro _ _ _ _ _ ht ha hstep
    exact plain_step hadd ht ha hstep
  intro d hd hunsent
  rcases hplain.requests d hd with hsent | hbare
  · rw [SentTrue, hunsent] at hsent
    cases hsent
  · exact hbare

/-- The request of a tick is bare. -/
theorem bare_requestFields (d : Draw) (cid : String) : Bare (requestFields d cid) := by
  intro key hkey
  simp only [answerKeys, List.mem_cons, List.not_mem_nil, or_false] at hkey
  rcases hkey with rfl | rfl | rfl <;> simp [requestFields, Fields.get_set_of_ne, Fields.get]

/-! ### A request that is recorded and not answered -/

theorem flatHost_addsNothing (texts : List Json) : AddsNothing (flatHost texts) := by
  intro fs d key hd hkey
  cases hd
  exact hkey

theorem bare_sampleRequest : Message.Bare sampleHost sampleRequest := by
  intro fs hparse
  have hsample : sampleHost.parse sampleRequest.body = .ok (.object sampleFields) := rfl
  rw [hsample] at hparse
  cases hparse
  decide

def recorded : List Step := [.submit sampleRequest, .deliver 0, .auditRequest 0 sampleEnv]

end NewOrbit.Rabbit.Audit
