import NewOrbit.Rabbit.Receive

/-!
# `Rabbit.Poison` — which deliveries the worker survives

Nothing in the callback catches an exception, and `SimplePocoHandler::loop` catches `Poco::Exception` only: a
fault of any stage ends the worker. `Answerable` says what a delivery must be like for the callback to return,
in terms of the body and of the database calls alone; `onReceived_returns_iff` proves it exact stage by stage,
and `loop_answers` carries it to the loop: the worker goes on exactly while the deliveries are answerable, and
answers each of them.
-/

namespace NewOrbit.Rabbit
open CString

/-- One delivery of the `requests` queue, with what the callback will read from outside. -/
structure Delivery where
  message     : Message
  deliveryTag : Nat
  env         : Env

/-- `loop()` over the deliveries that arrive: a fault of the callback leaves it. -/
def loop (h : Host) : List Delivery → World → World × Except Fault Unit
  | [],      w => (w, .ok ())
  | d :: ds, w =>
    match onReceived h d.env d.message d.deliveryTag w with
    -- `SimplePocoHandler::loop` lets it through, and with it `main` ends.
    | (w, .error e) => (w, .error e)
    | (w, .ok _)    => loop h ds w

/-- The numbers of a request convert to `int` and its calculation does not overflow. -/
def Computable (fs : List (String × Json)) : Prop :=
  ∃ num1 num2 cal_type, Json.intAt "num1" (.object fs) = .ok num1 ∧ Json.intAt "num2" (.object fs) = .ok num2 ∧
    Json.intAt "cal_type" (.object fs) = .ok cal_type ∧ InInt (num1 + num2) ∧
    (cal_type ≠ 1 → InInt ((num1 + num2) * 1000))

/-- A delivery the callback can answer: an object with a string `cid`, numbers that compute, and a request time
    that reads as a time of day, which BSON and the database accept. -/
structure Answerable (h : Host) (d : Delivery) : Prop where
  body : ∃ fs cid request_time doc, h.parse d.message.body = .ok (.object fs) ∧
    Fields.get "cid" fs = some (.string cid) ∧ Computable fs ∧
    Fields.get "request_time" fs = some (.string request_time) ∧ ClockText request_time ∧
    h.from_json (.object (auditedFields fs)) = .ok doc
  insert_one : d.env.insert_one = none
  find_one   : d.env.find_one = none
  update_one : d.env.update_one = none

/-- What the callback publishes and acks for a delivery. -/
def answer (h : Host) (d : Delivery) : List Sent :=
  match reply h d.env d.message with
  | .ok j    => [.publish d.message.replyTo (envelope h d.message j), .ack d.deliveryTag]
  | .error _ => []

/-! ## The callback -/

theorem calculated_iff_computable {fs : List (String × Json)} : (∃ res, Calculated fs res) ↔ Computable fs := by
  constructor
  · rintro ⟨res, n1, n2, t, h1, h2, h3, hres⟩
    obtain ⟨hsum, hcase⟩ := doCalculation_eq_some.mp hres
    refine ⟨n1, n2, t, h1, h2, h3, hsum, ?_⟩
    intro ht
    rcases hcase with ⟨h1, -⟩ | ⟨-, hbig, -⟩
    · exact absurd h1 ht
    · exact hbig
  · rintro ⟨n1, n2, t, h1, h2, h3, hsum, hbig⟩
    by_cases ht : t = 1
    · exact ⟨_, n1, n2, t, h1, h2, h3, doCalculation_eq_some.mpr ⟨hsum, .inl ⟨ht, rfl⟩⟩⟩
    · exact ⟨_, n1, n2, t, h1, h2, h3, doCalculation_eq_some.mpr ⟨hsum, .inr ⟨ht, hbig ht, rfl⟩⟩⟩

/-- The callback returns when each of its stages does, and leaves what they leave. -/
theorem onReceived_eq_ok {h : Host} {env : Env} {m : Message} {tag : Nat} {w w' : World} :
    onReceived h env m tag w = (w', .ok ()) ↔ ∃ j cid j1 ds1 j2 ds2, request h m = .ok (j, cid) ∧
      auditRequest h env j w.requests = .ok (j1, ds1) ∧ respond env j1 = .ok j2 ∧
      (j2.strAt "cid" >>= fun cid => auditResponse env j2 cid ds1) = .ok ds2 ∧
      w' = ⟨ds2, w.channel ++ [.publish m.replyTo (envelope h m j2), .ack tag]⟩ := by
  constructor
  · intro h
    unfold onReceived at h
    split at h
    · cases h
    · rename_i j cid hreq
      split at h
      · cases h
      · rename_i j1 ds1 haudit
        split at h
        · cases h
        · rename_i j2 hresp
          dsimp only at h
          split at h
          · cases h
          · rename_i ds2 hrec
            cases h
            exact ⟨j, cid, j1, ds1, j2, ds2, hreq, haudit, hresp, hrec, rfl⟩
  · rintro ⟨j, cid, j1, ds1, j2, ds2, hreq, haudit, hresp, hrec, rfl⟩
    simp only [onReceived, hreq, haudit, hresp, hrec]

/-- The document just inserted is found again by its `cid`. -/
theorem any_hasCid_inserted {h : Host} (hlaw : h.Lawful) {fs : List (String × Json)} {d : Doc} {cid : String}
    (hdoc : h.from_json (.object (auditedFields fs)) = .ok d) (hcid : Fields.get "cid" fs = some (.string cid))
    (ds : List Doc) : (ds ++ [d]).any (hasCid cid) = true := by
  have hd : hasCid cid d = true :=
    hasCid_iff.mpr (hlaw.cid _ _ _ hdoc (by rw [get_auditedFields (by decide)]; exact hcid))
  rw [List.any_append, List.any_cons, hd, Bool.true_or, Bool.or_true]

/-- An answerable delivery goes through every stage. -/
theorem onReceived_of_answerable {h : Host} (hlaw : h.Lawful) {d : Delivery} (ha : Answerable h d) (w : World) :
    ∃ ds, onReceived h d.env d.message d.deliveryTag w = (⟨ds, w.channel ++ answer h d⟩, .ok ()) := by
  obtain ⟨⟨fs, cid, rt, doc, hparse, hcid, hcomp, hrt, hclock, hdoc⟩, hins, hfind, hupdate⟩ := ha
  have hreq : request h d.message = .ok (.object fs, cid) := request_eq_ok.mpr ⟨hparse, fs, rfl, hcid⟩
  have haudit : auditRequest h d.env (.object fs) w.requests = .ok (.object (auditedFields fs), w.requests ++ [doc]) :=
    auditRequest_eq_ok.mpr ⟨rfl, hins, doc, hdoc, rfl⟩
  obtain ⟨res, hres⟩ := calculated_iff_computable.mpr hcomp
  obtain ⟨duration, hdur⟩ := (getCalDuration_isOk (c := d.env.clock)).mpr hclock
  have hresp : respond d.env (.object (auditedFields fs)) =
      .ok (.object (replyFields d.env res duration (auditedFields fs))) :=
    respond_eq_ok.mpr ⟨res, rt, duration, calculated_auditedFields.mpr hres,
      by rw [get_auditedFields (by decide)]; exact hrt, hdur, rfl⟩
  have hcid' : Json.strAt "cid" (.object (replyFields d.env res duration (auditedFields fs))) = .ok cid := by
    rw [strAt_object, get_replyFields (by decide), get_auditedFields (by decide), hcid]
  have hrec : auditResponse d.env (.object (replyFields d.env res duration (auditedFields fs))) cid
      (w.requests ++ [doc]) = .ok _ :=
    auditResponse_eq_ok.mpr ⟨hfind, .inl ⟨any_hasCid_inserted hlaw hdoc hcid _, hupdate, rfl⟩⟩
  have hanswer : answer h d = [.publish d.message.replyTo (envelope h d.message
      (.object (replyFields d.env res duration (auditedFields fs)))), .ack d.deliveryTag] := by
    have hreply : reply h d.env d.message =
        .ok (.object (replyFields d.env res duration (auditedFields fs))) :=
      bind_eq_ok.mpr ⟨_, hreq, bind_eq_ok.mpr ⟨_, Json.put_object _ _ _, hresp⟩⟩
    rw [answer, hreply]
  rw [hanswer]
  exact ⟨_, onReceived_eq_ok.mpr ⟨_, _, _, _, _, _, hreq, haudit, hresp, bind_eq_ok.mpr ⟨cid, hcid', hrec⟩, rfl⟩⟩

/-- **The callback returns exactly for the answerable deliveries.** -/
theorem onReceived_returns_iff {h : Host} (hlaw : h.Lawful) (d : Delivery) (w : World) :
    (onReceived h d.env d.message d.deliveryTag w).2 = .ok () ↔ Answerable h d := by
  constructor
  · intro hret
    obtain ⟨j, cid, j1, ds1, j2, ds2, hreq, haudit, hresp, hrec, -⟩ :=
      onReceived_eq_ok.mp (Prod.ext rfl hret : onReceived h d.env d.message d.deliveryTag w = (_, .ok ()))
    obtain ⟨hparse, fs, rfl, hcid⟩ := request_eq_ok.mp hreq
    obtain ⟨rfl, hins, doc, hdoc, rfl⟩ := auditRequest_eq_ok.mp haudit
    obtain ⟨res, rt, duration, hres, hrt, hdur, rfl⟩ := respond_eq_ok.mp hresp
    obtain ⟨cid', hcid', hresponse⟩ := bind_eq_ok.mp hrec
    rw [strAt_object, get_replyFields (by decide), get_auditedFields (by decide), hcid, Option.some.injEq,
      Json.string.injEq] at hcid'
    subst hcid'
    rw [get_auditedFields (by decide)] at hrt
    -- The document just inserted is found, so `update_one` was called, and returned.
    obtain ⟨hfind, hcase⟩ := auditResponse_eq_ok.mp hresponse
    have hupdate : d.env.update_one = none := by
      rcases hcase with ⟨-, hupdate, -⟩ | ⟨hnone, -⟩
      · exact hupdate
      · rw [any_hasCid_inserted hlaw hdoc hcid] at hnone
        cases hnone
    exact {
      body := ⟨fs, cid, rt, doc, hparse, hcid, calculated_iff_computable.mp ⟨res, calculated_auditedFields.mp hres⟩,
        hrt, getCalDuration_isOk.mp ⟨duration, hdur⟩, hdoc⟩
      insert_one := hins
      find_one := hfind
      update_one := hupdate }
  · intro ha
    obtain ⟨ds, hok⟩ := onReceived_of_answerable hlaw ha w
    rw [hok]

/-! ## The loop -/

/-- The loop over answerable deliveries, whatever comes after them. -/
theorem loop_append_of_answerable {h : Host} (hlaw : h.Lawful) {ds : List Delivery}
    (hall : ∀ d ∈ ds, Answerable h d) (w : World) :
    ∃ reqs, ∀ rest, loop h (ds ++ rest) w = loop h rest ⟨reqs, w.channel ++ ds.flatMap (answer h)⟩ := by
  induction ds generalizing w with
  | nil => exact ⟨w.requests, by simp⟩
  | cons d ds ih =>
      obtain ⟨reqs, hd⟩ := onReceived_of_answerable hlaw (hall d List.mem_cons_self) w
      obtain ⟨reqs', hds⟩ := ih (fun x hx => hall x (List.mem_cons_of_mem _ hx)) ⟨reqs, w.channel ++ answer h d⟩
      -- The first delivery leaves a world of the same shape, and the rest goes on from it.
      refine ⟨reqs', ?_⟩
      intro rest
      rw [List.cons_append, loop, hd]
      show loop h (ds ++ rest) _ = _
      rw [hds, List.flatMap_cons, List.append_assoc]

/-- A delivery that is not answerable ends the loop: nothing after it is served. -/
theorem loop_cons_of_not_answerable {h : Host} (hlaw : h.Lawful) {d : Delivery} (hd : ¬ Answerable h d)
    (w : World) : ∃ e, ∀ ds, loop h (d :: ds) w =
      ((onReceived h d.env d.message d.deliveryTag w).1, .error e) := by
  have hret := (onReceived_returns_iff hlaw d w).not.mpr hd
  -- The fault is that of the callback, whatever deliveries would come next.
  cases hrun : onReceived h d.env d.message d.deliveryTag w with
  | mk w' r =>
      rw [hrun] at hret
      cases r with
      | error e => exact ⟨e, fun ds => by rw [loop, hrun]⟩
      | ok u => exact absurd rfl hret

/-- The loop goes on exactly while the deliveries are answerable. -/
theorem loop_returns_iff {h : Host} (hlaw : h.Lawful) (ds : List Delivery) (w : World) :
    (loop h ds w).2 = .ok () ↔ ∀ d ∈ ds, Answerable h d := by
  induction ds generalizing w with
  | nil => simp [loop]
  | cons d ds ih =>
      by_cases hd : Answerable h d
      · obtain ⟨reqs, hrun⟩ := onReceived_of_answerable hlaw hd w
        have hloop : loop h (d :: ds) w = loop h ds ⟨reqs, w.channel ++ answer h d⟩ := by rw [loop, hrun]
        rw [hloop, ih, List.forall_mem_cons]
        exact ⟨fun hds => ⟨hd, hds⟩, fun hds => hds.2⟩
      · obtain ⟨e, he⟩ := loop_cons_of_not_answerable hlaw hd w
        rw [he, List.forall_mem_cons]
        constructor
        · intro hok
          cases hok
        · intro hall
          exact absurd hall.1 hd

/-- **The worker survives exactly the answerable deliveries.** The callback returns for an answerable delivery
    and for no other; the loop goes on past a list of deliveries exactly when all are answerable, and has then
    published the reply of each and acked it, in order; past a delivery that is not answerable it serves
    nothing. -/
theorem loop_answers {h : Host} (hlaw : h.Lawful) :
    (∀ d w, (onReceived h d.env d.message d.deliveryTag w).2 = .ok () ↔ Answerable h d) ∧
      ∀ ds w, ((loop h ds w).2 = .ok () ↔ ∀ d ∈ ds, Answerable h d) ∧
        ((∀ d ∈ ds, Answerable h d) → (loop h ds w).1.channel = w.channel ++ ds.flatMap (answer h) ∧
          ∀ d rest, ¬ Answerable h d → loop h (ds ++ d :: rest) w = loop h (ds ++ [d]) w) := by
  refine ⟨onReceived_returns_iff hlaw, fun ds w => ⟨loop_returns_iff hlaw ds w, fun hall => ⟨?_, ?_⟩⟩⟩
  · obtain ⟨reqs, hds⟩ := loop_append_of_answerable hlaw hall w
    have hend := hds []
    rw [List.append_nil] at hend
    rw [hend, loop]
  · intro d rest hd
    obtain ⟨reqs, hds⟩ := loop_append_of_answerable hlaw hall w
    obtain ⟨e, he⟩ := loop_cons_of_not_answerable hlaw hd ⟨reqs, w.channel ++ ds.flatMap (answer h)⟩
    rw [hds, hds, he, he]

/-! ### One delivery that is answered, and one that ends the worker -/

def goodDelivery : Delivery := ⟨sampleMessage (flatText (.object sampleFields)), 1, sampleEnv⟩
def poisonDelivery : Delivery := ⟨sampleMessage (flatText (.object [])), 1, sampleEnv⟩

/-- A well-formed request is answered and the loop goes on; an empty object in front of it ends the loop. -/
theorem loop_answers_sample :
    ((loop sampleHost [goodDelivery] ⟨[], []⟩).2 = .ok () ∧
      (loop sampleHost [goodDelivery] ⟨[], []⟩).1.channel = answer sampleHost goodDelivery) ∧
    (loop sampleHost [poisonDelivery, goodDelivery] ⟨[], []⟩).2 ≠ .ok () := by
  have hall := loop_answers (flatHost_lawful [.object sampleFields, .object []])
  have hgood : Answerable sampleHost goodDelivery := (hall.1 goodDelivery ⟨[], []⟩).mp rfl
  have hpoison : ¬ Answerable sampleHost poisonDelivery := fun h =>
    nomatch (hall.1 poisonDelivery ⟨[], []⟩).mpr h
  have hone : ∀ d ∈ [goodDelivery], Answerable sampleHost d := List.forall_mem_singleton.mpr hgood
  obtain ⟨hreturns, hserves⟩ := hall.2 [goodDelivery] ⟨[], []⟩
  refine ⟨⟨hreturns.mpr hone, (hserves hone).1⟩, fun h => hpoison ?_⟩
  exact (hall.2 [poisonDelivery, goodDelivery] ⟨[], []⟩).1.mp h _ List.mem_cons_self

/-- The empty object has no `cid`: its conversion to a string throws through the callback and out of the loop,
    and the well-formed request behind it gets no reply. -/
theorem callback_throws_on_empty_object :
    (onReceived sampleHost sampleEnv poisonDelivery.message 1 ⟨[], []⟩).2 =
        .error (.type_error 302 "type must be string, but is null") ∧
      (loop sampleHost [poisonDelivery, goodDelivery] ⟨[], []⟩).1.channel = [] := by
  exact ⟨rfl, rfl⟩

end NewOrbit.Rabbit
