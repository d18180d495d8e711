import NewOrbit.Rabbit.Receive

/-!
# `Rabbit.Documents` — the documents of one request

What the stages of the callback do to the documents of the audit collection, looked at by `cid`: `auditRequest` adds
one document with the `cid` of its request (`audited_of_request`), `auditResponse` marks the first document of it
(`updated_of_reply`), and neither touches the documents of any other (`filter_append_of_ne`, `filter_updateOne_of_ne`).
-/

namespace NewOrbit.Rabbit.Audit

/-! ## The request of a message -/

section
variable (h : Host)

/-- The `cid` of a request. -/
def cidOf (m : Message) : Option String :=
  match request h m with
  | .ok (_, cid) => some cid
  | .error _     => none

/-- The JSON a worker holds after parsing still carries the request's `cid`. -/
def Carries (m : Message) (fs : List (String × Json)) : Prop :=
  ∃ c, cidOf h m = some c ∧ Fields.get "cid" fs = some (.string c)

/-- The JSON is the reply to the request. -/
def IsReply (m : Message) (j : Json) : Prop :=
  ∃ env res duration fs, j = .object (replyFields env res duration fs) ∧ Carries h m fs

end

def Unsent (d : Doc) : Prop := Fields.get "response_sent" d = some (.boolean false)

def SentTrue (d : Doc) : Prop := Fields.get "response_sent" d = some (.boolean true)

variable {h : Host} {m : Message}

theorem cidOf_eq_some {c : String} : cidOf h m = some c ↔ ∃ j, request h m = .ok (j, c) := by
  unfold cidOf
  split
  · rename_i j cid hreq
    simp [hreq, eq_comm]
  · rename_i e hreq
    simp [hreq]

/-- The reply carries the `cid` of its request. -/
theorem IsReply.strAt {j : Json} (hj : IsReply h m j) : ∃ c, cidOf h m = some c ∧ j.strAt "cid" = .ok c := by
  obtain ⟨env, res, duration, fs, rfl, c, hc, hcid⟩ := hj
  exact ⟨c, hc, by rw [strAt_object, get_replyFields (by decide), hcid]⟩

theorem reply_of_audited {env : Env} {fs : List (String × Json)} {j : Json} (hfs : Carries h m fs)
    (hrun : respond env (.object fs) = .ok j) : IsReply h m j := by
  obtain ⟨res, -, duration, -, -, -, rfl⟩ := respond_eq_ok.mp hrun
  exact ⟨env, res, duration, fs, rfl, hfs⟩

/-! ## The documents -/

/-- The documents of another `cid` are not selected. -/
theorem filter_append_of_ne {c c' : String} {d : Doc} (hd : Fields.get "cid" d = some (.string c')) (hne : c' ≠ c)
    (ds : List Doc) : (ds ++ [d]).filter (hasCid c) = ds.filter (hasCid c) := by
  have hnot : hasCid c d ≠ true := by
    rw [ne_eq, hasCid_iff, hd]
    simpa using hne
  rw [List.filter_append, List.filter_cons_of_neg hnot, List.filter_nil, List.append_nil]

theorem filter_append_of_eq {c : String} {d : Doc} (hd : Fields.get "cid" d = some (.string c)) (ds : List Doc) :
    (ds ++ [d]).filter (hasCid c) = ds.filter (hasCid c) ++ [d] := by
  rw [List.filter_append, List.filter_cons_of_pos (hasCid_iff.mpr hd), List.filter_nil]

/-- `$set` leaves the `cid` of the document. -/
theorem hasCid_setResponse (c response_time duration : String) (response : Int) (d : Doc) :
    hasCid c (setResponse response_time duration response d) = hasCid c d := by
  have hget : Fields.get "cid" (setResponse response_time duration response d) = Fields.get "cid" d := by
    rw [setResponse, Fields.get_set_of_ne (by decide), Fields.get_set_of_ne (by decide),
      Fields.get_set_of_ne (by decide), Fields.get_set_of_ne (by decide)]
  simp only [hasCid, hget]

theorem sentTrue_setResponse (response_time duration : String) (response : Int) (d : Doc) :
    SentTrue (setResponse response_time duration response d) := by
  rw [SentTrue, setResponse, Fields.get_set_of_ne (by decide), Fields.get_set_of_ne (by decide),
    Fields.get_set_of_ne (by decide), Fields.get_set_self]

/-- The update is not seen by the documents of another `cid`. -/
theorem filter_updateOne_of_ne {c c' : String} (hne : c' ≠ c) {f : Doc → Doc} (hf : ∀ k d, hasCid k (f d) = hasCid k d)
    (ds : List Doc) : (updateOne (hasCid c') f ds).filter (hasCid c) = ds.filter (hasCid c) := by
  induction ds with
  | nil => rfl
  | cons d ds ih =>
      by_cases hd : hasCid c' d = true
      · have hc : hasCid c d ≠ true := by
          rw [ne_eq, hasCid_iff, hasCid_iff.mp hd]
          simpa using hne
        rw [updateOne, if_pos hd, List.filter_cons_of_neg (by rw [hf]; exact hc), List.filter_cons_of_neg hc]
      · rw [updateOne, if_neg hd, List.filter_cons, List.filter_cons, ih]

/-- Among the documents of its own `cid` the update changes the first. -/
theorem filter_updateOne_self {c : String} {f : Doc → Doc} (hf : ∀ k d, hasCid k (f d) = hasCid k d)
    (ds : List Doc) : (updateOne (hasCid c) f ds).filter (hasCid c) =
      match ds.filter (hasCid c) with
      | []       => []
      | d :: ds' => f d :: ds' := by
  induction ds with
  | nil => rfl
  | cons d ds ih =>
      by_cases hd : hasCid c d = true
      · rw [updateOne, if_pos hd, List.filter_cons_of_pos (by rw [hf]; exact hd), List.filter_cons_of_pos hd]
      · rw [updateOne, if_neg hd, List.filter_cons_of_neg hd, List.filter_cons_of_neg hd, ih]

/-- What `auditRequest` leaves of a request: its JSON, and one document more. -/
theorem audited_of_request {env : Env} {ds ds' : List Doc} {j : Json} (hlaw : h.Lawful)
    (hrun : (request h m >>= fun (j, _) => Rabbit.auditRequest h env j ds) = .ok (j, ds')) :
    (∃ fs, j = .object fs ∧ Carries h m fs) ∧ ∃ c d, cidOf h m = some c ∧ ds' = ds ++ [d] ∧
      Fields.get "cid" d = some (.string c) := by
  obtain ⟨⟨j0, c⟩, hreq, haudit⟩ := bind_eq_ok.mp hrun
  obtain ⟨-, fs, rfl, hcid⟩ := request_eq_ok.mp hreq
  obtain ⟨rfl, -, d, hd, rfl⟩ := auditRequest_eq_ok.mp haudit
  have hc : cidOf h m = some c := cidOf_eq_some.mpr ⟨_, hreq⟩
  have hcid' : Fields.get "cid" (auditedFields fs) = some (.string c) := by
    rw [auditedFields, Fields.get_set_of_ne (by decide), hcid]
  exact ⟨⟨_, rfl, c, hc, hcid'⟩, c, d, hc, rfl, hlaw.cid _ _ _ hd hcid'⟩

/-- What `auditResponse` does to the collection: nothing, or the `$set` on the first document of the `cid`. -/
theorem updated_of_reply {env : Env} {ds ds' : List Doc} {j : Json} (hj : IsReply h m j)
    (hrun : (j.strAt "cid" >>= fun cid => Rabbit.auditResponse env j cid ds) = .ok ds') :
    ∃ c, cidOf h m = some c ∧ (ds.filter (hasCid c) = [] ∧ ds' = ds ∨ ∃ response_time duration response,
      ds' = updateOne (hasCid c) (setResponse response_time duration response) ds) := by
  obtain ⟨c, hc, hcid⟩ := hj.strAt
  obtain ⟨env0, res, duration, fs, rfl, -⟩ := hj
  rw [hcid] at hrun
  obtain ⟨-, ⟨-, -, rfl⟩ | ⟨hnone, rfl⟩⟩ := auditResponse_eq_ok.mp hrun
  · exact ⟨c, hc, .inr ⟨_, _, _, rfl⟩⟩
  · refine ⟨c, hc, .inl ⟨List.filter_eq_nil_iff.mpr fun d hd hmem => ?_, rfl⟩⟩
    exact absurd (List.any_eq_true.mpr ⟨d, hd, hmem⟩) (by rw [hnone]; decide)

end NewOrbit.Rabbit.Audit
