import NewOrbit.Shop.Landscape

/-!
# `Shop.Consistency` — what the stores hold once the queues are drained

Commands issued one after another (`one handler`) leave exactly what applying them synchronously leaves, in
every interleaving of the partitioned consumers (`drained_eq_sync`).

Commands handled concurrently may leave recommendations or reviews without a product: a create and a delete
of one product can be ordered one way in the product queue and the other way in the recommendation queue
(`not_always_orphanFree`). Exactly which schedules do so is a matter of the last event sent to each queue that the
store of the queue takes (`orphanFree_iff`): the product gone, but something created after the last delete of its
recommendations or of its reviews. A product can also be gone because its store never took it.
-/

namespace NewOrbit.Shop

namespace Landscape

variable {part : Int → Nat}

/-- Deliveries of messages that each leave the stores alone. -/
theorem stores_of_keep {handlers : List (List Send)} {s0 : Stores} {tr : List Action} {t : Landscape}
    (hkeep : ∀ hd ∈ handlers, ∀ m ∈ hd, s0.deliver m = s0)
    (h : Machine.exec (step part) tr (start handlers s0) = some t) : t.stores = s0 := by
  obtain ⟨recvd, hflow, hstores⟩ := exec_flow Fifo.Sorted.empty h
  have hrecvd : ∀ m ∈ recvd, s0.deliver m = s0 := by
    intro m hm
    obtain ⟨hd, hmem, hm⟩ := (mem_sendOrder h m).mp (Or.inl (hflow.mem_sent hm))
    exact hkeep hd hmem m hm
  rw [hstores]
  clear hflow hstores
  show recvd.foldl Stores.deliver s0 = s0
  induction recvd with
  | nil => rfl
  | cons m ms ih =>
      rw [List.foldl_cons, hrecvd m List.mem_cons_self]
      exact ih fun m' hm' => hrecvd m' (List.mem_cons_of_mem _ hm')

/-! ## Commands one after another

One handler sends its messages in order, and a queue keeps the order of the messages of one product. As each message
acts on its own product only, that is all the order the stores depend on. -/

/-- One handler that sends `ms`, drained: the stores hold what delivering `ms` leaves. -/
theorem drained_single {ms : List Send} (hwf : ∀ m ∈ ms, m.WellFormed) {s0 : Stores} {tr : List Action}
    {t : Landscape} (h : Machine.exec (step part) tr (start [ms] s0) = some t) (hd : t.Drained) :
    t.stores.SameContent (ms.foldl Stores.deliver s0) := by
  obtain ⟨rest, hrest, hsplit⟩ := sendOrder_single rfl h
  have hnil : rest = [] := hd.1 rest (by rw [hrest]; exact List.mem_singleton_self _)
  have horder : sendOrder [ms] tr = ms := by
    rw [hnil, List.append_nil] at hsplit
    exact hsplit.symm
  have hsame := drained_sameContent (fun l hl => List.mem_singleton.mp hl ▸ hwf) h hd
  rwa [horder] at hsame

/-- **Sequential commands.** With the sends of the commands issued in order, whatever the consumers
    interleave, the drained stores hold product by product what the commands, applied synchronously, leave. -/
theorem drained_eq_sync (part : Int → Nat) (cmds : List Command) (s0 : Stores) (tr : List Action) (t : Landscape)
    (h : Machine.exec (step part) tr (start [cmds.flatMap Command.sends] s0) = some t) (hd : t.Drained) :
    t.stores.SameContent (cmds.foldl Stores.apply s0) := by
  have hwf : ∀ m ∈ cmds.flatMap Command.sends, m.WellFormed := by
    intro m hm
    obtain ⟨c, _, hc⟩ := List.mem_flatMap.mp hm
    exact (c.sends_spec hc).1
  have hsame := drained_single hwf h hd
  rwa [← Stores.foldl_apply] at hsame

/-- An aggregate with one recommendation and no review. -/
def aggregateOne : ProductAggregate :=
  ⟨1, some "bond", 1, some [⟨1, some "author", 1, some "content"⟩], none, none⟩

def createThenDelete : List Command := [.createCompositeProduct aggregateOne, .deleteCompositeProduct 1]

/-- A create and a delete sent by one handler, then consumed topic by topic. -/
def oneByOne : List Action :=
  [.send 0, .send 0, .send 0, .send 0, .send 0,
   .consume .products 1, .consume .products 1, .consume .recommendations 1, .consume .recommendations 1,
   .consume .reviews 1]

/-- The landscape a schedule leads to; the start itself where the schedule is not enabled. -/
def after (part : Int → Nat) (handlers : List (List Send)) (tr : List Action) : Landscape :=
  (Machine.exec (step part) tr (start handlers Stores.empty)).getD (start handlers Stores.empty)

theorem drained_eq_sync_oneByOne :
    (after (fun k => k.toNat % 2) [createThenDelete.flatMap Command.sends] oneByOne).stores.SameContent
      (createThenDelete.foldl Stores.apply Stores.empty) := by
  refine drained_eq_sync (fun k => k.toNat % 2) createThenDelete Stores.empty oneByOne _ rfl ⟨by decide, ?_⟩
  funext c
  obtain ⟨tp, q⟩ := c
  cases tp <;> rcases q with _ | _ | q <;> rfl

/-! ## When the content of a product ends up empty

A delete empties the content of its product and a create fills it, so that only the last event that the store takes
counts. -/

/-- The type of the last event sent to a topic for a product. -/
def lastEvent (t : Topic) (k : Int) (ms : List Send) : Option EventType :=
  (ms.filter (·.place = (t, k))).getLast?.map Send.eventType

section Content

variable {α β κ : Type} [UniqueIndex α κ] [DecidableEq κ]

variable (apiToEntity : β → α) (refuses : α → Bool)

/-- A create that the store does not take leaves the content alone. -/
theorem foldl_actOn_taken (l : List α) (es : List (Event β)) :
    (es.filter (Event.taken refuses apiToEntity)).foldl (actOn apiToEntity refuses) l
      = es.foldl (actOn apiToEntity refuses) l := by
  rw [List.foldl_filter]
  refine congrFun (congrFun (congrArg _ (funext₂ fun l e => ?_)) _) _
  obtain ⟨type, key, data⟩ := e
  cases type with
  | delete => exact if_pos rfl
  | create =>
      cases data with
      | none => exact if_pos rfl
      | some data => by_cases hr : refuses (apiToEntity data) = true <;> simp [Event.taken, actOn, hr]

/-- After some events of a valid product, none of them refused, the content is empty exactly when the last one is a
    delete. -/
theorem foldl_actOn_eq_nil (l : List α) (es : List (Event β)) (hkey : ∀ e ∈ es, 1 ≤ e.key)
    (hdata : ∀ e ∈ es, e.eventType = .create → e.data ≠ none) (htaken : ∀ e ∈ es, e.taken refuses apiToEntity) :
    es.foldl (actOn apiToEntity refuses) l = []
      ↔ es.getLast?.map Event.eventType = some .delete ∨ (es = [] ∧ l = []) := by
  -- A delete empties the content, and after a create there is the entity it names, old or new.
  rcases List.eq_nil_or_concat es with rfl | ⟨init, e, rfl⟩
  · simp
  · have hlt : ¬ e.key < 1 := Int.not_lt.mpr (hkey e (by simp))
    have htook := htaken e (by simp)
    rw [List.concat_eq_append, List.foldl_append, List.foldl_cons, List.foldl_nil]
    simp only [actOn, if_neg hlt, List.getLast?_append, List.getLast?_singleton]
    cases htype : e.eventType with
    | delete => simp [htype]
    | create =>
        cases hd : e.data with
        | none => exact absurd hd (hdata e (by simp) htype)
        | some data =>
            have hrefuses : refuses (apiToEntity data) = false := by
              simpa [Event.taken, htype, hd] using htook
            simp [hrefuses, Distinct.add_ne_nil, htype]

variable {apiToEntity refuses}

/-- The content of a topic for a valid product, after deliveries. -/
theorem content_eq_nil_iff (p : Port α β) {ms : List Send} (hms : ∀ m ∈ ms, m.WellFormed) (s : Stores) {k : Int}
    (hk : 1 ≤ k) :
    (p.repo (ms.foldl Stores.deliver s)).content k = []
      ↔ lastEvent p.topic k (ms.filter s.takes) = some .delete ∨
        (lastEvent p.topic k (ms.filter s.takes) = none ∧ (p.repo s).content k = []) := by
  have hev : ∀ e ∈ p.events (ms.filter s.takes) k, e.key = k ∧ (e.eventType = .create → e.data ≠ none) := by
    intro e he
    obtain ⟨hm, hek⟩ := p.mem_events.mp he
    exact ⟨hek, (p.wellFormed e (hms _ (List.mem_of_mem_filter hm))).2⟩
  have htaken : ∀ e ∈ p.events (ms.filter s.takes) k, e.taken (p.repo s).refuses p.apiToEntity := by
    intro e he
    rw [p.events_takes] at he
    exact (List.mem_filter.mp he).2
  have hlast : lastEvent p.topic k (ms.filter s.takes)
      = (p.events (ms.filter s.takes) k).getLast?.map Event.eventType := by
    rw [lastEvent, p.filter_place, List.getLast?_map, Option.map_map]
    refine congrFun (congrArg _ (funext fun e => ?_)) _
    exact (p.wrap_spec e).2.2
  rw [p.content_foldl hms, ← foldl_actOn_taken, ← p.events_takes, foldl_actOn_eq_nil _ _ _ _
    (fun e he => (hev e he).1 ▸ hk) (fun e he => (hev e he).2) htaken, hlast, Option.map_eq_none_iff,
    List.getLast?_eq_none_iff]

/-- Deliveries leave the content of an invalid product alone. -/
theorem content_of_lt_one (p : Port α β) {ms : List Send} (hms : ∀ m ∈ ms, m.WellFormed) (s : Stores) {k : Int}
    (hk : k < 1) : (p.repo (ms.foldl Stores.deliver s)).content k = (p.repo s).content k := by
  rw [p.content_foldl hms]
  have hev : ∀ e ∈ p.events ms k, e.key < 1 := fun e he => (p.mem_events.mp he).2 ▸ hk
  revert hev
  generalize p.events ms k = es
  intro hev
  induction es with
  | nil => rfl
  | cons e es ih =>
      rw [List.foldl_cons, actOn, if_pos (hev e List.mem_cons_self)]
      exact ih (fun e' he' => hev e' (List.mem_cons_of_mem _ he'))

end Content

/-- Orphan freedom, product by product. -/
theorem orphanFree_iff_content (s : Stores) :
    s.OrphanFree ↔ ∀ k, s.products.content k = [] →
      s.recommendations.content k = [] ∧ s.reviews.content k = [] := by
  have hside : ∀ {α κ : Type} [UniqueIndex α κ] (repo : Repository α),
      (∀ r ∈ repo.rows, ∃ p ∈ s.products.rows, p.entity.productId = productId r.entity)
        ↔ ∀ k, s.products.content k = [] → repo.content k = [] := by
    intro α κ _ repo
    constructor
    · intro h k hk
      apply List.eq_nil_iff_forall_not_mem.mpr
      intro e he
      obtain ⟨⟨r, hr, rfl⟩, hpk⟩ := Repository.mem_content.mp he
      obtain ⟨p, hp, hpe⟩ := h r hr
      have hmem : p.entity ∈ s.products.content k := Repository.mem_content.mpr ⟨⟨p, hp, rfl⟩, hpe.trans hpk⟩
      rw [hk] at hmem
      exact List.not_mem_nil hmem
    · intro h r hr
      have hne : s.products.content (productId r.entity) ≠ [] := by
        intro hnil
        have hmem : r.entity ∈ repo.content (productId r.entity) :=
          Repository.mem_content.mpr ⟨⟨r, hr, rfl⟩, rfl⟩
        rw [h _ hnil] at hmem
        exact List.not_mem_nil hmem
      obtain ⟨e, he⟩ := List.exists_mem_of_ne_nil _ hne
      obtain ⟨⟨p, hp, rfl⟩, hpk⟩ := Repository.mem_content.mp he
      exact ⟨p, hp, hpk⟩
  unfold Stores.OrphanFree
  rw [show (∀ r ∈ s.recommendations.rows, ∃ p ∈ s.products.rows, p.entity.productId = r.entity.productId) ↔ _
      from hside s.recommendations,
    show (∀ r ∈ s.reviews.rows, ∃ p ∈ s.products.rows, p.entity.productId = r.entity.productId) ↔ _
      from hside s.reviews]
  exact ⟨fun h k hk => ⟨h.1 k hk, h.2 k hk⟩, fun h => ⟨fun k hk => (h k hk).1, fun k hk => (h k hk).2⟩⟩

/-! ## Commands handled concurrently

A delete is sent to all three queues. So where a product is gone by a delete there is a last event on the other two
queues as well, and orphans are left where it is a create. -/

theorem lastEvent_eq_none_iff {t : Topic} {k : Int} {ms : List Send} :
    lastEvent t k ms = none ↔ ∀ m ∈ ms, m.place ≠ (t, k) := by
  simp [lastEvent]

theorem exists_of_lastEvent {t : Topic} {k : Int} {ms : List Send} {e : EventType}
    (h : lastEvent t k ms = some e) : ∃ m ∈ ms, m.place = (t, k) ∧ m.eventType = e := by
  obtain ⟨m, hm, rfl⟩ := Option.map_eq_some_iff.mp h
  obtain ⟨hm, hp⟩ := List.mem_filter.mp (List.mem_of_getLast? hm)
  exact ⟨m, hm, of_decide_eq_true hp, rfl⟩

/-- The delete of product 1 runs between the first and the second send of its create. -/
def overlap : List Action :=
  [.send 0, .send 1, .send 1, .send 1, .send 0,
   .consume .products 0, .consume .products 0, .consume .recommendations 0, .consume .recommendations 0,
   .consume .reviews 0]

/-- **Overlapping commands can leave an orphan.** A create and a delete of one product, with one queue per
    topic: the product queue ends with the delete, the recommendation queue with the create. -/
theorem not_always_orphanFree :
    ¬ ∀ (cmds : List Command) (tr : List Action) (t : Landscape),
      Machine.exec (step fun _ => 0) tr (start (cmds.map Command.sends) Stores.empty) = some t → t.Drained →
        t.stores.OrphanFree := by
  intro hall
  have hdrained : (after (fun _ => 0) (createThenDelete.map Command.sends) overlap).Drained := by
    refine ⟨by decide, funext fun c => ?_⟩
    obtain ⟨tp, q⟩ := c
    cases tp <;> cases q <;> rfl
  -- The recommendation that is left, and no product for it.
  have horphan := (hall createThenDelete overlap _ rfl hdrained).1
    ⟨0, 0, ⟨1, 1, some "author", 1, some "content"⟩⟩ (by decide)
  obtain ⟨p, hp, _⟩ := horphan
  exact absurd hp (by decide +revert)

/-- `ms` are the messages of the commands, each sent, in some order. -/
def FromCommands (cmds : List Command) (ms : List Send) : Prop := ∀ m, m ∈ ms ↔ ∃ c ∈ cmds, m ∈ c.sends

/-- A run whose handlers are through has sent the messages of its commands. -/
theorem fromCommands_sendOrder {cmds : List Command} {s0 : Stores} {tr : List Action} {t : Landscape}
    (h : Machine.exec (step part) tr (start (cmds.map Command.sends) s0) = some t)
    (hd : ∀ l ∈ t.handlers, l = []) : FromCommands cmds (sendOrder (cmds.map Command.sends) tr) := by
  intro m
  have hiff := mem_sendOrder h m
  have hleft : ¬ ∃ l ∈ t.handlers, m ∈ l := by
    rintro ⟨l, hl, hm⟩
    rw [hd l hl] at hm
    exact List.not_mem_nil hm
  rw [or_iff_left hleft] at hiff
  apply hiff.trans
  simp [start]

namespace FromCommands

variable {cmds : List Command} {ms : List Send}

theorem wellFormed (h : FromCommands cmds ms) : ∀ m ∈ ms, m.WellFormed := by
  intro m hm
  obtain ⟨c, _, hc⟩ := (h m).mp hm
  exact (c.sends_spec hc).1

/-- A product with a delete on the product queue has a delete on every queue, and every store takes it. -/
theorem lastEvent_delete (h : FromCommands cmds ms) (s : Stores) {k : Int}
    (hk : lastEvent .products k (ms.filter s.takes) = some .delete) (tp : Topic) :
    lastEvent tp k (ms.filter s.takes) ≠ none := by
  intro hnone
  obtain ⟨m, hm, hp, htype⟩ := exists_of_lastEvent hk
  obtain ⟨c, hc, hmc⟩ := (h m).mp (List.mem_of_mem_filter hm)
  obtain ⟨d, hdc, htop, hdelete⟩ := Command.delete_mem_sends hmc htype tp
  have hkey : d.key = k :=
    (c.sends_spec hdc).2.trans ((c.sends_spec hmc).2.symm.trans (congrArg Prod.snd hp))
  have hd : d ∈ ms.filter s.takes := List.mem_filter.mpr ⟨(h d).mpr ⟨c, hc, hdc⟩, s.takes_delete hdelete⟩
  exact lastEvent_eq_none_iff.mp hnone d hd (Prod.ext htop hkey)

end FromCommands

/-- The sends leave no product `k`: the last event on the product queue is a delete, creates that the store does not
    take left aside, or there is none and there was no product before. -/
def Gone (s : Stores) (ms : List Send) (k : Int) : Prop :=
  lastEvent .products k (ms.filter s.takes) = some .delete ∨
    lastEvent .products k (ms.filter s.takes) = none ∧ s.products.content k = []

/-- Delivering the messages of commands to stores without orphans. -/
theorem foldl_orphanFree_iff {cmds : List Command} {ms : List Send} (h : FromCommands cmds ms) {s0 : Stores}
    (h0 : s0.OrphanFree) : (ms.foldl Stores.deliver s0).OrphanFree ↔ ∀ k, 1 ≤ k → Gone s0 ms k →
      lastEvent .recommendations k (ms.filter s0.takes) ≠ some .create ∧
      lastEvent .reviews k (ms.filter s0.takes) ≠ some .create := by
  have hwf := h.wellFormed
  rw [orphanFree_iff_content] at h0 ⊢
  apply forall_congr'
  intro k
  by_cases hk : 1 ≤ k
  · -- Where the product goes, a queue without a last event is one whose store held nothing of it.
    have hside : ∀ {α β κ : Type} [UniqueIndex α κ] [DecidableEq κ] (p : Port α β),
        (s0.products.content k = [] → (p.repo s0).content k = []) → Gone s0 ms k →
          ((p.repo (ms.foldl Stores.deliver s0)).content k = []
            ↔ lastEvent p.topic k (ms.filter s0.takes) ≠ some .create) := by
      intro _ _ _ _ _ p hp0 hgone
      rw [content_eq_nil_iff p hwf s0 hk]
      cases hlast : lastEvent p.topic k (ms.filter s0.takes) with
      | none =>
          rcases hgone with hdelete | ⟨_, hnil⟩
          · exact absurd hlast (h.lastEvent_delete s0 hdelete p.topic)
          · simp [hp0 hnil]
      | some type => cases type <;> simp
    have hproducts : (ms.foldl Stores.deliver s0).products.content k = [] ↔ Gone s0 ms k :=
      content_eq_nil_iff productsPort hwf s0 hk
    rw [hproducts]
    have hr := hside recommendationsPort fun hnil => (h0 k hnil).1
    have hv := hside reviewsPort fun hnil => (h0 k hnil).2
    exact ⟨fun ho _ hgone => ⟨(hr hgone).mp (ho hgone).1, (hv hgone).mp (ho hgone).2⟩,
      fun hc hgone => ⟨(hr hgone).mpr (hc hk hgone).1, (hv hgone).mpr (hc hk hgone).2⟩⟩
  · -- The services refuse a productId below 1, so its content is the initial one.
    have hlt : k < 1 := Int.not_le.mp hk
    refine ⟨fun _ hk' => absurd hk' hk, fun _ hp => ?_⟩
    obtain ⟨hr, hv⟩ := h0 k ((content_of_lt_one productsPort hwf s0 hlt).symm.trans hp)
    exact ⟨(content_of_lt_one recommendationsPort hwf s0 hlt).trans hr,
      (content_of_lt_one reviewsPort hwf s0 hlt).trans hv⟩

/-- **Concurrent commands.** From stores without orphans, a drained run is without orphans exactly when, for
    every valid product that the sends leave gone, the last events sent to the recommendation queue and to the
    review queue are no creates, those that the store does not take left aside. -/
theorem orphanFree_iff (part : Int → Nat) (cmds : List Command) (s0 : Stores) (h0 : s0.OrphanFree)
    (tr : List Action) (t : Landscape)
    (h : Machine.exec (step part) tr (start (cmds.map Command.sends) s0) = some t) (hd : t.Drained) :
    t.stores.OrphanFree ↔ ∀ k, 1 ≤ k → Gone s0 (sendOrder (cmds.map Command.sends) tr) k →
      lastEvent .recommendations k ((sendOrder (cmds.map Command.sends) tr).filter s0.takes) ≠ some .create ∧
      lastEvent .reviews k ((sendOrder (cmds.map Command.sends) tr).filter s0.takes) ≠ some .create := by
  have hfrom := fromCommands_sendOrder h hd.1
  have hwf : ∀ l ∈ cmds.map Command.sends, ∀ m ∈ l, m.WellFormed := by
    intro l hl m hm
    obtain ⟨c, _, rfl⟩ := List.mem_map.mp hl
    exact (c.sends_spec hm).1
  have hsame := drained_sameContent hwf h hd
  have hcontent : t.stores.OrphanFree
      ↔ ((sendOrder (cmds.map Command.sends) tr).foldl Stores.deliver s0).OrphanFree := by
    rw [orphanFree_iff_content, orphanFree_iff_content]
    apply forall_congr'
    intro k
    obtain ⟨hp, hr, hv⟩ := hsame k
    rw [hp, hr, hv]
  exact hcontent.trans (foldl_orphanFree_iff hfrom h0)

/-- The sends of a create and a delete of one product, interleaved; on every queue the create comes first. -/
def interleaved : List Action :=
  [.send 0, .send 1, .send 0, .consume .products 0, .send 1, .consume .recommendations 0, .send 1,
   .consume .products 0, .consume .reviews 0, .consume .recommendations 0]

theorem orphanFree_iff_interleaved :
    (after (fun _ => 0) (createThenDelete.map Command.sends) interleaved).stores.OrphanFree := by
  refine (orphanFree_iff (fun _ => 0) createThenDelete Stores.empty ⟨by decide, by decide⟩ interleaved _ rfl
    ⟨by decide, ?_⟩).mpr ?_
  · funext c
    obtain ⟨tp, q⟩ := c
    cases tp <;> cases q <;> rfl
  · intro k _ _
    have hone : ∀ m ∈ (sendOrder (createThenDelete.map Command.sends) interleaved).filter Stores.empty.takes,
        m.key = 1 := by decide
    constructor
    all_goals
      intro hlast
      obtain ⟨m, hm, hplace, _⟩ := exists_of_lastEvent hlast
      obtain rfl : k = 1 := (congrArg Prod.snd hplace).symm.trans (hone m hm)
      exact absurd hlast (by decide)

end Landscape

end NewOrbit.Shop
