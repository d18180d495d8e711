import NewOrbit.Lib.Fifo
import NewOrbit.Lib.Machine
import NewOrbit.Shop.Composite

/-!
# `Shop.Landscape` — command handlers, queues and consumers running together

The running shop as a machine: any number of command handlers, each with the sends it still has to make;
one queue per topic and partition; the three stores. A step lets one handler make its next send, or one
consumer take the head of one partition. The partition of a message is a function of its event key
(`partition-key-expression: payload.key`); the unpartitioned profile is the constant function.

Whatever the interleaving, a run delivers, product by product and topic by topic, what was sent in the order
it was sent (`exec_flow`), so the stores at the end hold what delivering the sends in send order would have
left (`drained_sameContent`). The three topics are treated alike through `Port`.
-/

namespace NewOrbit.Shop

/-- What one topic is made of: how its events are wrapped, and the store its consumer writes. -/
structure Port (α β : Type) {κ : Type} [UniqueIndex α κ] [DecidableEq κ] where
  topic : Topic
  wrap : Event β → Send
  unwrap? : Send → Option (Event β)
  pid : β → Int
  apiToEntity : β → α
  repo : Stores → Repository α
  deliver : Repository α → Event β → Repository α
  unwrap_wrap : ∀ e, unwrap? (wrap e) = some e
  wrap_spec : ∀ e, (wrap e).topic = topic ∧ (wrap e).key = e.key ∧ (wrap e).eventType = e.eventType
  unwrap_spec : ∀ m, m.topic = topic → ∃ e, m = wrap e
  unwrap_none : ∀ m, m.topic ≠ topic → unwrap? m = none
  wellFormed : ∀ e, (wrap e).WellFormed → e.WellKeyed pid ∧ (e.eventType = .create → e.data ≠ none)
  deliver_local : Keyed.Local deliver Event.key (Event.WellKeyed pid) Repository.refuses
    (fun k repo => repo.content k) (actOn apiToEntity)
  repo_deliver : ∀ s e, repo (s.deliver (wrap e)) = deliver (repo s) e
  repo_other : ∀ s m, m.topic ≠ topic → repo (s.deliver m) = repo s
  takes_wrap : ∀ (s : Stores) (e : Event β), s.takes (wrap e) = e.taken (repo s).refuses apiToEntity

def productsPort : Port ProductEntity Product where
  topic := .products
  wrap := .products
  unwrap? := Send.products?
  pid := Product.productId
  apiToEntity := ProductMapper.apiToEntity
  repo := Stores.products
  deliver := ProductService.deliver
  unwrap_wrap := fun _ => rfl
  wrap_spec := fun _ => ⟨rfl, rfl, rfl⟩
  unwrap_spec := fun m h => by cases m <;> first | exact ⟨_, rfl⟩ | exact nomatch h
  unwrap_none := fun m h => by cases m <;> first | rfl | exact absurd rfl h
  wellFormed := fun _ h => h
  deliver_local := ProductService.deliver_local
  repo_deliver := fun _ _ => rfl
  repo_other := fun s m h => by cases m <;> first | rfl | exact absurd rfl h
  takes_wrap := fun _ _ => rfl

def recommendationsPort : Port RecommendationEntity Recommendation where
  topic := .recommendations
  wrap := .recommendations
  unwrap? := Send.recommendations?
  pid := Recommendation.productId
  apiToEntity := RecommendationMapper.apiToEntity
  repo := Stores.recommendations
  deliver := RecommendationService.deliver
  unwrap_wrap := fun _ => rfl
  wrap_spec := fun _ => ⟨rfl, rfl, rfl⟩
  unwrap_spec := fun m h => by cases m <;> first | exact ⟨_, rfl⟩ | exact nomatch h
  unwrap_none := fun m h => by cases m <;> first | rfl | exact absurd rfl h
  wellFormed := fun _ h => h
  deliver_local := RecommendationService.deliver_local
  repo_deliver := fun _ _ => rfl
  repo_other := fun s m h => by cases m <;> first | rfl | exact absurd rfl h
  takes_wrap := fun _ _ => rfl

def reviewsPort : Port ReviewEntity Review where
  topic := .reviews
  wrap := .reviews
  unwrap? := Send.reviews?
  pid := Review.productId
  apiToEntity := ReviewMapper.apiToEntity
  repo := Stores.reviews
  deliver := ReviewService.deliver
  unwrap_wrap := fun _ => rfl
  wrap_spec := fun _ => ⟨rfl, rfl, rfl⟩
  unwrap_spec := fun m h => by cases m <;> first | exact ⟨_, rfl⟩ | exact nomatch h
  unwrap_none := fun m h => by cases m <;> first | rfl | exact absurd rfl h
  wellFormed := fun _ h => h
  deliver_local := ReviewService.deliver_local
  repo_deliver := fun _ _ => rfl
  repo_other := fun s m h => by cases m <;> first | rfl | exact absurd rfl h
  takes_wrap := fun _ _ => rfl

/-- Where a message takes effect: the topic and the product. -/
def Send.place (m : Send) : Topic × Int := (m.topic, m.key)

namespace Port

variable {α β κ : Type} [UniqueIndex α κ] [DecidableEq κ] (p : Port α β)

/-- The events of `p`'s topic for product `k`, in order. -/
def events (ms : List Send) (k : Int) : List (Event β) := (ms.filterMap p.unwrap?).filter (·.key = k)

/-- The messages of one topic and product are its events, wrapped. -/
theorem filter_place (ms : List Send) (k : Int) :
    ms.filter (·.place = (p.topic, k)) = (p.events ms k).map p.wrap := by
  unfold events
  induction ms with
  | nil => rfl
  | cons m ms ih =>
      by_cases ht : m.topic = p.topic
      · obtain ⟨e, rfl⟩ := p.unwrap_spec m ht
        have hkey := (p.wrap_spec e).2.1
        rw [List.filterMap_cons_some (p.unwrap_wrap e)]
        by_cases hk : e.key = k
        · rw [List.filter_cons_of_pos (by simp [Send.place, ht, hkey, hk]),
            List.filter_cons_of_pos (by simpa using hk), List.map_cons, ih]
        · rw [List.filter_cons_of_neg (by simp [Send.place, hkey, hk]),
            List.filter_cons_of_neg (by simpa using hk), ih]
      · rw [List.filterMap_cons_none (p.unwrap_none m ht),
          List.filter_cons_of_neg (by simp [Send.place, ht]), ih]

theorem wrap_injective : Function.Injective p.wrap := by
  intro e e' h
  exact Option.some.inj ((p.unwrap_wrap e).symm.trans ((congrArg p.unwrap? h).trans (p.unwrap_wrap e')))

/-- Equal messages at one place are equal events. -/
theorem events_congr {ms ms' : List Send} {k : Int}
    (h : ms.filter (·.place = (p.topic, k)) = ms'.filter (·.place = (p.topic, k))) :
    p.events ms k = p.events ms' k := by
  rw [p.filter_place, p.filter_place] at h
  exact List.map_injective_iff.mpr p.wrap_injective h

/-- The events that the store takes come from the messages that the stores take. -/
theorem events_takes (s : Stores) (ms : List Send) (k : Int) :
    p.events (ms.filter s.takes) k = (p.events ms k).filter (Event.taken (p.repo s).refuses p.apiToEntity) := by
  refine List.map_injective_iff.mpr p.wrap_injective ?_
  have htakes : s.takes ∘ p.wrap = Event.taken (p.repo s).refuses p.apiToEntity := funext (p.takes_wrap s)
  show (p.events (ms.filter s.takes) k).map p.wrap = ((p.events ms k).filter _).map p.wrap
  rw [← p.filter_place, List.filter_comm, p.filter_place, List.filter_map, htakes]

/-- Every event of a list of messages comes from one of its messages. -/
theorem mem_events {ms : List Send} {k : Int} {e : Event β} :
    e ∈ p.events ms k ↔ p.wrap e ∈ ms ∧ e.key = k := by
  unfold events
  rw [List.mem_filter, List.mem_filterMap, decide_eq_true_eq]
  refine and_congr_left fun _ => ⟨?_, fun h => ⟨_, h, p.unwrap_wrap e⟩⟩
  rintro ⟨m, hm, hu⟩
  by_cases ht : m.topic = p.topic
  · obtain ⟨e', rfl⟩ := p.unwrap_spec m ht
    rw [p.unwrap_wrap] at hu
    exact Option.some.inj hu ▸ hm
  · rw [p.unwrap_none m ht] at hu; cases hu

/-- The store of the topic after a list of deliveries. -/
theorem repo_foldl (ms : List Send) (s : Stores) :
    p.repo (ms.foldl Stores.deliver s) = (ms.filterMap p.unwrap?).foldl p.deliver (p.repo s) := by
  -- A message of another topic leaves this store alone.
  induction ms generalizing s with
  | nil => rfl
  | cons m ms ih =>
      rw [List.foldl_cons, ih]
      by_cases ht : m.topic = p.topic
      · obtain ⟨e, rfl⟩ := p.unwrap_spec m ht
        rw [List.filterMap_cons_some (p.unwrap_wrap e), List.foldl_cons, p.repo_deliver]
      · rw [List.filterMap_cons_none (p.unwrap_none m ht), p.repo_other s m ht]

/-- **The content of a product depends on the events of that product alone.** -/
theorem content_foldl {ms : List Send} (hms : ∀ m ∈ ms, m.WellFormed) (s : Stores) (k : Int) :
    (p.repo (ms.foldl Stores.deliver s)).content k
      = (p.events ms k).foldl (actOn p.apiToEntity (p.repo s).refuses) ((p.repo s).content k) := by
  rw [p.repo_foldl]
  refine p.deliver_local.proj_foldl k _ (fun e he => ?_) _
  have hmem : e ∈ p.events ms e.key := List.mem_filter.mpr ⟨he, by simp⟩
  exact (p.wellFormed e (hms _ (p.mem_events.mp hmem).1)).1

end Port

/-! ## The machine -/

structure Landscape where
  handlers : List (List Send)
  queues : Topic × Nat → List Send
  stores : Stores

inductive Action
  | send (i : Nat)
  | consume (t : Topic) (q : Nat)
  deriving DecidableEq, Repr

/-- The queue a message goes to: its topic, and the partition of its key. -/
def chan (part : Int → Nat) (m : Send) : Topic × Nat := (m.topic, part m.key)

namespace Landscape

/-- Handler `i` makes its next send; a consumer takes and processes the head of a partition. -/
def step (part : Int → Nat) (s : Landscape) : Action → Option Landscape
  | .send i => match s.handlers[i]? with
    | some (m :: rest) =>
        some { s with handlers := s.handlers.set i rest, queues := Fifo.enqueue (chan part) s.queues m }
    | _ => none
  | .consume t q => match s.queues (t, q) with
    | m :: _ => some { s with queues := Fifo.dequeue s.queues (t, q), stores := s.stores.deliver m }
    | [] => none

/-- Nothing sent yet. -/
def start (handlers : List (List Send)) (stores : Stores) : Landscape := ⟨handlers, fun _ => [], stores⟩

/-- Every handler is through and every queue is empty. -/
def Drained (s : Landscape) : Prop := (∀ h ∈ s.handlers, h = []) ∧ s.queues = fun _ => []

/-- The messages in the order in which the handlers send them. It is a matter of the handlers and the
    schedule alone. -/
def sendOrder : List (List Send) → List Action → List Send
  | _, [] => []
  | hs, .send i :: as => match hs[i]? with
    | some (m :: rest) => m :: sendOrder (hs.set i rest) as
    | _ => sendOrder hs as
  | hs, .consume _ _ :: as => sendOrder hs as

variable {part : Int → Nat}

theorem step_send_iff {s u : Landscape} {i : Nat} :
    step part s (.send i) = some u ↔ ∃ m rest, s.handlers[i]? = some (m :: rest) ∧
      u = { s with handlers := s.handlers.set i rest, queues := Fifo.enqueue (chan part) s.queues m } := by
  simp only [step]
  split
  · next m rest h =>
      rw [h]
      exact ⟨fun hu => ⟨m, rest, rfl, (Option.some.inj hu).symm⟩, by rintro ⟨_, _, ⟨⟩, rfl⟩; rfl⟩
  · next h =>
      refine ⟨fun hu => (nomatch hu), ?_⟩
      rintro ⟨m, rest, hm, _⟩
      exact absurd hm (h m rest)

theorem step_consume_iff {s u : Landscape} {t : Topic} {q : Nat} :
    step part s (.consume t q) = some u ↔ ∃ m ms, s.queues (t, q) = m :: ms ∧
      u = { s with queues := Fifo.dequeue s.queues (t, q), stores := s.stores.deliver m } := by
  simp only [step]
  split
  · next m ms h =>
      rw [h]
      exact ⟨fun hu => ⟨m, ms, rfl, (Option.some.inj hu).symm⟩, by rintro ⟨_, _, ⟨⟩, rfl⟩; rfl⟩
  · next h => rw [h]; exact ⟨fun hu => (nomatch hu), fun ⟨_, _, hm, _⟩ => (nomatch hm)⟩

theorem sendOrder_send {hs : List (List Send)} {i : Nat} {m : Send} {rest : List Send}
    (h : hs[i]? = some (m :: rest)) (as : List Action) :
    sendOrder hs (.send i :: as) = m :: sendOrder (hs.set i rest) as := by
  simp only [sendOrder, h]

/-- **A run moves messages through the queues in order.** What it consumed, `recvd`, and what it sent are
    related queue by queue, and the stores are those of delivering `recvd`. -/
theorem exec_flow {tr : List Action} {s t : Landscape} (hs : Fifo.Sorted (chan part) s.queues)
    (h : Machine.exec (step part) tr s = some t) :
    ∃ recvd, Fifo.Flow (chan part) s.queues (sendOrder s.handlers tr) recvd t.queues ∧
      t.stores = recvd.foldl Stores.deliver s.stores := by
  induction tr generalizing s with
  | nil =>
      obtain rfl : s = t := Option.some.inj h
      exact ⟨[], Fifo.Flow.refl, rfl⟩
  | cons a as ih =>
      obtain ⟨u, hu, hrun⟩ := Machine.exec_cons_iff.mp h
      cases a with
      | send i =>
          obtain ⟨m, rest, hi, rfl⟩ := step_send_iff.mp hu
          obtain ⟨recvd, hflow, hstores⟩ := ih (hs.enqueue m) hrun
          refine ⟨recvd, ?_, hstores⟩
          rw [sendOrder_send hi]
          exact hflow.send
      | consume tp q =>
          obtain ⟨m, ms, hq, rfl⟩ := step_consume_iff.mp hu
          obtain ⟨recvd, hflow, hstores⟩ := ih (hs.dequeue (tp, q)) hrun
          exact ⟨m :: recvd, hflow.recv hs hq, hstores⟩

/-- A message that is sent comes from a handler; once the handlers are through, all of them were sent. -/
theorem mem_sendOrder {tr : List Action} {s t : Landscape} (h : Machine.exec (step part) tr s = some t)
    (m : Send) : (m ∈ sendOrder s.handlers tr ∨ ∃ hd ∈ t.handlers, m ∈ hd) ↔ ∃ hd ∈ s.handlers, m ∈ hd := by
  induction tr generalizing s with
  | nil =>
      obtain rfl : s = t := Option.some.inj h
      simp [sendOrder]
  | cons a as ih =>
      obtain ⟨u, hu, hrun⟩ := Machine.exec_cons_iff.mp h
      cases a with
      | consume tp q =>
          obtain ⟨_, _, _, rfl⟩ := step_consume_iff.mp hu
          exact (ih hrun :)
      | send i =>
          obtain ⟨x, rest, hi, rfl⟩ := step_send_iff.mp hu
          rw [sendOrder_send hi, List.mem_cons, or_assoc, ih hrun]
          obtain ⟨hlt, hget⟩ := List.getElem?_eq_some_iff.mp hi
          constructor
          · rintro (rfl | ⟨hd, hhd, hm⟩)
            · exact ⟨_, hget ▸ List.getElem_mem hlt, List.mem_cons_self⟩
            · rcases List.mem_or_eq_of_mem_set hhd with hmem | rfl
              · exact ⟨hd, hmem, hm⟩
              · exact ⟨_, hget ▸ List.getElem_mem hlt, List.mem_cons_of_mem _ hm⟩
          · rintro ⟨hd, hhd, hm⟩
            obtain ⟨j, hj, rfl⟩ := List.mem_iff_getElem.mp hhd
            -- The handler that sent has its first message out; the others are as they were.
            by_cases hij : i = j
            · subst hij
              rw [hget] at hm
              rcases List.mem_cons.mp hm with rfl | hm
              · exact Or.inl rfl
              · exact Or.inr ⟨rest, List.mem_set hlt rest, hm⟩
            · refine Or.inr ⟨s.handlers[j], ?_, hm⟩
              exact List.mem_iff_getElem.mpr
                ⟨j, by simpa using hj, List.getElem_set_ne hij (by simpa using hj)⟩

/-- A single handler sends its messages in order. -/
theorem sendOrder_single {ms : List Send} {tr : List Action} {s t : Landscape} (hs : s.handlers = [ms])
    (h : Machine.exec (step part) tr s = some t) :
    ∃ rest, t.handlers = [rest] ∧ ms = sendOrder s.handlers tr ++ rest := by
  induction tr generalizing s ms with
  | nil =>
      obtain rfl : s = t := Option.some.inj h
      exact ⟨ms, hs, by simp [sendOrder]⟩
  | cons a as ih =>
      obtain ⟨u, hu, hrun⟩ := Machine.exec_cons_iff.mp h
      cases a with
      | consume tp q =>
          obtain ⟨_, _, _, rfl⟩ := step_consume_iff.mp hu
          -- A consumer leaves the handlers alone.
          have hih := ih (by exact hs) hrun
          exact hih
      | send i =>
          obtain ⟨m, rest, hi, rfl⟩ := step_send_iff.mp hu
          -- There is no handler but the first.
          obtain ⟨rfl, rfl⟩ : i = 0 ∧ ms = m :: rest := by
            rw [hs] at hi
            cases i with
            | zero => exact ⟨rfl, Option.some.inj hi⟩
            | succ i => cases hi
          have hset : (s.handlers.set 0 rest) = [rest] := by simp [hs]
          obtain ⟨rest', ht, hrest⟩ := ih hset hrun
          exact ⟨rest', ht, by rw [sendOrder_send hi, List.cons_append, ← hrest]⟩

/-- **Drained runs.** Whatever the interleaving, the stores of a drained run hold, product by product, what
    delivering the messages in send order leaves. -/
theorem drained_sameContent {handlers : List (List Send)} {s0 : Stores} {tr : List Action} {t : Landscape}
    (hwf : ∀ hd ∈ handlers, ∀ m ∈ hd, m.WellFormed)
    (h : Machine.exec (step part) tr (start handlers s0) = some t) (hd : t.Drained) :
    t.stores.SameContent ((sendOrder handlers tr).foldl Stores.deliver s0) := by
  obtain ⟨recvd, hflow, hstores⟩ := exec_flow Fifo.Sorted.empty h
  rw [hd.2] at hflow
  have hsent : ∀ m ∈ sendOrder handlers tr, m.WellFormed := by
    intro m hm
    obtain ⟨hnd, hmem, hm⟩ := (mem_sendOrder h m).mp (Or.inl hm)
    exact hwf hnd hmem m hm
  have hrecvd : ∀ m ∈ recvd, m.WellFormed := fun m hm => hsent m (hflow.mem_sent hm)
  have hplace : ∀ pl, recvd.filter (·.place = pl) = (sendOrder handlers tr).filter (·.place = pl) :=
    hflow.drained (g := fun pl => (pl.1, part pl.2)) (fun _ _ => rfl) (fun _ _ => rfl)
  have hport : ∀ {α β κ : Type} [UniqueIndex α κ] [DecidableEq κ] (p : Port α β) (k : Int),
      (p.repo t.stores).content k
        = (p.repo ((sendOrder handlers tr).foldl Stores.deliver s0)).content k := by
    intro _ _ _ _ _ p k
    rw [hstores, p.content_foldl hrecvd, p.content_foldl hsent, p.events_congr (hplace _)]
    rfl
  exact fun k => ⟨hport productsPort k, hport recommendationsPort k, hport reviewsPort k⟩

end Landscape

end NewOrbit.Shop
