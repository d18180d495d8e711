import NewOrbit.Amqp.Session

/-!
# `Amqp.Content` — messages put together from frames

A message comes as a deliver frame, a header with the size of the body, and body frames. The channel gathers them and
reports the message to the consumer of its tag when the body is complete: one message (`receive_carried`), and one
after another (`receive_carriedAll`), however their bodies are cut.
-/

namespace NewOrbit.Amqp
open CString

/-- A message on its way to a consumer. -/
structure Delivery where
  frame    : Deliver
  metadata : MetaData
  body     : Bytes

/-- What the consumer is given. -/
def Delivery.message (d : Delivery) : ConsumedMessage := ⟨d.frame, d.metadata, d.body.length, d.body⟩

/-- Body frames, each with what the program does should it be called back. -/
def bodies (chunks : List (Bytes × List Call)) : List Incoming := chunks.map fun p => .body p.1 p.2

/-- The frames carry the message: its body is cut into pieces, none of them empty. -/
def Carries (d : Delivery) (frames : List Incoming) : Prop :=
  ∃ calls chunks, frames = .deliver d.frame :: .header d.body.length d.metadata calls :: bodies chunks ∧
    (∀ p ∈ chunks, p.1 ≠ []) ∧ (chunks.map Prod.fst).flatten = d.body

/-- The frames carry the messages one after another. -/
inductive CarriesAll : List Delivery → List Incoming → Prop
  | nil : CarriesAll [] []
  | cons {d ds frames rest} : Carries d frames → CarriesAll ds rest → CarriesAll (d :: ds) (frames ++ rest)

/-! ## One channel -/

/-- What stays as it was while content comes in. -/
structure Gathering (consumers : List (Bytes × Nat)) (c : ChannelImpl) : Prop where
  opened    : c.state ≠ .closed
  consumers : c.consumers = consumers

variable {c : ChannelImpl}

/-- A complete message is reported to the consumer of its tag. -/
theorem reportMessage_of_consumer {m : ConsumedMessage} {consumer : Nat} (hopen : c.state ≠ .closed)
    (hm : c.message = some m) (hconsumer : SortedMap.get c.consumers m.frame.consumerTag = some consumer)
    (calls : List Call) : Gathering c.consumers (c.reportMessage calls) ∧
      (c.reportMessage calls).log = c.log ++ [.received consumer m] ∧ (c.reportMessage calls).message = none := by
  have hsync : ∀ b : Bool, (if b then c.onSynchronized else c).state = c.state ∧
      (if b then c.onSynchronized else c).consumers = c.consumers ∧
      (if b then c.onSynchronized else c).log = c.log := by
    obtain ⟨hlog, -, -, -, hconsumers, hstate, -⟩ := drain_same c.queue c
    intro b
    cases b with
    | true => exact ⟨hstate, hconsumers, hlog⟩
    | false => exact ⟨rfl, rfl, rfl⟩
  obtain ⟨hstate, hconsumers, hlog⟩ := hsync m.frame.consumerTag.isEmpty
  unfold ChannelImpl.reportMessage
  rw [hm]
  simp only
  generalize (if m.frame.consumerTag.isEmpty then c.onSynchronized else c) = c₁ at hstate hconsumers hlog ⊢
  have hget : SortedMap.get c₁.consumers m.frame.consumerTag = some consumer := by rw [hconsumers, hconsumer]
  rw [hget]
  have hkept := kept_calls calls { c₁ with log := c₁.log ++ [.received consumer m] }
  refine ⟨⟨hkept.opened (by rw [hstate]; exact hopen), hkept.users.trans hconsumers⟩, ?_, rfl⟩
  exact hkept.log.trans (by rw [hlog])

/-- The rest of a body completes the message. -/
theorem receive_bodies {consumer : Nat} (chunks : List (Bytes × List Call)) :
    ∀ {c : ChannelImpl} {m : ConsumedMessage}, c.state ≠ .closed → c.message = some m →
      SortedMap.get c.consumers m.frame.consumerTag = some consumer → (∀ p ∈ chunks, p.1 ≠ []) → chunks ≠ [] →
      m.bodySize = m.body.length + (chunks.map Prod.fst).flatten.length →
      Gathering c.consumers ((bodies chunks).foldl ChannelImpl.receive c) ∧
        ((bodies chunks).foldl ChannelImpl.receive c).log =
          c.log ++ [.received consumer { m with body := m.body ++ (chunks.map Prod.fst).flatten }] ∧
        ((bodies chunks).foldl ChannelImpl.receive c).message = none := by
  induction chunks with
  | nil => exact fun _ _ _ _ h => absurd rfl h
  | cons p chunks ih =>
      obtain ⟨chunk, calls⟩ := p
      intro c m hopen hm hconsumer hne _ hsize
      simp only [List.map_cons, List.flatten_cons, List.length_append] at hsize
      have hchunk : chunk.length ≤ m.bodySize - m.body.length := by omega
      have happ : m.append chunk =
          ({ m with body := m.body ++ chunk }, decide (m.bodySize ≤ (m.body ++ chunk).length)) := by
        unfold ConsumedMessage.append
        split
        · rename_i hwhole
          have hnil : m.body = [] := List.eq_nil_of_length_eq_zero hwhole.1
          have hall : chunk.take m.bodySize = chunk := List.take_of_length_le (by rw [hwhole.1] at hsize; omega)
          have hle : m.bodySize ≤ ([] ++ chunk).length := hwhole.2
          rw [hall, hnil, decide_eq_true hle]
          rfl
        · rw [List.take_of_length_le hchunk]
      have hreceive : c.receive (.body chunk calls) =
          if m.bodySize ≤ (m.body ++ chunk).length then
            ({ c with message := some { m with body := m.body ++ chunk } } : ChannelImpl).reportMessage calls
          else { c with message := some { m with body := m.body ++ chunk } } := by
        rw [ChannelImpl.receive, if_neg hopen]
        show c.body chunk calls = _
        unfold ChannelImpl.body
        rw [hm]
        simp only [happ, decide_eq_true_eq]
      have hfold : (bodies ((chunk, calls) :: chunks)).foldl ChannelImpl.receive c =
          (bodies chunks).foldl ChannelImpl.receive (c.receive (.body chunk calls)) := rfl
      rw [hfold, hreceive, List.map_cons, List.flatten_cons]
      cases chunks with
      | nil =>
          have hlast : m.bodySize ≤ (m.body ++ chunk).length := by
            rw [List.length_append]
            simp at hsize
            omega
          rw [if_pos hlast]
          simp only [List.map_nil, List.flatten_nil, List.append_nil]
          exact reportMessage_of_consumer (c := { c with message := some { m with body := m.body ++ chunk } }) hopen rfl
            hconsumer calls
      | cons q chunks =>
          have hmore : ¬ m.bodySize ≤ (m.body ++ chunk).length := by
            have hq : 0 < q.1.length := List.length_pos_iff.mpr (hne q (by simp))
            rw [List.length_append]
            simp only [List.map_cons, List.flatten_cons, List.length_append] at hsize
            omega
          rw [if_neg hmore]
          have hrest := ih (c := { c with message := some { m with body := m.body ++ chunk } }) hopen rfl hconsumer
            (fun p hp => hne p (List.mem_cons_of_mem _ hp)) (by simp) (by
              show m.bodySize = (m.body ++ chunk).length + _
              rw [List.length_append, hsize]
              omega)
          rw [← List.append_assoc]
          exact hrest

/-- **One message.** -/
theorem receive_carried {d : Delivery} {frames : List Incoming} (hcarries : Carries d frames)
    (hopen : c.state ≠ .closed) {consumer : Nat}
    (hconsumer : SortedMap.get c.consumers d.frame.consumerTag = some consumer) :
    Gathering c.consumers (frames.foldl ChannelImpl.receive c) ∧
      (frames.foldl ChannelImpl.receive c).log = c.log ++ [.received consumer d.message] ∧
      (frames.foldl ChannelImpl.receive c).message = none := by
  obtain ⟨calls, chunks, rfl, hne, hbody⟩ := hcarries
  have hdeliver : c.receive (.deliver d.frame) = { c with message := some (.ofFrame d.frame) } := by
    rw [ChannelImpl.receive, if_neg hopen]
    rfl
  set c₁ : ChannelImpl := { c with message := some ⟨d.frame, d.metadata, d.body.length, []⟩ } with hc₁
  have hheader : (c.receive (.deliver d.frame)).receive (.header d.body.length d.metadata calls) =
      if d.body.length = 0 then c₁.reportMessage calls else c₁ := by
    rw [hdeliver, ChannelImpl.receive, if_neg (show ({ c with message := _ } : ChannelImpl).state ≠ .closed from hopen)]
    rfl
  rw [List.foldl_cons, List.foldl_cons, hheader]
  cases chunks with
  | nil =>
      -- An empty body: the header completes the message.
      have hnil : d.body = [] := hbody.symm
      rw [if_pos (by rw [hnil]; rfl)]
      have hreport := reportMessage_of_consumer (c := c₁) hopen rfl hconsumer calls
      have hmessage : d.message = ⟨d.frame, d.metadata, d.body.length, []⟩ := by rw [Delivery.message, hnil]
      rw [hmessage]
      exact hreport
  | cons p chunks =>
      have hpos : 0 < p.1.length := List.length_pos_iff.mpr (hne p List.mem_cons_self)
      have hlen : d.body.length ≠ 0 := by
        rw [← hbody, List.map_cons, List.flatten_cons, List.length_append]
        omega
      rw [if_neg hlen]
      have hrest := receive_bodies (p :: chunks) (c := c₁) hopen rfl hconsumer hne (by simp)
        (by rw [hbody]; exact (Nat.zero_add _).symm)
      rw [hbody, List.nil_append] at hrest
      exact hrest

/-- The consumers that are told of the messages. -/
def Consumed (consumers : List (Bytes × Nat)) (ds : List Delivery) (log : List Event) : Prop :=
  List.Forall₂ (fun d e => ∃ consumer, SortedMap.get consumers d.frame.consumerTag = some consumer ∧
    e = .received consumer d.message) ds log

/-- **One message after another.** -/
theorem receive_carriedAll {ds : List Delivery} {frames : List Incoming} (hcarries : CarriesAll ds frames) :
    ∀ {c : ChannelImpl}, c.state ≠ .closed → c.message = none →
      (∀ d ∈ ds, (SortedMap.get c.consumers d.frame.consumerTag).isSome) →
      ∃ told, (frames.foldl ChannelImpl.receive c).log = c.log ++ told ∧ Consumed c.consumers ds told ∧
        (frames.foldl ChannelImpl.receive c).message = none := by
  induction hcarries with
  | nil => exact fun _ hnone _ => ⟨[], by simp, List.Forall₂.nil, hnone⟩
  | cons hd _ ih =>
      intro c hopen _ hconsumers
      obtain ⟨consumer, hconsumer⟩ := Option.isSome_iff_exists.mp (hconsumers _ List.mem_cons_self)
      obtain ⟨hgathering, hlog, hnone⟩ := receive_carried hd hopen hconsumer
      obtain ⟨told, hlog', htold, hnone'⟩ := ih hgathering.opened hnone (fun d hmem => by
        rw [hgathering.consumers]
        exact hconsumers d (List.mem_cons_of_mem _ hmem))
      rw [hgathering.consumers] at htold
      refine ⟨.received consumer _ :: told, ?_, List.Forall₂.cons ⟨consumer, hconsumer, rfl⟩ htold, ?_⟩
      · rw [List.foldl_append, hlog', hlog, List.append_assoc]
        rfl
      · rw [List.foldl_append]
        exact hnone'

end NewOrbit.Amqp
