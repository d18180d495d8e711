import NewOrbit.Amqp.Channel
import NewOrbit.Lib.Machine

/-!
# `Amqp.Session` — a channel and the server at its other end

The server answers the frames that have an answer in the order in which they were sent, and may at any time send
content, close the channel, or be lost with the connection. `Orderly` is what holds in every state: frames leave in
the order in which `send` took them, nothing has left behind a synchronous frame that is not yet answered, and the
oldest deferred results are those of the frames that wait for their answers.

Consumer tags are never empty: the server makes one up where the program gives none.
-/

namespace NewOrbit.Amqp
open CString

/-! ## The system

A session is a channel and how many of its frames the server has answered. The server answers the oldest frame that
waits for an answer (`answerTo`), or sends what nobody asked for. -/

/-- The frames sent that wait for their answer, the first `answered` having had theirs. -/
def awaiting (sent : List Outgoing) (answered : Nat) : List Outgoing :=
  (sent.filter fun f => f.method.answered).drop answered

/-- What answers a frame. -/
def answerTo (f : Outgoing) (r : Reply) (calls : List Call) : Incoming :=
  match f.method with
  | .channelOpen           => .openOk calls
  | .channelClose          => .closeOk calls
  | .request .basicRecover => .recoverOk calls
  | _                      => .reply r calls

/-- What the server, or the connection, sends of its own accord. -/
def Incoming.Unsolicited : Incoming → Prop
  | .openOk _ | .reply _ _ | .recoverOk _ | .closeOk _ => False
  | .deliver frame                                     => frame.consumerTag ≠ []
  | _                                                  => True

instance : (i : Incoming) → Decidable i.Unsolicited
  | .openOk _ | .reply _ _ | .recoverOk _ | .closeOk _ => isFalse id
  | .deliver frame => inferInstanceAs (Decidable (frame.consumerTag ≠ []))
  | .closeByServer _ | .connectionError _ | .connectionClosing | .header _ _ _ | .body _ _ => isTrue trivial

structure Session where
  channel  : ChannelImpl
  answered : Nat

inductive Label
  | call (c : Call)
  | answer (r : Reply) (calls : List Call)
  | incoming (i : Incoming)

namespace Session

def awaiting (s : Session) : List Outgoing := Amqp.awaiting s.channel.sent s.answered

/-- The program makes a call, the server answers the oldest frame that waits, or something else arrives. -/
def step (s : Session) : Label → Option Session
  | .call c          => some { s with channel := s.channel.call c }
  | .answer r calls  =>
    match s.awaiting with
    | []     => none
    | f :: _ => some ⟨s.channel.receive (answerTo f r calls), s.answered + 1⟩
  | .incoming i      => if i.Unsolicited then some { s with channel := s.channel.receive i } else none

def start (buffer : Bytes) : Session := ⟨.attach buffer, 0⟩

end Session

/-! ## Frames that wait

Of the frames sent, those with an answer are counted by `asked`; the answered ones are the first of them, so
`awaiting` drops that many. A frame that is sent is asked last. -/

theorem awaiting_append {sent : List Outgoing} {n : Nat} (h : n ≤ (sent.filter fun f => f.method.answered).length)
    (f : Outgoing) : awaiting (sent ++ [f]) n = awaiting sent n ++ if f.method.answered then [f] else [] := by
  rw [awaiting, List.filter_append, List.drop_append_of_le_length h]
  cases hf : f.method.answered <;> simp [awaiting, hf]

/-- The answers asked for up to a frame. -/
def asked (sent : List Outgoing) : Nat := (sent.filter fun f => f.method.answered).length

theorem asked_append (pre post : List Outgoing) : asked (pre ++ post) = asked pre + asked post := by
  simp [asked]

theorem asked_singleton {f : Outgoing} (h : f.method.answered = true) : asked [f] = 1 := by
  simp [asked, h]

/-- Where the first frame that waits stands. -/
theorem awaiting_eq_cons {sent more : List Outgoing} {n : Nat} {f : Outgoing} (h : awaiting sent n = f :: more) :
    ∃ pre post, sent = pre ++ f :: post ∧ asked pre = n ∧ f.method.answered = true ∧
      more = post.filter fun f => f.method.answered := by
  have hsplit : sent.filter (fun f => f.method.answered) =
      (sent.filter fun f => f.method.answered).take n ++ f :: more := by
    rw [← h, awaiting, List.take_append_drop]
  obtain ⟨l₁, l₂, rfl, h₁, h₂⟩ := List.filter_eq_append_iff.mp hsplit
  obtain ⟨l₃, l₄, rfl, h₃, hf, h₄⟩ := List.filter_eq_cons_iff.mp h₂
  have hn : n < ((l₁ ++ (l₃ ++ f :: l₄)).filter fun f => f.method.answered).length := by
    have hlen := congrArg List.length h
    rw [awaiting, List.length_drop] at hlen
    simp only [List.length_cons] at hlen
    omega
  have hnone : l₃.filter (fun f => f.method.answered) = [] :=
    List.filter_eq_nil_iff.mpr fun x hx => by simpa using h₃ x hx
  refine ⟨l₁ ++ l₃, l₄, by simp, ?_, hf, h₄.symm⟩
  rw [asked, List.filter_append, hnone, List.append_nil, h₁, List.length_take]
  omega

/-! ## The invariant

`sent` is the front of what `send` took, and while the channel is open with its connection `queue` is the rest. The
deferred results in the chain are those of the frames that wait for an answer, oldest first, and then those of the
frames that wait to be sent. Behind a synchronous frame nothing has been sent that did not wait for its answer. -/

/-- The requests that frames carry. -/
def ids (frames : List Outgoing) : List Nat := frames.filterMap Outgoing.request

/-- What holds of a channel after `n` answers. -/
structure Orderly (c : ChannelImpl) (n : Nat) : Prop where
  counted : n ≤ asked c.sent
  tagged  : ∀ f ∈ c.sent ++ c.queue, f.method.answered = false ∨ f.method = .channelOpen ↔ f.request = none
  quiet   : ∀ pre f post, c.sent = pre ++ f :: post → f.synchronous = true →
    post ≠ [] ∨ (c.synchronous = false ∧ c.state ≠ .closed) →
      f.method.answered = true ∧ asked (pre ++ [f]) ≤ n
  taken   : c.sent <+: c.taken
  waiting : c.connection = true → c.state ≠ .closed → c.sent ++ c.queue = c.taken
  matched : c.state ≠ .closed → ∃ rest, c.callbacks.map Deferred.id = ids (awaiting c.sent n) ++ rest ∧
    (c.connection = true → ∃ late, rest = ids c.queue ++ late ∧
      (c.state = .connected → late = [] ∨ c.shutdown = true ∧ c.queue = [] ∧ c.synchronous = false))
  named   : ∀ m, c.message = some m → m.frame.consumerTag ≠ []

/-! ## Calls

A call sends frames and makes deferred results, each tagged with its frame. `send` hands a frame over at once or puts
it behind the queue (`send_cases`), and each of these two keeps the invariant; every call is made of them. -/

namespace ChannelImpl

/-- What `send` does. -/
theorem send_cases (c : ChannelImpl) (f : Outgoing) :
    (c.state = .closed ∧ c.send f = (c, false)) ∨
    (c.state = .closing ∧ c.send f = (c, true)) ∨
    (c.state = .connected ∧ (c.queue = [] → c.synchronous = true) ∧
      c.send f = ({ c with queue := c.queue ++ [f], taken := c.taken ++ [f] }, true)) ∨
    (c.state = .connected ∧ c.synchronous = false ∧ c.queue = [] ∧ c.connection = true ∧ c.shutdown = false ∧
      c.send f = ({ c with sent := c.sent ++ [f], taken := c.taken ++ [f], synchronous := f.synchronous }, true)) ∨
    (c.state = .connected ∧ c.synchronous = false ∧ c.queue = [] ∧ (c.connection = true → c.shutdown = true) ∧
      c.send f = (c, false)) := by
  unfold send
  cases hstate : c.state with
  | closed => exact .inl ⟨rfl, rfl⟩
  | closing => exact .inr (.inl ⟨rfl, rfl⟩)
  | connected =>
      right; right
      by_cases hwait : (c.synchronous || !c.queue.isEmpty) = true
      · refine .inl ⟨rfl, fun hqueue => ?_, by simp only [reduceCtorEq, if_false, if_pos hwait]⟩
        simpa [hqueue] using hwait
      · right
        have hsync : c.synchronous = false := by simp_all
        have hqueue : c.queue = [] := by simp_all
        by_cases htakes : (c.connection && !c.shutdown) = true
        · obtain ⟨hconn, hshut⟩ : c.connection = true ∧ c.shutdown = false := by simpa using htakes
          exact .inl ⟨rfl, hsync, hqueue, hconn, hshut, by simp [hsync, hqueue, hconn, hshut]⟩
        · exact .inr ⟨rfl, hsync, hqueue, by simpa using htakes, by simp [hsync, hqueue, htakes]⟩

/-- Frames carry a request when a deferred result was made for them. -/
def Tagged (f : Outgoing) : Prop := f.method.answered = false ∨ f.method = .channelOpen ↔ f.request = none

end ChannelImpl

open ChannelImpl

variable {c : ChannelImpl} {n : Nat}

theorem ids_append (l₁ l₂ : List Outgoing) : ids (l₁ ++ l₂) = ids l₁ ++ ids l₂ := List.filterMap_append

theorem ids_singleton (f : Outgoing) : ids [f] = f.request.toList := by
  cases hf : f.request <;> simp [ids, hf]

/-- A frame without an answer carries no request. -/
theorem ids_awaited {f : Outgoing} (hf : Tagged f) : ids (if f.method.answered then [f] else []) = f.request.toList := by
  cases ha : f.method.answered with
  | true => exact ids_singleton f
  | false =>
      have hnone : f.request = none := hf.mp (.inl ha)
      simp [ids, hnone]

/-- A frame is taken to wait, and the deferred result for the request it carries is made. -/
theorem Orderly.enqueue (h : Orderly c n) (hstate : c.state = .connected)
    (hwait : c.shutdown = true → c.queue = [] → c.synchronous = true) {f : Outgoing} (hf : Tagged f)
    (made : List Deferred) (hmade : made.map Deferred.id = f.request.toList) :
    Orderly { c with
      queue     := c.queue ++ [f]
      taken     := c.taken ++ [f]
      callbacks := c.callbacks ++ made } n := by
  refine ⟨h.counted, fun g hg => ?_, h.quiet, h.taken.trans (List.prefix_append _ _), fun hc hne => ?_, fun hne => ?_,
    h.named⟩
  · rcases List.mem_append.mp hg with hg | hg
    · exact h.tagged g (List.mem_append_left _ hg)
    · rcases List.mem_append.mp hg with hg | hg
      · exact h.tagged g (List.mem_append_right _ hg)
      · rw [List.mem_singleton.mp hg]
        exact hf
  · show c.sent ++ (c.queue ++ [f]) = c.taken ++ [f]
    rw [← List.append_assoc, h.waiting hc hne]
  · obtain ⟨rest, hrest, hconn⟩ := h.matched hne
    refine ⟨rest ++ f.request.toList, ?_, fun hc => ?_⟩
    · show (c.callbacks ++ made).map Deferred.id = _
      rw [List.map_append, hmade, hrest, List.append_assoc]
    · obtain ⟨late, rfl, hlate⟩ := hconn hc
      have hnone : late = [] := by
        rcases hlate hstate with hnone | ⟨hshut, hqueue, hsync⟩
        · exact hnone
        · exact absurd (hsync.symm.trans (hwait hshut hqueue)) (by decide)
      rw [hnone, List.append_nil]
      exact ⟨[], by rw [List.append_nil, ids_append, ids_singleton], fun _ => .inl rfl⟩

/-- The first frame that waits is handed over, when nothing has to be answered before. -/
theorem Orderly.hand {f : Outgoing} {rest : List Outgoing}
    (h : Orderly { c with queue := f :: rest, synchronous := false } n) (hopen : c.state ≠ .closed)
    (hconn : c.connection = true) :
    Orderly { c with sent := c.sent ++ [f], queue := rest, synchronous := f.synchronous } n := by
  have hf : Tagged f := h.tagged f (List.mem_append_right _ List.mem_cons_self)
  have hall : c.sent ++ [f] ++ rest = c.taken := by
    rw [List.append_assoc]
    exact h.waiting hconn hopen
  refine ⟨?_, fun g hg => h.tagged g ?_, fun pre g post hsplit hg hpost => ?_, ⟨rest, hall⟩, fun _ _ => hall, fun _ => ?_,
    h.named⟩
  · have hle : n ≤ asked c.sent := h.counted
    show n ≤ asked (c.sent ++ [f])
    rw [asked_append]
    omega
  · simpa using hg
  · -- What was sent before has been answered, as the channel was not waiting; the new frame is the last.
    rcases List.eq_nil_or_concat post with rfl | ⟨post, x, rfl⟩
    · obtain ⟨rfl, hfg⟩ := List.append_inj' hsplit rfl
      obtain rfl : f = g := List.singleton_inj.mp hfg
      rcases hpost with hpost | ⟨hpost, -⟩
      · exact absurd rfl hpost
      · exact absurd (hg.symm.trans hpost) (by decide)
    · have happ : c.sent ++ [f] = pre ++ g :: post.concat x := hsplit
      have happ' : c.sent ++ [f] = (pre ++ g :: post) ++ [x] := by simpa using happ
      exact h.quiet pre g post (List.append_inj_left' happ' rfl) hg (.inr ⟨rfl, hopen⟩)
  · obtain ⟨ids', hids, hwait⟩ := h.matched hopen
    obtain ⟨late, rfl, hlate⟩ := hwait hconn
    refine ⟨ids rest ++ late, ?_, fun _ => ⟨late, rfl, fun hstate => ?_⟩⟩
    swap
    · rcases hlate hstate with hnone | ⟨-, hqueue, -⟩
      · exact .inl hnone
      · cases hqueue
    have hfirst : ids (f :: rest) = f.request.toList ++ ids rest := by
      rw [← List.singleton_append, ids_append, ids_singleton]
    rw [hids]
    show ids (awaiting c.sent n) ++ (ids (f :: rest) ++ late) = ids (awaiting (c.sent ++ [f]) n) ++ (ids rest ++ late)
    rw [awaiting_append h.counted, ids_append, ids_awaited hf, hfirst]
    simp only [List.append_assoc]

/-- Taking a frame, and making the deferred result for the request it carries. -/
theorem Orderly.send (h : Orderly c n) {f : Outgoing} (hf : Tagged f) (made : List Deferred)
    (hmade : made.map Deferred.id = f.request.toList) :
    Orderly { (c.send f).1 with callbacks := (c.send f).1.callbacks ++ made } n := by
  have hlate : ∀ rest, c.callbacks.map Deferred.id = ids (awaiting c.sent n) ++ rest →
      (c.callbacks ++ made).map Deferred.id = ids (awaiting c.sent n) ++ (rest ++ f.request.toList) := by
    intro rest hrest
    rw [List.map_append, hmade, hrest, List.append_assoc]
  rcases send_cases c f with ⟨hstate, hsend⟩ | ⟨hstate, hsend⟩ | ⟨hstate, hwait, hsend⟩ |
    ⟨hstate, hsync, hqueue, hconn, hshut, hsend⟩ | ⟨hstate, hsync, hqueue, hrefused, hsend⟩ <;> rw [hsend]
  · exact ⟨h.counted, h.tagged, h.quiet, h.taken, h.waiting, fun hne => absurd hstate hne, h.named⟩
  · refine ⟨h.counted, h.tagged, h.quiet, h.taken, h.waiting, fun hne => ?_, h.named⟩
    obtain ⟨rest, hrest, hconn⟩ := h.matched hne
    refine ⟨_, hlate rest hrest, fun hc => ?_⟩
    obtain ⟨late, rfl, -⟩ := hconn hc
    refine ⟨late ++ f.request.toList, List.append_assoc _ _ _, fun hopen => ?_⟩
    exact absurd (hstate.symm.trans hopen) (by decide)
  · exact h.enqueue hstate (fun _ => hwait) hf made hmade
  · have henqueued := h.enqueue hstate (fun h => absurd (hshut.symm.trans h) (by decide)) hf made hmade
    rw [hqueue, List.nil_append] at henqueued
    have hopen : c.state ≠ .closed := by rw [hstate]; decide
    have hhanded := Orderly.hand (c := { c with taken := c.taken ++ [f], callbacks := c.callbacks ++ made })
      (f := f) (by rw [← hsync]; exact henqueued) hopen hconn
    simpa only [hqueue] using hhanded
  · refine ⟨h.counted, h.tagged, h.quiet, h.taken, h.waiting, fun hne => ?_, h.named⟩
    obtain ⟨rest, hrest, hconn⟩ := h.matched hne
    refine ⟨_, hlate rest hrest, fun hc => ?_⟩
    obtain ⟨late, rfl, -⟩ := hconn hc
    exact ⟨late ++ f.request.toList, List.append_assoc _ _ _, fun _ => .inr ⟨hrefused hc, hqueue, hsync⟩⟩

theorem Orderly.request (h : Orderly c n) {f : Outgoing} {id : Nat} (hf : Tagged f) (hid : f.request = some id)
    (type : DeferredType) : Orderly (c.request f id type) n :=
  have hsend := h.send hf [⟨id, type, !(c.send f).2⟩] (by rw [hid]; rfl)
  ⟨hsend.counted, hsend.tagged, hsend.quiet, hsend.taken, hsend.waiting, hsend.matched, hsend.named⟩

/-- A deferred result made while the channel is closing or closed has no frame. -/
theorem Orderly.push (h : Orderly c n) (hstate : c.state ≠ .connected) (d : Deferred) : Orderly (c.push d) n := by
  refine ⟨h.counted, h.tagged, h.quiet, h.taken, h.waiting, fun hne => ?_, h.named⟩
  obtain ⟨rest, hrest, hconn⟩ := h.matched hne
  refine ⟨rest ++ [d.id], ?_, fun hc => ?_⟩
  · show (c.callbacks ++ [d]).map Deferred.id = ids (awaiting c.sent n) ++ (rest ++ [d.id])
    rw [List.map_append, hrest, List.append_assoc]
    rfl
  · obtain ⟨late, rfl, -⟩ := hconn hc
    exact ⟨late ++ [d.id], List.append_assoc _ _ _, fun hopen => absurd hopen hstate⟩

theorem Orderly.closing (h : Orderly c n) (hstate : c.state ≠ .closed) : Orderly { c with state := .closing } n := by
  refine ⟨h.counted, h.tagged, fun pre f post hsplit hf hpost => ?_, h.taken, fun hc _ => h.waiting hc hstate,
    fun _ => ?_, h.named⟩
  · exact h.quiet pre f post hsplit hf (hpost.imp id fun hs => ⟨hs.1, hstate⟩)
  · obtain ⟨rest, hrest, hconn⟩ := h.matched hstate
    refine ⟨rest, hrest, fun hc => ?_⟩
    obtain ⟨late, hlate, -⟩ := hconn hc
    exact ⟨late, hlate, fun hopen => nomatch hopen⟩

theorem Orderly.close (h : Orderly c n) (buffer : Bytes) (id : Nat) : Orderly (c.close buffer id) n := by
  have htag : Tagged ⟨.channelClose, buffer, some id⟩ := by simp [Tagged, Method.answered]
  unfold ChannelImpl.close
  split
  · rename_i hstate
    have hsent := h.request htag rfl .plain
    split
    · refine hsent.closing ?_
      have hsame : (c.request ⟨.channelClose, buffer, some id⟩ id .plain).state = c.state := by
        show (c.send _).1.state = c.state
        rcases send_cases c ⟨.channelClose, buffer, some id⟩ with h | h | h | h | h <;> simp [h]
      rw [hsame, hstate]
      decide
    · exact hsent
  · rename_i hstate
    exact h.push hstate _

/-- The connection is told to close. -/
theorem Orderly.shutdown (h : Orderly c n) : Orderly { c with shutdown := true } n := by
  refine ⟨h.counted, h.tagged, h.quiet, h.taken, h.waiting, fun hne => ?_, h.named⟩
  obtain ⟨rest, hrest, hconn⟩ := h.matched hne
  refine ⟨rest, hrest, fun hc => ?_⟩
  obtain ⟨late, hlate, hnone⟩ := hconn hc
  exact ⟨late, hlate, fun hstate => (hnone hstate).imp id fun hidle => ⟨rfl, hidle.2⟩⟩

/-- **A call keeps order.** -/
theorem Orderly.call (h : Orderly c n) (k : Call) : Orderly (c.call k) n := by
  cases k with
  | request r buffer id callback =>
      have htag : Tagged ⟨.request r, buffer, some id⟩ := by simp [Tagged, Method.answered]
      exact h.request htag rfl _
  | post p buffer =>
      have htag : Tagged ⟨.post p, buffer, none⟩ := by simp [Tagged, Method.answered]
      have hsend := h.send htag [] rfl
      rw [List.append_nil] at hsend
      exact hsend
  | close buffer id => exact h.close buffer id
  | closeConnection buffer id => exact h.shutdown.close buffer id

theorem Orderly.calls (h : Orderly c n) (calls : List Call) : Orderly (calls.foldl ChannelImpl.call c) n := by
  induction calls generalizing c with
  | nil => exact h
  | cons k calls ih => exact ih (h.call k)

/-! ## Answers

An answer is reported to the oldest deferred result, whose callbacks may call anything, and then the frames that
waited are sent. What the callbacks do is a list of calls, so what the calls keep (`Kept`) is kept in between: no
frame is answered, no result leaves the chain but the oldest, and the queue is drained only by `onSynchronized`, up to
the next synchronous frame. -/

/-- The waiting frames go out, up to a synchronous one. -/
theorem Orderly.drain (l : List Outgoing) : ∀ {c : ChannelImpl}, c.state ≠ .closed →
    Orderly { c with queue := l, synchronous := false } n → Orderly (c.drain l) n := by
  induction l with
  | nil => exact fun _ h => h
  | cons f rest ih =>
      intro c hopen h
      have hstep : Orderly { c.handOver f with queue := rest, synchronous := f.synchronous } n := by
        unfold ChannelImpl.handOver
        split
        · rename_i hconn
          exact Orderly.hand h hopen hconn
        · rename_i hconn
          refine ⟨h.counted, fun g hg => h.tagged g ?_, fun pre g post hsplit hg hpost => ?_, h.taken,
            fun hc => absurd hc hconn, fun hne => ?_, h.named⟩
          · rcases List.mem_append.mp hg with hg | hg
            · exact List.mem_append_left _ hg
            · exact List.mem_append_right _ (List.mem_cons_of_mem _ hg)
          · exact h.quiet pre g post hsplit hg (.inr ⟨rfl, hopen⟩)
          · obtain ⟨rest', hrest, -⟩ := h.matched hne
            exact ⟨rest', hrest, fun hc => absurd hc hconn⟩
      have hstate : (c.handOver f).state ≠ .closed := by
        unfold ChannelImpl.handOver
        split <;> exact hopen
      rw [ChannelImpl.drain]
      split
      · rename_i hsync
        rw [hsync] at hstep
        exact hstep
      · rename_i hsync
        rw [Bool.not_eq_true] at hsync
        rw [hsync] at hstep
        exact ih hstate hstep

/-- What a call leaves alone: it adds to what was sent, does not close the channel, and touches no message. -/
structure Kept (c c' : ChannelImpl) : Prop where
  sent    : c.sent <+: c'.sent
  opened  : c.state ≠ .closed → c'.state ≠ .closed
  closed  : c.state = .closed → c'.state = .closed ∧ c'.sent = c.sent ∧ c'.taken = c.taken
  message : c'.message = c.message
  log     : c'.log = c.log
  users   : c'.consumers = c.consumers
  pushed  : ∃ ds, c'.callbacks = c.callbacks ++ ds ∧ c'.made = c.made ++ ds.map Deferred.id

theorem Kept.refl (c : ChannelImpl) : Kept c c :=
  ⟨List.prefix_rfl, id, fun h => ⟨h, rfl, rfl⟩, rfl, rfl, rfl, [], by simp, by simp⟩

theorem Kept.trans {c₁ c₂ c₃ : ChannelImpl} (h : Kept c₁ c₂) (h' : Kept c₂ c₃) : Kept c₁ c₃ where
  sent := h.sent.trans h'.sent
  opened ho := h'.opened (h.opened ho)
  closed hc := by
    obtain ⟨hstate, hsent, htaken⟩ := h.closed hc
    obtain ⟨hstate', hsent', htaken'⟩ := h'.closed hstate
    exact ⟨hstate', hsent'.trans hsent, htaken'.trans htaken⟩
  message := h'.message.trans h.message
  log := h'.log.trans h.log
  users := h'.users.trans h.users
  pushed := by
    obtain ⟨ds, hcallbacks, hmade⟩ := h.pushed
    obtain ⟨ds', hcallbacks', hmade'⟩ := h'.pushed
    exact ⟨ds ++ ds', by rw [hcallbacks', hcallbacks, List.append_assoc],
      by rw [hmade', hmade, List.map_append, List.append_assoc]⟩

theorem kept_send (c : ChannelImpl) (f : Outgoing) : Kept c (c.send f).1 := by
  rcases send_cases c f with ⟨hstate, hsend⟩ | ⟨hstate, hsend⟩ | ⟨hstate, -, hsend⟩ | ⟨hstate, -, -, -, -, hsend⟩ |
    ⟨hstate, -, -, -, hsend⟩ <;> rw [hsend]
  · exact Kept.refl c
  · exact Kept.refl c
  · exact ⟨List.prefix_rfl, id, fun h => absurd (hstate.symm.trans h) (by decide), rfl, rfl, rfl, [], by simp,
      by simp⟩
  · exact ⟨List.prefix_append _ _, id, fun h => absurd (hstate.symm.trans h) (by decide), rfl, rfl, rfl, [], by simp,
      by simp⟩
  · exact Kept.refl c

theorem kept_push (c : ChannelImpl) (d : Deferred) : Kept c (c.push d) :=
  ⟨List.prefix_rfl, id, fun h => ⟨h, rfl, rfl⟩, rfl, rfl, rfl, [d], rfl, rfl⟩

theorem kept_request (c : ChannelImpl) (f : Outgoing) (id : Nat) (type : DeferredType) :
    Kept c (c.request f id type) := (kept_send c f).trans (kept_push _ _)

theorem kept_close (c : ChannelImpl) (buffer : Bytes) (id : Nat) : Kept c (c.close buffer id) := by
  have hrequest := kept_request c ⟨.channelClose, buffer, some id⟩ id .plain
  unfold ChannelImpl.close
  split
  · rename_i hstate
    split
    · exact ⟨hrequest.sent, fun _ h => (nomatch h), fun h => absurd (hstate.symm.trans h) (by decide),
        hrequest.message, hrequest.log, hrequest.users, hrequest.pushed⟩
    · exact hrequest
  · exact kept_push c _

theorem kept_shutdown (c : ChannelImpl) : Kept c { c with shutdown := true } :=
  ⟨List.prefix_rfl, id, fun h => ⟨h, rfl, rfl⟩, rfl, rfl, rfl, [], by simp, by simp⟩

theorem kept_call (c : ChannelImpl) (k : Call) : Kept c (c.call k) := by
  cases k with
  | request r buffer id callback => exact kept_request c _ id _
  | post p buffer => exact kept_send c _
  | close buffer id => exact kept_close c buffer id
  | closeConnection buffer id => exact (kept_shutdown c).trans (kept_close _ buffer id)

theorem kept_calls (calls : List Call) (c : ChannelImpl) : Kept c (calls.foldl ChannelImpl.call c) := by
  induction calls generalizing c with
  | nil => exact Kept.refl c
  | cons k calls ih => exact (kept_call c k).trans (ih (c.call k))

/-- What waits first still waits first when more has been sent. -/
theorem awaiting_of_prefix {sent sent' more : List Outgoing} {f : Outgoing} (h : awaiting sent n = f :: more)
    (hpre : sent <+: sent') : ∃ more', awaiting sent' n = f :: more' := by
  obtain ⟨post, rfl⟩ := hpre
  have hle : n ≤ (sent.filter fun f => f.method.answered).length := by
    have hlen := congrArg List.length h
    rw [awaiting, List.length_drop] at hlen
    simp only [List.length_cons] at hlen
    omega
  refine ⟨more ++ post.filter fun f => f.method.answered, ?_⟩
  rw [awaiting, List.filter_append, List.drop_append_of_le_length hle]
  show awaiting sent n ++ _ = _
  rw [h]
  rfl

/-- The frame that waits first has had its answer: the deferred result of its request is taken off, and the channel
    no longer waits if the frame was synchronous — then it was the last one sent. -/
theorem Orderly.answered (h : Orderly c n) (hopen : c.state ≠ .closed) {f : Outgoing} {more : List Outgoing}
    (hwait : awaiting c.sent n = f :: more) :
    Orderly { c with
      callbacks   := c.callbacks.drop f.request.toList.length
      synchronous := if f.synchronous then false else c.synchronous } (n + 1) := by
  obtain ⟨pre, post, hsent, hasked, hanswered, hmore⟩ := awaiting_eq_cons hwait
  have htotal : asked c.sent = n + 1 + asked post := by
    rw [hsent, ← List.singleton_append, asked_append, asked_append, hasked, asked_singleton hanswered]
    omega
  have hnext : awaiting c.sent (n + 1) = more := by
    rw [awaiting, ← List.drop_drop]
    show (awaiting c.sent n).drop 1 = more
    rw [hwait]
    rfl
  refine ⟨by show n + 1 ≤ asked c.sent; omega, h.tagged, fun pre' g post' hsplit hg hpost => ?_, h.taken, h.waiting,
    fun _ => ?_, h.named⟩
  · by_cases hlast : post' = []
    · subst hlast
      rcases hpost with hpost | ⟨hsync, -⟩
      · exact absurd rfl hpost
      · cases hf : f.synchronous with
        | false =>
            rw [hf] at hsync
            obtain ⟨hg', hle⟩ := h.quiet pre' g [] hsplit hg (.inr ⟨hsync, hopen⟩)
            exact ⟨hg', Nat.le_succ_of_le hle⟩
        | true =>
            -- The frame answered is synchronous and waited until now, so nothing was sent behind it.
            obtain rfl : post = [] := by
              by_contra hne
              have hle := (h.quiet pre f post hsent hf (.inl hne)).2
              rw [asked_append, asked_singleton hanswered] at hle
              omega
            obtain ⟨rfl, hfg⟩ := List.append_inj' (hsplit.symm.trans hsent) rfl
            obtain rfl : g = f := List.singleton_inj.mp hfg
            refine ⟨hanswered, ?_⟩
            rw [asked_append, asked_singleton hanswered]
            omega
    · obtain ⟨hg', hle⟩ := h.quiet pre' g post' hsplit hg (.inl hlast)
      exact ⟨hg', Nat.le_succ_of_le hle⟩
  · obtain ⟨rest, hrest, hconn⟩ := h.matched hopen
    refine ⟨rest, ?_, fun hc => ?_⟩
    swap
    · obtain ⟨late, hlate, hnone⟩ := hconn hc
      refine ⟨late, hlate, fun hstate => (hnone hstate).imp id ?_⟩
      rintro ⟨hshut, hqueue, hsync⟩
      exact ⟨hshut, hqueue, by simp [hsync]⟩
    rw [hwait, ← List.singleton_append, ids_append, ids_singleton, List.append_assoc] at hrest
    rw [hnext, List.map_drop, hrest, List.drop_left]

/-- A closed channel sends nothing more. -/
theorem Orderly.closed {c' : ChannelImpl} {n' : Nat} (h : Orderly c n) (hcount : n ≤ n') (hle : n' ≤ asked c.sent)
    (hstate : c'.state = .closed) (hqueue : c'.queue = c.queue ∨ c'.queue = []) (hsent : c'.sent = c.sent)
    (htaken : c'.taken = c.taken) (hmessage : c'.message = c.message) : Orderly c' n' where
  counted := hsent ▸ hle
  tagged f hf := by
    refine h.tagged f ?_
    rw [hsent] at hf
    rcases hqueue with hq | hq <;> rw [hq] at hf
    · exact hf
    · exact List.mem_append_left _ (by simpa using hf)
  quiet pre f post hsplit hf hpost := by
    rcases hpost with hpost | ⟨-, hpost⟩
    · obtain ⟨ha, hn⟩ := h.quiet pre f post (hsent ▸ hsplit) hf (.inl hpost)
      exact ⟨ha, hn.trans hcount⟩
    · exact absurd hstate hpost
  taken := by rw [hsent, htaken]; exact h.taken
  waiting _ hne := absurd hstate hne
  matched hne := absurd hstate hne
  named := by rw [hmessage]; exact h.named

theorem Orderly.logged (h : Orderly c n) (log : List Event) : Orderly { c with log } n :=
  ⟨h.counted, h.tagged, h.quiet, h.taken, h.waiting, h.matched, h.named⟩

theorem Orderly.reported (h : Orderly c n) (d : Deferred) (r : Reply) : Orderly (c.reported d r) n := by
  unfold ChannelImpl.reported
  split
  · split <;> exact ⟨h.counted, h.tagged, h.quiet, h.taken, h.waiting, h.matched, h.named⟩
  · exact h

theorem kept_reported (c : ChannelImpl) (d : Deferred) (r : Reply) : (c.reported d r).sent = c.sent ∧
    (c.reported d r).state = c.state ∧ (c.reported d r).synchronous = c.synchronous ∧
    (c.reported d r).taken = c.taken ∧ (c.reported d r).queue = c.queue ∧ (c.reported d r).message = c.message := by
  unfold ChannelImpl.reported
  split
  · split <;> exact ⟨rfl, rfl, rfl, rfl, rfl, rfl⟩
  · exact ⟨rfl, rfl, rfl, rfl, rfl, rfl⟩

theorem onSynchronized_of_sync (h : Orderly { c with synchronous := false } n) (hopen : c.state ≠ .closed) :
    Orderly c.onSynchronized n := h.drain c.queue hopen

/-- The oldest deferred result is that of the frame answered, and is told so. -/
theorem Orderly.oldest (h : Orderly c n) (hopen : c.state ≠ .closed) {f : Outgoing} {more : List Outgoing}
    (hwait : awaiting c.sent n = f :: more) {id : Nat} (hid : f.request = some id) :
    ∃ d rest, c.callbacks = d :: rest ∧ d.id = id := by
  obtain ⟨rest, hrest, -⟩ := h.matched hopen
  rw [hwait, ← List.singleton_append, ids_append, ids_singleton, hid] at hrest
  cases hcb : c.callbacks with
  | nil => rw [hcb] at hrest; cases hrest
  | cons d ds =>
      rw [hcb] at hrest
      exact ⟨d, ds, rfl, (List.cons.inj hrest).1⟩

/-- The report of a success, and the answer counted. -/
theorem Orderly.reportSuccess (h : Orderly c n) (hopen : c.state ≠ .closed) {f : Outgoing} {more : List Outgoing}
    (hwait : awaiting c.sent n = f :: more) {id : Nat} (hid : f.request = some id) (r : Reply) (calls : List Call) :
    (c.reportSuccess r calls).state ≠ .closed ∧ Orderly { c.reportSuccess r calls with
      synchronous := if f.synchronous then false else (c.reportSuccess r calls).synchronous } (n + 1) := by
  obtain ⟨d, rest, hcb, -⟩ := h.oldest hopen hwait hid
  unfold ChannelImpl.reportSuccess
  rw [hcb]
  set c₀ : ChannelImpl := { c.reported d r with log := (c.reported d r).log ++ [.success d.id r] } with hc₀
  have hkept := kept_calls calls c₀
  have hsame := kept_reported c d r
  have hopen' : (calls.foldl ChannelImpl.call c₀).state ≠ .closed := hkept.opened (by
    show (c.reported d r).state ≠ .closed
    rw [hsame.2.1]
    exact hopen)
  have hpre : c.sent <+: (calls.foldl ChannelImpl.call c₀).sent := by
    have hsent : c₀.sent = c.sent := hsame.1
    rw [← hsent]
    exact hkept.sent
  obtain ⟨more', hwait'⟩ := awaiting_of_prefix hwait hpre
  have horderly := (((h.reported d r).logged _).calls calls).answered hopen' hwait'
  refine ⟨hopen', ?_⟩
  rw [hid] at horderly
  show Orderly { calls.foldl ChannelImpl.call c₀ with
    callbacks := (calls.foldl ChannelImpl.call c₀).callbacks.tail
    synchronous := _ } (n + 1)
  rw [← List.drop_one]
  exact horderly

theorem asked_of_awaiting {sent more : List Outgoing} {f : Outgoing} (h : awaiting sent n = f :: more) :
    n + 1 ≤ asked sent := by
  have hlen := congrArg List.length h
  rw [awaiting, List.length_drop] at hlen
  simp only [List.length_cons] at hlen
  show n + 1 ≤ (sent.filter fun f => f.method.answered).length
  omega

/-- Calls on a closed channel, and errors reported, send nothing. -/
theorem reportClosed_kept (c : ChannelImpl) (calls : List Call) : (c.reportClosed calls).state = .closed ∧
    (c.reportClosed calls).queue = [] ∧ (c.reportClosed calls).sent = c.sent ∧
    (c.reportClosed calls).taken = c.taken ∧ (c.reportClosed calls).message = c.message := by
  have hsuccess : ∀ c₀ : ChannelImpl, c₀.state = .closed → (c₀.reportSuccess .ok calls).sent = c₀.sent ∧
      (c₀.reportSuccess .ok calls).taken = c₀.taken ∧ (c₀.reportSuccess .ok calls).message = c₀.message := by
    intro c₀ hstate
    unfold ChannelImpl.reportSuccess
    split
    · exact ⟨rfl, rfl, rfl⟩
    · rename_i d rest hcb
      have hkept := kept_calls calls { c₀.reported d .ok with log := (c₀.reported d .ok).log ++ [.success d.id .ok] }
      obtain ⟨-, hsent, htaken⟩ := hkept.closed hstate
      exact ⟨hsent, htaken, hkept.message⟩
  obtain ⟨hsent, htaken, hmessage⟩ := hsuccess { c with state := .closed, synchronous := false } rfl
  exact ⟨rfl, rfl, hsent, htaken, hmessage⟩

/-- **An answer keeps order.** -/
theorem Orderly.answer (h : Orderly c n) {f : Outgoing} {more : List Outgoing} (hwait : awaiting c.sent n = f :: more)
    (r : Reply) (calls : List Call) : Orderly (c.receive (answerTo f r calls)) (n + 1) := by
  have hcount : n + 1 ≤ asked c.sent := asked_of_awaiting hwait
  unfold ChannelImpl.receive
  split
  · rename_i hclosed
    exact h.closed (Nat.le_succ n) hcount hclosed (.inl rfl) rfl rfl rfl
  · rename_i hopen
    have hmem : f ∈ c.sent ++ c.queue := by
      obtain ⟨pre, post, hsent, -⟩ := awaiting_eq_cons hwait
      simp [hsent]
    have htag := h.tagged f hmem
    obtain ⟨-, -, -, -, hanswered, -⟩ := awaiting_eq_cons hwait
    obtain ⟨method, buffer, request⟩ := f
    cases method with
    | channelOpen =>
        -- `reportReady`: no deferred result was made for the open frame.
        obtain rfl : request = none := htag.mp (.inr rfl)
        show Orderly (c.reportReady calls) (n + 1)
        unfold ChannelImpl.reportReady
        set c₀ : ChannelImpl := { c with log := c.log ++ [.ready] } with hc₀
        have hkept := kept_calls calls c₀
        obtain ⟨more', hwait'⟩ := awaiting_of_prefix hwait hkept.sent
        exact onSynchronized_of_sync (((h.logged _).calls calls).answered (hkept.opened hopen) hwait') (hkept.opened hopen)
    | channelClose =>
        obtain ⟨hstate, hqueue, hsent, htaken, hmessage⟩ := reportClosed_kept c calls
        exact h.closed (Nat.le_succ n) hcount hstate (.inr hqueue) hsent htaken hmessage
    | post p => cases hanswered
    | request q =>
        obtain ⟨id, hid⟩ : ∃ id, request = some id := by
          cases hr : request with
          | some id => exact ⟨id, rfl⟩
          | none =>
              rcases htag.mpr hr with ha | ha
              · cases ha
              · cases ha
        by_cases hrecover : q = .basicRecover
        · subst hrecover
          exact (h.reportSuccess hopen hwait hid .ok calls).2
        · have hsync : Outgoing.synchronous ⟨.request q, buffer, request⟩ = true := by
            cases q <;> first | rfl | exact absurd rfl hrecover
          have hto : answerTo ⟨.request q, buffer, request⟩ r calls = .reply r calls := by
            cases q <;> first | rfl | exact absurd rfl hrecover
          obtain ⟨hopen', hreported⟩ := h.reportSuccess hopen hwait hid r calls
          rw [if_pos hsync] at hreported
          rw [hto]
          exact onSynchronized_of_sync hreported hopen'

/-- A message that was put together is reported, and the program may call. -/
theorem Orderly.reportMessage (h : Orderly c n) (calls : List Call) : Orderly (c.reportMessage calls) n := by
  unfold ChannelImpl.reportMessage
  cases hm : c.message with
  | none => exact h
  | some m =>
      have hnamed : m.frame.consumerTag.isEmpty = false := by
        have hne := h.named m hm
        cases htag : m.frame.consumerTag with
        | nil => exact absurd htag hne
        | cons b tag => rfl
      simp only [hnamed, Bool.false_eq_true, if_false]
      split
      · exact h
      · rename_i consumer _
        have hcalls := (h.logged (c.log ++ [.received consumer m])).calls calls
        exact ⟨hcalls.counted, hcalls.tagged, hcalls.quiet, hcalls.taken, hcalls.waiting, hcalls.matched,
          fun _ hnone => by cases hnone⟩

theorem Orderly.withMessage (h : Orderly c n) {m : ConsumedMessage} (hm : m.frame.consumerTag ≠ []) :
    Orderly { c with message := some m } n :=
  ⟨h.counted, h.tagged, h.quiet, h.taken, h.waiting, h.matched, fun _ hm' => Option.some.inj hm' ▸ hm⟩

theorem frame_append (m : ConsumedMessage) (buffer : Bytes) : (m.append buffer).1.frame = m.frame := by
  unfold ConsumedMessage.append
  split <;> rfl

/-- **What comes of its own accord keeps order.** -/
theorem Orderly.unsolicited (h : Orderly c n) {i : Incoming} (hi : i.Unsolicited) : Orderly (c.receive i) n := by
  unfold ChannelImpl.receive
  split
  · exact h
  · cases i with
    | openOk calls => exact hi.elim
    | reply r calls => exact hi.elim
    | recoverOk calls => exact hi.elim
    | closeOk calls => exact hi.elim
    | closeByServer text => exact h.closed le_rfl h.counted rfl (.inr rfl) rfl rfl rfl
    | connectionError message => exact h.closed le_rfl h.counted rfl (.inr rfl) rfl rfl rfl
    | connectionClosing =>
        refine ⟨h.counted, h.tagged, h.quiet, h.taken, fun hc => (nomatch hc), fun hne => ?_, h.named⟩
        obtain ⟨rest, hrest, -⟩ := h.matched hne
        exact ⟨rest, hrest, fun hc => nomatch hc⟩
    | deliver frame => exact h.withMessage hi
    | header bodySize metadata calls =>
        show Orderly (c.header bodySize metadata calls) n
        unfold ChannelImpl.header
        cases hm : c.message with
        | none => exact h
        | some m =>
            have hset := h.withMessage (m := { m with bodySize, metadata }) (h.named m hm)
            by_cases hzero : bodySize = 0
            · simp only [hzero, if_true] at hset ⊢
              exact hset.reportMessage calls
            · simp only [hzero, if_false]
              exact hset
    | body payload calls =>
        show Orderly (c.body payload calls) n
        unfold ChannelImpl.body
        cases hm : c.message with
        | none => exact h
        | some m =>
            have hset := h.withMessage (m := (m.append payload).1) (by rw [frame_append]; exact h.named m hm)
            show Orderly (if (m.append payload).2 then _ else _) n
            split
            · exact hset.reportMessage calls
            · exact hset

/-! ## Runs

A step of the session is a list of calls, an answer, or something unsolicited, and each of the three has its lemma. -/

theorem orderly_init : Orderly .init 0 where
  counted := Nat.zero_le _
  tagged f hf := by cases hf
  quiet pre f post hsplit := by
    have hlen := congrArg List.length hsplit
    simp [ChannelImpl.init] at hlen
  taken := List.prefix_rfl
  waiting _ _ := rfl
  matched _ := ⟨[], rfl, fun _ => ⟨[], rfl, fun _ => .inl rfl⟩⟩
  named _ hm := nomatch hm

theorem orderly_attach (buffer : Bytes) : Orderly (.attach buffer) 0 := by
  have htag : Tagged ⟨.channelOpen, buffer, none⟩ := ⟨fun _ => rfl, fun _ => .inr rfl⟩
  exact orderly_init.send htag [] rfl

/-- What a step of the session is. -/
theorem session_step_cases {s t : Session} {a : Label} (h : s.step a = some t) :
    (∃ k, a = .call k ∧ t = { s with channel := s.channel.call k }) ∨
    (∃ r calls f more, a = .answer r calls ∧ s.awaiting = f :: more ∧
      t = ⟨s.channel.receive (answerTo f r calls), s.answered + 1⟩) ∨
    (∃ i, a = .incoming i ∧ i.Unsolicited ∧ t = { s with channel := s.channel.receive i }) := by
  cases a with
  | call k => exact .inl ⟨k, rfl, (Option.some.inj h).symm⟩
  | answer r calls =>
      cases hw : s.awaiting with
      | nil => simp [Session.step, hw] at h
      | cons f more =>
          simp only [Session.step, hw, Option.some.injEq] at h
          exact .inr (.inl ⟨r, calls, f, more, rfl, rfl, h.symm⟩)
  | incoming i =>
      simp only [Session.step, Option.ite_none_right_eq_some, Option.some.injEq] at h
      exact .inr (.inr ⟨i, rfl, h.1, h.2.symm⟩)

/-- **Every step keeps order.** -/
theorem orderly_step {s t : Session} {a : Label} (h : Orderly s.channel s.answered) (hstep : s.step a = some t) :
    Orderly t.channel t.answered := by
  rcases session_step_cases hstep with ⟨k, rfl, rfl⟩ | ⟨r, calls, f, more, rfl, hwait, rfl⟩ | ⟨i, rfl, hi, rfl⟩
  · exact h.call k
  · exact h.answer hwait r calls
  · exact h.unsolicited hi

theorem orderly_run {buffer : Bytes} {tr : List Label} {s : Session}
    (h : Machine.exec Session.step tr (.start buffer) = some s) : Orderly s.channel s.answered :=
  Machine.exec_invariant (I := fun s => Orderly s.channel s.answered) (fun _ _ _ => orderly_step) (orderly_attach buffer) h

/-- **Frames leave in order, and none behind an open question.** In every run: what was sent is a front part of what
    the channel took, in the order of the calls, and while it is open with its connection the rest is what waits; and
    a synchronous frame with anything sent behind it is one the server answers, and has answered. -/
theorem sent_in_order (buffer : Bytes) (tr : List Label) (s : Session)
    (h : Machine.exec Session.step tr (.start buffer) = some s) :
    s.channel.sent <+: s.channel.taken ∧
      (s.channel.connection = true → s.channel.state ≠ .closed → s.channel.sent ++ s.channel.queue = s.channel.taken) ∧
      ∀ pre f post, s.channel.sent = pre ++ f :: post → f.synchronous = true → post ≠ [] →
        f.method.answered = true ∧ asked (pre ++ [f]) ≤ s.answered := by
  have horderly := orderly_run h
  exact ⟨horderly.taken, horderly.waiting, fun pre f post hsplit hf hpost => horderly.quiet pre f post hsplit hf (.inl hpost)⟩

/-- `setQos(1)`, the answer to the open frame, and the answer to the qos frame. -/
def opening : List Label := [.call (.request .basicQos [1] 0 false), .answer .ok [], .answer .ok []]

/-- Where they lead. -/
def opened : Session := ⟨{ ChannelImpl.init with
  sent  := [⟨.channelOpen, [0], none⟩, ⟨.request .basicQos, [1], some 0⟩]
  taken := [⟨.channelOpen, [0], none⟩, ⟨.request .basicQos, [1], some 0⟩]
  made  := [0]
  log   := [.ready, .success 0 .ok] }, 2⟩

theorem sent_in_order_one :
    opened.channel.sent <+: opened.channel.taken ∧
      (opened.channel.connection = true → opened.channel.state ≠ .closed →
        opened.channel.sent ++ opened.channel.queue = opened.channel.taken) ∧
      ∀ pre f post, opened.channel.sent = pre ++ f :: post → f.synchronous = true → post ≠ [] →
        f.method.answered = true ∧ asked (pre ++ [f]) ≤ opened.answered :=
  sent_in_order [0] opening opened rfl

/-! ## What the program is told

A deferred result is made with a number of its own, and is in the chain until it is told its outcome. So at any time
the outcomes told, in the order they were told, and the results still in the chain are those made, in the order they
were made: nothing is told twice, left out or out of order. The log holds other news too, which has no outcome. -/

/-- The deferred result whose outcome an event is. -/
def Event.outcome : Event → Option Nat
  | .success id _ => some id
  | .error id _   => some id
  | _             => none

def outcomes (log : List Event) : List Nat := log.filterMap Event.outcome

theorem outcomes_append (l₁ l₂ : List Event) : outcomes (l₁ ++ l₂) = outcomes l₁ ++ outcomes l₂ := List.filterMap_append

/-- The deferred results that were made: those that were told their outcome, and those that are still in the chain. -/
def Told (c : ChannelImpl) : Prop := outcomes c.log ++ c.callbacks.map Deferred.id = c.made

theorem Told.calls (h : Told c) (calls : List Call) : Told (calls.foldl ChannelImpl.call c) := by
  have hkept := kept_calls calls c
  obtain ⟨ds, hcallbacks, hmade⟩ := hkept.pushed
  rw [Told, hkept.log, hcallbacks, hmade, List.map_append, ← List.append_assoc, h]

theorem Told.logged (h : Told c) {e : Event} (he : e.outcome = none) : Told { c with log := c.log ++ [e] } := by
  show outcomes (c.log ++ [e]) ++ c.callbacks.map Deferred.id = c.made
  rw [outcomes_append, show outcomes [e] = [] by simp [outcomes, he], List.append_nil]
  exact h

/-- The waiting frames go out; nothing else changes. -/
theorem drain_same (l : List Outgoing) : ∀ c : ChannelImpl, (c.drain l).log = c.log ∧ (c.drain l).callbacks = c.callbacks ∧
    (c.drain l).made = c.made ∧ (c.drain l).message = c.message ∧ (c.drain l).consumers = c.consumers ∧
    (c.drain l).state = c.state ∧ c.sent <+: (c.drain l).sent := by
  induction l with
  | nil => exact fun c => ⟨rfl, rfl, rfl, rfl, rfl, rfl, List.prefix_rfl⟩
  | cons f rest ih =>
      intro c
      have hhand : (c.handOver f).log = c.log ∧ (c.handOver f).callbacks = c.callbacks ∧ (c.handOver f).made = c.made ∧
          (c.handOver f).message = c.message ∧ (c.handOver f).consumers = c.consumers ∧
          (c.handOver f).state = c.state ∧ c.sent <+: (c.handOver f).sent := by
        unfold ChannelImpl.handOver
        split
        · exact ⟨rfl, rfl, rfl, rfl, rfl, rfl, List.prefix_append _ _⟩
        · exact ⟨rfl, rfl, rfl, rfl, rfl, rfl, List.prefix_rfl⟩
      rw [ChannelImpl.drain]
      split
      · exact hhand
      · obtain ⟨h1, h2, h3, h4, h5, h6, h7⟩ := ih (c.handOver f)
        obtain ⟨g1, g2, g3, g4, g5, g6, g7⟩ := hhand
        exact ⟨h1.trans g1, h2.trans g2, h3.trans g3, h4.trans g4, h5.trans g5, h6.trans g6, g7.trans h7⟩

theorem Told.onSynchronized (h : Told c) : Told c.onSynchronized := by
  obtain ⟨hlog, hcallbacks, hmade, -⟩ := drain_same c.queue c
  show outcomes (c.drain c.queue).log ++ (c.drain c.queue).callbacks.map Deferred.id = (c.drain c.queue).made
  rw [hlog, hcallbacks, hmade]
  exact h

theorem reported_same (c : ChannelImpl) (d : Deferred) (r : Reply) : (c.reported d r).log = c.log ∧
    (c.reported d r).callbacks = c.callbacks ∧ (c.reported d r).made = c.made := by
  unfold ChannelImpl.reported
  split
  · split <;> exact ⟨rfl, rfl, rfl⟩
  · exact ⟨rfl, rfl, rfl⟩

/-- A success is told to the oldest deferred result, and the calls it makes add to the chain. -/
theorem reportSuccess_eq {d : Deferred} {rest : List Deferred} (hcb : c.callbacks = d :: rest) (r : Reply)
    (calls : List Call) : ∃ ds, (c.reportSuccess r calls).log = c.log ++ [.success d.id r] ∧
      (c.reportSuccess r calls).callbacks = rest ++ ds ∧
      (c.reportSuccess r calls).made = c.made ++ ds.map Deferred.id := by
  obtain ⟨hlog, hcallbacks, hmade⟩ := reported_same c d r
  have hkept := kept_calls calls { c.reported d r with log := (c.reported d r).log ++ [.success d.id r] }
  obtain ⟨ds, hds, hmade'⟩ := hkept.pushed
  unfold ChannelImpl.reportSuccess
  rw [hcb]
  refine ⟨ds, ?_, ?_, ?_⟩
  · rw [hkept.log, hlog]
  · show (calls.foldl ChannelImpl.call _).callbacks.tail = rest ++ ds
    rw [hds, hcallbacks, hcb]
    rfl
  · rw [hmade', hmade]

theorem Told.reportSuccess (h : Told c) (r : Reply) (calls : List Call) : Told (c.reportSuccess r calls) := by
  cases hcb : c.callbacks with
  | nil =>
      unfold ChannelImpl.reportSuccess
      rw [hcb]
      exact h
  | cons d rest =>
      obtain ⟨ds, hlog, hcallbacks, hmade⟩ := reportSuccess_eq hcb r calls
      have htold : outcomes c.log ++ (d :: rest).map Deferred.id = c.made := hcb ▸ h
      rw [Told, hlog, hcallbacks, hmade, ← htold, outcomes_append]
      simp [outcomes, Event.outcome]

theorem outcomes_errors (message : Bytes) (callbacks : List Deferred) :
    outcomes (errors message callbacks) = callbacks.map Deferred.id := by
  cases callbacks with
  | nil => rfl
  | cons d rest => simp [errors, outcomes, Event.outcome, List.filterMap_map, Function.comp_def]

/-- Every deferred result in the chain is told an error. -/
theorem Told.reportError (h : Told c) (message : Bytes) (notifyhandler : Bool) :
    Told (c.reportError message notifyhandler) := by
  have hnone : outcomes (if notifyhandler then [.channelError message] else []) = [] := by
    cases notifyhandler <;> rfl
  show outcomes (c.log ++ _ ++ _) ++ [] = c.made
  rw [outcomes_append, outcomes_append, hnone, outcomes_errors, List.append_nil, List.append_nil]
  exact h

/-- The close is told to be a success first. -/
theorem log_reportClosed {d : Deferred} {rest : List Deferred} (hcb : c.callbacks = d :: rest) (calls : List Call) :
    ∃ told, (c.reportClosed calls).log = c.log ++ .success d.id .ok :: told := by
  let closed : ChannelImpl := { c with state := .closed, synchronous := false }
  obtain ⟨ds, hlog, -⟩ := reportSuccess_eq (c := closed) hcb .ok calls
  have hdrain := (drain_same [] ((closed.reportSuccess .ok calls).reportError (bytes "Channel has been closed") false)).1
  refine ⟨errors (bytes "Channel has been closed") (closed.reportSuccess .ok calls).callbacks, hdrain.trans ?_⟩
  show (closed.reportSuccess .ok calls).log ++ errors _ _ ++ [] = _
  rw [hlog, List.append_nil, List.append_assoc]
  rfl

theorem Told.reportMessage (h : Told c) (calls : List Call) : Told (c.reportMessage calls) := by
  unfold ChannelImpl.reportMessage
  cases hm : c.message with
  | none => exact h
  | some m =>
      have hsync : Told (if m.frame.consumerTag.isEmpty then c.onSynchronized else c) := by
        split
        · exact h.onSynchronized
        · exact h
      simp only
      generalize (if m.frame.consumerTag.isEmpty then c.onSynchronized else c) = c₁ at hsync ⊢
      split
      · exact hsync
      · rename_i consumer _
        exact (hsync.logged (e := .received consumer m) rfl).calls calls

theorem Told.receive (h : Told c) (i : Incoming) : Told (c.receive i) := by
  unfold ChannelImpl.receive
  split
  · exact h
  · cases i with
    | openOk calls => exact ((h.logged (e := .ready) rfl).calls calls).onSynchronized
    | reply r calls => exact (h.reportSuccess r calls).onSynchronized
    | recoverOk calls => exact h.reportSuccess .ok calls
    | closeOk calls =>
        have hclosed : Told { c with state := .closed, synchronous := false } := h
        exact ((hclosed.reportSuccess .ok calls).reportError (bytes "Channel has been closed") false).onSynchronized
    | closeByServer text => exact h.reportError (cstr text) true
    | connectionError message => exact h.reportError message false
    | connectionClosing => exact h
    | deliver frame => exact h
    | header bodySize metadata calls =>
        show Told (c.header bodySize metadata calls)
        unfold ChannelImpl.header
        cases hm : c.message with
        | none => exact h
        | some m =>
            have hset : Told { c with message := some { m with bodySize, metadata } } := h
            show Told (if bodySize = 0 then _ else _)
            split
            · exact hset.reportMessage calls
            · exact hset
    | body payload calls =>
        show Told (c.body payload calls)
        unfold ChannelImpl.body
        cases hm : c.message with
        | none => exact h
        | some m =>
            have hset : Told { c with message := some (m.append payload).1 } := h
            show Told (if (m.append payload).2 then _ else _)
            split
            · exact hset.reportMessage calls
            · exact hset

theorem told_step {s t : Session} {a : Label} (h : Told s.channel) (hstep : s.step a = some t) : Told t.channel := by
  rcases session_step_cases hstep with ⟨k, rfl, rfl⟩ | ⟨r, calls, f, more, rfl, -, rfl⟩ | ⟨i, rfl, -, rfl⟩
  · exact h.calls [k]
  · exact h.receive _
  · exact h.receive i

theorem told_attach (buffer : Bytes) : Told (.attach buffer) := rfl

theorem told_run {buffer : Bytes} {tr : List Label} {s : Session}
    (h : Machine.exec Session.step tr (.start buffer) = some s) : Told s.channel :=
  Machine.exec_invariant (I := fun s => Told s.channel) (fun _ _ _ => told_step) (told_attach buffer) h

/-- **Every answer reaches the deferred result it belongs to.** In every run the deferred results are told their
    outcome in the order in which they were made, each once; and when the server answers a frame with a request, the
    success is told to the deferred result made for that frame — with nothing else, unless the channel was closed by
    it. -/
theorem answers_reported (buffer : Bytes) (tr : List Label) (s : Session)
    (h : Machine.exec Session.step tr (.start buffer) = some s) :
    outcomes s.channel.log ++ s.channel.callbacks.map Deferred.id = s.channel.made ∧
      ∀ r calls t f more id, s.step (.answer r calls) = some t → s.awaiting = f :: more →
        s.channel.state ≠ .closed → f.request = some id →
        ∃ r' told, t.channel.log = s.channel.log ++ .success id r' :: told ∧ (f.method ≠ .channelClose → told = []) := by
  refine ⟨told_run h, fun r calls t f more id hstep hwait hopen hid => ?_⟩
  have horderly := orderly_run h
  obtain ⟨d, rest, hcb, rfl⟩ := horderly.oldest hopen hwait hid
  simp only [Session.step, hwait, Option.some.injEq] at hstep
  subst hstep
  show ∃ r' told, (s.channel.receive (answerTo f r calls)).log = _ ∧ _
  unfold ChannelImpl.receive
  rw [if_neg hopen]
  have hsuccess : ∀ r', (s.channel.reportSuccess r' calls).log = s.channel.log ++ [.success d.id r'] := by
    intro r'
    obtain ⟨ds, hlog, -⟩ := reportSuccess_eq hcb r' calls
    exact hlog
  obtain ⟨pre, post, hsent, -, hanswered, -⟩ := awaiting_eq_cons hwait
  have htag := horderly.tagged f (List.mem_append_left _ (by rw [hsent]; simp))
  obtain ⟨method, buffer', request⟩ := f
  cases method with
  | channelOpen =>
      have hnone : request = none := htag.mp (.inr rfl)
      exact absurd (hid.symm.trans hnone) (by simp)
  | channelClose =>
      obtain ⟨told, hlog⟩ := log_reportClosed hcb calls
      exact ⟨.ok, told, hlog, fun hne => absurd rfl hne⟩
  | post p => cases hanswered
  | request q =>
      by_cases hrecover : q = .basicRecover
      · subst hrecover
        exact ⟨.ok, [], hsuccess .ok, fun _ => rfl⟩
      · have hto : answerTo ⟨.request q, buffer', request⟩ r calls = .reply r calls := by
          cases q <;> first | rfl | exact absurd rfl hrecover
        refine ⟨r, [], ?_, fun _ => rfl⟩
        rw [hto]
        exact (drain_same _ _).1.trans (hsuccess r)

/-- The channel opened, and the qos frame sent. -/
def asking : Session := ⟨{ ChannelImpl.init with
  synchronous := true
  callbacks   := [⟨0, .plain, false⟩]
  sent        := opened.channel.sent
  taken       := opened.channel.taken
  made        := [0]
  log         := [.ready] }, 1⟩

theorem answers_reported_one :
    outcomes asking.channel.log ++ asking.channel.callbacks.map Deferred.id = asking.channel.made ∧
      ∀ r calls t f more id, asking.step (.answer r calls) = some t → asking.awaiting = f :: more →
        asking.channel.state ≠ .closed → f.request = some id →
        ∃ r' told, t.channel.log = asking.channel.log ++ .success id r' :: told ∧
          (f.method ≠ .channelClose → told = []) :=
  answers_reported [0] (opening.take 2) asking rfl

/-! ## A frame that is never answered

`BasicNackFrame` is synchronous for the channel and has no answer for the server. Once it has been sent, the queue can
only be drained by an answer that was outstanding before, and there is none: nothing is sent any more. -/

theorem sent_reportSuccess (c : ChannelImpl) (r : Reply) (calls : List Call) :
    c.sent <+: (c.reportSuccess r calls).sent := by
  unfold ChannelImpl.reportSuccess
  split
  · exact List.prefix_rfl
  · rename_i d rest hcb
    have hkept := (kept_calls calls { c.reported d r with log := (c.reported d r).log ++ [.success d.id r] }).sent
    rwa [show ({ c.reported d r with log := (c.reported d r).log ++ [.success d.id r] } : ChannelImpl).sent = c.sent
      from (kept_reported c d r).1] at hkept

theorem sent_onSynchronized (c : ChannelImpl) : c.sent <+: c.onSynchronized.sent :=
  (drain_same c.queue c).2.2.2.2.2.2

theorem sent_reportMessage (c : ChannelImpl) (calls : List Call) : c.sent <+: (c.reportMessage calls).sent := by
  unfold ChannelImpl.reportMessage
  cases hm : c.message with
  | none => exact List.prefix_rfl
  | some m =>
      have hsync : c.sent <+: (if m.frame.consumerTag.isEmpty then c.onSynchronized else c).sent := by
        split
        · exact sent_onSynchronized c
        · exact List.prefix_rfl
      simp only
      generalize (if m.frame.consumerTag.isEmpty then c.onSynchronized else c) = c₁ at hsync ⊢
      split
      · exact hsync
      · rename_i consumer _
        exact hsync.trans (kept_calls calls { c₁ with log := c₁.log ++ [.received consumer m] }).sent

/-- What was sent stays sent. -/
theorem sent_receive (c : ChannelImpl) (i : Incoming) : c.sent <+: (c.receive i).sent := by
  unfold ChannelImpl.receive
  split
  · exact List.prefix_rfl
  · cases i with
    | openOk calls => exact (kept_calls calls { c with log := c.log ++ [.ready] }).sent.trans (sent_onSynchronized _)
    | reply r calls => exact (sent_reportSuccess c r calls).trans (sent_onSynchronized _)
    | recoverOk calls => exact sent_reportSuccess c .ok calls
    | closeOk calls => exact (reportClosed_kept c calls).2.2.1 ▸ List.prefix_rfl
    | closeByServer text => exact List.prefix_rfl
    | connectionError message => exact List.prefix_rfl
    | connectionClosing => exact List.prefix_rfl
    | deliver frame => exact List.prefix_rfl
    | header bodySize metadata calls =>
        show c.sent <+: (c.header bodySize metadata calls).sent
        unfold ChannelImpl.header
        cases hm : c.message with
        | none => exact List.prefix_rfl
        | some m =>
            show c.sent <+: (if bodySize = 0 then _ else _ : ChannelImpl).sent
            split
            · exact sent_reportMessage { c with message := some { m with bodySize, metadata } } calls
            · exact List.prefix_rfl
    | body payload calls =>
        show c.sent <+: (c.body payload calls).sent
        unfold ChannelImpl.body
        cases hm : c.message with
        | none => exact List.prefix_rfl
        | some m =>
            show c.sent <+: (if (m.append payload).2 then _ else _ : ChannelImpl).sent
            split
            · exact sent_reportMessage { c with message := some (m.append payload).1 } calls
            · exact List.prefix_rfl

theorem sent_run {s t : Session} {tr : List Label} (h : Machine.exec Session.step tr s = some t) :
    s.channel.sent <+: t.channel.sent := by
  refine Machine.exec_invariant (I := fun t => s.channel.sent <+: t.channel.sent) (fun t a u ih hstep => ?_)
    List.prefix_rfl h
  rcases session_step_cases hstep with ⟨k, rfl, rfl⟩ | ⟨r, calls, f, more, rfl, -, rfl⟩ | ⟨i, rfl, -, rfl⟩
  · exact ih.trans (kept_call _ k).sent
  · exact ih.trans (sent_receive _ _)
  · exact ih.trans (sent_receive _ i)

/-- **Rejecting several messages at once silences the channel.** `reject` with the `multiple` flag sends a nack, which
    counts as synchronous and is never answered: from then on, in every run, the channel sends nothing, while it goes
    on taking frames. -/
theorem silent_after_nack (buffer : Bytes) (tr : List Label) (s : Session)
    (h : Machine.exec Session.step tr (.start buffer) = some s) (f : Outgoing) (hf : f ∈ s.channel.sent)
    (hnack : f.method = .post .basicNack) (tr' : List Label) (t : Session)
    (h' : Machine.exec Session.step tr' s = some t) :
    t.channel.sent = s.channel.sent ∧
      (t.channel.connection = true → t.channel.state ≠ .closed → s.channel.sent ++ t.channel.queue = t.channel.taken) := by
  have hrun : Machine.exec Session.step (tr ++ tr') (.start buffer) = some t := by
    rw [Machine.exec_append, h]
    exact h'
  have horderly := orderly_run hrun
  have hsync : f.synchronous = true := by rw [Outgoing.synchronous, hnack]; rfl
  obtain ⟨more, hmore⟩ := sent_run h'
  obtain ⟨pre, post, hsplit⟩ := List.append_of_mem hf
  -- Anything behind the nack would say that the server answers it.
  have hlast : post ++ more = [] := by
    by_contra hne
    have hsent : t.channel.sent = pre ++ f :: (post ++ more) := by rw [← hmore, hsplit]; simp
    have hanswered := (horderly.quiet pre f (post ++ more) hsent hsync (.inl hne)).1
    rw [hnack] at hanswered
    cases hanswered
  have hnone : more = [] := (List.append_eq_nil_iff.mp hlast).2
  have hsame : t.channel.sent = s.channel.sent := by rw [← hmore, hnone, List.append_nil]
  exact ⟨hsame, fun hconn hopen => hsame ▸ horderly.waiting hconn hopen⟩

/-- A nack of all deliveries up to the seventh, then a publish. -/
def rejected : Session := ⟨{ opened.channel with
  synchronous := true
  sent        := opened.channel.sent ++ [⟨.post .basicNack, [7], none⟩]
  taken       := opened.channel.taken ++ [⟨.post .basicNack, [7], none⟩] }, 2⟩

def publishing : Session := ⟨{ rejected.channel with
  queue := [⟨.post .basicPublish, [8], none⟩]
  taken := rejected.channel.taken ++ [⟨.post .basicPublish, [8], none⟩] }, 2⟩

theorem silent_after_nack_one :
    publishing.channel.sent = rejected.channel.sent ∧
      (publishing.channel.connection = true → publishing.channel.state ≠ .closed →
        rejected.channel.sent ++ publishing.channel.queue = publishing.channel.taken) :=
  silent_after_nack [0] (opening ++ [.call (.post .basicNack [7])]) rejected rfl ⟨.post .basicNack, [7], none⟩ (by decide) rfl
    [.call (.post .basicPublish [8])] publishing rfl

end NewOrbit.Amqp
