import NewOrbit.Streamer.Sum
import NewOrbit.Websocket.Answers

/-!
# `Streamer.Answers` — the WebSocket server and a client

The server is a side of two connections whose handler sends what `onMessage` replies, and that calls nothing else. So
a client is handed the replies to its messages, in the order it sent them (`answers_in_order`), and all of them once
nothing is under way (`answers_complete`); as long as each of its messages is answered, that is.
-/

namespace NewOrbit.Streamer
open CString Utf8 Websocket

/-! ## The replies can be sent

A reply is a sum in decimal digits or a fixed text, so it is ASCII, and `send` takes any text that is well formed. -/

theorem length_to_string {n : Int} (h : InInt n) : (to_string n).length ≤ 12 := by
  have hlt : n.natAbs < 10 ^ 11 := by
    obtain ⟨hlow, hhigh⟩ := h
    omega
  have hdigits := (Nat.length_toDigits_le_iff (n := n.natAbs) (k := 11) (b := 10) (by decide) (by decide)).mpr hlt
  rw [to_string, List.length_map, ld]
  split
  · rw [List.length_cons, List.length_leftpad]
    omega
  · rw [List.length_leftpad]
    omega

/-- A text of octets below 128 is well formed. -/
theorem wellFormed_ascii {bs : Bytes} (h : ∀ b ∈ bs, b.toNat < 0x80) : WellFormed bs := by
  induction bs with
  | nil => exact ⟨[], rfl⟩
  | cons b bs ih =>
      obtain ⟨c, hc⟩ := encode_one (h b (List.mem_cons_self ..))
      obtain ⟨cs, hcs⟩ := ih fun b' hb' => h b' (List.mem_cons_of_mem _ hb')
      exact ⟨c :: cs, by rw [List.flatMap_cons, hc, ← hcs, List.singleton_append]⟩

theorem ascii_to_string {n : Int} {b : UInt8} (hb : b ∈ to_string n) : b.toNat < 0x80 := by
  obtain rfl | hdigit := mem_to_string hb
  · decide
  · rw [isdigit, Bool.and_eq_true, decide_eq_true_eq, decide_eq_true_eq, UInt8.le_iff_toNat_le,
      UInt8.le_iff_toNat_le] at hdigit
    exact Nat.lt_of_le_of_lt hdigit.2 (by decide)

/-- Every reply is short and well formed. -/
theorem reply_sendable {message reply : Bytes} (h : reply ∈ (onMessage message).sent) :
    reply.length < 2 ^ 64 ∧ WellFormed reply := by
  have hfirst : (bytes "Input for number 1 is invalid").length < 2 ^ 64 ∧
      ∀ b ∈ bytes "Input for number 1 is invalid", b.toNat < 0x80 := by decide +kernel
  have hsecond : (bytes "Input for number 2 is invalid").length < 2 ^ 64 ∧
      ∀ b ∈ bytes "Input for number 2 is invalid", b.toNat < 0x80 := by decide +kernel
  have htext : (bytes "The sum is ").length = 11 ∧ ∀ b ∈ bytes "The sum is ", b.toNat < 0x80 := by decide +kernel
  rw [onMessage] at h
  split at h
  · rw [List.mem_singleton] at h
    exact h ▸ ⟨hfirst.1, wellFormed_ascii hfirst.2⟩
  · cases h
  · split at h
    · rw [List.mem_singleton] at h
      exact h ▸ ⟨hsecond.1, wellFormed_ascii hsecond.2⟩
    · cases h
    · split at h
      · rename_i sum hsum
        rw [List.mem_singleton] at h
        subst h
        obtain ⟨hin, rfl⟩ := int_eq_some.mp hsum
        have hlen := length_to_string hin
        refine ⟨?_, wellFormed_ascii fun b hb => ?_⟩
        · rw [sumReply, List.length_append, htext.1]
          omega
        · obtain hb | hb := List.mem_append.mp hb
          · exact htext.2 b hb
          · exact ascii_to_string hb
      · cases h

/-! ## The handler

The server sends nothing but replies, and it sends them while a message is handed to it. So what it has sent is what
the replies to its messages are, in every state (`keeps_handlers`). -/

/-- `sendMessage`, of each reply. -/
def sendAll {σ : Type} (s : σ) : (replies : List Bytes) → (∀ reply ∈ replies, reply.length < 2 ^ 64) → Script σ
  | [],               _    => .done s
  | reply :: replies, fits =>
    .call (.send reply .text (fits reply (List.mem_cons_self ..))) fun _ =>
      sendAll s replies fun r hr => fits r (List.mem_cons_of_mem _ hr)

/-- The handlers of `WebsocketServer`; pings are answered. -/
def handlers (σ : Type) : App σ where
  onMessage s msg := sendAll s (onMessage msg.payload).sent fun _ h => (reply_sendable h).1
  onPing s _      := .done (s, true)
  onPong s _      := .done s

/-- The replies to a message, as they are sent. -/
def replies (m : Opcode × Bytes) : List (Opcode × Bytes) := (onMessage m.2).sent.map (Prod.mk .text)

/-- A text that is well formed is sent as long as the connection is open. -/
theorem send_opened {c : Connection} {payload : Bytes} (hopen : c.state = .opened) (hpayload : WellFormed payload) :
    (c.send payload .text).1.sent = c.sent ++ [(.text, payload)] ∧ (c.send payload .text).1.state = .opened := by
  have hvalid : validate payload = true := (validate_read _).mpr ((wellFormed_iff _).mp hpayload)
  rw [Connection.send, if_neg (not_not.mpr hopen)]
  have hprep : ∃ msg, c.processor.prepareDataFrame c.key { Message.new .text with payload } (.new .text) = .ok msg := by
    have hctl : ¬Opcode.text.isControl = true := by decide
    have htext : ¬(decide (Opcode.text = .text) && !validate payload) = true := by rw [hvalid]; decide
    rw [Hybi13.prepareDataFrame]
    exact ⟨_, (if_neg hctl).trans (if_neg htext)⟩
  obtain ⟨msg, hmsg⟩ := hprep
  rw [hmsg]
  dsimp only
  rw [Connection.enqueue_eq, Connection.draw]
  split
  · exact ⟨rfl, hopen⟩
  · exact ⟨rfl, hopen⟩

/-- **All replies are sent**, in their order. -/
theorem sent_sendAll {σ : Type} {s : σ} {c : Connection} (hopen : c.state = .opened) (replies : List Bytes)
    (fits : ∀ reply ∈ replies, reply.length < 2 ^ 64) (hwell : ∀ reply ∈ replies, WellFormed reply) :
    (c.run (sendAll s replies fits)).1.sent = c.sent ++ replies.map (Prod.mk .text) := by
  induction replies generalizing c with
  | nil => exact (List.append_nil _).symm
  | cons reply replies ih =>
      obtain ⟨hsent, hopen'⟩ := send_opened hopen (hwell reply (List.mem_cons_self ..))
      rw [sendAll, Connection.run, Connection.call]
      rw [ih hopen' _ fun r hr => hwell r (List.mem_cons_of_mem _ hr), hsent, List.append_assoc]
      rfl

/-- What the server has sent are the replies to what it was handed. -/
def Answers (handed : List Message) (sent : List (Opcode × Bytes)) : Prop :=
  sent = (handed.map Network.given).flatMap replies

theorem keeps_handlers (σ : Type) : (handlers σ).Keeps Answers where
  message c s msg hopen h := by
    have hrun := sent_sendAll (c := { c with handed := c.handed ++ [msg] }) (s := s) hopen (onMessage msg.payload).sent
      (fun _ h => (reply_sendable h).1) fun _ h => (reply_sendable h).2
    rw [Answers] at h ⊢
    rw [handlers, hrun, List.map_append, List.flatMap_append, ← h]
    exact congrArg _ (List.append_nil _).symm
  ping s _ := ⟨_, rfl⟩
  pong s _ := ⟨_, rfl⟩

/-! ## The client

Two results about the network meet here: the server is handed the first of the client's messages, and the client the
first of the replies. -/

/-- The client is handed the reply to its message. -/
def Replied (q : Opcode × Bytes) (m : Message) : Prop := m.opcode = .text ∧ onMessage q.2 = ⟨[m.payload], .returned⟩

/-- Each message has one reply, so replies in order are one for each of the first messages. -/
theorem replied_of_first {qs : List (Opcode × Bytes)} (hanswered : ∀ q ∈ qs, Answered q.2) {ms : List Message}
    (h : ms.map Network.given <+: qs.flatMap replies) : List.Forall₂ Replied (qs.take ms.length) ms := by
  induction ms generalizing qs with
  | nil => exact .nil
  | cons m ms ih =>
      cases qs with
      | nil => cases List.prefix_nil.mp h
      | cons q qs =>
          obtain ⟨reply, hreply⟩ := hanswered q (List.mem_cons_self ..)
          have hone : replies q = [(.text, reply)] := by
            rw [replies, hreply]
            rfl
          rw [List.flatMap_cons, hone, List.singleton_append, List.map_cons, List.cons_prefix_cons] at h
          obtain ⟨hgiven, hrest⟩ := h
          obtain ⟨hop, hpayload⟩ := Prod.mk.inj hgiven
          exact .cons ⟨hop, by rw [hpayload]; exact hreply⟩ (ih (fun r hr => hanswered r (List.mem_cons_of_mem _ hr)) hrest)

theorem length_replies {qs : List (Opcode × Bytes)} (hanswered : ∀ q ∈ qs, Answered q.2) :
    (qs.flatMap replies).length = qs.length := by
  induction qs with
  | nil => rfl
  | cons q qs ih =>
      obtain ⟨reply, hreply⟩ := hanswered q (List.mem_cons_self ..)
      rw [List.flatMap_cons, List.length_append, ih fun r hr => hanswered r (List.mem_cons_of_mem _ hr), replies, hreply,
        List.length_cons, Nat.add_comm]
      rfl

variable {σ : Side → Type} {u : Setup σ} {n : Network σ} {tr : List (Side × Connection.Event)}

/-- What the server has sent, in any run in which only its handler sends. -/
theorem sent_server (hserver : u.handlers .server = handlers (σ .server))
    (h : Machine.exec u.step tr u.init = some n) (hcalls : ∀ x, (.server, .call x) ∉ tr) :
    (n.con .server).sent = ((n.con .server).handed.map Network.given).flatMap replies :=
  Network.run_keeps (i := .server) (hserver ▸ keeps_handlers (σ .server)) rfl h hcalls

/-- **The replies come in order.** Whatever a client sends, and however the octets travel: if each of its messages is
    one that `onMessage` answers, then what the client is handed first is the reply to what it sent first, and so on. -/
theorem answers_in_order (hserver : u.handlers .server = handlers (σ .server))
    (h : Machine.exec u.step tr u.init = some n) (hcalls : ∀ x, (.server, .call x) ∉ tr)
    (hanswered : ∀ q ∈ (n.con .client).sent, Answered q.2) :
    List.Forall₂ Replied ((n.con .client).sent.take (n.con .client).handed.length) (n.con .client).handed := by
  have hgood := Network.good_run h
  obtain ⟨rest, hrest⟩ : (n.con .server).handed.map Network.given <+: (n.con .client).sent := hgood.handed_first .server
  have hclient : (n.con .client).handed.map Network.given <+: (n.con .server).sent := hgood.handed_first .client
  refine replied_of_first hanswered (hclient.trans ?_)
  rw [sent_server hserver h hcalls, ← hrest, List.flatMap_append]
  exact List.prefix_append _ _

/-- **Every message is answered.** Once nothing is under way in either direction and both sides are open, the client has
    been handed a reply to each of its messages. -/
theorem answers_complete (hserver : u.handlers .server = handlers (σ .server))
    (h : Machine.exec u.step tr u.init = some n) (hcalls : ∀ x, (.server, .call x) ∉ tr)
    (hanswered : ∀ q ∈ (n.con .client).sent, Answered q.2) (hasked : n.Settled .server) (htold : n.Settled .client) :
    List.Forall₂ Replied (n.con .client).sent (n.con .client).handed := by
  have hgood := Network.good_run h
  have hask : (n.con .server).handed.map Network.given = (n.con .client).sent := hgood.handed_all hasked
  have htell : (n.con .client).handed.map Network.given = (n.con .server).sent := hgood.handed_all htold
  rw [sent_server hserver h hcalls, hask] at htell
  have hlen : (n.con .client).handed.length = (n.con .client).sent.length := by
    rw [← length_replies hanswered, ← htell, List.length_map]
  have hall := replied_of_first hanswered ⟨[], (List.append_nil _).trans htell⟩
  rwa [hlen, List.take_length] at hall

/-- A client that only sends, and the server. -/
def oneClient : Setup fun _ => Unit where
  little _         := true
  maxMessageSize _ := 100
  rng _ _          := ⟨0⟩
  handlers
    | .client => Network.quiet
    | .server => handlers Unit
  app _            := ()

/-- A sum, and what is none. -/
def questions : List (Opcode × Bytes) := [(.text, [49, 43, 50]), (.text, [115, 105, 120, 43, 52])]

/-- The client asks both, and is answered the first; the server has read a part of the second. -/
def oneAnswer : List (Side × Connection.Event) :=
  [(.client, .call (.send [49, 43, 50] .text (by decide))),
    (.client, .call (.send [115, 105, 120, 43, 52] .text (by decide))), (.client, .run), (.client, .transmit 20),
    (.client, .written none), (.server, .read [0x81, 0x83, 0, 0, 0, 0, 49, 43, 50, 0x81, 0x85]), (.server, .run),
    (.server, .transmit 14), (.server, .written none), (.client, .read (0x81 :: 0x0C :: bytes "The sum is 3"))]

/-- And the second. -/
def twoAnswers : List (Side × Connection.Event) :=
  oneAnswer ++ [(.server, .read [0, 0, 0, 0, 115, 105, 120, 43, 52]), (.server, .run), (.server, .transmit 31),
    (.server, .written none), (.client, .read (0x81 :: 0x1D :: bytes "Input for number 1 is invalid"))]

theorem oneAnswer_ends : ∃ n, Machine.exec oneClient.step oneAnswer oneClient.init = some n ∧
    (n.con .client).sent = questions ∧ (n.con .client).handed.length = 1 := by
  have hany : (Machine.exec oneClient.step oneAnswer oneClient.init).any (fun n => decide
      ((n.con .client).sent = questions ∧ (n.con .client).handed.length = 1)) = true := by
    decide +kernel
  obtain ⟨n, hn, hdec⟩ := (Option.any_eq_true _ _).mp hany
  exact ⟨n, hn, of_decide_eq_true hdec⟩

theorem twoAnswers_ends : ∃ n, Machine.exec oneClient.step twoAnswers oneClient.init = some n ∧
    (n.con .client).sent = questions ∧ (n.con .client).handed.length = 2 ∧
    (∀ i, (n.con i).state = .opened ∧ (n.con i).sendQueue.length = 0 ∧ (n.con i).writing = none ∧ n.wire i = []) := by
  have hany : (Machine.exec oneClient.step twoAnswers oneClient.init).any (fun n => decide
      ((n.con .client).sent = questions ∧ (n.con .client).handed.length = 2 ∧
        ∀ i ∈ [Side.client, .server], (n.con i).state = .opened ∧ (n.con i).sendQueue.length = 0 ∧
          (n.con i).writing = none ∧ n.wire i = [])) = true := by
    decide +kernel
  obtain ⟨n, hn, hdec⟩ := (Option.any_eq_true _ _).mp hany
  obtain ⟨hsent, hhanded, hquiet⟩ := of_decide_eq_true hdec
  exact ⟨n, hn, hsent, hhanded, fun i => hquiet i (by cases i <;> decide)⟩

theorem answered_questions : ∀ q ∈ questions, Answered q.2 := by
  intro q hq
  rcases List.mem_cons.mp hq with rfl | hq
  · exact ⟨bytes "The sum is 3", by decide +kernel⟩
  · rw [List.mem_singleton.mp hq]
    exact ⟨bytes "Input for number 1 is invalid", by decide +kernel⟩

theorem answers_in_order_first : ∃ n, Machine.exec oneClient.step oneAnswer oneClient.init = some n ∧
    (n.con .client).handed.length = 1 ∧ List.Forall₂ Replied [(.text, [49, 43, 50])] (n.con .client).handed := by
  obtain ⟨n, hn, hsent, hhanded⟩ := oneAnswer_ends
  have hreplied := answers_in_order rfl hn (by simp [oneAnswer]) (by rw [hsent]; exact answered_questions)
  rw [hhanded, hsent] at hreplied
  exact ⟨n, hn, hhanded, hreplied⟩

theorem answers_complete_two : ∃ n, Machine.exec oneClient.step twoAnswers oneClient.init = some n ∧
    (n.con .client).handed.length = 2 ∧ List.Forall₂ Replied questions (n.con .client).handed := by
  obtain ⟨n, hn, hsent, hhanded, hquiet⟩ := twoAnswers_ends
  have hsettled : ∀ i, n.Settled i := fun i =>
    ⟨(hquiet i).1, by rw [(hquiet i.other).1]; decide, List.length_eq_zero_iff.mp (hquiet i.other).2.1,
      (hquiet i.other).2.2.1, (hquiet i).2.2.2⟩
  have hreplied := answers_complete rfl hn (by simp [twoAnswers, oneAnswer]) (by rw [hsent]; exact answered_questions)
    (hsettled _) (hsettled _)
  exact ⟨n, hn, hhanded, hsent ▸ hreplied⟩

end NewOrbit.Streamer
