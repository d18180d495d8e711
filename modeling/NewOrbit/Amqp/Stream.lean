import NewOrbit.Amqp.Content
import NewOrbit.Amqp.Parse
import NewOrbit.Lib.Keyed

/-!
# `Amqp.Stream` — from the socket to the consumers

The loop of `SimplePocoHandler` over a connection that parses what it is given: a round hands the input buffer to
`parse`, and takes out of it what `parse` consumed. Whatever the pieces in which the stream of the server arrives,
the channels hear of the same frames (`Stack.exec_hears`), so each tells its consumers of the messages sent to it
(`deliveries_received`).
-/

namespace NewOrbit.Amqp
open CString
open Rabbit (Poco Callback frames leftover)

/-- The handler and its connection. -/
structure Stack where
  poco       : Poco
  connection : ConnectionImpl

/-- A callback from outside the loop, or a round of it, with what arrives from the socket and the callbacks that
    parsing it makes. -/
inductive StackLabel
  | call (c : Callback)
  | round (arrival : Bytes) (callbacks : List Callback)

def StackLabel.arrival : StackLabel → Bytes
  | call _          => []
  | round arrival _ => arrival

namespace Stack

def step (program : Program) (s : Stack) : StackLabel → Option Stack
  | .call c => (s.poco.step (.call c)).map fun poco => { s with poco }
  | .round arrival callbacks =>
    let s' := s.poco.receive arrival
    if s'.connection && decide (s'.inputBuffer.available ≠ 0) then
      let (connection, count) := s.connection.parse program s'.inputBuffer.data
      (s.poco.step (.round ⟨arrival, some ⟨count, callbacks⟩⟩)).map fun poco => ⟨poco, connection⟩
    else (s.poco.step (.round ⟨arrival, none⟩)).map fun poco => { s with poco }

/-- There is a connection, and what arrives fits the input buffer. -/
def Fits (s : Stack) : StackLabel → Prop
  | .call _          => True
  | .round arrival _ => s.poco.connection = true ∧ arrival.length ≤ s.poco.inputBuffer.free

instance (s : Stack) : (a : StackLabel) → Decidable (s.Fits a)
  | .call _    => inferInstanceAs (Decidable True)
  | .round _ _ => inferInstanceAs (Decidable (_ ∧ _))

variable {program : Program} {fs : List (Nat × FrameContent)} {c : ConnectionImpl} {s t : Stack}

/-- What is kept of a run: the connection has heard of the complete frames of what was received, and the input buffer
    has what is left behind them. -/
structure Hears (program : Program) (fs : List (Nat × FrameContent)) (c : ConnectionImpl) (received : Bytes)
    (s : Stack) : Prop where
  frames : frames received = (fs.take (frames received).length).map octetsOf
  heard  : s.connection = (fs.take (Rabbit.frames received).length).foldl (ConnectionImpl.hear program) c
  left   : s.poco.inputBuffer.data = leftover received

/-- What is left and what arrives is a front part of the frames that are still to come. -/
theorem Hears.coming {received arrival : Bytes} (h : Hears program fs c received s)
    (hpre : received ++ arrival <+: fs.flatMap octetsOf) :
    leftover received ++ arrival <+: (fs.drop (Rabbit.frames received).length).flatMap octetsOf := by
  have hreceived := Rabbit.flatten_frames_append received
  have hfs : fs.flatMap octetsOf = (Rabbit.frames received).flatten ++
      (fs.drop (Rabbit.frames received).length).flatMap octetsOf := by
    conv_lhs => rw [← List.take_append_drop (Rabbit.frames received).length fs]
    rw [List.flatMap_append, List.flatMap_def (l := fs.take _), ← h.frames]
  rw [hfs, ← hreceived, List.append_assoc] at hpre
  exact (List.prefix_append_right_inj _).mp (by rwa [hreceived] at hpre)

/-- **A step hears on.** -/
theorem Hears.step {received : Bytes} {a : StackLabel} (h : Hears program fs c received s)
    (hopen : c.state ≠ .closed) (hclosed : c.closed = false)
    (hfs : ∀ p ∈ fs, Acceptable c.maxFrame p.1 p.2 ∧ p.2.ForChannel)
    (hpre : received ++ a.arrival <+: fs.flatMap octetsOf) (hfits : s.Fits a) (hstep : s.step program a = some t) :
    Hears program fs c (received ++ a.arrival) t := by
  cases a with
  | call k =>
      obtain ⟨poco, hpoco, rfl⟩ := Option.map_eq_some_iff.mp hstep
      rcases Poco.step_cases hpoco with ⟨k', -, rfl⟩ | ⟨_, _, hne, -⟩ | ⟨_, hne, -⟩
      · rw [show received ++ (StackLabel.call k).arrival = received from List.append_nil _]
        exact ⟨h.frames, h.heard, (s.poco.callback_input k').1 ▸ h.left⟩
      · cases hne
      · cases hne
  | round arrival callbacks =>
      obtain ⟨hconn, hlen⟩ := hfits
      change received ++ arrival <+: fs.flatMap octetsOf at hpre
      have hdata : (s.poco.receive arrival).inputBuffer.data = leftover received ++ arrival := by
        rw [Poco.data_receive, Poco.incoming, h.left, List.take_of_length_le hlen]
      have hparse := parse_prefix program (c := s.connection) (h.coming hpre)
        (by
          rw [h.heard, (ConnectionImpl.foldl_hear_same program _ c).2.2]
          exact fun p hp => hfs p (List.mem_of_mem_drop hp))
        (by rw [h.heard, (ConnectionImpl.foldl_hear_same program _ c).1]; exact hopen)
        (by rw [h.heard, (ConnectionImpl.foldl_hear_same program _ c).2.1]; exact hclosed)
      obtain ⟨hframes, hparse⟩ := hparse
      have hall : Rabbit.frames (received ++ arrival) = Rabbit.frames received ++
          Rabbit.frames (leftover received ++ arrival) := Rabbit.frameCode.split_append received arrival
      have hrest : leftover (received ++ arrival) = leftover (leftover received ++ arrival) :=
        Rabbit.frameCode.rest_append received arrival
      have htake : fs.take (Rabbit.frames (received ++ arrival)).length = fs.take (Rabbit.frames received).length ++
          (fs.drop (Rabbit.frames received).length).take (Rabbit.frames (leftover received ++ arrival)).length := by
        rw [hall, List.length_append, List.take_add]
      show Hears program fs c (received ++ arrival) t
      simp only [Stack.step] at hstep
      split at hstep
      · -- `parse` is called, and consumes the complete frames.
        rw [hdata, hparse] at hstep
        obtain ⟨poco, hpoco, rfl⟩ := Option.map_eq_some_iff.mp hstep
        rcases Poco.step_cases hpoco with ⟨_, hne, -⟩ | ⟨arrival', p, heq, -, -, b, u, -, hb, rfl⟩ | ⟨_, hne, -⟩
        · cases hne
        · obtain ⟨rfl, rfl⟩ : arrival = arrival' ∧ _ = p := by
            injection heq with heq
            injection heq with heq₁ heq₂
            exact ⟨heq₁, Option.some.inj heq₂⟩
          refine ⟨?_, ?_, ?_⟩
          · rw [htake, List.map_append, ← h.frames, ← hframes, hall]
          · rw [htake, List.foldl_append, ← h.heard]
          · show b.data = leftover (received ++ arrival)
            rw [hb, ← Poco.data_receive, hdata, Rabbit.drop_frames, hrest]
        · cases hne
      · -- Nothing is there to parse.
        rename_i hidle
        have hempty : leftover received ++ arrival = [] := by
          rw [Poco.connection_receive, hconn, Rabbit.Buffer.available, hdata] at hidle
          simpa using hidle
        obtain ⟨-, rfl⟩ := List.append_eq_nil_iff.mp hempty
        obtain ⟨poco, hpoco, rfl⟩ := Option.map_eq_some_iff.mp hstep
        rcases Poco.step_cases hpoco with ⟨_, hne, -⟩ | ⟨_, _, hne, -⟩ | ⟨arrival', heq, -, rfl⟩
        · cases hne
        · cases hne
        · obtain rfl : ([] : Bytes) = arrival' := by
            injection heq with heq
            injection heq
          rw [List.append_nil]
          exact ⟨h.frames, h.heard, hdata.trans (List.append_nil _)⟩

/-- **The pieces do not matter**: in every run over a stream of frames the channels have heard of the frames that
    have arrived completely. -/
theorem exec_hears {tr : List StackLabel} (hopen : c.state ≠ .closed) (hclosed : c.closed = false)
    (hfs : ∀ p ∈ fs, Acceptable c.maxFrame p.1 p.2 ∧ p.2.ForChannel) (hstart : s.connection = c)
    (hempty : s.poco.inputBuffer.data = []) (hrun : Machine.exec (Stack.step program) tr s = some t)
    (hfits : Machine.Each (Stack.step program) Fits tr s) (hpre : tr.flatMap StackLabel.arrival <+: fs.flatMap octetsOf) :
    Hears program fs c (tr.flatMap StackLabel.arrival) t := by
  refine Machine.exec_trace_each (I := fun tr t => tr.flatMap StackLabel.arrival <+: fs.flatMap octetsOf →
    Hears program fs c (tr.flatMap StackLabel.arrival) t) ?_ (fun tr t a u _ ih hP ha hpre => ?_) hrun hfits hpre
  · exact fun _ => ⟨rfl, hstart, hempty⟩
  · rw [List.flatMap_append, List.flatMap_singleton] at hpre ⊢
    exact (ih ((List.prefix_append _ _).trans hpre)).step hopen hclosed hfs hpre hP ha

end Stack

/-! ## One channel of many -/

/-- What a channel hears of frames one after another, with what the program does. -/
def heard (program : Program) (n : Nat) : ChannelImpl → List FrameContent → List Incoming
  | _,  []      => []
  | ch, f :: fs =>
    match f.incoming with
    | none          => heard program n ch fs
    | some incoming =>
      let e := incoming (program n ch f)
      e :: heard program n (ch.receive e) fs

/-- The channel after these frames. -/
def afterwards (program : Program) (n : Nat) (ch : ChannelImpl) (fs : List FrameContent) : ChannelImpl :=
  (heard program n ch fs).foldl ChannelImpl.receive ch

section Channel
variable {program : Program} {n : Nat} {ch : ChannelImpl}

theorem heard_append (fs gs : List FrameContent) (ch : ChannelImpl) :
    heard program n ch (fs ++ gs) = heard program n ch fs ++ heard program n (afterwards program n ch fs) gs := by
  induction fs generalizing ch with
  | nil => rfl
  | cons f fs ih =>
      rw [List.cons_append, heard, heard, afterwards, heard]
      cases f.incoming with
      | none => exact ih ch
      | some incoming => exact congrArg (_ :: ·) (ih _)

theorem afterwards_append (fs gs : List FrameContent) (ch : ChannelImpl) :
    afterwards program n ch (fs ++ gs) = afterwards program n (afterwards program n ch fs) gs := by
  rw [afterwards, heard_append, List.foldl_append]
  rfl

/-- What the frame does to the channel it is for. -/
def act (program : Program) (ch : Option ChannelImpl) (p : Nat × FrameContent) : Option ChannelImpl :=
  ch.map fun ch => afterwards program p.1 ch [p.2]

theorem hear_local : Keyed.Local (ConnectionImpl.hear program) Prod.fst (fun _ => True) (fun _ => ())
    (fun n c => SortedMap.get c.channels n) (fun _ => act program) where
  kept _ _ := rfl
  hit c p _ := by
    unfold ConnectionImpl.hear ConnectionImpl.toChannel act
    cases hi : p.2.incoming with
    | none =>
        have hsame : ∀ ch, afterwards program p.1 ch [p.2] = ch := fun ch => by simp [afterwards, heard, hi]
        simp only [hsame, Option.map_id']
    | some incoming =>
        cases hget : SortedMap.get c.channels p.1 with
        | none => simp [hget]
        | some ch =>
            show SortedMap.get (SortedMap.put c.channels p.1 _) p.1 = _
            rw [SortedMap.get_put, if_pos rfl, Option.map_some, afterwards, heard, hi]
            rfl
  miss c p n _ hne := by
    unfold ConnectionImpl.hear ConnectionImpl.toChannel
    split
    · split
      · rfl
      · show SortedMap.get (SortedMap.put c.channels p.1 _) n = _
        rw [SortedMap.get_put, if_neg (Ne.symm hne)]
    · rfl

theorem foldl_act (ps : List (Nat × FrameContent)) (hps : ∀ p ∈ ps, p.1 = n) (ch : ChannelImpl) :
    ps.foldl (act program) (some ch) = some (afterwards program n ch (ps.map Prod.snd)) := by
  induction ps generalizing ch with
  | nil => rfl
  | cons p ps ih =>
      have hn : p.1 = n := hps p List.mem_cons_self
      rw [List.foldl_cons, act, Option.map_some, hn, ih (fun q hq => hps q (List.mem_cons_of_mem _ hq)), List.map_cons]
      exact congrArg some (afterwards_append [p.2] (ps.map Prod.snd) ch).symm

/-- A channel has heard of its own frames. -/
theorem get_foldl_hear (fs : List (Nat × FrameContent)) {c : ConnectionImpl} (hget : SortedMap.get c.channels n = some ch) :
    SortedMap.get (fs.foldl (ConnectionImpl.hear program) c).channels n =
      some (afterwards program n ch ((fs.filter (·.1 = n)).map Prod.snd)) := by
  rw [hear_local.proj_foldl n fs (fun _ _ => trivial) c, hget]
  exact foldl_act _ (fun p hp => by simpa using (List.mem_filter.mp hp).2) ch

/-- The frames announce the message, say how long it is, and carry it in pieces, none of them empty. -/
def Conveys (d : Delivery) (fs : List FrameContent) : Prop :=
  ∃ (h : d.body.length < 256 ^ 8) (chunks : List Bytes),
    fs = d.frame.content :: .header ⟨d.body.length, h⟩ d.metadata :: chunks.map .body ∧
      (∀ chunk ∈ chunks, chunk ≠ []) ∧ chunks.flatten = d.body

/-- The frames convey the messages one after another. -/
inductive ConveysAll : List Delivery → List FrameContent → Prop
  | nil : ConveysAll [] []
  | cons {d ds fs rest} : Conveys d fs → ConveysAll ds rest → ConveysAll (d :: ds) (fs ++ rest)

theorem heard_chunks (chunks : List Bytes) (ch : ChannelImpl) :
    ∃ pairs, heard program n ch (chunks.map .body) = bodies pairs ∧ pairs.map Prod.fst = chunks := by
  induction chunks generalizing ch with
  | nil => exact ⟨[], rfl, rfl⟩
  | cons chunk chunks ih =>
      obtain ⟨pairs, hpairs, hfst⟩ := ih (ch.receive (.body chunk (program n ch (.body chunk))))
      refine ⟨(chunk, program n ch (.body chunk)) :: pairs, ?_, by rw [List.map_cons, hfst]⟩
      rw [List.map_cons, heard]
      show _ :: heard program n _ _ = _
      rw [hpairs]
      rfl

theorem carries_of_conveys {d : Delivery} {fs : List FrameContent} (h : Conveys d fs) (ch : ChannelImpl) :
    Carries d (heard program n ch fs) := by
  obtain ⟨hlt, chunks, rfl, hne, hbody⟩ := h
  obtain ⟨pairs, hpairs, hfst⟩ := @heard_chunks program n chunks
    ((ch.receive (.deliver d.frame)).receive (.header d.body.length d.metadata
      (program n (ch.receive (.deliver d.frame)) (.header ⟨d.body.length, hlt⟩ d.metadata))))
  refine ⟨program n (ch.receive (.deliver d.frame)) (.header ⟨d.body.length, hlt⟩ d.metadata), pairs, ?_, fun p hp => ?_, ?_⟩
  · exact congrArg (fun l => _ :: _ :: l) hpairs
  · exact hne p.1 (hfst ▸ List.mem_map_of_mem hp)
  · rw [hfst, hbody]

theorem carriesAll_of_conveysAll {ds : List Delivery} {fs : List FrameContent} (h : ConveysAll ds fs) :
    ∀ ch : ChannelImpl, CarriesAll ds (heard program n ch fs) := by
  induction h with
  | nil => exact fun _ => CarriesAll.nil
  | cons hd _ ih =>
      intro ch
      rw [heard_append]
      exact CarriesAll.cons (carries_of_conveys hd ch) (ih _)

end Channel

/-- **From the socket to the consumers.** A broker writes frames for any number of channels; they arrive cut into any
    pieces, each fitting the input buffer. When the frames of channel `n` convey the messages `ds` to consumers it
    knows, it has told these consumers of exactly these messages, in order, each with the body and the properties it
    was sent with, and it is ready for the next. -/
theorem deliveries_received (program : Program) (s t : Stack) (fs : List (Nat × FrameContent)) (tr : List StackLabel)
    (hopen : s.connection.state ≠ .closed) (hclosed : s.connection.closed = false)
    (hempty : s.poco.inputBuffer.data = [])
    (hfs : ∀ p ∈ fs, Acceptable s.connection.maxFrame p.1 p.2 ∧ p.2.ForChannel)
    (hrun : Machine.exec (Stack.step program) tr s = some t) (hfits : Machine.Each (Stack.step program) Stack.Fits tr s)
    (hstream : tr.flatMap StackLabel.arrival = fs.flatMap octetsOf) (n : Nat) (ch : ChannelImpl)
    (hget : SortedMap.get s.connection.channels n = some ch) (hchannel : ch.state ≠ .closed) (hnone : ch.message = none)
    (ds : List Delivery) (hconsumers : ∀ d ∈ ds, (SortedMap.get ch.consumers d.frame.consumerTag).isSome)
    (hconveys : ConveysAll ds ((fs.filter (·.1 = n)).map Prod.snd)) :
    ∃ ch' told, SortedMap.get t.connection.channels n = some ch' ∧ ch'.log = ch.log ++ told ∧
      Consumed ch.consumers ds told ∧ ch'.message = none := by
  have hhears := Stack.exec_hears hopen hclosed hfs rfl hempty hrun hfits (hstream ▸ List.prefix_rfl)
  have hlen : fs.length ≤ (frames (tr.flatMap StackLabel.arrival)).length := by
    have hframes : ∀ f ∈ fs.map octetsOf, Rabbit.IsFrame f := by
      intro f hf
      obtain ⟨p, hp, rfl⟩ := List.mem_map.mp hf
      exact isFrame_buffer (hfs p hp).1
    have hcode := Rabbit.frameCode.split_flatMap hframes
    rw [List.flatMap_map] at hcode
    rw [hstream, frames, hcode, List.length_map]
  have hall := hhears.heard
  rw [List.take_of_length_le hlen] at hall
  obtain ⟨told, hlog, htold, hnone'⟩ := receive_carriedAll (carriesAll_of_conveysAll hconveys ch) hchannel hnone hconsumers
  refine ⟨_, told, ?_, hlog, htold, hnone'⟩
  rw [hall]
  exact get_foldl_hear fs hget

/-- One octet for the consumer of the tag `[116]`. -/
def greeting : Delivery := ⟨⟨[116], ⟨5, by decide⟩, 0, [], [113]⟩, .init, [7]⟩

def greetingFrames : List (Nat × FrameContent) :=
  [(1, greeting.frame.content), (1, .header ⟨1, by decide⟩ .init), (1, .body [7])]

/-- A channel with that consumer, on a connection that is set up. -/
def listening : ChannelImpl := { ChannelImpl.init with consumers := [([116], 0)] }

def listeningStack : Stack :=
  ⟨{ Poco.init with connection := true }, { ConnectionImpl.init [] [] [(1, listening)] with state := .connected }⟩

/-- The stream arrives in two pieces, cut inside the first frame. -/
def greetingArrives : List StackLabel :=
  [.round ((greetingFrames.flatMap octetsOf).take 10) [], .round ((greetingFrames.flatMap octetsOf).drop 10) []]

theorem acceptable_greeting : ∀ p ∈ greetingFrames, Acceptable 10000 p.1 p.2 ∧ p.2.ForChannel := by
  have htag : ([116] : Bytes).length < 256 := by decide
  have hkey : ([113] : Bytes).length < 256 := by decide
  have hnil : ([] : Bytes).length < 256 := by decide
  intro p hp
  rcases List.mem_cons.mp hp with rfl | hp
  · exact ⟨⟨⟨htag, trivial, trivial, hnil, hkey, trivial⟩, by decide, by decide, fun _ => by decide⟩, rfl⟩
  · rcases List.mem_cons.mp hp with rfl | hp
    · exact ⟨⟨MetaData.init_fits, by decide, by decide, fun _ => by decide⟩, rfl⟩
    · obtain rfl := List.mem_singleton.mp hp
      exact ⟨⟨trivial, by decide, by decide, fun _ => by decide⟩, rfl⟩

theorem deliveries_received_greeting :
    ∃ ch' told, SortedMap.get ((Machine.exec (Stack.step fun _ _ _ => []) greetingArrives listeningStack).get
        (by decide +kernel)).connection.channels 1 = some ch' ∧
      ch'.log = listening.log ++ told ∧ Consumed listening.consumers [greeting] told ∧ ch'.message = none := by
  have hone : Conveys greeting (greetingFrames.map Prod.snd) := ⟨by decide, [[7]], rfl, by simp, rfl⟩
  have hconveys : ConveysAll [greeting] (greetingFrames.map Prod.snd ++ []) := ConveysAll.cons hone ConveysAll.nil
  exact deliveries_received (fun _ _ _ => []) listeningStack _ greetingFrames greetingArrives (by decide) rfl rfl
    acceptable_greeting (Option.some_get _).symm (by decide +kernel) (by simp [greetingArrives, StackLabel.arrival]) 1
    listening rfl (by decide) rfl [greeting] (by simp [greeting, listening, SortedMap.get]) hconveys

end NewOrbit.Amqp
