import NewOrbit.Lib.Machine
import NewOrbit.Rabbit.Send

/-!
# `Rabbit.Ready` — the timer and the name of the reply queue

`main` of `send.cpp` starts its timer from the channel's `onReady` callback and learns the name of its reply
queue from `queue.declare-ok`, which AMQP-CPP can only receive later: the declare frame waits in the channel's
queue until the open has been answered. `tempQueueCreated` is set there and never read, so a tick in between
publishes a request with an empty reply-to. `replyTo_declared_iff` says that such a tick is all that can go
wrong.
-/

namespace NewOrbit.Rabbit.Ready
open CString

/-! ## The client's events -/

/-- The variables of `main`, the connection's state, and what was published. `declared` is the queue the broker
    declared for this client. -/
structure State where
  connected        : Bool
  opened           : Bool
  tempQueueCreated : Bool
  tempQueueName    : Bytes
  timer            : Bool
  messagesSent     : MessagesSent
  declared         : Option Bytes
  published        : List Message

inductive Event where
  | connected
  | openOk
  | declareOk (name : Bytes)
  | tick (d : Draw) (uuid : String)

variable (h : Host)

/-- The callback given to `channel.onReady`. -/
def onReady (s : State) : State := if s.connected then { s with timer := true } else s

/-- The callback given to `declareQueue(AMQP::exclusive).onSuccess`. -/
def onDeclared (s : State) (name : Bytes) : State := { s with tempQueueName := name, tempQueueCreated := true }

/-- `main` up to `loop`: registering `onReady` on a channel that counts as connected calls it at once, while the
    handler has no connection yet. -/
def start : State := onReady ⟨false, false, false, [], false, [], none, []⟩

/-- The events in the orders AMQP-CPP allows. Names the broker makes up are not empty. -/
def step (s : State) : Event → Option State
  | .connected => if s.connected then none else some { s with connected := true }
  | .openOk => if s.connected && !s.opened then some (onReady { s with opened := true }) else none
  | .declareOk name =>
      if s.opened && s.declared.isNone && !name.isEmpty then some (onDeclared { s with declared := some name } name)
      else none
  | .tick d uuid =>
      if s.timer then
        match tick h d uuid s.tempQueueName s.messagesSent with
        | .ok (_, messagesSent, m) => some { s with messagesSent, published := s.published ++ [m] }
        | .error _                 => none
      else none

/-! ## Ticks before the queue has a name -/

/-- Every tick of the run comes after the queue was declared. -/
def NoEarlyTick (tr : List Event) : Prop :=
  ∀ pre d uuid post, tr = pre ++ .tick d uuid :: post → ∃ name, .declareOk name ∈ pre

theorem noEarlyTick_snoc {tr : List Event} {a : Event} :
    NoEarlyTick (tr ++ [a]) ↔ NoEarlyTick tr ∧ ∀ d uuid, a = .tick d uuid → ∃ name, .declareOk name ∈ tr := by
  constructor
  · intro hno
    refine ⟨fun pre d uuid post heq => hno pre d uuid (post ++ [a]) (by rw [heq]; simp), fun d uuid ha => ?_⟩
    exact hno tr d uuid [] (by rw [ha])
  · rintro ⟨hno, hlast⟩ pre d uuid post heq
    -- The early tick is the last event, or it was there before it.
    rcases Machine.snoc_eq_append_cons_iff.mp heq with ⟨rfl, ha, rfl⟩ | ⟨init, rfl, hinit⟩
    · exact hlast d uuid ha
    · exact hno pre d uuid init hinit

/-- What the run so far says about the name, and about the requests published. -/
structure Inv (tr : List Event) (s : State) : Prop where
  declared  : s.declared.isSome ↔ ∃ name, .declareOk name ∈ tr
  name      : s.tempQueueName = s.declared.getD []
  nonempty  : s.declared ≠ some []
  published : ∀ m ∈ s.published, m.replyTo = [] ∨ s.declared = some m.replyTo
  early     : (∀ m ∈ s.published, m.replyTo ≠ []) ↔ NoEarlyTick tr

theorem inv_start : Inv [] start where
  declared := by simp [start, onReady]
  name := rfl
  nonempty := nofun
  published := nofun
  early := ⟨fun _ pre d uuid post heq => by simp at heq, fun _ => nofun⟩

variable {h}

/-- An event that is neither a declare-ok nor a tick changes nothing of this. -/
theorem Inv.of_same {tr : List Event} {s s' : State} {a : Event} (hi : Inv tr s)
    (hdeclare : ∀ name, a ≠ .declareOk name) (htick : ∀ d uuid, a ≠ .tick d uuid) (hd : s'.declared = s.declared)
    (hn : s'.tempQueueName = s.tempQueueName) (hp : s'.published = s.published) : Inv (tr ++ [a]) s' where
  declared := by
    rw [hd, hi.declared]
    simp only [List.mem_append, List.mem_singleton]
    exact exists_congr fun name => ⟨.inl, fun h => h.resolve_right fun heq => hdeclare name heq.symm⟩
  name := by rw [hn, hd]; exact hi.name
  nonempty := by rw [hd]; exact hi.nonempty
  published := by rw [hp, hd]; exact hi.published
  early := by
    rw [hp, hi.early, noEarlyTick_snoc]
    exact ⟨fun hno => ⟨hno, fun d uuid ha => absurd ha (htick d uuid)⟩, fun hno => hno.1⟩

theorem inv_declareOk {tr : List Event} {s s' : State} {name : Bytes} (hi : Inv tr s)
    (hstep : step h s (.declareOk name) = some s') : Inv (tr ++ [.declareOk name]) s' := by
  simp only [step, Option.ite_none_right_eq_some, Option.some.injEq, Bool.and_eq_true, Option.isNone_iff_eq_none,
    Bool.not_eq_true', List.isEmpty_eq_false_iff] at hstep
  obtain ⟨⟨⟨-, hnone⟩, hname⟩, rfl⟩ := hstep
  exact {
    declared := ⟨fun _ => ⟨name, by simp⟩, fun _ => rfl⟩
    name := rfl
    nonempty := fun heq => hname (Option.some.inj heq)
    published := by
      intro m hm
      rcases hi.published m hm with hempty | hdecl
      · exact .inl hempty
      · rw [hnone] at hdecl
        cases hdecl
    early := by
      rw [noEarlyTick_snoc, ← hi.early]
      exact ⟨fun hall => ⟨hall, fun _ _ ha => by cases ha⟩, fun hall => hall.1⟩ }

theorem inv_tick {tr : List Event} {s s' : State} {d : Draw} {uuid : String} (hi : Inv tr s)
    (hstep : step h s (.tick d uuid) = some s') : Inv (tr ++ [.tick d uuid]) s' := by
  simp only [step, tick_eq, Option.ite_none_right_eq_some, Option.some.injEq] at hstep
  obtain ⟨-, rfl⟩ := hstep
  have hname := hi.name
  exact {
    declared := by
      rw [hi.declared]
      simp
    name := hname
    nonempty := hi.nonempty
    published := by
      intro m hm
      rcases List.mem_append.mp hm with hm | hm
      · exact hi.published m hm
      · rw [List.mem_singleton.mp hm]
        show s.tempQueueName = [] ∨ s.declared = some s.tempQueueName
        rw [hname]
        -- Before the declare-ok the name is the empty string `tempQueueName` starts with.
        cases s.declared with
        | none => exact .inl rfl
        | some n => exact .inr rfl
    early := by
      -- The request published by the last tick carries a name exactly if one was declared before it.
      have hlast : s.tempQueueName ≠ [] ↔ ∃ name, .declareOk name ∈ tr := by
        rw [← hi.declared, hname]
        cases hd : s.declared with
        | none => simp
        | some n =>
            have hne : n ≠ [] := fun heq => hi.nonempty (by rw [hd, heq])
            simp [hne]
      rw [noEarlyTick_snoc, ← hi.early, List.forall_mem_append, List.forall_mem_singleton]
      apply and_congr_right
      intro _
      rw [show (⟨_, _, s.tempQueueName⟩ : Message).replyTo = s.tempQueueName from rfl, hlast]
      exact ⟨fun hex _ _ _ => hex, fun hall => hall d uuid rfl⟩ }

theorem inv_step {tr : List Event} {s s' : State} {a : Event} (hi : Inv tr s) (hstep : step h s a = some s') :
    Inv (tr ++ [a]) s' := by
  cases a with
  | connected =>
      simp only [step, Option.ite_none_left_eq_some, Option.some.injEq] at hstep
      obtain ⟨-, rfl⟩ := hstep
      exact hi.of_same nofun nofun rfl rfl rfl
  | openOk =>
      simp only [step, Option.ite_none_right_eq_some, Option.some.injEq] at hstep
      obtain ⟨-, rfl⟩ := hstep
      unfold onReady
      split <;> exact hi.of_same nofun nofun rfl rfl rfl
  | declareOk name => exact inv_declareOk hi hstep
  | tick d uuid => exact inv_tick hi hstep

/-- **Only a tick before `queue.declare-ok` loses the reply.** In every run of the client, every request
    published carries the name of the declared queue if and only if no tick came before the declare-ok. -/
theorem replyTo_declared_iff (h : Host) (tr : List Event) (s : State)
    (hrun : Machine.exec (step h) tr start = some s) :
    (∀ m ∈ s.published, s.declared = some m.replyTo) ↔ NoEarlyTick tr := by
  have hi : Inv tr s :=
    Machine.exec_trace (I := Inv) inv_start (fun _ _ _ _ hi ha => inv_step hi ha) hrun
  rw [← hi.early]
  refine forall₂_congr fun m hm => ⟨fun hd hempty => ?_, fun hne => (hi.published m hm).resolve_left hne⟩
  exact hi.nonempty (by rw [hd, hempty])

/-! ### The two orders of the first tick and the declare-ok -/

def declaredFirst : List Event := [.connected, .openOk, .declareOk (bytes "amq.gen-1"), .tick sampleDraw "c1"]

def tickedFirst : List Event := [.connected, .openOk, .tick sampleDraw "c1", .declareOk (bytes "amq.gen-1")]

def after (tr : List Event) : State := (Machine.exec (step (flatHost [])) tr start).getD start

theorem replyTo_declared_iff_declaredFirst :
    (∀ m ∈ (after declaredFirst).published, (after declaredFirst).declared = some m.replyTo) ↔
      NoEarlyTick declaredFirst :=
  replyTo_declared_iff (flatHost []) declaredFirst (after declaredFirst) rfl

/-- The timer's first tick runs at once, so it can come before the declare-ok: its request carries no queue. -/
theorem tick_before_declareOk :
    Machine.Reaches (step (flatHost [])) start (after tickedFirst) ∧
      (after tickedFirst).declared = some (bytes "amq.gen-1") ∧
      (after tickedFirst).published.map Message.replyTo = [[]] :=
  ⟨⟨tickedFirst, rfl⟩, rfl, rfl⟩

end NewOrbit.Rabbit.Ready
