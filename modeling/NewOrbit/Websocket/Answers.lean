import NewOrbit.Websocket.Steps

/-!
# `Websocket.Answers` — a side that only answers

What a connection has sent changes by its application only: by a call from outside, or by the handler of a message. So
what a handler keeps between the messages that were handed on and those that were sent, every other step keeps
(`steady_keeps`), and so does a run of two connections that calls nothing on that side (`run_keeps`).
-/

namespace NewOrbit.Websocket
open CString

variable {τ : Type} {app : App τ} {s t : τ}

/-- `P` relates the messages handed on and those sent, and a handler that runs keeps it. Pings and pongs are no
    occasion to call anything. -/
structure App.Keeps (app : App τ) (P : List Message → List (Opcode × Bytes) → Prop) : Prop where
  message : ∀ (c : Connection) s msg, c.state = .opened → P c.handed c.sent → P (c.handed ++ [msg])
    (({ c with handed := c.handed ++ [msg] } : Connection).run (app.onMessage s msg)).1.sent
  ping    : ∀ s payload, ∃ a, app.onPing s payload = .done a
  pong    : ∀ s payload, ∃ t, app.onPong s payload = .done t

namespace Connection

variable {c c' : Connection} {P : List Message → List (Opcode × Bytes) → Prop}

theorem sent_of_core (h : c'.core = c.core) : c'.sent = c.sent :=
  show c'.core.sent = c.core.sent from congrArg sent h

theorem Act.sent (h : Act false c c') : c'.sent = c.sent := by
  cases h with
  | note h => exact sent_of_core h
  | data htalks => cases htalks
  | control hopen => rw [enqueue_eq]
  | close hopen => rw [enqueue_eq]
  | clean hstate => rfl
  | terminate hopen => rfl

/-- Without talking nothing is sent. -/
theorem sent_acts (h : Acts false c c') : c'.sent = c.sent := by
  induction h with
  | refl => rfl
  | tail _ hact ih => exact hact.sent.trans ih

theorem keeps_acts (h : P c.handed c.sent) (hacts : Acts false c c') : P c'.handed c'.sent := by
  rw [sent_acts hacts, (untouched_acts hacts).handed]
  exact h

/-- **A message that is dispatched.** -/
theorem dispatch_keeps (happ : app.Keeps P) (h : P c.handed c.sent) (s : τ) (msg : Message) :
    P (c.dispatch app s msg).1.handed (c.dispatch app s msg).1.sent := by
  rw [dispatch]
  dsimp only
  split
  · split
    · exact h
    · rename_i hopen
      have hrun := happ.message { c with got := c.got ++ [msg] } s msg (not_not.mp hopen) h
      have hacts := run_acts (c := { c with got := c.got ++ [msg], handed := c.handed ++ [msg] }) (app.onMessage s msg)
      rw [(untouched_acts hacts).handed]
      exact hrun
  · obtain ⟨a, hping⟩ := happ.ping s msg.payload
    obtain ⟨t, hpong⟩ := happ.pong s msg.payload
    have hacts : Acts false { c with got := c.got ++ [msg] }
        (({ c with got := c.got ++ [msg] } : Connection).process_control_frame app s msg).1 := by
      refine process_control_frame_acts (List.mem_append_right _ (List.mem_singleton_self msg)) ?_ ?_
      · rw [hping]
        exact .refl
      · rw [hpong]
        exact .refl
    exact keeps_acts (c := { c with got := c.got ++ [msg] }) h hacts

theorem steady_keeps (happ : app.Keeps P) : Steady app fun c => P c.handed c.sent where
  alike h halike := by
    rw [halike.handed, halike.sent]
    exact h
  acts h hacts := keeps_acts h hacts
  dispatch s msg h := dispatch_keeps happ h s msg

end Connection

namespace Network
variable {σ : Side → Type} {u : Setup σ} {n : Network σ} {i : Side} {P : List Message → List (Opcode × Bytes) → Prop}

/-- **A run** that calls nothing on one side. -/
theorem run_keeps {tr : List (Side × Connection.Event)} (happ : (u.handlers i).Keeps P) (hnil : P [] [])
    (h : Machine.exec u.step tr u.init = some n) (hcalls : ∀ x, (i, .call x) ∉ tr) :
    P (n.con i).handed (n.con i).sent :=
  run_steady (Connection.steady_keeps happ) hnil h fun x hx => absurd hx (hcalls x)

end Network
end NewOrbit.Websocket
