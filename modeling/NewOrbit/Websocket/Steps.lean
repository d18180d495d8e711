import NewOrbit.Websocket.Network

/-!
# `Websocket.Steps` — a rule for what steps keep

Most steps change only what is under way between a connection and its socket. A property that does not see this
(`Alike`), that acts keep and that a message keeps when it is dispatched, is kept by every step (`Steady.step`) and by
every run of two connections (`run_steady`); only of calls from outside it must be said apart.
-/

namespace NewOrbit.Websocket
open CString

namespace Connection

variable {σ : Type} {app : App σ} {s t : σ} {c c' : Connection} {x : Event} {P : Connection → Prop}

/-- The connections differ in their processor and in what is being read and written. -/
structure Alike (c c' : Connection) : Prop where
  state  : c'.state = c.state
  sent   : c'.sent = c.sent
  pushed : c'.pushed = c.pushed
  got    : c'.got = c.got
  handed : c'.handed = c.handed

/-- What is kept wherever an application does not call. -/
structure Steady (app : App σ) (P : Connection → Prop) : Prop where
  alike    : ∀ {c c'}, P c → Alike c c' → P c'
  acts     : ∀ {c c'}, P c → Acts false c c' → P c'
  dispatch : ∀ {c} s msg, P c → P (c.dispatch app s msg).1

theorem alike_write_frame (c : Connection) (posted : Nat) : Alike c ({ c with posted } : Connection).write_frame := by
  rw [write_frame]
  dsimp only
  split
  · exact ⟨rfl, rfl, rfl, rfl, rfl⟩
  split
  · exact ⟨rfl, rfl, rfl, rfl, rfl⟩
  · exact ⟨rfl, rfl, rfl, rfl, rfl⟩

namespace Steady

variable (hP : Steady app P)
include hP

theorem read_loop (fuel : Nat) (buf : Bytes) (h : P c) : P (Connection.read_loop app fuel c s buf).1 := by
  induction fuel generalizing c s buf with
  | zero => exact h
  | succ fuel ih =>
      rw [Connection.read_loop]
      split
      · split
        · rename_i processor _ e _
          have hfailed : P { c with processor, failed := some e } := hP.alike h ⟨rfl, rfl, rfl, rfl, rfl⟩
          exact hP.acts hfailed (refuse_acts (c := { c with processor }) e)
        · split
          · split
            · exact ih _ (hP.alike h ⟨rfl, rfl, rfl, rfl, rfl⟩)
            · rename_i msg processor _
              have hturned : P { c with processor } := hP.alike h ⟨rfl, rfl, rfl, rfl, rfl⟩
              exact ih _ (hP.dispatch s msg hturned)
          · exact ih _ (hP.alike h ⟨rfl, rfl, rfl, rfl, rfl⟩)
      · exact hP.alike h ⟨rfl, rfl, rfl, rfl, rfl⟩

theorem handle_write_frame (h : P c) (ec : Option Ec) :
    P (({ c with writing := none } : Connection).handle_write_frame ec) := by
  have hnone : P { c with writing := none, currentMsgs := [] } := hP.alike h ⟨rfl, rfl, rfl, rfl, rfl⟩
  cases ec with
  | some e => exact hP.acts hnone (terminate_acts (some e))
  | none =>
      rw [Connection.handle_write_frame]
      dsimp only
      split
      · exact hP.acts hnone (terminate_acts none)
      split
      · exact hP.alike h ⟨rfl, rfl, rfl, rfl, rfl⟩
      · exact hP.alike h ⟨rfl, rfl, rfl, rfl, rfl⟩

/-- **A step keeps it**, unless it is a call that does not. -/
theorem step (hcall : ∀ y, x = .call y → P (c.call y).1) (h : P c)
    (hstep : Connection.step app (c, s) x = some (c', t)) : P c' := by
  cases x with
  | call y =>
      cases hstep
      exact hcall y rfl
  | run =>
      rw [Connection.step] at hstep
      split at hstep
      · cases hstep
        exact hP.alike h (alike_write_frame c _)
      · cases hstep
  | transmit n =>
      rw [Connection.step] at hstep
      split at hstep
      · split at hstep
        · cases hstep
          exact hP.alike h ⟨rfl, rfl, rfl, rfl, rfl⟩
        · cases hstep
      · cases hstep
  | written ec =>
      rw [Connection.step] at hstep
      split at hstep
      · split at hstep
        · cases hstep
        · cases hstep
          exact hP.handle_write_frame h ec
      · cases hstep
  | read buf =>
      rw [Connection.step] at hstep
      split at hstep
      · have htaken : P { c with reading := false, taken := c.taken ++ buf } := hP.alike h ⟨rfl, rfl, rfl, rfl, rfl⟩
        have hread := hP.read_loop (5 * buf.length + 5) buf (s := s) htaken
        have heq := Option.some.inj hstep
        rw [handle_read_frame] at heq
        rw [heq] at hread
        exact hread
      · cases hstep
  | readFailed ec =>
      rw [Connection.step] at hstep
      split at hstep
      · cases hstep
        have hidle : P { c with reading := false } := hP.alike h ⟨rfl, rfl, rfl, rfl, rfl⟩
        exact hP.acts hidle (handle_read_error_acts ec)
      · cases hstep
  | timeout =>
      rw [Connection.step] at hstep
      split at hstep
      · cases hstep
        have hstopped : P { c with handshakeTimer := false } := hP.alike h ⟨rfl, rfl, rfl, rfl, rfl⟩
        exact hP.acts hstopped (terminate_acts _)
      · cases hstep

end Steady

end Connection

namespace Network

variable {σ : Side → Type} {u : Setup σ} {n : Network σ} {i : Side} {P : Connection → Prop}

/-- **A run keeps it** on one side, if the calls do that the run has there. -/
theorem run_steady {tr : List (Side × Connection.Event)} (hP : Connection.Steady (u.handlers i) P)
    (hinit : P (u.init.con i)) (h : Machine.exec u.step tr u.init = some n)
    (hcalls : ∀ y, (i, .call y) ∈ tr → ∀ c : Connection, P c → P (c.call y).1) : P (n.con i) := by
  refine Machine.exec_trace
    (I := fun tr n => (∀ y, (i, .call y) ∈ tr → ∀ c : Connection, P c → P (c.call y).1) → P (n.con i))
    (fun _ => hinit) (fun tr m l n' ih hstep hcalls => ?_) h hcalls
  have hbefore := ih fun y hy => hcalls y (List.mem_append_left _ hy)
  obtain ⟨j, x⟩ := l
  rw [Setup.step] at hstep
  split at hstep
  · obtain ⟨⟨c, s⟩, hcon, rfl⟩ := Option.map_eq_some_iff.mp hstep
    dsimp only
    by_cases hj : i = j
    · subst hj
      rw [Function.update_self]
      refine hP.step (fun y hy => ?_) hbefore hcon
      subst hy
      exact hcalls y (List.mem_append_right _ (List.mem_singleton_self _)) _ hbefore
    · rw [Function.update_of_ne hj]
      exact hbefore
  · cases hstep

end Network
end NewOrbit.Websocket
