import Mathlib.Data.List.Perm.Basic
import NewOrbit.Lib.Machine

/-!
# `Lib.Requests` — a view that asks for its data whenever a parameter changes

A view has a parameter among its state. A request for the value of the parameter goes out when the view is
mounted, and again after every step that changes the value; the responses come in any order, and each is handed to
the view together with the value it was asked for. Nothing tells the view that a response is no longer wanted.

`last_shown` is the rule for what such a view shows: whatever every response of some kind puts there and nothing
else touches is what the last response of that kind has put there. `current_arrived` says that a response for the
current value is among those that have arrived, or still to come.
-/

namespace Requests
open Machine

variable {S P U R : Type*}

/-- The view: what the user's actions and the responses do to its state. -/
structure View (S P U R : Type*) where
  initial : S
  param : S → P
  act : U → S → S
  respond : P → R → S → S

/-- The view, the requests under way, and a record of the responses that have arrived, the last one last. -/
structure Sys (S P R : Type*) where
  state : S
  inFlight : List P
  arrived : List (P × R)
  deriving DecidableEq

/-- A step: the user acts, or the response to one of the requests arrives. -/
inductive Label (U R : Type*) where
  | user (u : U)
  | arrive (i : ℕ) (r : R)

namespace View

variable [DecidableEq P] (V : View S P U R)

/-- The effect that follows a step: a request goes out when the parameter has changed. -/
def effect (old : S) (sys : Sys S P R) : Sys S P R :=
  if V.param sys.state = V.param old then sys else { sys with inFlight := sys.inFlight ++ [V.param sys.state] }

def step (sys : Sys S P R) : Label U R → Option (Sys S P R)
  | .user u => some (V.effect sys.state { sys with state := V.act u sys.state })
  | .arrive i r => (sys.inFlight[i]?).map fun p =>
      V.effect sys.state
        { state := V.respond p r sys.state
          inFlight := sys.inFlight.eraseIdx i
          arrived := sys.arrived ++ [(p, r)] }

/-- The view is mounted, and its first request is under way. -/
def mount : Sys S P R := { state := V.initial, inFlight := [V.param V.initial], arrived := [] }

/-- `sys` is reached from the mounted view. -/
def Run (sys : Sys S P R) : Prop := Reaches V.step V.mount sys

variable {V} {sys : Sys S P R}

@[simp] theorem effect_state (old : S) (sys : Sys S P R) : (V.effect old sys).state = sys.state := by
  unfold effect
  split <;> rfl

@[simp] theorem effect_arrived (old : S) (sys : Sys S P R) : (V.effect old sys).arrived = sys.arrived := by
  unfold effect
  split <;> rfl

/-- **What a kind of responses puts there is what the last one of them has put there.** `Carries r` is the kind,
    and `Shows p r s` that the state shows the response `r` to a request for `p`. -/
theorem last_shown (Carries : R → Bool) (Shows : P → R → S → Prop)
    (hact : ∀ u p r s, Shows p r s → Shows p r (V.act u s))
    (hshow : ∀ p r s, Carries r = true → Shows p r (V.respond p r s))
    (hkeep : ∀ p r q t s, Carries t = false → Shows p r s → Shows p r (V.respond q t s))
    (h : V.Run sys) {p : P} {r : R} (hlast : (sys.arrived.filter fun a => Carries a.2).getLast? = some (p, r)) :
    Shows p r sys.state := by
  obtain ⟨tr, htr⟩ := h
  refine exec_invariant (I := fun sys => ∀ p r,
    (sys.arrived.filter fun a => Carries a.2).getLast? = some (p, r) → Shows p r sys.state) ?_ ?_ htr p r hlast
  · intro s a t hs ht p r hlast
    cases a with
    | user u =>
        obtain rfl := Option.some.inj ht
        rw [effect_arrived] at hlast
        rw [effect_state]
        exact hact u p r _ (hs p r hlast)
    | arrive i q =>
        obtain ⟨v, -, rfl⟩ := Option.map_eq_some_iff.mp ht
        rw [effect_arrived] at hlast
        rw [effect_state]
        cases hq : Carries q with
        | true =>
            have hone : [(v, q)].filter (fun a => Carries a.2) = [(v, q)] := List.filter_cons_of_pos hq
            rw [List.filter_append, hone, List.getLast?_concat] at hlast
            cases hlast
            exact hshow p r _ hq
        | false =>
            have hnone : [(v, q)].filter (fun a => Carries a.2) = [] := List.filter_cons_of_neg (by simp [hq])
            rw [List.filter_append, hnone, List.append_nil] at hlast
            exact hkeep p r v q _ hq (hs p r hlast)
  · intro p r hlast
    cases hlast

/-- A value is asked for as soon as it is the current one. -/
theorem effect_asked {old : S} (h : V.param old ∈ sys.arrived.map Prod.fst ∨ V.param old ∈ sys.inFlight) :
    V.param sys.state ∈ (V.effect old sys).arrived.map Prod.fst ∨
      V.param sys.state ∈ (V.effect old sys).inFlight := by
  unfold effect
  split
  · rename_i heq
    rwa [heq]
  · exact Or.inr (List.mem_append_right _ List.mem_cons_self)

/-- **The current value has been asked for:** its response has arrived or is under way. -/
theorem current_arrived (h : V.Run sys) :
    V.param sys.state ∈ sys.arrived.map Prod.fst ∨ V.param sys.state ∈ sys.inFlight := by
  obtain ⟨tr, htr⟩ := h
  refine exec_invariant (I := fun sys => V.param sys.state ∈ sys.arrived.map Prod.fst ∨
    V.param sys.state ∈ sys.inFlight) ?_ (Or.inr List.mem_cons_self) htr
  intro s a t hs ht
  cases a with
  | user u =>
      obtain rfl := Option.some.inj ht
      rw [effect_state]
      exact effect_asked hs
  | arrive i r =>
      obtain ⟨p, hp, rfl⟩ := Option.map_eq_some_iff.mp ht
      rw [effect_state]
      apply effect_asked
      rcases hs with hs | hs
      · exact Or.inl (List.map_append ▸ List.mem_append_left _ hs)
      · -- A request that is no longer under way is the one whose response arrives.
        obtain ⟨hi, rfl⟩ := List.getElem?_eq_some_iff.mp hp
        rcases List.mem_cons.mp ((List.getElem_cons_eraseIdx_perm hi).mem_iff.mpr hs) with heq | hmem
        · exact Or.inl (by simp [heq])
        · exact Or.inr hmem

end View

end Requests
