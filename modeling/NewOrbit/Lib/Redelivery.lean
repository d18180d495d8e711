import Mathlib.Data.List.Basic

/-!
# `Lib.Redelivery` — at-least-once delivery

A consumer that is not acknowledged in time is handed the same event again, so what arrives is the list of
events with each of them repeated some number of times in a row (`Redelivers`). A view of the state on which
every event acts idempotently does not see the repetitions (`Redelivers.view_foldl`).
-/

namespace Redelivery

variable {S E V : Type*}

/-- `Redelivers es es'`: `es'` is `es` with every event repeated one or more times in a row. -/
inductive Redelivers : List E → List E → Prop
  | nil : Redelivers [] []
  | cons (e : E) (n : Nat) {es es' : List E} (h : Redelivers es es') :
      Redelivers (e :: es) (List.replicate (n + 1) e ++ es')

/-- An idempotent action, repeated. -/
theorem foldl_replicate {act : V → E → V} (hidem : ∀ v e, act (act v e) e = act v e) (n : Nat) (v : V) (e : E) :
    (List.replicate (n + 1) e).foldl act v = act v e := by
  induction n with
  | zero => rfl
  | succ n ih => rw [List.replicate_succ', List.foldl_append, ih, List.foldl_cons, List.foldl_nil, hidem]

theorem Redelivers.foldl_eq {act : V → E → V} (hidem : ∀ v e, act (act v e) e = act v e) {es es' : List E}
    (h : Redelivers es es') (v : V) : es'.foldl act v = es.foldl act v := by
  induction h generalizing v with
  | nil => rfl
  | cons e n _ ih => rw [List.foldl_append, foldl_replicate hidem, ih, List.foldl_cons]

/-- **Redelivery is invisible.** Where every event acts idempotently on a view of the state, both deliveries
    end in states with the same view. -/
theorem Redelivers.view_foldl {step : S → E → S} {view : S → V} {act : V → E → V}
    (hact : ∀ s e, view (step s e) = act (view s) e) (hidem : ∀ v e, act (act v e) e = act v e)
    {es es' : List E} (h : Redelivers es es') (s : S) : view (es'.foldl step s) = view (es.foldl step s) := by
  rw [← List.foldl_hom view fun s e => (hact s e).symm, ← List.foldl_hom view fun s e => (hact s e).symm,
    h.foldl_eq hidem]

end Redelivery
