import Mathlib.Data.List.Basic

/-!
# `Lib.Keyed` — processing that is local to a key

A store is looked at key by key through `proj`; every event has a key and changes the store at that key
only. How it does so may depend on a part of the store that no event changes (`fixed`). Then the view at `k`
after any list of events depends on the events with key `k` alone, in their order (`Local.proj_foldl`), whatever
happens in between on other keys.
-/

namespace Keyed

variable {S E K L F : Type*}

/-- `step` is local: an `Ok` event acts by `act` on the view at its own key, and on no other view. -/
structure Local (step : S → E → S) (key : E → K) (Ok : E → Prop) (fixed : S → F) (proj : K → S → L)
    (act : F → L → E → L) : Prop where
  kept : ∀ s e, fixed (step s e) = fixed s
  hit  : ∀ s e, Ok e → proj (key e) (step s e) = act (fixed s) (proj (key e) s) e
  miss : ∀ s e k, Ok e → k ≠ key e → proj k (step s e) = proj k s

variable [DecidableEq K] {step : S → E → S} {key : E → K} {Ok : E → Prop} {fixed : S → F} {proj : K → S → L}
  {act : F → L → E → L}

/-- The view at `k` after a list of events is the view before, acted on by the events with key `k`. -/
theorem Local.proj_foldl (h : Local step key Ok fixed proj act) (k : K) (es : List E) (hok : ∀ e ∈ es, Ok e)
    (s : S) : proj k (es.foldl step s) = (es.filter (key · = k)).foldl (act (fixed s)) (proj k s) := by
  induction es generalizing s with
  | nil => rfl
  | cons e es ih =>
      have he : Ok e := hok e List.mem_cons_self
      rw [List.foldl_cons, ih (fun e' he' => hok e' (List.mem_cons_of_mem _ he')), h.kept]
      by_cases hk : key e = k
      · subst hk
        rw [List.filter_cons_of_pos (by simp), List.foldl_cons, h.hit s e he]
      · rw [List.filter_cons_of_neg (by simpa using hk), h.miss s e k he (Ne.symm hk)]

end Keyed
