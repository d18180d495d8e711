import Mathlib.Data.List.Basic

/-!
# `Lib.Stopping` — loops that their body can end

A loop over a list carries a state. Its body may end it, by an exception or otherwise, and what it has done to the
state by then stays done. An inner loop that ends ends the outer one too, so a loop of loops is one loop over the
elements in turn (`run_flatMap`).
-/

namespace Stopping

variable {S A B E : Type*}

/-- Run the body on each element, up to the first it ends the loop at. -/
def run (body : A → S → S × Option E) : List A → S → S × Option E
  | [],      s => (s, none)
  | a :: as, s =>
      match body a s with
      | (s, some e) => (s, some e)
      | (s, none)   => run body as s

variable {body : A → S → S × Option E}

theorem run_cons_of_some {a : A} {s : S} {e : E} (h : (body a s).2 = some e) (as : List A) :
    run body (a :: as) s = body a s := by
  obtain ⟨t, ht⟩ : ∃ t, body a s = (t, some e) := ⟨_, Prod.ext rfl h⟩
  rw [run, ht]

theorem run_cons_of_none {a : A} {s : S} (h : (body a s).2 = none) (as : List A) :
    run body (a :: as) s = run body as (body a s).1 := by
  obtain ⟨t, ht⟩ : ∃ t, body a s = (t, none) := ⟨_, Prod.ext rfl h⟩
  rw [run, ht]

theorem run_append_of_some {as : List A} {s : S} {e : E} (h : (run body as s).2 = some e) (bs : List A) :
    run body (as ++ bs) s = run body as s := by
  induction as generalizing s with
  | nil => cases h
  | cons a as ih =>
      rw [List.cons_append]
      cases ha : (body a s).2 with
      | none =>
          rw [run_cons_of_none ha] at h ⊢
          rw [run_cons_of_none ha]
          exact ih h
      | some e' => rw [run_cons_of_some ha, run_cons_of_some ha]

theorem run_append_of_none {as : List A} {s : S} (h : (run body as s).2 = none) (bs : List A) :
    run body (as ++ bs) s = run body bs (run body as s).1 := by
  induction as generalizing s with
  | nil => rfl
  | cons a as ih =>
      rw [List.cons_append]
      cases ha : (body a s).2 with
      | none =>
          rw [run_cons_of_none ha] at h ⊢
          rw [run_cons_of_none ha]
          exact ih h
      | some e =>
          rw [run_cons_of_some ha, ha] at h
          cases h

theorem run_map (f : B → A) (bs : List B) (s : S) : run body (bs.map f) s = run (fun b => body (f b)) bs s := by
  induction bs generalizing s with
  | nil => rfl
  | cons b bs ih =>
      rw [List.map_cons, run, run]
      simp only [ih]

/-- **A loop of loops is one loop.** -/
theorem run_flatMap (f : B → List A) (bs : List B) (s : S) :
    run (fun b => run body (f b)) bs s = run body (bs.flatMap f) s := by
  induction bs generalizing s with
  | nil => rfl
  | cons b bs ih =>
      rw [List.flatMap_cons]
      cases hb : (run body (f b) s).2 with
      | none =>
          calc run (fun b => run body (f b)) (b :: bs) s
            _ = run (fun b => run body (f b)) bs (run body (f b) s).1 :=
                @run_cons_of_none _ _ _ (fun b => run body (f b)) _ _ hb bs
            _ = run body (bs.flatMap f) (run body (f b) s).1 := ih _
            _ = run body (f b ++ bs.flatMap f) s := (run_append_of_none hb _).symm
      | some e =>
          calc run (fun b => run body (f b)) (b :: bs) s
            _ = run body (f b) s := @run_cons_of_some _ _ _ (fun b => run body (f b)) _ _ _ hb bs
            _ = run body (f b ++ bs.flatMap f) s := (run_append_of_some hb _).symm

end Stopping
