import Mathlib.Data.List.Nodup

/-!
# `Lib.Distinct` — lists that take one element per key

`add` appends an element unless its key is taken. Adding twice is adding once (`add_add_self`); adding a list of
elements changes nothing exactly when every key was taken before (`foldl_add_eq_self_iff`), and appends the
whole list when no key occurs twice (`foldl_add_of_nodup`).
-/

namespace Distinct

variable {α κ : Type*} [DecidableEq κ] (key : α → κ)

/-- Append `x`, or leave the list alone when it has an element with the key of `x`. -/
def add (l : List α) (x : α) : List α := if key x ∈ l.map key then l else l ++ [x]

variable {key} {l : List α} {x : α}

theorem add_of_mem (h : key x ∈ l.map key) : add key l x = l := if_pos h

theorem add_of_not_mem (h : key x ∉ l.map key) : add key l x = l ++ [x] := if_neg h

theorem mem_keys_add {k : κ} : k ∈ (add key l x).map key ↔ k ∈ l.map key ∨ k = key x := by
  by_cases h : key x ∈ l.map key
  · rw [add_of_mem h]
    refine ⟨Or.inl, ?_⟩
    rintro (hk | rfl)
    · exact hk
    · exact h
  · rw [add_of_not_mem h, List.map_append, List.mem_append, List.map_singleton, List.mem_singleton]

theorem add_add_self : add key (add key l x) x = add key l x :=
  add_of_mem (mem_keys_add.mpr (Or.inr rfl))

theorem add_ne_nil : add key l x ≠ [] := by
  intro h
  have hmem : key x ∈ (add key l x).map key := mem_keys_add.mpr (Or.inr rfl)
  rw [h] at hmem
  cases hmem

/-- The keys after adding a list of elements. -/
theorem mem_keys_foldl {k : κ} (xs : List α) (l : List α) :
    k ∈ (xs.foldl (add key) l).map key ↔ k ∈ l.map key ∨ k ∈ xs.map key := by
  induction xs generalizing l with
  | nil => simp
  | cons x xs ih => rw [List.foldl_cons, ih, mem_keys_add, List.map_cons, List.mem_cons, or_assoc]

/-- **Adding changes nothing exactly when every key is taken.** -/
theorem foldl_add_eq_self_iff {xs l : List α} :
    xs.foldl (add key) l = l ↔ ∀ x ∈ xs, key x ∈ l.map key := by
  constructor
  · intro h x hx
    rw [← h]
    exact (mem_keys_foldl xs l).mpr (Or.inr (List.mem_map_of_mem hx))
  · intro h
    induction xs with
    | nil => rfl
    | cons x xs ih =>
        rw [List.foldl_cons, add_of_mem (h x List.mem_cons_self)]
        exact ih fun y hy => h y (List.mem_cons_of_mem _ hy)

/-- **Elements with keys of their own are appended as they are.** -/
theorem foldl_add_of_nodup {xs l : List α} (h : ((l ++ xs).map key).Nodup) : xs.foldl (add key) l = l ++ xs := by
  induction xs generalizing l with
  | nil => simp
  | cons x xs ih =>
      have hx : key x ∉ l.map key := by
        intro hmem
        rw [List.map_append, List.map_cons] at h
        exact List.disjoint_of_nodup_append h hmem List.mem_cons_self
      rw [List.foldl_cons, add_of_not_mem hx, ih (by simpa using h), List.append_assoc, List.singleton_append]

end Distinct
