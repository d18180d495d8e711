import Mathlib.Data.List.Count
import Mathlib.Data.List.Pairwise
import Mathlib.Order.Lattice

/-!
# `Lib.Ranked` — the element at an index of a sorted list

In a sorted list the element at index `k` has a property that holds downwards exactly when more than `k` elements
have it (`holds_iff_lt_countP`), so it depends on the elements and not on the order they came in. `Sorts f ds l`
says that `l` has the values `f` takes on `ds`, in increasing order; two such lists of different functions compare
index by index as the functions do (`Sorts.le_of_imp`, `Sorts.lt_iff_lt`).
-/

namespace Ranked

variable {α ι β γ : Type*}

theorem holds_iff_lt_countP {R : α → α → Prop} {l : List α} (hl : l.Pairwise R) {p : α → Bool}
    (hp : ∀ a b, R a b → p b = true → p a = true) {k : ℕ} (hk : k < l.length) :
    p l[k] = true ↔ k < l.countP p := by
  induction l generalizing k with
  | nil => exact absurd hk (Nat.not_lt_zero k)
  | cons a l ih =>
      obtain ⟨ha, hl⟩ := List.pairwise_cons.mp hl
      cases hpa : p a with
      | true =>
          rw [List.countP_cons_of_pos hpa]
          cases k with
          | zero => simp [hpa]
          | succ k =>
              rw [List.getElem_cons_succ, ih hl (Nat.lt_of_succ_lt_succ hk)]
              omega
      | false =>
          -- What follows `a` is above it.
          have hnone : ∀ b ∈ a :: l, ¬ p b = true := by
            intro b hb hpb
            rcases List.mem_cons.mp hb with rfl | hb
            · exact nomatch hpa.symm.trans hpb
            · exact nomatch hpa.symm.trans (hp a b (ha b hb) hpb)
          rw [List.countP_eq_zero.mpr hnone]
          exact iff_of_false (hnone _ (List.getElem_mem hk)) (Nat.not_lt_zero k)

/-- `l` has the values of `f` on `ds`, in increasing order. -/
structure Sorts [LinearOrder β] (f : ι → β) (ds : List ι) (l : List β) : Prop where
  perm : l.Perm (ds.map f)
  increasing : l.Pairwise (· ≤ ·)

namespace Sorts

variable [LinearOrder β] [LinearOrder γ] {f : ι → β} {g : ι → γ} {ds : List ι} {l : List β} {m : List γ} {k : ℕ}

theorem length_eq (h : Sorts f ds l) : l.length = ds.length := by
  rw [h.perm.length_eq, List.length_map]

theorem holds_iff (h : Sorts f ds l) {p : β → Bool} (hp : ∀ a b, a ≤ b → p b = true → p a = true)
    (hk : k < l.length) : p l[k] = true ↔ k < ds.countP fun d => p (f d) := by
  rw [holds_iff_lt_countP h.increasing hp hk, h.perm.countP_eq, List.countP_map]
  rfl

theorem le_iff (h : Sorts f ds l) (hk : k < l.length) (y : β) : l[k] ≤ y ↔ k < ds.countP fun d => f d ≤ y := by
  have := h.holds_iff (p := fun b => decide (b ≤ y)) (by simpa using fun a b hab hb => le_trans hab hb) hk
  simpa using this

theorem lt_iff (h : Sorts f ds l) (hk : k < l.length) (y : β) : l[k] < y ↔ k < ds.countP fun d => f d < y := by
  have := h.holds_iff (p := fun b => decide (b < y)) (by simpa using fun a b hab hb => lt_of_le_of_lt hab hb) hk
  simpa using this

/-- Where the one function stays below a bound as often as the other, so does the element at each index. -/
theorem lt_iff_lt (hf : Sorts f ds l) (hg : Sorts g ds m) (hl : k < l.length) (hm : k < m.length) {y : β} {z : γ}
    (h : ∀ d ∈ ds, f d < y ↔ g d < z) : l[k] < y ↔ m[k] < z := by
  have hcount : (ds.countP fun d => f d < y) = ds.countP fun d => g d < z := List.countP_congr (by simpa using h)
  rw [hf.lt_iff hl, hg.lt_iff hm, hcount]

theorem le_of_imp (hf : Sorts f ds l) (hg : Sorts g ds m) (hl : k < l.length) (hm : k < m.length) {y : β} {z : γ}
    (h : ∀ d ∈ ds, g d ≤ z → f d ≤ y) (hz : m[k] ≤ z) : l[k] ≤ y := by
  rw [hg.le_iff hm] at hz
  exact (hf.le_iff hl y).mpr (Nat.lt_of_lt_of_le hz (List.countP_mono_left (by simpa using h)))

end Sorts

end Ranked
