import Mathlib.Data.List.Pairwise

/-!
# `Lib.Override` — partial maps laid one over the other

`overlay f g` is the map `g` with `f` behind it. Maps laid over a start one after the other give at each key the
value of the last one that has a value there (`layers_apply`), and their order makes no difference exactly when
no two of them disagree (`layers_perm_iff`).
-/

namespace Override

variable {K V ι : Type*}

/-- `g` laid over `f`. -/
def overlay (f g : K → Option V) : K → Option V := fun k => (g k).or (f k)

/-- The map with no value. -/
def empty : K → Option V := fun _ => .none

/-- Two maps that disagree nowhere. -/
def Compatible (f g : K → Option V) : Prop := ∀ k a b, f k = some a → g k = some b → a = b

/-- The maps of a list laid over `m`, the last on top. -/
def layers (F : ι → K → Option V) (m : K → Option V) (l : List ι) : K → Option V :=
  l.foldl (fun m i => overlay m (F i)) m

theorem overlay_empty (f : K → Option V) : overlay f empty = f := rfl

theorem empty_overlay (f : K → Option V) : overlay empty f = f := by
  funext k
  exact Option.or_none

theorem overlay_self (f g : K → Option V) : overlay (overlay f g) g = overlay f g := by
  funext k
  simp only [overlay]
  cases g k <;> rfl

theorem overlay_assoc (f g h : K → Option V) : overlay (overlay f g) h = overlay f (overlay g h) := by
  funext k
  exact (Option.or_assoc).symm

theorem Compatible.self (f : K → Option V) : Compatible f f := by
  intro k a b ha hb
  exact Option.some.inj (ha.symm.trans hb)

theorem Compatible.symm {f g : K → Option V} (h : Compatible f g) : Compatible g f :=
  fun k a b ha hb => (h k b a hb ha).symm

/-- Compatible maps can be laid on in either order. -/
theorem Compatible.overlay_comm {f g : K → Option V} (h : Compatible f g) (m : K → Option V) :
    overlay (overlay m f) g = overlay (overlay m g) f := by
  funext k
  simp only [overlay]
  cases hf : f k with
  | none => cases hg : g k <;> rfl
  | some a =>
      cases hg : g k with
      | none => rfl
      | some b => rw [h k a b hf hg]

theorem forall_compatible {F : ι → K → Option V} {l : List ι}
    (h : l.Pairwise fun i j => Compatible (F i) (F j)) : ∀ i ∈ l, ∀ j ∈ l, Compatible (F i) (F j) := by
  -- Compatibility is symmetric and reflexive, so a pairwise condition holds of any two members.
  have : Std.Symm (fun i j => Compatible (F i) (F j)) := ⟨fun _ _ h => h.symm⟩
  intro i hi j hj
  exact h.forall_of_forall (fun i _ => Compatible.self (F i)) hi hj

/-- Layers over `m` are one map over `m`. -/
theorem layers_eq_overlay (F : ι → K → Option V) (m : K → Option V) (l : List ι) :
    layers F m l = overlay m (layers F empty l) := by
  induction l generalizing m with
  | nil => rfl
  | cons i l ih =>
      have hleft : layers F m (i :: l) = layers F (overlay m (F i)) l := rfl
      have hright : layers F empty (i :: l) = layers F (overlay empty (F i)) l := rfl
      rw [hleft, hright, ih (overlay m (F i)), ih (overlay empty (F i)), empty_overlay, overlay_assoc]

/-- Layers that a map shows, and one layer more. -/
theorem layers_snoc_of_layers {F : ι → K → Option V} {m : K → Option V} {l : List ι} (h : layers F m l = m) (i : ι) :
    layers F (overlay m (F i)) (l ++ [i]) = overlay m (F i) := by
  have hm : overlay m (layers F empty l) = m := (layers_eq_overlay F m l).symm.trans h
  have hsnoc : layers F (overlay m (F i)) (l ++ [i]) = overlay (layers F (overlay m (F i)) l) (F i) := by
    rw [layers, List.foldl_append]
    rfl
  rw [hsnoc, layers_eq_overlay]
  funext k
  -- Either `i` has the value, or `m` has that of the layers.
  have hk := congrFun hm k
  simp only [overlay] at hk ⊢
  cases F i k with
  | none => simpa using hk
  | some v => rfl

/-- **The last writer wins.** -/
theorem layers_apply (F : ι → K → Option V) (m : K → Option V) (l : List ι) (k : K) :
    layers F m l k = (l.reverse.findSome? (F · k)).or (m k) := by
  induction l generalizing m with
  | nil => rfl
  | cons i l ih =>
      rw [show layers F m (i :: l) = layers F (overlay m (F i)) l from rfl, ih, List.reverse_cons,
        List.findSome?_append, Option.or_assoc]
      congr 1
      simp [overlay]

/-- Layers with no value change nothing. -/
theorem layers_of_empty {F : ι → K → Option V} {l : List ι} (h : ∀ i ∈ l, F i = empty) (m : K → Option V) :
    layers F m l = m := by
  induction l generalizing m with
  | nil => rfl
  | cons i l ih =>
      rw [List.forall_mem_cons] at h
      rw [show layers F m (i :: l) = layers F (overlay m (F i)) l from rfl, h.1, overlay_empty, ih h.2]

/-- Layers that come in groups are the layers of the groups. -/
theorem layers_flatMap {κ : Type*} (F : ι → K → Option V) (g : κ → List ι) (m : K → Option V) (l : List κ) :
    layers F m (l.flatMap g) = layers (fun j => layers F empty (g j)) m l := by
  induction l generalizing m with
  | nil => rfl
  | cons j l ih =>
      have happend : layers F m (g j ++ l.flatMap g) = layers F (layers F m (g j)) (l.flatMap g) := by
        rw [layers, List.foldl_append]
        rfl
      rw [List.flatMap_cons, happend, ih, layers_eq_overlay F m (g j)]
      rfl

/-- Where no two layers disagree, each shows through. -/
theorem layers_of_compatible {F : ι → K → Option V} {l : List ι}
    (hcompat : l.Pairwise fun i j => Compatible (F i) (F j)) {i : ι} (hi : i ∈ l) {k : K} {v : V}
    (hv : F i k = some v) (m : K → Option V) : layers F m l k = some v := by
  have hall := forall_compatible hcompat
  rw [layers_apply]
  cases hlast : l.reverse.findSome? (F · k) with
  | none =>
      have hnone := List.findSome?_eq_none_iff.mp hlast i (List.mem_reverse.mpr hi)
      rw [hv] at hnone
      cases hnone
  | some w =>
      obtain ⟨j, hj, hw⟩ := List.exists_of_findSome?_eq_some hlast
      rw [hall i hi j (List.mem_reverse.mp hj) k v w hv hw]
      rfl

/-- **The order of the layers makes no difference exactly when they are pairwise compatible.** -/
theorem layers_perm_iff (F : ι → K → Option V) (m : K → Option V) (l : List ι) :
    (∀ l', l'.Perm l → layers F m l' = layers F m l) ↔ l.Pairwise fun i j => Compatible (F i) (F j) := by
  constructor
  · intro horder
    rw [List.pairwise_iff_forall_sublist]
    intro i j hsub k a b ha hb
    obtain ⟨rest, hrest⟩ := hsub.exists_perm_append
    -- One order ends with `i`, `j`, the other with `j`, `i`, and the last of them sets `k`.
    have hij : layers F m (rest ++ [i, j]) k = some b := by
      rw [layers_apply]
      simp [hb]
    have hji : layers F m (rest ++ [j, i]) k = some a := by
      rw [layers_apply]
      simp [ha]
    have hperm : (rest ++ [i, j]).Perm l := List.perm_append_comm.trans hrest.symm
    have hperm' : (rest ++ [j, i]).Perm l := (List.Perm.append_left rest (List.Perm.swap i j [])).trans hperm
    rw [horder _ hperm] at hij
    rw [horder _ hperm'] at hji
    exact Option.some.inj (hji.symm.trans hij)
  · intro hpairwise l' hperm
    have hall := forall_compatible hpairwise
    apply hperm.foldl_eq'
    intro i hi j hj m
    exact (hall i (hperm.mem_iff.mp hi) j (hperm.mem_iff.mp hj)).overlay_comm m

end Override
