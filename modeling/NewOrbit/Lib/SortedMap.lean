import Mathlib.Order.Defs.LinearOrder

/-!
# `Lib.SortedMap` — a map kept as its entries in ascending key order

`std::map` iterates in key order, so a map is its list of entries with strictly ascending keys (`Ascending`).
`put` is `m[key] = value`: it keeps the order (`Ascending.put`), is seen at its key only (`get_put`), and building
a map from its own entries gives it back (`foldl_put_entries`) — what a decoder does with the entries an encoder
wrote.
-/

namespace SortedMap

variable {K V : Type} [LT K] [DecidableLT K]

/-- `m[key] = value`. -/
def put [DecidableEq K] (m : List (K × V)) (key : K) (value : V) : List (K × V) :=
  match m with
  | []             => [(key, value)]
  | (k, v) :: rest =>
    if key < k then (key, value) :: (k, v) :: rest
    else if key = k then (key, value) :: rest
    else (k, v) :: put rest key value

/-- `m.find(key)`. -/
def get {K V : Type} [DecidableEq K] (m : List (K × V)) (key : K) : Option V :=
  match m with
  | []             => none
  | (k, v) :: rest => if k = key then some v else get rest key

/-- The keys ascend strictly, so no key occurs twice. -/
def Ascending (m : List (K × V)) : Prop := m.Pairwise fun p q => p.1 < q.1

instance (m : List (K × V)) : Decidable (Ascending m) := inferInstanceAs (Decidable (List.Pairwise _ m))

variable [DecidableEq K]

theorem mem_put {m : List (K × V)} {key : K} {value : V} {p : K × V} (h : p ∈ put m key value) :
    p = (key, value) ∨ p ∈ m := by
  induction m with
  | nil => exact .inl (List.mem_singleton.mp h)
  | cons q rest ih =>
      obtain ⟨k, v⟩ := q
      rw [put] at h
      split at h
      · exact List.mem_cons.mp h
      · split at h
        · exact (List.mem_cons.mp h).imp id (List.mem_cons_of_mem _)
        · rcases List.mem_cons.mp h with h | h
          · exact .inr (h ▸ List.mem_cons_self)
          · exact (ih h).imp id (List.mem_cons_of_mem _)

theorem get_put {m : List (K × V)} (key : K) (value : V) (other : K) :
    get (put m key value) other = if key = other then some value else get m other := by
  induction m with
  | nil => rfl
  | cons q rest ih =>
      obtain ⟨k, v⟩ := q
      rw [put]
      split
      · rfl
      · split
        · rename_i heq
          subst heq
          by_cases ho : key = other
          · simp [get, ho]
          · simp [get, ho]
        · rename_i hne
          rw [get, ih, get]
          by_cases ho : key = other
          · simp [ho, Ne.symm (ho ▸ hne)]
          · simp [ho]

variable [LE K] [Std.IsLinearOrder K] [Std.LawfulOrderLT K]

theorem Ascending.put {m : List (K × V)} (h : Ascending m) (key : K) (value : V) :
    Ascending (SortedMap.put m key value) := by
  induction m with
  | nil => exact List.pairwise_singleton _ _
  | cons q rest ih =>
      obtain ⟨k, v⟩ := q
      obtain ⟨hk, hrest⟩ := List.pairwise_cons.mp h
      rw [SortedMap.put]
      split
      · rename_i hlt
        refine List.pairwise_cons.mpr ⟨fun p hp => ?_, h⟩
        rcases List.mem_cons.mp hp with rfl | hp
        · exact hlt
        · exact Std.lt_trans hlt (hk p hp)
      · split
        · rename_i heq
          subst heq
          exact List.pairwise_cons.mpr ⟨hk, hrest⟩
        · rename_i hnlt hne
          have hlt : k < key := Std.lt_of_le_of_ne (Std.not_lt.mp hnlt) (Ne.symm hne)
          refine List.pairwise_cons.mpr ⟨fun p hp => ?_, ih hrest⟩
          rcases mem_put hp with rfl | hp
          · exact hlt
          · exact hk p hp

/-- A key above all others goes to the end. -/
theorem put_of_above {m : List (K × V)} {key : K} (value : V) (h : ∀ p ∈ m, p.1 < key) :
    put m key value = m ++ [(key, value)] := by
  induction m with
  | nil => rfl
  | cons q rest ih =>
      obtain ⟨k, v⟩ := q
      have hk : k < key := h (k, v) List.mem_cons_self
      have hnlt : ¬ key < k := fun h' => Std.lt_irrefl (Std.lt_trans hk h')
      have hne : key ≠ k := fun h' => Std.lt_irrefl (h' ▸ hk)
      rw [put, if_neg hnlt, if_neg hne, ih fun p hp => h p (List.mem_cons_of_mem _ hp)]
      rfl

/-- Reading the entries of a map one after another behind a map of smaller keys. -/
theorem foldl_put_append {m entries : List (K × V)} (h : Ascending (m ++ entries)) :
    entries.foldl (fun m p => put m p.1 p.2) m = m ++ entries := by
  induction entries generalizing m with
  | nil => exact (List.append_nil m).symm
  | cons p rest ih =>
      have happ : m ++ p :: rest = (m ++ [p]) ++ rest := by simp
      have habove : ∀ q ∈ m, q.1 < p.1 := fun q hq => (List.pairwise_append.mp h).2.2 q hq p List.mem_cons_self
      rw [List.foldl_cons, put_of_above p.2 habove, happ]
      exact ih (happ ▸ h)

theorem foldl_put_entries {entries : List (K × V)} (h : Ascending entries) :
    entries.foldl (fun m p => put m p.1 p.2) [] = entries :=
  foldl_put_append (m := []) h

end SortedMap
