import Mathlib.Data.List.Forall2
import Mathlib.Data.List.Nodup
import Mathlib.Data.List.Perm.Subperm

/-!
# `Lib.LinkedMap` — maps that keep the order in which their keys were put

A `LinkedMap` is its distinct keys, in the order they were first put, and a value at each of them: the entries
of a hash map threaded on a linked list. A key cannot occur twice, so the size counts what `get` can find
(`get_eq_of_size_le`), and two maps hold the same entries when they agree under `get`, whatever their order.
-/

/-- A finite map with its keys in insertion order. -/
structure LinkedMap (K V : Type*) where
  keys  : List K
  nodup : keys.Nodup
  value : ∀ k ∈ keys, V

namespace LinkedMap

variable {K V W : Type*} [DecidableEq K]

/-- The value at `k`, if `k` is a key. -/
def get (m : LinkedMap K V) (k : K) : Option V :=
  if h : k ∈ m.keys then some (m.value k h) else none

def size (m : LinkedMap K V) : Nat := m.keys.length

def empty : LinkedMap K V where
  keys  := []
  nodup := List.nodup_nil
  value := fun _ h => absurd h List.not_mem_nil

/-- A new value keeps the place of its key; a new key goes to the end. -/
def put (m : LinkedMap K V) (k : K) (v : V) : LinkedMap K V where
  keys  := if k ∈ m.keys then m.keys else m.keys ++ [k]
  nodup := by
    split
    · exact m.nodup
    · next h =>
        rw [List.nodup_append]
        refine ⟨m.nodup, List.nodup_singleton k, ?_⟩
        intro a ha b hb hab
        rw [List.mem_singleton.mp hb] at hab
        exact h (hab ▸ ha)
  value := fun k' h' => if hk : k' = k then v else m.value k' (by
    split at h'
    · exact h'
    · exact (List.mem_append.mp h').resolve_right (fun hs => hk (List.mem_singleton.mp hs)))

/-- A new key in front of the others. -/
def cons (k : K) (v : V) (m : LinkedMap K V) (h : k ∉ m.keys) : LinkedMap K V where
  keys  := k :: m.keys
  nodup := List.nodup_cons.mpr ⟨h, m.nodup⟩
  value := fun k' h' => if hk : k' = k then v else m.value k' ((List.mem_cons.mp h').resolve_left hk)

def erase (m : LinkedMap K V) (k : K) : LinkedMap K V where
  keys  := m.keys.filter (· ≠ k)
  nodup := m.nodup.filter _
  value := fun k' h' => m.value k' (List.mem_filter.mp h').1

def map (f : V → W) (m : LinkedMap K V) : LinkedMap K W where
  keys  := m.keys
  nodup := m.nodup
  value := fun k h => f (m.value k h)

/-- Every entry of `n` put into `m`, in the order of `n`. -/
def putAll (m n : LinkedMap K V) : LinkedMap K V :=
  n.keys.attach.foldl (fun m k => m.put k.1 (n.value k.1 k.2)) m

/-! ## Keys -/

omit [DecidableEq K] in
@[simp] theorem size_map (f : V → W) (m : LinkedMap K V) : (m.map f).size = m.size := rfl

theorem notMem_keys_erase (m : LinkedMap K V) (k : K) : k ∉ (m.erase k).keys := by
  intro h
  simpa using (List.mem_filter.mp h).2

theorem mem_keys_put {m : LinkedMap K V} {k k' : K} {v : V} :
    k' ∈ (m.put k v).keys ↔ k' = k ∨ k' ∈ m.keys := by
  by_cases h : k ∈ m.keys
  · simp only [put, if_pos h]
    constructor
    · exact Or.inr
    · rintro (rfl | hk)
      · exact h
      · exact hk
  · simp [put, if_neg h, or_comm]

/-! ## Values -/

theorem get_of_mem {m : LinkedMap K V} {k : K} (h : k ∈ m.keys) : m.get k = some (m.value k h) := dif_pos h

theorem get_of_notMem {m : LinkedMap K V} {k : K} (h : k ∉ m.keys) : m.get k = none := dif_neg h

theorem get_eq_none_iff {m : LinkedMap K V} {k : K} : m.get k = none ↔ k ∉ m.keys := by
  by_cases h : k ∈ m.keys
  · simp [get_of_mem h, h]
  · simp [get_of_notMem h, h]

theorem mem_keys_of_get {m : LinkedMap K V} {k : K} {v : V} (h : m.get k = some v) : k ∈ m.keys := by
  by_contra hk
  rw [get_of_notMem hk] at h
  cases h

@[simp] theorem get_put (m : LinkedMap K V) (k : K) (v : V) (k' : K) :
    (m.put k v).get k' = if k' = k then some v else m.get k' := by
  by_cases hk : k' = k
  · rw [if_pos hk, get_of_mem (mem_keys_put.mpr (Or.inl hk))]
    simp [put, hk]
  · rw [if_neg hk]
    by_cases hm : k' ∈ m.keys
    · rw [get_of_mem (mem_keys_put.mpr (Or.inr hm)), get_of_mem hm]
      simp [put, hk]
    · rw [get_of_notMem hm, get_of_notMem]
      rw [mem_keys_put]
      rintro (h | h)
      · exact hk h
      · exact hm h

@[simp] theorem get_cons (k : K) (v : V) (m : LinkedMap K V) (h : k ∉ m.keys) (k' : K) :
    (cons k v m h).get k' = if k' = k then some v else m.get k' := by
  by_cases hk : k' = k
  · simp [get, cons, hk]
  · by_cases hm : k' ∈ m.keys
    · simp [get, cons, hk, hm]
    · simp [get, cons, hk, hm]

@[simp] theorem get_map (f : V → W) (m : LinkedMap K V) (k : K) : (m.map f).get k = (m.get k).map f := by
  by_cases h : k ∈ m.keys
  · rw [get_of_mem h, get_of_mem (m := m.map f) h]
    rfl
  · rw [get_of_notMem h, get_of_notMem (m := m.map f) h]
    rfl

@[simp] theorem get_erase (m : LinkedMap K V) (k k' : K) :
    (m.erase k).get k' = if k' = k then none else m.get k' := by
  by_cases hk : k' = k
  · rw [if_pos hk, hk, get_of_notMem (notMem_keys_erase m k)]
  · rw [if_neg hk]
    by_cases hm : k' ∈ m.keys
    · have he : k' ∈ (m.erase k).keys := List.mem_filter.mpr ⟨hm, decide_eq_true hk⟩
      rw [get_of_mem he, get_of_mem hm]
      rfl
    · have he : k' ∉ (m.erase k).keys := fun h => hm (List.mem_of_mem_filter h)
      rw [get_of_notMem he, get_of_notMem hm]

/-- Two maps with the same keys in the same order and the same values are one. -/
theorem ext {m n : LinkedMap K V} (hkeys : m.keys = n.keys) (hget : ∀ k, m.get k = n.get k) : m = n := by
  obtain ⟨ks, hks, f⟩ := m
  obtain ⟨ks', _, g⟩ := n
  cases hkeys
  have hfg : f = g := by
    funext k h
    have hk := hget k
    rw [get_of_mem (m := ⟨ks, hks, f⟩) h, get_of_mem (m := ⟨ks, hks, g⟩) h] at hk
    exact Option.some.inj hk
  rw [hfg]

/-- Erasing a key that is not there changes nothing. -/
theorem erase_of_notMem {m : LinkedMap K V} {k : K} (h : k ∉ m.keys) : m.erase k = m := by
  have hkeys : (m.erase k).keys = m.keys := by
    apply List.filter_eq_self.mpr
    intro k' hk'
    simpa using fun he : k' = k => h (he ▸ hk')
  apply ext hkeys
  intro k'
  by_cases hk' : k' ∈ m.keys
  · rw [get_of_mem hk', get_of_mem (hkeys ▸ hk')]
    rfl
  · rw [get_of_notMem hk', get_of_notMem (hkeys ▸ hk')]

/-- **`putAll` overrides**: the value at `k` is that of `n` if `n` has one, and the old one if not. -/
theorem get_putAll (m n : LinkedMap K V) (k : K) : (m.putAll n).get k = (n.get k).or (m.get k) := by
  have main : ∀ (l : List {k // k ∈ n.keys}) (m : LinkedMap K V),
      (l.foldl (fun m k => m.put k.1 (n.value k.1 k.2)) m).get k =
        if k ∈ l.map Subtype.val then (n.get k).or (m.get k) else m.get k := by
    intro l
    -- After the keys of `l` are put, those in `l` have the value of `n` and the others their old one.
    induction l with
    | nil => intro m; simp
    | cons a l ih =>
        intro m
        rw [List.foldl_cons, ih, get_put]
        by_cases hka : k = a.1
        · subst hka
          simp [get_of_mem a.2]
        · simp [hka]
  rw [putAll, main, List.attach_map_subtype_val]
  by_cases hk : k ∈ n.keys
  · rw [if_pos hk]
  · rw [if_neg hk, get_of_notMem hk, Option.none_or]

/-! ## Putting a list of entries -/

section Last
variable {α : Type*} (key : α → K)

/-- The last of a list with the key `k`. -/
def lastWith (k : K) (l : List α) : Option α := l.reverse.find? fun a => key a = k

variable {key}

theorem lastWith_cons (k : K) (a : α) (l : List α) :
    lastWith key k (a :: l) = (lastWith key k l).or (if key a = k then some a else none) := by
  rw [lastWith, List.reverse_cons, List.find?_append, List.find?_singleton]
  simp only [decide_eq_true_eq]
  rfl

theorem lastWith_eq_some {k : K} {l : List α} {a : α} (h : lastWith key k l = some a) : a ∈ l ∧ key a = k := by
  have hmem := List.mem_of_find?_eq_some h
  have hkey := List.find?_some h
  exact ⟨List.mem_reverse.mp hmem, of_decide_eq_true hkey⟩

theorem exists_lastWith {k : K} {l : List α} {a : α} (ha : a ∈ l) (hk : key a = k) :
    ∃ b, lastWith key k l = some b := by
  rw [← Option.isSome_iff_exists, lastWith, List.find?_isSome]
  exact ⟨a, List.mem_reverse.mpr ha, decide_eq_true hk⟩

/-- **The last value put at a key is the one found there.** -/
theorem get_foldl_put {R : α → K × V → Prop} (hkey : ∀ a e, R a e → key a = e.1) {l : List α} {es : List (K × V)}
    (h : List.Forall₂ R l es) (m : LinkedMap K V) (k : K) :
    match lastWith key k l with
    | some a => ∃ v, (es.foldl (fun m e => m.put e.1 e.2) m).get k = some v ∧ R a (k, v)
    | none   => (es.foldl (fun m e => m.put e.1 e.2) m).get k = m.get k := by
  induction h generalizing m with
  | nil => rfl
  | @cons a e l es hae _ ih =>
      have hput := ih (m.put e.1 e.2)
      rw [lastWith_cons, List.foldl_cons]
      cases hlast : lastWith key k l with
      | some b =>
          rw [hlast] at hput
          exact hput
      | none =>
          rw [hlast] at hput
          have hae' := hkey a e hae
          by_cases hk : key a = k
          · rw [if_pos hk, Option.none_or]
            refine ⟨e.2, ?_, ?_⟩
            · rw [hput, get_put, if_pos (hk.symm.trans hae')]
            · rw [← hk, hae']
              exact hae
          · rw [if_neg hk, Option.none_or]
            rw [hput, get_put, if_neg (fun h => hk (hae'.trans h.symm))]

end Last

/-! ## Comparing by size and a walk over one map -/

/-- A map that has, at each key of `m`, the value of `m`, and is no larger, is `m` as far as `get` can see. -/
theorem get_eq_of_size_le {m n : LinkedMap K V} (hsize : n.size ≤ m.size)
    (hwalk : ∀ k ∈ m.keys, n.get k = m.get k) (k : K) : n.get k = m.get k := by
  by_cases hk : k ∈ m.keys
  · exact hwalk k hk
  · have hsub : m.keys.Subperm n.keys := by
      apply m.nodup.subperm
      intro k' hk'
      have hget := hwalk k' hk'
      rw [get_of_mem hk'] at hget
      exact mem_keys_of_get hget
    -- `n` has the keys of `m` and no more of them, so it has no others.
    have hperm : m.keys.Perm n.keys := hsub.perm_of_length_le hsize
    rw [get_of_notMem hk, get_of_notMem (fun h => hk (hperm.mem_iff.mpr h))]

end LinkedMap
