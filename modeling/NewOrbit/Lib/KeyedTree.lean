import Mathlib.Algebra.GroupWithZero.Nat
import Mathlib.Algebra.Order.BigOperators.Group.List
import Mathlib.Algebra.Order.Group.Nat
import Mathlib.Algebra.Order.Monoid.Canonical.Defs
import Mathlib.Data.List.Nodup

/-!
# `Lib.KeyedTree` — finite trees whose branches have keys

A path is a list of keys. `look` says what stands at a path, a leaf or a branch with its keys, and `set` puts
another value at a leaf. That changes what stands at this path and at no other (`look_set`).
-/

/-- A tree with values at its leaves. The keys of a branch are distinct and have an order. -/
inductive KeyedTree (K α : Type*) where
  | leaf (a : α)
  | branch (keys : List K) (nodup : keys.Nodup) (child : ∀ k ∈ keys, KeyedTree K α)

namespace KeyedTree

variable {K α : Type*}

/-- A tree without what is below its root. -/
inductive Label (K α : Type*) where
  | leaf (a : α)
  | branch (keys : List K)

def label : KeyedTree K α → Label K α
  | leaf a          => .leaf a
  | branch keys _ _ => .branch keys

/-- The number of leaves and branches. -/
def size : KeyedTree K α → ℕ
  | leaf _              => 1
  | branch keys _ child => 1 + (keys.attach.map fun k => (child k.1 k.2).size).sum

theorem size_pos (t : KeyedTree K α) : 0 < t.size := by
  cases t with
  | leaf a => exact Nat.one_pos
  | branch keys nodup child => exact Nat.add_pos_left Nat.one_pos _

theorem size_child {keys : List K} (nodup : keys.Nodup) (child : ∀ k ∈ keys, KeyedTree K α) {k : K} (h : k ∈ keys) :
    (child k h).size < (branch keys nodup child).size := by
  have hmem : (child k h).size ∈ keys.attach.map fun k => (child k.1 k.2).size :=
    List.mem_map.mpr ⟨⟨k, h⟩, List.mem_attach keys _, rfl⟩
  have hle := List.le_sum_of_mem hmem
  rw [size]
  omega

variable [DecidableEq K]

/-- The tree at a path. -/
def get? : KeyedTree K α → List K → Option (KeyedTree K α)
  | t,                   []     => some t
  | leaf _,              _ :: _ => none
  | branch keys _ child, k :: p => if h : k ∈ keys then (child k h).get? p else none

def look (t : KeyedTree K α) (p : List K) : Option (Label K α) := (t.get? p).map label

/-- Another value at a leaf. -/
def set : KeyedTree K α → List K → α → KeyedTree K α
  | leaf _,                  [],     a => leaf a
  | branch keys nodup child, k :: p, a =>
      branch keys nodup fun k' h => if k' = k then (child k' h).set p a else child k' h
  | t,                       _,      _ => t

@[simp] theorem look_nil (t : KeyedTree K α) : t.look [] = some t.label := by
  cases t <;> rfl

@[simp] theorem look_leaf_cons (a : α) (k : K) (p : List K) : (leaf a : KeyedTree K α).look (k :: p) = none := rfl

theorem look_branch_cons (keys : List K) (nodup : keys.Nodup) (child : ∀ k ∈ keys, KeyedTree K α) (k : K)
    (p : List K) : (branch keys nodup child).look (k :: p) = if h : k ∈ keys then (child k h).look p else none := by
  rw [look, get?]
  split <;> rfl

/-- **A value that is set stands at its path; nothing else has changed.** -/
theorem look_set {t : KeyedTree K α} {p : List K} {b : α} (h : t.look p = some (.leaf b)) (a : α) (q : List K) :
    (t.set p a).look q = if q = p then some (.leaf a) else t.look q := by
  induction p generalizing t q with
  | nil =>
      cases t with
      | leaf b =>
          cases q with
          | nil => rfl
          | cons k q => rfl
      | branch keys nodup child => simp [label] at h
  | cons k p ih =>
      cases t with
      | leaf b => simp at h
      | branch keys nodup child =>
          rw [look_branch_cons] at h
          cases q with
          | nil => simp [set, label]
          | cons k' q =>
              rw [set, look_branch_cons, look_branch_cons]
              by_cases hk' : k' ∈ keys
              · rw [dif_pos hk', dif_pos hk']
                by_cases heq : k' = k
                · subst heq
                  rw [dif_pos hk'] at h
                  rw [if_pos rfl, ih h]
                  simp
                · simp [heq]
              · have hne : k' ≠ k := by
                  rintro rfl
                  simp [hk'] at h
                simp [hk', hne]

/-- The value of the leaf at a path. -/
def leafAt (t : KeyedTree K α) (p : List K) : Option α :=
  match t.look p with
  | some (.leaf a) => some a
  | _              => none

theorem leafAt_eq_some {t : KeyedTree K α} {p : List K} {a : α} :
    t.leafAt p = some a ↔ t.look p = some (.leaf a) := by
  unfold leafAt
  split
  · rename_i b h
    simp [h]
  · rename_i h
    exact iff_of_false (by simp) (h a)

theorem leafAt_set {t : KeyedTree K α} {p : List K} {b : α} (h : t.leafAt p = some b) (a : α) (q : List K) :
    (t.set p a).leafAt q = if q = p then some a else t.leafAt q := by
  rw [leafAt, look_set (leafAt_eq_some.mp h)]
  by_cases hq : q = p
  · rw [if_pos hq, if_pos hq]
  · rw [if_neg hq, if_neg hq]
    rfl

/-! ## Longer paths -/

theorem get?_append (t : KeyedTree K α) (p q : List K) : t.get? (p ++ q) = (t.get? p).bind fun t' => t'.get? q := by
  induction p generalizing t with
  | nil => cases t <;> rfl
  | cons k p ih =>
      cases t with
      | leaf a => rfl
      | branch keys nodup child =>
          rw [List.cons_append, get?, get?]
          split
          · exact ih _
          · rfl

theorem look_append (t : KeyedTree K α) (p q : List K) : t.look (p ++ q) = (t.get? p).bind fun t' => t'.look q := by
  rw [look, get?_append]
  cases t.get? p <;> rfl

/-- Below a leaf there is nothing. -/
theorem look_append_of_leaf {t : KeyedTree K α} {p : List K} {a : α} (h : t.look p = some (.leaf a)) (k : K)
    (q : List K) : t.look (p ++ k :: q) = none := by
  rw [look_append]
  obtain ⟨t', ht', hlabel⟩ := Option.map_eq_some_iff.mp h
  cases t' with
  | leaf b => rw [ht']; rfl
  | branch keys nodup child => cases hlabel

theorem look_append_of_none {t : KeyedTree K α} {p : List K} (h : t.look p = none) (q : List K) :
    t.look (p ++ q) = none := by
  rw [look_append, Option.map_eq_none_iff.mp h]
  rfl

/-- The keys of the branch at a path. -/
def keysAt (t : KeyedTree K α) (p : List K) : List K :=
  match t.look p with
  | some (.branch keys) => keys
  | _                   => []

theorem nodup_keysAt (t : KeyedTree K α) (p : List K) : (t.keysAt p).Nodup := by
  rw [keysAt, look]
  cases t.get? p with
  | none => exact List.nodup_nil
  | some t' =>
      cases t' with
      | leaf a => exact List.nodup_nil
      | branch keys nodup child => exact nodup

theorem keysAt_set {t : KeyedTree K α} {p : List K} {b : α} (h : t.look p = some (.leaf b)) (a : α) (q : List K) :
    (t.set p a).keysAt q = t.keysAt q := by
  rw [keysAt, look_set h]
  by_cases hq : q = p
  · rw [if_pos hq, keysAt, hq, h]
  · rw [if_neg hq]
    rfl

/-- A key of a branch leads to one of its children, and any other to nothing. -/
theorem look_snoc_eq_none_iff {t : KeyedTree K α} {p : List K} {k : K} :
    t.look (p ++ [k]) = none ↔ k ∉ t.keysAt p := by
  rw [look_append, keysAt, look]
  cases t.get? p with
  | none => simp
  | some t' =>
      cases t' with
      | leaf a => simp [label]
      | branch keys nodup child => simp [label, look_branch_cons]

theorem mem_keysAt_of_look {t : KeyedTree K α} {p : List K} {k : K} {l : Label K α}
    (h : t.look (p ++ [k]) = some l) : k ∈ t.keysAt p := by
  by_contra hk
  rw [look_snoc_eq_none_iff.mpr hk] at h
  cases h

theorem exists_look_of_mem_keysAt {t : KeyedTree K α} {p : List K} {k : K} (h : k ∈ t.keysAt p) :
    ∃ l, t.look (p ++ [k]) = some l :=
  Option.ne_none_iff_exists'.mp fun hnone => look_snoc_eq_none_iff.mp hnone h

end KeyedTree
