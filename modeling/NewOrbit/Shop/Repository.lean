import Mathlib.Data.List.Nodup

/-!
# `Shop.Repository` — the store behind a core service

One Spring Data repository: the saved rows in insertion order. Every row carries what the persistence layer
adds to the entity (`@Id`, `@Version`); the unique index of the entity class is an invariant of the type, so
is the freshness of the generated ids. `save` refuses a second row with the same index key, and a row that the
database itself does not take (`refuses`: a text that is longer than its column, a document that is too large);
what these are is left open. A save that is refused changes nothing.
-/

namespace NewOrbit.Shop

/-- An entity as it is stored: the generated id and version next to the entity's own fields. -/
structure Saved (α : Type) where
  id : Nat
  version : Nat
  entity : α
  deriving DecidableEq, Repr

/-- An entity class: the product it belongs to, and the columns of its unique index, which always include
    the product. -/
class UniqueIndex (α : Type) (κ : outParam Type) where
  productId : α → Int
  uniqueKey : α → κ
  productId_of_key : ∀ a b, uniqueKey a = uniqueKey b → productId a = productId b

export UniqueIndex (productId uniqueKey)

/-- What a refused save throws. The first is a case of the second in Spring; here the second stands for the rest. -/
inductive DataAccessException
  | DuplicateKeyException
  | DataIntegrityViolationException
  deriving DecidableEq, Repr

/-- `refuses` are the rows that the database does not take whatever it holds. -/
structure Repository (α : Type) {κ : Type} [UniqueIndex α κ] where
  refuses : α → Bool
  rows : List (Saved α)
  nextId : Nat
  unique : (rows.map fun r => uniqueKey r.entity).Nodup
  ids_nodup : (rows.map Saved.id).Nodup
  ids_lt : ∀ r ∈ rows, r.id < nextId

namespace Repository

variable {α κ : Type} [UniqueIndex α κ]

/-- No rows yet. -/
def empty (refuses : α → Bool) : Repository α := ⟨refuses, [], 0, List.nodup_nil, List.nodup_nil, by simp⟩

/-- `repository.findByProductId` -/
def findByProductId (repo : Repository α) (pid : Int) : List (Saved α) :=
  repo.rows.filter fun r => productId r.entity = pid

/-- Keep the rows that satisfy `p`. -/
def restrict (repo : Repository α) (p : Saved α → Bool) : Repository α where
  refuses := repo.refuses
  rows := repo.rows.filter p
  nextId := repo.nextId
  unique := repo.unique.sublist (List.filter_sublist.map _)
  ids_nodup := repo.ids_nodup.sublist (List.filter_sublist.map _)
  ids_lt := fun r hr => repo.ids_lt r (List.mem_of_mem_filter hr)

/-- `repository.delete`: the row with the entity's id goes. -/
def delete (repo : Repository α) (row : Saved α) : Repository α := repo.restrict fun r => r.id ≠ row.id

/-- `repository.deleteAll` over the given rows. -/
def deleteAll (repo : Repository α) (list : List (Saved α)) : Repository α := list.foldl delete repo

/-- `repository.save` of a new entity: a fresh id and version 0. -/
def save [DecidableEq κ] (repo : Repository α) (entity : α) : Except DataAccessException (Repository α × Saved α) :=
  if repo.refuses entity then .error .DataIntegrityViolationException
  else if h : uniqueKey entity ∈ repo.rows.map fun r => uniqueKey r.entity then .error .DuplicateKeyException
  else
    let row : Saved α := ⟨repo.nextId, 0, entity⟩
    .ok ({ refuses := repo.refuses
           rows := repo.rows ++ [row]
           nextId := repo.nextId + 1
           unique := by
             rw [List.map_append]
             exact repo.unique.append (List.nodup_singleton _) (by simpa using h)
           ids_nodup := by
             rw [List.map_append]
             refine repo.ids_nodup.append (List.nodup_singleton _) ?_
             intro i hi hi'
             obtain ⟨r, hr, rfl⟩ := List.mem_map.mp hi
             have := repo.ids_lt r hr
             simp [row] at hi'
             omega
           ids_lt := by
             intro r hr
             rcases List.mem_append.mp hr with hr | hr
             · exact Nat.lt_succ_of_lt (repo.ids_lt r hr)
             · rw [List.mem_singleton.mp hr]; exact Nat.lt_succ_self _ }, row)

/-- What the store holds, without generated ids and versions. -/
def entities (repo : Repository α) : List α := repo.rows.map Saved.entity

/-- What the store holds for one product, without generated ids and versions. -/
def content (repo : Repository α) (pid : Int) : List α := (repo.findByProductId pid).map Saved.entity

/-! ## What the operations do to the rows -/

@[simp] theorem rows_restrict (repo : Repository α) (p : Saved α → Bool) :
    (repo.restrict p).rows = repo.rows.filter p := rfl

theorem mem_findByProductId {repo : Repository α} {pid : Int} {r : Saved α} :
    r ∈ repo.findByProductId pid ↔ r ∈ repo.rows ∧ productId r.entity = pid := by
  simp [findByProductId]

@[simp] theorem refuses_restrict (repo : Repository α) (p : Saved α → Bool) :
    (repo.restrict p).refuses = repo.refuses := rfl

@[simp] theorem refuses_deleteAll (repo : Repository α) (list : List (Saved α)) :
    (repo.deleteAll list).refuses = repo.refuses := by
  induction list generalizing repo with
  | nil => rfl
  | cons d ds ih => exact ih (repo.delete d)

theorem rows_deleteAll (repo : Repository α) (list : List (Saved α)) :
    (repo.deleteAll list).rows = repo.rows.filter fun r => ∀ d ∈ list, r.id ≠ d.id := by
  induction list generalizing repo with
  | nil => simp [deleteAll]
  | cons d ds ih =>
      show ((repo.delete d).deleteAll ds).rows = _
      rw [ih, delete, rows_restrict, List.filter_filter]
      apply List.filter_congr
      intro r _
      simp [Bool.and_comm]

/-- Rows are determined by their id. -/
theorem eq_of_id_eq (repo : Repository α) {r d : Saved α} (hr : r ∈ repo.rows) (hd : d ∈ repo.rows)
    (h : r.id = d.id) : r = d := List.inj_on_of_nodup_map repo.ids_nodup hr hd h

/-- Deleting what `findByProductId` returned leaves the rows of the other products. -/
theorem rows_deleteAll_find (repo : Repository α) (pid : Int) :
    (repo.deleteAll (repo.findByProductId pid)).rows
      = repo.rows.filter fun r => productId r.entity ≠ pid := by
  rw [rows_deleteAll]
  apply List.filter_congr
  intro r hr
  rw [decide_eq_decide]
  constructor
  · intro h hp
    exact h r (mem_findByProductId.mpr ⟨hr, hp⟩) rfl
  · -- An id that is deleted is the row's own, so the row is of the product after all.
    intro h d hd hid
    obtain ⟨hd, hp⟩ := mem_findByProductId.mp hd
    exact h (repo.eq_of_id_eq hr hd hid ▸ hp)

/-- **What a save does**: it refuses the row, on one of two grounds, or appends it. -/
theorem save_cases [DecidableEq κ] (repo : Repository α) (e : α) :
    (∃ ex, repo.save e = .error ex ∧ (repo.refuses e = true ∨ uniqueKey e ∈ repo.entities.map uniqueKey)) ∨
    (∃ repo' row, repo.save e = .ok (repo', row) ∧ repo.refuses e = false ∧
      uniqueKey e ∉ repo.entities.map uniqueKey ∧ repo'.refuses = repo.refuses ∧
      repo'.rows = repo.rows ++ [row] ∧ row.entity = e) := by
  have hkeys : repo.entities.map uniqueKey = repo.rows.map fun r => uniqueKey r.entity := List.map_map
  rw [hkeys]
  unfold save
  by_cases hrefuses : repo.refuses e = true
  · exact .inl ⟨_, if_pos hrefuses, .inl hrefuses⟩
  rw [if_neg hrefuses]
  by_cases hkey : uniqueKey e ∈ repo.rows.map fun r => uniqueKey r.entity
  · exact .inl ⟨_, dif_pos hkey, .inr hkey⟩
  · exact .inr ⟨_, _, dif_neg hkey, Bool.eq_false_iff.mpr hrefuses, hkey, rfl, rfl, rfl⟩

/-! ## What the operations do to the content -/

theorem mem_content {repo : Repository α} {pid : Int} {e : α} :
    e ∈ repo.content pid ↔ (∃ r ∈ repo.rows, r.entity = e) ∧ productId e = pid := by
  simp only [content, List.mem_map, mem_findByProductId]
  constructor
  · rintro ⟨r, ⟨hr, hp⟩, rfl⟩; exact ⟨⟨r, hr, rfl⟩, hp⟩
  · rintro ⟨⟨r, hr, rfl⟩, hp⟩; exact ⟨r, ⟨hr, hp⟩, rfl⟩

/-- A key is taken exactly when the product holds an entity with it. -/
theorem key_mem_entities {repo : Repository α} {e : α} :
    uniqueKey e ∈ repo.entities.map uniqueKey ↔ uniqueKey e ∈ (repo.content (productId e)).map uniqueKey := by
  rw [entities, List.map_map, List.mem_map, List.mem_map]
  constructor
  · rintro ⟨r, hr, hk⟩
    exact ⟨r.entity, mem_content.mpr ⟨⟨r, hr, rfl⟩, UniqueIndex.productId_of_key _ _ hk⟩, hk⟩
  · rintro ⟨a, ha, hk⟩
    obtain ⟨⟨r, hr, rfl⟩, _⟩ := mem_content.mp ha
    exact ⟨r, hr, hk⟩

theorem entities_append {repo repo' : Repository α} {row : Saved α} (h : repo'.rows = repo.rows ++ [row]) :
    repo'.entities = repo.entities ++ [row.entity] := by
  rw [entities, h, List.map_append]
  rfl

theorem entities_deleteAll_find (repo : Repository α) (pid : Int) :
    (repo.deleteAll (repo.findByProductId pid)).entities = repo.entities.filter (productId · ≠ pid) := by
  rw [entities, rows_deleteAll_find, entities, List.filter_map]
  rfl

theorem content_deleteAll_find (repo : Repository α) (pid k : Int) :
    (repo.deleteAll (repo.findByProductId pid)).content k = if k = pid then [] else repo.content k := by
  unfold content findByProductId
  have hrows := repo.rows_deleteAll_find pid
  unfold findByProductId at hrows
  rw [hrows, List.filter_filter]
  split
  · next hk =>
      subst hk
      rw [List.map_eq_nil_iff, List.filter_eq_nil_iff]
      intro r _; simp
  · next hk =>
      congr 1
      apply List.filter_congr
      intro r _
      by_cases hp : productId r.entity = k
      · simp [hp, hk]
      · simp [hp]

theorem content_append {repo repo' : Repository α} {row : Saved α} (h : repo'.rows = repo.rows ++ [row]) (k : Int) :
    repo'.content k = repo.content k ++ if k = productId row.entity then [row.entity] else [] := by
  unfold content findByProductId
  rw [h, List.filter_append, List.map_append]
  by_cases hk : productId row.entity = k
  · simp [hk]
  · simp [hk, Ne.symm hk]

end Repository

end NewOrbit.Shop
