import NewOrbit.Lib.Redelivery
import NewOrbit.Shop.Services

/-!
# `Shop.Redelivery` — the message processors and redelivered events

An event that is redelivered is processed again. A create of an entity that is there is refused by the unique index,
one that the database did not take is not taken again, a delete of what is gone deletes nothing, and an event whose
processing throws leaves the store as it was; so on the entities of a store — its rows without generated ids — every
event acts idempotently (`actOnAll_idem`), and redelivery leaves the same entities (`redelivered_entities`).
-/

namespace NewOrbit.Shop

open Redelivery

section Shape

variable {α β κ : Type} [UniqueIndex α κ] [DecidableEq κ] (pid : β → Int) (apiToEntity : β → α)
  (entityToApi : α → β) (onError : DataAccessException → β → ServiceError)

/-- The effect of an event on the entities of a store that refuses some rows. -/
def actOnAll (refuses : α → Bool) (l : List α) (event : Event β) : List α :=
  match event.eventType, event.data with
  | .create, some data =>
      if pid data < 1 ∨ refuses (apiToEntity data) then l else Distinct.add uniqueKey l (apiToEntity data)
  | .create, none      => l
  | .delete, _         => if event.key < 1 then l else l.filter (productId · ≠ event.key)

theorem actOnAll_idem (refuses : α → Bool) (l : List α) (event : Event β) :
    actOnAll pid apiToEntity refuses (actOnAll pid apiToEntity refuses l event) event
      = actOnAll pid apiToEntity refuses l event := by
  obtain ⟨type, key, data⟩ := event
  cases type with
  | create =>
      cases data with
      | none => rfl
      | some data =>
          simp only [actOnAll]
          split
          · rfl
          · exact Distinct.add_add_self
  | delete =>
      simp only [actOnAll]
      split
      · rfl
      · rw [List.filter_filter]
        exact List.filter_congr fun e _ => Bool.and_self _

/-- **What the delivery of an event does to the entities**, whatever the event's key and data. -/
theorem entities_attempts (n : Nat) (repo : Repository α) (event : Event β) :
    (attempts (processEvent (createEntity pid apiToEntity entityToApi onError) deleteEntities) event (n + 1)
      repo).entities = actOnAll pid apiToEntity repo.refuses repo.entities event := by
  rw [attempts_eq]
  obtain ⟨type, key, data⟩ := event
  cases type with
  | delete =>
      simp only [processEvent, deleteEntities, actOnAll]
      split
      · rfl
      · exact repo.entities_deleteAll_find key
  | create =>
      cases data with
      | none => rfl
      | some data =>
          simp only [processEvent, actOnAll]
          rcases orKeep_createEntity pid apiToEntity entityToApi onError repo data with
            ⟨hkept, hwhy⟩ | ⟨repo', row, hadded, hlt, hrefuses, hnew, _, hrows, hrow⟩
          · rw [hkept]
            rcases or_assoc.mpr hwhy with hout | hmem
            · rw [if_pos hout]
            · rw [Distinct.add_of_mem hmem, ite_self]
          · have htaken : ¬ (pid data < 1 ∨ repo.refuses (apiToEntity data) = true) := by simp [hlt, hrefuses]
            rw [hadded, if_neg htaken, Distinct.add_of_not_mem hnew, Repository.entities_append hrows, hrow]

/-- What the store refuses and its entities, as one view: the first part stays, the second is acted on. -/
def view (repo : Repository α) : (α → Bool) × List α := (repo.refuses, repo.entities)

/-- Redelivery to a consumer of the common shape. -/
theorem entities_foldl_attempts (n : Nat) {es es' : List (Event β)} (h : Redelivers es es') (repo : Repository α) :
    (es'.foldl (fun repo event => attempts (processEvent (createEntity pid apiToEntity entityToApi onError)
        deleteEntities) event (n + 1) repo) repo).entities
      = (es.foldl (fun repo event => attempts (processEvent (createEntity pid apiToEntity entityToApi onError)
        deleteEntities) event (n + 1) repo) repo).entities := by
  let act : (α → Bool) × List α → Event β → (α → Bool) × List α :=
    fun v e => (v.1, actOnAll pid apiToEntity v.1 v.2 e)
  have hact : ∀ repo event, view (attempts (processEvent (createEntity pid apiToEntity entityToApi onError)
      deleteEntities) event (n + 1) repo) = act (view repo) event := fun repo event =>
    Prod.ext (refuses_attempts pid apiToEntity entityToApi onError n repo event)
      (entities_attempts pid apiToEntity entityToApi onError n repo event)
  have hidem : ∀ v event, act (act v event) event = act v event :=
    fun v event => Prod.ext rfl (actOnAll_idem pid apiToEntity v.1 v.2 event)
  exact congrArg Prod.snd (h.view_foldl hact hidem repo)

end Shape

/-- **Redelivered events leave the same entities.** For each service, from any store, delivering the events with
    every one of them repeated leaves the entities that delivering each once leaves. -/
theorem redelivered_entities :
    (∀ (repo : Repository ProductEntity) (es es' : List (Event Product)), Redelivers es es' →
      (es'.foldl ProductService.deliver repo).entities = (es.foldl ProductService.deliver repo).entities) ∧
    (∀ (repo : Repository RecommendationEntity) (es es' : List (Event Recommendation)), Redelivers es es' →
      (es'.foldl RecommendationService.deliver repo).entities
        = (es.foldl RecommendationService.deliver repo).entities) ∧
    (∀ (repo : Repository ReviewEntity) (es es' : List (Event Review)), Redelivers es es' →
      (es'.foldl ReviewService.deliver repo).entities = (es.foldl ReviewService.deliver repo).entities) := by
  refine ⟨fun repo es es' h => ?_, fun repo es es' h => ?_, fun repo es es' h => ?_⟩
  · have hfold := entities_foldl_attempts Product.productId ProductMapper.apiToEntity ProductMapper.entityToApi
      ProductService.onError 2 h repo
    rwa [← ProductService.deleteProduct_eq] at hfold
  · exact entities_foldl_attempts Recommendation.productId RecommendationMapper.apiToEntity
      RecommendationMapper.entityToApi _ 2 h repo
  · exact entities_foldl_attempts Review.productId ReviewMapper.apiToEntity ReviewMapper.entityToApi _ 2 h repo

/-- A create delivered three times and then a delete delivered twice; a create that the store does not take. -/
theorem redelivered_entities_createDelete :
    (([⟨.create, 1, some ⟨1, some "a", 1, none⟩⟩, ⟨.create, 1, some ⟨1, some "a", 1, none⟩⟩,
        ⟨.create, 1, some ⟨1, some "a", 1, none⟩⟩, ⟨.delete, 2, none⟩, ⟨.delete, 2, none⟩]
      : List (Event Product)).foldl ProductService.deliver (.empty fun _ => false)).entities = [⟨1, some "a", 1⟩] ∧
    (([⟨.create, 1, some ⟨1, 1, some "a", 4, none, none⟩⟩, ⟨.create, 1, some ⟨1, 1, some "a", 4, none, none⟩⟩]
      : List (Event Recommendation)).foldl RecommendationService.deliver (.empty fun _ => false)).entities
        = [⟨1, 1, some "a", 4, none⟩] ∧
    (([⟨.create, 1, some ⟨1, 1, some "a", none, none, none⟩⟩, ⟨.create, 1, some ⟨1, 1, some "a", none, none, none⟩⟩,
        ⟨.delete, 1, none⟩] : List (Event Review)).foldl ReviewService.deliver (.empty fun _ => true)).entities = [] :=
  ⟨redelivered_entities.1 (.empty fun _ => false) [⟨.create, 1, some ⟨1, some "a", 1, none⟩⟩, ⟨.delete, 2, none⟩] _
      (.cons _ 2 (.cons _ 1 .nil)),
    redelivered_entities.2.1 (.empty fun _ => false) [⟨.create, 1, some ⟨1, 1, some "a", 4, none, none⟩⟩] _
      (.cons _ 1 .nil),
    redelivered_entities.2.2 (.empty fun _ => true)
      [⟨.create, 1, some ⟨1, 1, some "a", none, none, none⟩⟩, ⟨.delete, 1, none⟩] _ (.cons _ 1 (.cons _ 0 .nil))⟩

end NewOrbit.Shop
