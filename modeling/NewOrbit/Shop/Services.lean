import NewOrbit.Shop.Api
import NewOrbit.Shop.Repository
import NewOrbit.Lib.Distinct
import NewOrbit.Lib.Keyed

/-!
# `Shop.Services` — the three core services and their message processors

`ProductServiceImpl`, `RecommendationServiceImpl` and `ReviewServiceImpl` are three copies of one shape: a
create that checks the productId, maps the object to its entity and saves it, and a delete that checks the
productId and deletes what `findByProductId` returns. The shape is written once (`createEntity`,
`deleteEntities`, `processEvent`); each service is that shape at its own mapper and its own mapping of a refused
save. The product service deletes at most one row, the one its `Mono` emits, and keeps its own body
(`deleteProduct_eq`).

The effect of a delivered event on the content of one product is `actOn`, given the rows that the store refuses;
`attempts_local` says that it acts by it on its own product and leaves every other product alone.
-/

namespace NewOrbit.Shop

/-! ## The entities and their mappers -/

structure ProductEntity where
  productId : Int
  name : Option String
  weight : Int
  deriving DecidableEq, Repr

structure RecommendationEntity where
  productId : Int
  recommendationId : Int
  author : Option String
  rating : Int
  content : Option String
  deriving DecidableEq, Repr

structure ReviewEntity where
  productId : Int
  reviewId : Int
  author : Option String
  subject : Option String
  content : Option String
  deriving DecidableEq, Repr

/-- `@Indexed(unique = true) productId` -/
instance : UniqueIndex ProductEntity Int where
  productId := ProductEntity.productId
  uniqueKey := ProductEntity.productId
  productId_of_key := fun _ _ h => h

/-- The compound index `prod-rec-id`. -/
instance : UniqueIndex RecommendationEntity (Int × Int) where
  productId := RecommendationEntity.productId
  uniqueKey := fun e => (e.productId, e.recommendationId)
  productId_of_key := fun _ _ h => congrArg Prod.fst h

/-- The columns of the texts are declared without a length, so they hold 255 characters each. -/
def ReviewEntity.tooLong (e : ReviewEntity) : Bool :=
  [e.author, e.subject, e.content].any fun text => text.any (255 < ·.length)

/-- The index `reviews_unique_idx`. -/
instance : UniqueIndex ReviewEntity (Int × Int) where
  productId := ReviewEntity.productId
  uniqueKey := fun e => (e.productId, e.reviewId)
  productId_of_key := fun _ _ h => congrArg Prod.fst h

namespace ProductMapper

def apiToEntity (api : Product) : ProductEntity := ⟨api.productId, api.name, api.weight⟩

def entityToApi (entity : ProductEntity) : Product := ⟨entity.productId, entity.name, entity.weight, none⟩

end ProductMapper

namespace RecommendationMapper

/-- `rate` is stored as `rating`. -/
def apiToEntity (api : Recommendation) : RecommendationEntity :=
  ⟨api.productId, api.recommendationId, api.author, api.rate, api.content⟩

def entityToApi (entity : RecommendationEntity) : Recommendation :=
  ⟨entity.productId, entity.recommendationId, entity.author, entity.rating, entity.content, none⟩

end RecommendationMapper

namespace ReviewMapper

def apiToEntity (api : Review) : ReviewEntity :=
  ⟨api.productId, api.reviewId, api.author, api.subject, api.content⟩

def entityToApi (entity : ReviewEntity) : Review :=
  ⟨entity.productId, entity.reviewId, entity.author, entity.subject, entity.content, none⟩

end ReviewMapper

/-! ## The common shape

An attempt that fails leaves the store as it is, since each is a transaction or a single write. The binder makes three
attempts, and the event is done with after the last. -/

section Shape

variable {α β κ : Type} [UniqueIndex α κ] [DecidableEq κ]

/-- Save the entity of `body`, or refuse it: `productId` below 1, or a save that is refused. -/
def createEntity (pid : β → Int) (apiToEntity : β → α) (entityToApi : α → β)
    (onError : DataAccessException → β → ServiceError) (repo : Repository α) (body : β) :
    Except ServiceError (Repository α × β) :=
  if pid body < 1 then .error (.invalidInput ("Invalid productId: " ++ toString (pid body)))
  else match repo.save (apiToEntity body) with
    | .error ex => .error (onError ex body)
    | .ok (repo', row) => .ok (repo', entityToApi row.entity)

omit [DecidableEq κ] in
/-- Delete every row of the product. -/
def deleteEntities (repo : Repository α) (pid : Int) : Except ServiceError (Repository α) :=
  if pid < 1 then .error (.invalidInput ("Invalid productId: " ++ toString pid))
  else .ok (repo.deleteAll (repo.findByProductId pid))

omit [DecidableEq κ] in
/-- `MessageProcessor.process`: a create event goes to the create of the service, a delete event to its
    delete with the event key. -/
def processEvent (create : Repository α → β → Except ServiceError (Repository α × β))
    (delete : Repository α → Int → Except ServiceError (Repository α))
    (repo : Repository α) (event : Event β) : Except ServiceError (Repository α) :=
  match event.eventType with
  | .create => match event.data with
    | none => .error .nullPointer
    | some data => (create repo data).map Prod.fst
  | .delete => delete repo event.key

omit [DecidableEq κ] in
/-- The store after a call: a call that throws leaves it as it was. -/
def orKeep (repo : Repository α) : Except ServiceError (Repository α) → Repository α
  | .ok repo' => repo'
  | .error _ => repo

omit [DecidableEq κ] in
/-- The consumer of a queue hands an event to `process` at most `n` times; an event that still fails then
    leaves the queue for the dead letter queue. -/
def attempts (process : Repository α → Event β → Except ServiceError (Repository α)) (event : Event β) :
    Nat → Repository α → Repository α
  | 0,     repo => repo
  | n + 1, repo => match process repo event with
    | .ok repo' => repo'
    | .error _ => attempts process event n repo

end Shape

/-- `spring.cloud.stream.bindings.input.consumer.maxAttempts` -/
def maxAttempts : Nat := 3

/-! ## The services -/

namespace ProductService

/-- `onErrorMap(DuplicateKeyException.class, …)` -/
def onError : DataAccessException → Product → ServiceError
  | .DuplicateKeyException, body => .invalidInput ("Duplicate key, Product Id: " ++ toString body.productId)
  | .DataIntegrityViolationException, _ => .dataIntegrityViolation

def createProduct : Repository ProductEntity → Product → Except ServiceError (Repository ProductEntity × Product) :=
  createEntity Product.productId ProductMapper.apiToEntity ProductMapper.entityToApi onError

def deleteProduct (repo : Repository ProductEntity) (pid : Int) :
    Except ServiceError (Repository ProductEntity) :=
  if pid < 1 then .error (.invalidInput ("Invalid productId: " ++ toString pid))
  else match (repo.findByProductId pid).head? with
    | none => .ok repo
    | some e => .ok (repo.delete e)

def process : Repository ProductEntity → Event Product → Except ServiceError (Repository ProductEntity) :=
  processEvent createProduct deleteProduct

end ProductService

namespace RecommendationService

def onError : DataAccessException → Recommendation → ServiceError
  | .DuplicateKeyException, body =>
      .invalidInput ("Duplicate key, Product Id: " ++ toString body.productId ++ ", Recommendation Id:"
        ++ toString body.recommendationId)
  | .DataIntegrityViolationException, _ => .dataIntegrityViolation

def createRecommendation :
    Repository RecommendationEntity → Recommendation →
      Except ServiceError (Repository RecommendationEntity × Recommendation) :=
  createEntity Recommendation.productId RecommendationMapper.apiToEntity RecommendationMapper.entityToApi onError

def deleteRecommendations :
    Repository RecommendationEntity → Int → Except ServiceError (Repository RecommendationEntity) :=
  deleteEntities

def process :
    Repository RecommendationEntity → Event Recommendation →
      Except ServiceError (Repository RecommendationEntity) :=
  processEvent createRecommendation deleteRecommendations

end RecommendationService

namespace ReviewService

/-- `catch (DataIntegrityViolationException dive)`, which takes every refused save for a duplicate key. -/
def onError (_ : DataAccessException) (body : Review) : ServiceError :=
  .invalidInput ("Duplicate key, Product Id: " ++ toString body.productId ++ ", Review Id:" ++ toString body.reviewId)

def createReview :
    Repository ReviewEntity → Review → Except ServiceError (Repository ReviewEntity × Review) :=
  createEntity Review.productId ReviewMapper.apiToEntity ReviewMapper.entityToApi onError

def deleteReviews : Repository ReviewEntity → Int → Except ServiceError (Repository ReviewEntity) :=
  deleteEntities

def process : Repository ReviewEntity → Event Review → Except ServiceError (Repository ReviewEntity) :=
  processEvent createReview deleteReviews

end ReviewService

/-! ## What one event does to the content of its product

Attempts are all alike, so an event succeeds at the first of them or never. What a create does is said by three cases:
the key is taken, the store refuses the entity, or it is added. -/

/-- The product service deletes one row where the others delete a list; under the unique index on
    `productId` there is at most one, so the effect is the same. -/
theorem ProductService.deleteProduct_eq : deleteProduct = deleteEntities := by
  funext repo pid
  unfold deleteProduct deleteEntities
  split
  · rfl
  · -- Two rows of one product would have the same unique key.
    have hlen : (repo.findByProductId pid).length ≤ 1 := by
      have hnd : ((repo.findByProductId pid).map fun r => uniqueKey r.entity).Nodup :=
        repo.unique.sublist (List.filter_sublist.map _)
      match hf : repo.findByProductId pid with
      | [] => simp
      | [_] => simp
      | a :: b :: _ =>
          have ha : a.entity.productId = pid :=
            (Repository.mem_findByProductId.mp (show a ∈ repo.findByProductId pid by rw [hf]; simp)).2
          have hb : b.entity.productId = pid :=
            (Repository.mem_findByProductId.mp (show b ∈ repo.findByProductId pid by rw [hf]; simp)).2
          rw [hf] at hnd
          simp only [List.map_cons, List.nodup_cons, List.mem_cons, not_or] at hnd
          exact absurd (ha.trans hb.symm) hnd.1.1
    match hf : repo.findByProductId pid with
    | [] => rfl
    | [_] => rfl
    | _ :: _ :: _ => rw [hf] at hlen; simp at hlen

section Local

variable {α β κ : Type} [UniqueIndex α κ] [DecidableEq κ]

omit [DecidableEq κ] in
/-- Attempts are all alike: a failing attempt leaves the store as it was, so the event either succeeds at
    the first attempt or never. -/
theorem attempts_eq (process : Repository α → Event β → Except ServiceError (Repository α)) (event : Event β)
    (n : Nat) (repo : Repository α) :
    attempts process event (n + 1) repo = orKeep repo (process repo event) := by
  induction n with
  | zero =>
      unfold attempts orKeep
      split <;> simp [attempts, *]
  | succ n ih =>
      unfold attempts
      split
      · next h => rw [h]; rfl
      · next h => rw [ih, h]

/-- The effect of an event on the content of its product, as a function of that content and of the rows that the
    store refuses. -/
def actOn (apiToEntity : β → α) (refuses : α → Bool) (l : List α) (event : Event β) : List α :=
  if event.key < 1 then l
  else match event.eventType, event.data with
    | .create, some data =>
        if refuses (apiToEntity data) then l else Distinct.add uniqueKey l (apiToEntity data)
    | .create, none => l
    | .delete, _ => []

/-- The event is no create of an entity that the store refuses. -/
def Event.taken (refuses : α → Bool) (apiToEntity : β → α) (event : Event β) : Bool :=
  match event.eventType, event.data with
  | .create, some data => !refuses (apiToEntity data)
  | _, _ => true

/-- The key of the event is the product its data belong to. -/
def Event.WellKeyed (pid : β → Int) (event : Event β) : Prop := ∀ data, event.data = some data → pid data = event.key

variable (pid : β → Int) (apiToEntity : β → α) (entityToApi : α → β) (onError : DataAccessException → β → ServiceError)

/-- **What a create does**: the store is as it was, for one of three reasons, or has the entity appended. -/
theorem orKeep_createEntity (repo : Repository α) (body : β) :
    (orKeep repo ((createEntity pid apiToEntity entityToApi onError repo body).map Prod.fst) = repo ∧
      (pid body < 1 ∨ repo.refuses (apiToEntity body) = true ∨
        uniqueKey (apiToEntity body) ∈ repo.entities.map uniqueKey)) ∨
    (∃ repo' row, orKeep repo ((createEntity pid apiToEntity entityToApi onError repo body).map Prod.fst) = repo' ∧
      ¬ pid body < 1 ∧ repo.refuses (apiToEntity body) = false ∧
      uniqueKey (apiToEntity body) ∉ repo.entities.map uniqueKey ∧ repo'.refuses = repo.refuses ∧
      repo'.rows = repo.rows ++ [row] ∧ row.entity = apiToEntity body) := by
  unfold createEntity
  by_cases hlt : pid body < 1
  · rw [if_pos hlt]
    exact .inl ⟨rfl, .inl hlt⟩
  rw [if_neg hlt]
  rcases repo.save_cases (apiToEntity body) with ⟨ex, hs, hwhy⟩ | ⟨repo', row, hs, hsaved⟩
  · rw [hs]
    exact .inl ⟨rfl, .inr hwhy⟩
  · rw [hs]
    exact .inr ⟨repo', row, rfl, hlt, hsaved⟩

/-- A delivery leaves what the store refuses as it is. -/
theorem refuses_attempts (n : Nat) (repo : Repository α) (event : Event β) :
    (attempts (processEvent (createEntity pid apiToEntity entityToApi onError) deleteEntities) event (n + 1)
      repo).refuses = repo.refuses := by
  rw [attempts_eq]
  obtain ⟨type, key, data⟩ := event
  cases type with
  | delete =>
      simp only [processEvent, deleteEntities]
      split
      · rfl
      · exact repo.refuses_deleteAll _
  | create =>
      cases data with
      | none => rfl
      | some data =>
          rcases orKeep_createEntity pid apiToEntity entityToApi onError repo data with
            ⟨hkept, _⟩ | ⟨repo', _, hadded, _, _, _, hrefuses, _⟩
          · exact congrArg Repository.refuses hkept
          · exact (congrArg Repository.refuses hadded).trans hrefuses

/-- **A delivered event acts on its product and on nothing else.** -/
theorem content_attempts (hpid : ∀ b, productId (apiToEntity b) = pid b) {event : Event β}
    (hev : event.WellKeyed pid) (n : Nat) (repo : Repository α) (k : Int) :
    (attempts (processEvent (createEntity pid apiToEntity entityToApi onError) deleteEntities) event (n + 1)
        repo).content k
      = if k = event.key then actOn apiToEntity repo.refuses (repo.content k) event else repo.content k := by
  rw [attempts_eq]
  obtain ⟨type, key, data⟩ := event
  cases type with
  | delete =>
      simp only [processEvent, deleteEntities, actOn]
      by_cases hlt : key < 1
      · simp [hlt, orKeep]
      · simp [hlt, orKeep, Repository.content_deleteAll_find]
  | create =>
      cases data with
      | none => simp [processEvent, actOn, orKeep]
      | some data =>
          have hkey : pid data = key := hev data rfl
          have hproduct : productId (apiToEntity data) = key := (hpid data).trans hkey
          simp only [processEvent, actOn]
          rcases orKeep_createEntity pid apiToEntity entityToApi onError repo data with
            ⟨hkept, hwhy⟩ | ⟨repo', row, hadded, hlt, hrefuses, hnew, _, hrows, hrow⟩
          · rw [hkept]
            split
            · next hk =>
                subst hk
                rw [Repository.key_mem_entities, hproduct, hkey] at hwhy
                rcases hwhy with hlt | hrefuses | hmem
                · rw [if_pos hlt]
                · rw [if_pos hrefuses, ite_self]
                · rw [Distinct.add_of_mem hmem, ite_self, ite_self]
            · rfl
          · rw [Repository.key_mem_entities, hproduct] at hnew
            rw [hadded, Repository.content_append hrows, hrow, hproduct]
            split
            · next hk =>
                subst hk
                rw [if_neg (hkey ▸ hlt), hrefuses, Distinct.add_of_not_mem hnew]
                rfl
            · exact List.append_nil _

/-- Delivery is local to the product of the event. -/
theorem attempts_local (hpid : ∀ b, productId (apiToEntity b) = pid b) (n : Nat) :
    Keyed.Local
      (fun repo event => attempts (processEvent (createEntity pid apiToEntity entityToApi onError)
        deleteEntities) event (n + 1) repo)
      Event.key (Event.WellKeyed pid) Repository.refuses (fun k (repo : Repository α) => repo.content k)
      (actOn apiToEntity) where
  kept := fun repo event => refuses_attempts pid apiToEntity entityToApi onError n repo event
  hit := fun repo event hev => by rw [content_attempts pid _ _ _ hpid hev, if_pos rfl]
  miss := fun repo event k hev hk => by rw [content_attempts pid _ _ _ hpid hev, if_neg hk]

end Local

/-! ## The consumers of the three queues

Each consumer is `attempts` at its own service, and so each is local by one lemma (`attempts_local`). -/

def ProductService.deliver (repo : Repository ProductEntity) (event : Event Product) : Repository ProductEntity :=
  attempts ProductService.process event maxAttempts repo

def RecommendationService.deliver (repo : Repository RecommendationEntity) (event : Event Recommendation) :
    Repository RecommendationEntity :=
  attempts RecommendationService.process event maxAttempts repo

def ReviewService.deliver (repo : Repository ReviewEntity) (event : Event Review) : Repository ReviewEntity :=
  attempts ReviewService.process event maxAttempts repo

theorem ProductService.deliver_local :
    Keyed.Local ProductService.deliver Event.key (Event.WellKeyed Product.productId) Repository.refuses
      (fun k repo => repo.content k) (actOn ProductMapper.apiToEntity) := by
  have h := attempts_local Product.productId ProductMapper.apiToEntity ProductMapper.entityToApi
    ProductService.onError (fun _ => rfl) 2
  rwa [← ProductService.deleteProduct_eq] at h

theorem RecommendationService.deliver_local :
    Keyed.Local RecommendationService.deliver Event.key (Event.WellKeyed Recommendation.productId)
      Repository.refuses (fun k repo => repo.content k) (actOn RecommendationMapper.apiToEntity) :=
  attempts_local Recommendation.productId RecommendationMapper.apiToEntity RecommendationMapper.entityToApi
    _ (fun _ => rfl) 2

theorem ReviewService.deliver_local :
    Keyed.Local ReviewService.deliver Event.key (Event.WellKeyed Review.productId) Repository.refuses
      (fun k repo => repo.content k) (actOn ReviewMapper.apiToEntity) :=
  attempts_local Review.productId ReviewMapper.apiToEntity ReviewMapper.entityToApi _ (fun _ => rfl) 2

end NewOrbit.Shop
