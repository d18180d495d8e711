import NewOrbit.Shop.Composite

/-!
# `Shop.Reads` — reading an aggregate back

The read side of the shop: each core service looks up what its store holds for a product and maps the entities
to API objects stamped with the service's own address, and `createProductAggregate` puts the three answers
together. The simulated delay of `getProduct` only takes time; its simulated fault is a matter of the
`faultPercent` that was asked for and of the random number drawn.
-/

namespace NewOrbit.Shop

/-- What a read ends with when it does not return. -/
inductive ReadError
  | service (error : ServiceError)
  | runtime (message : String)
  deriving DecidableEq, Repr

/-! ## The core services -/

namespace ProductService

/-- `randomThreshold` is the number drawn from 1 to 100. -/
def throwErrorIfBadLuck (faultPercent randomThreshold : Int) : Except ReadError Unit :=
  if faultPercent < randomThreshold then .ok () else .error (.runtime "Something went wrong...")

def getProduct (serviceAddress : String) (randomThreshold : Int) (repo : Repository ProductEntity)
    (pid _delay faultPercent : Int) : Except ReadError Product := do
  if pid < 1 then .error (.service (.invalidInput ("Invalid productId: " ++ toString pid)))
  if 0 < faultPercent then throwErrorIfBadLuck faultPercent randomThreshold
  match (repo.findByProductId pid).head? with
  | none => .error (.service (.notFound ("No product found for productId: " ++ toString pid)))
  | some e => .ok { ProductMapper.entityToApi e.entity with serviceAddress := some serviceAddress }

end ProductService

/-- The list reads: check the productId, look the entities up, map each and stamp it. -/
def readEntities {α β κ : Type} [UniqueIndex α κ] (entityToApi : α → β) (setServiceAddress : β → β)
    (repo : Repository α) (pid : Int) : Except ReadError (List β) :=
  if pid < 1 then .error (.service (.invalidInput ("Invalid productId: " ++ toString pid)))
  else .ok ((repo.findByProductId pid).map fun e => setServiceAddress (entityToApi e.entity))

def RecommendationService.getRecommendations (serviceAddress : String) :
    Repository RecommendationEntity → Int → Except ReadError (List Recommendation) :=
  readEntities RecommendationMapper.entityToApi fun r => { r with serviceAddress := some serviceAddress }

def ReviewService.getReviews (serviceAddress : String) :
    Repository ReviewEntity → Int → Except ReadError (List Review) :=
  readEntities ReviewMapper.entityToApi fun r => { r with serviceAddress := some serviceAddress }

/-! ## The composite -/

namespace ProductCompositeService

def recommendationSummary (r : Recommendation) : RecommendationSummary :=
  ⟨r.recommendationId, r.author, r.rate, r.content⟩

def reviewSummary (r : Review) : ReviewSummary := ⟨r.reviewId, r.author, r.subject, r.content⟩

/-- The address of the first element; empty for a null or an empty list. -/
def firstAddress {β : Type} (serviceAddress : β → Option String) : Option (List β) → Option String
  | some (r :: _) => serviceAddress r
  | _             => some ""

def createProductAggregate (product : Product) (recommendations : Option (List Recommendation))
    (reviews : Option (List Review)) (serviceAddress : String) : ProductAggregate where
  productId := product.productId
  name := product.name
  weight := product.weight
  recommendations := recommendations.map fun rs => rs.map recommendationSummary
  reviews := reviews.map fun rs => rs.map reviewSummary
  serviceAddresses := some
    { compositeAddress := some serviceAddress
      productAddress := product.serviceAddress
      reviewAddress := firstAddress Review.serviceAddress reviews
      recommendationAddress := firstAddress Recommendation.serviceAddress recommendations }

end ProductCompositeService

/-! ## What the reads return -/

section Reads

variable {α β κ : Type} [UniqueIndex α κ]

/-- A list read of a valid product returns its content, mapped and stamped. -/
theorem readEntities_eq (entityToApi : α → β) (setServiceAddress : β → β) (repo : Repository α) {pid : Int}
    (hpid : 1 ≤ pid) :
    readEntities entityToApi setServiceAddress repo pid
      = .ok ((repo.content pid).map fun e => setServiceAddress (entityToApi e)) := by
  rw [readEntities, if_neg (by omega), Repository.content, List.map_map]
  rfl

end Reads

/-- `getProduct` of a valid product that is stored: the simulated fault, or the product. -/
theorem ProductService.getProduct_eq (serviceAddress : String) (randomThreshold : Int)
    (repo : Repository ProductEntity) {pid : Int} (hpid : 1 ≤ pid) {e : ProductEntity}
    (hcontent : repo.content pid = [e]) (delay faultPercent : Int) :
    getProduct serviceAddress randomThreshold repo pid delay faultPercent
      = if 0 < faultPercent ∧ randomThreshold ≤ faultPercent then .error (.runtime "Something went wrong...")
        else .ok { ProductMapper.entityToApi e with serviceAddress := some serviceAddress } := by
  obtain ⟨row, hrow, rfl⟩ : ∃ row, repo.findByProductId pid = [row] ∧ row.entity = e := by
    obtain ⟨row, hrow, he⟩ := List.map_eq_singleton_iff.mp hcontent
    exact ⟨row, hrow, he⟩
  have hlt : ¬ pid < 1 := by omega
  unfold getProduct throwErrorIfBadLuck
  rw [hrow, if_neg hlt]
  by_cases hfault : 0 < faultPercent
  · by_cases hluck : faultPercent < randomThreshold
    · rw [if_pos hfault, if_pos hluck, if_neg (by omega)]
      rfl
    · rw [if_pos hfault, if_neg hluck, if_pos (by omega)]
      rfl
  · rw [if_neg hfault, if_neg (by omega)]
    rfl

end NewOrbit.Shop
