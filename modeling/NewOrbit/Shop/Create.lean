import NewOrbit.Lib.Distinct
import NewOrbit.Shop.Consistency
import NewOrbit.Shop.Reads

/-!
# `Shop.Create` — what creating an aggregate leaves behind

The events of a create add one entity each to the content of the product, unless its key is taken or the store
refuses it (`content_create`). Two readings of it. On stores that hold nothing for the product and take what is
posted, reading the aggregate back gives what was posted (`create_then_get`); a store that refuses a review keeps it
from being read back (`not_always_create_then_get`). On stores that hold the product already, the create is rejected
as a whole only where every recommendation and every review it carries has a key that is taken, or is refused, as
well (`create_existing_unchanged_iff`): each service looks at its own key and at nothing else.
-/

namespace NewOrbit.Shop

open ProductCompositeService

/-! ## The events of a create

A create posts one event for the product and one for each entity, all with its productId. Each of them adds its entity
or does nothing, and so the contents are the old ones with the new entities added one by one. -/

theorem actOn_create {α β κ : Type} [UniqueIndex α κ] [DecidableEq κ] (apiToEntity : β → α) {k : Int} (hk : 1 ≤ k)
    (refuses : α → Bool) (l : List α) (data : β) :
    actOn apiToEntity refuses l ⟨.create, k, some data⟩
      = if !refuses (apiToEntity data) then Distinct.add uniqueKey l (apiToEntity data) else l := by
  have hlt : ¬ k < 1 := by omega
  by_cases hr : refuses (apiToEntity data) = true <;> simp [actOn, hlt, hr]

section Port

variable {α β κ : Type} [UniqueIndex α κ] [DecidableEq κ] (p : Port α β)

theorem Port.events_append (ms ms' : List Send) (k : Int) :
    p.events (ms ++ ms') k = p.events ms k ++ p.events ms' k := by
  rw [Port.events, List.filterMap_append, List.filter_append]
  rfl

/-- Events of the topic and of product `k`, sent and looked up again. -/
theorem Port.events_wrap {es : List (Event β)} {k : Int} (hk : ∀ e ∈ es, e.key = k) :
    p.events (es.map p.wrap) k = es := by
  have hunwrap : p.unwrap? ∘ p.wrap = some := funext p.unwrap_wrap
  rw [Port.events, List.filterMap_map, hunwrap, List.filterMap_some, List.filter_eq_self]
  exact fun e he => decide_eq_true (hk e he)

theorem Port.events_other {α' β' κ' : Type} [UniqueIndex α' κ'] [DecidableEq κ'] (p' : Port α' β')
    (ht : p'.topic ≠ p.topic) (es : List (Event β')) (k : Int) : p.events (es.map p'.wrap) k = [] := by
  have hnone : ∀ m ∈ es.map p'.wrap, p.unwrap? m = none := by
    intro m hm
    obtain ⟨e, _, rfl⟩ := List.mem_map.mp hm
    exact p.unwrap_none _ ((p'.wrap_spec e).1.symm ▸ ht)
  rw [Port.events, List.filterMap_eq_nil_iff.mpr hnone, List.filter_nil]

/-- Create events that carry `bodies` add the entities that the store takes, one after another. -/
theorem content_foldl_create {ms : List Send} (hms : ∀ m ∈ ms, m.WellFormed) {k : Int} (hk : 1 ≤ k)
    {bodies : List β} (hev : p.events ms k = bodies.map fun b => ⟨.create, k, some b⟩) (s : Stores) :
    (p.repo (ms.foldl Stores.deliver s)).content k
      = ((bodies.map p.apiToEntity).filter (!(p.repo s).refuses ·)).foldl (Distinct.add uniqueKey)
          ((p.repo s).content k) := by
  rw [p.content_foldl hms, hev, List.foldl_filter, List.foldl_map, List.foldl_map]
  exact congrFun (congrFun (congrArg _ (funext₂ fun l b => actOn_create _ hk _ l b)) _) _

end Port

/-- The entities a create carries. -/
def productEntity (body : ProductAggregate) : ProductEntity := ⟨body.productId, body.name, body.weight⟩

def recommendationEntities (body : ProductAggregate) : List RecommendationEntity :=
  ((body.recommendations.getD []).map (recommendationOf body)).map RecommendationMapper.apiToEntity

def reviewEntities (body : ProductAggregate) : List ReviewEntity :=
  ((body.reviews.getD []).map (reviewOf body)).map ReviewMapper.apiToEntity

/-- None of the entities a create carries is one that its store refuses. -/
def TakenBy (s : Stores) (body : ProductAggregate) : Prop :=
  s.products.refuses (productEntity body) = false ∧
  (∀ e ∈ recommendationEntities body, s.recommendations.refuses e = false) ∧
  ∀ e ∈ reviewEntities body, s.reviews.refuses e = false

/-- A create, queue by queue. -/
theorem internalCreate_eq (body : ProductAggregate) :
    internalCreateCompositeProduct body
      = ([⟨body.productId, body.name, body.weight, none⟩].map fun b =>
            (⟨.create, body.productId, some b⟩ : Event Product)).map productsPort.wrap
        ++ (((body.recommendations.getD []).map (recommendationOf body)).map fun b =>
            (⟨.create, body.productId, some b⟩ : Event Recommendation)).map recommendationsPort.wrap
        ++ (((body.reviews.getD []).map (reviewOf body)).map fun b =>
            (⟨.create, body.productId, some b⟩ : Event Review)).map reviewsPort.wrap := by
  simp only [List.map_map]
  rfl

theorem keys_recommendationEntities (body : ProductAggregate) :
    (recommendationEntities body).map uniqueKey
      = ((body.recommendations.getD []).map RecommendationSummary.recommendationId).map (Prod.mk body.productId) := by
  rw [recommendationEntities, List.map_map, List.map_map, List.map_map]
  rfl

theorem keys_reviewEntities (body : ProductAggregate) :
    (reviewEntities body).map uniqueKey
      = ((body.reviews.getD []).map ReviewSummary.reviewId).map (Prod.mk body.productId) := by
  rw [reviewEntities, List.map_map, List.map_map, List.map_map]
  rfl

theorem events_products (body : ProductAggregate) :
    productsPort.events (internalCreateCompositeProduct body) body.productId
      = [⟨body.productId, body.name, body.weight, none⟩].map fun b => ⟨.create, body.productId, some b⟩ := by
  rw [internalCreate_eq, Port.events_append, Port.events_append, productsPort.events_wrap (by simp),
    productsPort.events_other recommendationsPort (fun h => nomatch h),
    productsPort.events_other reviewsPort (fun h => nomatch h), List.append_nil, List.append_nil]

theorem events_recommendations (body : ProductAggregate) :
    recommendationsPort.events (internalCreateCompositeProduct body) body.productId
      = ((body.recommendations.getD []).map (recommendationOf body)).map
          fun b => ⟨.create, body.productId, some b⟩ := by
  rw [internalCreate_eq, Port.events_append, Port.events_append, recommendationsPort.events_wrap (by simp),
    recommendationsPort.events_other productsPort (fun h => nomatch h),
    recommendationsPort.events_other reviewsPort (fun h => nomatch h), List.nil_append, List.append_nil]

theorem events_reviews (body : ProductAggregate) :
    reviewsPort.events (internalCreateCompositeProduct body) body.productId
      = ((body.reviews.getD []).map (reviewOf body)).map fun b => ⟨.create, body.productId, some b⟩ := by
  rw [internalCreate_eq, Port.events_append, Port.events_append, reviewsPort.events_wrap (by simp),
    reviewsPort.events_other productsPort (fun h => nomatch h),
    reviewsPort.events_other recommendationsPort (fun h => nomatch h), List.nil_append, List.nil_append]

namespace Landscape

variable {part : Int → Nat} {body : ProductAggregate} {s0 : Stores} {tr : List Action} {t : Landscape}

/-- **What a create leaves.** Each queue adds the entities that its store takes, one after another, to the content of
    the product. -/
theorem content_create (hpid : 1 ≤ body.productId)
    (h : Machine.exec (step part) tr (start [(Command.createCompositeProduct body).sends] s0) = some t)
    (hd : t.Drained) :
    t.stores.products.content body.productId
        = ([productEntity body].filter (!s0.products.refuses ·)).foldl (Distinct.add uniqueKey)
            (s0.products.content body.productId) ∧
      t.stores.recommendations.content body.productId
        = ((recommendationEntities body).filter (!s0.recommendations.refuses ·)).foldl (Distinct.add uniqueKey)
            (s0.recommendations.content body.productId) ∧
      t.stores.reviews.content body.productId
        = ((reviewEntities body).filter (!s0.reviews.refuses ·)).foldl (Distinct.add uniqueKey)
            (s0.reviews.content body.productId) := by
  have hwf : ∀ m ∈ (Command.createCompositeProduct body).sends, m.WellFormed :=
    fun m hm => (Command.sends_spec _ hm).1
  obtain ⟨hp, hr, hv⟩ := drained_single hwf h hd body.productId
  rw [hp, hr, hv]
  exact ⟨content_foldl_create productsPort hwf hpid (events_products body) s0,
    content_foldl_create recommendationsPort hwf hpid (events_recommendations body) s0,
    content_foldl_create reviewsPort hwf hpid (events_reviews body) s0⟩

/-! ## Reading a created aggregate back

Nothing is dropped where the content was empty, the ids are distinct and the store takes every entity. The mappers are
then followed there and back. -/

/-- Keys of one product are told apart by their second component. -/
theorem nodup_keys {ids : List Int} (h : ids.Nodup) (k : Int) : (ids.map (Prod.mk k)).Nodup :=
  h.map fun _ _ hij => congrArg Prod.snd hij

/-- The three reads return (`getProduct` up to its simulated fault), and the aggregate made of them is the one that was
    posted, null lists as empty ones. -/
def ReadsBack (s : Stores) (body : ProductAggregate) : Prop :=
  ∀ (compositeAddress productAddress recommendationAddress reviewAddress : String)
    (randomThreshold delay faultPercent : Int),
    ∃ product recommendations reviews,
      ProductService.getProduct productAddress randomThreshold s.products body.productId delay faultPercent
          = (if 0 < faultPercent ∧ randomThreshold ≤ faultPercent then .error (.runtime "Something went wrong...")
            else .ok product) ∧
        RecommendationService.getRecommendations recommendationAddress s.recommendations body.productId
          = .ok recommendations ∧
        ReviewService.getReviews reviewAddress s.reviews body.productId = .ok reviews ∧
        let read := createProductAggregate product (some recommendations) (some reviews) compositeAddress
        read.productId = body.productId ∧ read.name = body.name ∧ read.weight = body.weight ∧
          read.recommendations = some (body.recommendations.getD []) ∧
          read.reviews = some (body.reviews.getD [])

/-- Entities with keys of their own that the store takes are added as they are. -/
theorem foldl_add_taken {α κ : Type} [UniqueIndex α κ] [DecidableEq κ] {refuses : α → Bool} {es : List α}
    (htaken : ∀ e ∈ es, refuses e = false) (hkeys : (es.map uniqueKey).Nodup) :
    (es.filter (!refuses ·)).foldl (Distinct.add uniqueKey) [] = es := by
  have hall : es.filter (!refuses ·) = es := List.filter_eq_self.mpr fun e he => by simp [htaken e he]
  rw [hall, Distinct.foldl_add_of_nodup (by simpa using hkeys), List.nil_append]

/-- **A created aggregate is read back as it was posted.** On stores that hold nothing for the product and refuse
    none of its entities, with the ids of the recommendations and of the reviews distinct, and whatever the
    interleaving of the queues. -/
theorem create_then_get (part : Int → Nat) (body : ProductAggregate) (s0 : Stores) (tr : List Action) (t : Landscape)
    (hpid : 1 ≤ body.productId)
    (hrec : ((body.recommendations.getD []).map RecommendationSummary.recommendationId).Nodup)
    (hrev : ((body.reviews.getD []).map ReviewSummary.reviewId).Nodup)
    (hp0 : s0.products.content body.productId = []) (hr0 : s0.recommendations.content body.productId = [])
    (hv0 : s0.reviews.content body.productId = []) (htaken : TakenBy s0 body)
    (h : Machine.exec (step part) tr (start [(Command.createCompositeProduct body).sends] s0) = some t)
    (hd : t.Drained) : ReadsBack t.stores body := by
  intro compositeAddress productAddress recommendationAddress reviewAddress randomThreshold delay faultPercent
  obtain ⟨hp, hr, hv⟩ := content_create hpid h hd
  rw [hp0, foldl_add_taken (by simpa using htaken.1) (by simp)] at hp
  rw [hr0, foldl_add_taken htaken.2.1 (keys_recommendationEntities body ▸ nodup_keys hrec _)] at hr
  rw [hv0, foldl_add_taken htaken.2.2 (keys_reviewEntities body ▸ nodup_keys hrev _)] at hv
  refine ⟨_, _, _, ProductService.getProduct_eq _ _ _ hpid hp _ _, readEntities_eq _ _ _ hpid,
    readEntities_eq _ _ _ hpid, rfl, rfl, rfl, ?_, ?_⟩
  · -- Summary, API object, entity and back: `rate` was stored as `rating`.
    show some (List.map recommendationSummary _) = _
    rw [hr, recommendationEntities, List.map_map, List.map_map, List.map_map]
    exact congrArg some (List.map_id _)
  · show some (List.map reviewSummary _) = _
    rw [hv, reviewEntities, List.map_map, List.map_map, List.map_map]
    exact congrArg some (List.map_id _)

/-- Two recommendations and a review. -/
def aggregateTwo : ProductAggregate :=
  ⟨1, some "bond", 7, some [⟨2, some "a", 4, some "c"⟩, ⟨1, none, 5, none⟩], some [⟨3, some "b", none, some "d"⟩], none⟩

def createTwo : List Action :=
  [.send 0, .send 0, .consume .recommendations 1, .send 0, .consume .products 1, .send 0, .consume .reviews 1,
   .consume .recommendations 1]

theorem create_then_get_two :
    ReadsBack (after (fun k => k.toNat % 2) [(Command.createCompositeProduct aggregateTwo).sends] createTwo).stores
      aggregateTwo := by
  refine create_then_get (fun k => k.toNat % 2) aggregateTwo Stores.empty createTwo _ (by decide) (by decide)
    (by decide) rfl rfl rfl ⟨rfl, by decide, by decide⟩ rfl ⟨by decide, ?_⟩
  funext c
  obtain ⟨tp, q⟩ := c
  cases tp <;> rcases q with _ | _ | q <;> rfl

/-- A review whose content is longer than its column. -/
def aggregateLong : ProductAggregate :=
  ⟨1, none, 7, none, some [⟨1, none, none, some (String.ofList (List.replicate 256 'a'))⟩], none⟩

def createLong : List Action := [.send 0, .send 0, .consume .products 0, .consume .reviews 0]

/-- **A created aggregate need not be read back.** The review table refuses a content of 256 characters, and the
    product is read back without the review. -/
theorem not_always_create_then_get :
    ¬ ∀ (part : Int → Nat) (body : ProductAggregate) (s0 : Stores) (tr : List Action) (t : Landscape),
      1 ≤ body.productId → ((body.recommendations.getD []).map RecommendationSummary.recommendationId).Nodup →
      ((body.reviews.getD []).map ReviewSummary.reviewId).Nodup → s0.products.content body.productId = [] →
      s0.recommendations.content body.productId = [] → s0.reviews.content body.productId = [] →
      Machine.exec (step part) tr (start [(Command.createCompositeProduct body).sends] s0) = some t → t.Drained →
        ReadsBack t.stores body := by
  intro hall
  have hdrained : (after (fun _ => 0) [(Command.createCompositeProduct aggregateLong).sends] createLong).Drained := by
    refine ⟨by decide, funext fun c => ?_⟩
    obtain ⟨tp, q⟩ := c
    cases tp <;> cases q <;> rfl
  obtain ⟨_, _, reviews, _, _, hreviews, _, _, _, _, hread⟩ := hall (fun _ => 0) aggregateLong Stores.empty createLong _
    (by decide) (by decide) (by decide) rfl rfl rfl rfl hdrained "c" "p" "r" "v" 50 0 0
  have hnone : ReviewService.getReviews "v"
      (after (fun _ => 0) [(Command.createCompositeProduct aggregateLong).sends] createLong).stores.reviews 1
        = .ok [] := by decide +kernel
  obtain rfl : reviews = [] := Except.ok.inj (hreviews.symm.trans hnone)
  have hlen : ([] : List ReviewSummary) = aggregateLong.reviews.getD [] := Option.some.inj hread
  exact List.cons_ne_nil _ _ hlen.symm

/-! ## Creating a product that exists

The contents only grow by a create, so they are the same afterwards exactly if no entity was added. -/

/-- A create that the service refuses: an invalid product, an entity that the store does not take, or a key that is
    taken. -/
theorem createEntity_kept {α β κ : Type} [UniqueIndex α κ] [DecidableEq κ] {pid : β → Int} {apiToEntity : β → α}
    {entityToApi : α → β} {onError : DataAccessException → β → ServiceError} {repo : Repository α} {b : β}
    (h : pid b < 1 ∨ repo.refuses (apiToEntity b) = true ∨
      uniqueKey (apiToEntity b) ∈ (repo.content (productId (apiToEntity b))).map uniqueKey) :
    orKeep repo ((createEntity pid apiToEntity entityToApi onError repo b).map Prod.fst) = repo := by
  rcases orKeep_createEntity pid apiToEntity entityToApi onError repo b with
    ⟨hkept, _⟩ | ⟨_, _, _, hlt, htaken, hnew, _⟩
  · exact hkept
  · rw [Repository.key_mem_entities] at hnew
    rcases h with h | h | h
    · exact absurd h hlt
    · exact absurd (htaken.symm.trans h) Bool.false_ne_true
    · exact absurd h hnew

/-- Where the key of an entity is its product and an id, the keys of a product are told apart by the id. -/
theorem key_mem_iff {α : Type} [UniqueIndex α (Int × Int)] {id : α → Int}
    (hkey : ∀ e : α, uniqueKey e = (productId e, id e)) {repo : Repository α} {k j : Int} :
    (k, j) ∈ (repo.content k).map uniqueKey ↔ ∃ e ∈ repo.content k, id e = j := by
  rw [List.mem_map]
  apply exists_congr
  intro e
  apply and_congr_right
  intro he
  have hpid : productId e = k := (Repository.mem_content.mp he).2
  rw [hkey, hpid]
  exact ⟨fun h => congrArg Prod.snd h, fun h => congrArg (Prod.mk k) h⟩

theorem recommendationKey_mem_iff {s : Stores} {r : RecommendationSummary} :
    (body.productId, r.recommendationId) ∈ (s.recommendations.content body.productId).map uniqueKey
      ↔ ∃ e ∈ s.recommendations.content body.productId, e.recommendationId = r.recommendationId :=
  key_mem_iff fun _ => rfl

theorem reviewKey_mem_iff {s : Stores} {r : ReviewSummary} :
    (body.productId, r.reviewId) ∈ (s.reviews.content body.productId).map uniqueKey
      ↔ ∃ e ∈ s.reviews.content body.productId, e.reviewId = r.reviewId :=
  key_mem_iff fun _ => rfl

/-- **A create of an existing product changes nothing exactly when nothing in it is new.** It leaves the three
    stores as they were exactly when the productId is invalid, or every recommendation and every review of the
    body is refused by its store or has the id of one that the product already has. -/
theorem create_existing_unchanged_iff (part : Int → Nat) (body : ProductAggregate) (s0 : Stores) (tr : List Action)
    (t : Landscape) (hexists : s0.products.content body.productId ≠ [])
    (h : Machine.exec (step part) tr (start [(Command.createCompositeProduct body).sends] s0) = some t)
    (hd : t.Drained) :
    t.stores = s0 ↔ body.productId < 1 ∨
      (∀ r ∈ body.recommendations.getD [],
        s0.recommendations.refuses (RecommendationMapper.apiToEntity (recommendationOf body r)) = true ∨
        ∃ e ∈ s0.recommendations.content body.productId, e.recommendationId = r.recommendationId) ∧
      (∀ r ∈ body.reviews.getD [], s0.reviews.refuses (ReviewMapper.apiToEntity (reviewOf body r)) = true ∨
        ∃ e ∈ s0.reviews.content body.productId, e.reviewId = r.reviewId) := by
  constructor
  · intro hsame
    apply or_iff_not_imp_left.mpr
    intro hpid
    obtain ⟨_, hr, hv⟩ := content_create (Int.not_lt.mp hpid) h hd
    rw [hsame] at hr hv
    have hrkeys := Distinct.foldl_add_eq_self_iff.mp hr.symm
    have hvkeys := Distinct.foldl_add_eq_self_iff.mp hv.symm
    refine ⟨fun r hr => or_iff_not_imp_left.mpr fun htaken => recommendationKey_mem_iff.mp ?_,
      fun r hr => or_iff_not_imp_left.mpr fun htaken => reviewKey_mem_iff.mp ?_⟩
    · exact hrkeys _ (List.mem_filter.mpr ⟨List.mem_map_of_mem (List.mem_map_of_mem hr), by simpa using htaken⟩)
    · exact hvkeys _ (List.mem_filter.mpr ⟨List.mem_map_of_mem (List.mem_map_of_mem hr), by simpa using htaken⟩)
  · intro hcond
    refine stores_of_keep (fun l hl m hm => ?_) h
    rw [List.mem_singleton.mp hl] at hm
    simp only [Command.sends, internalCreateCompositeProduct, List.cons_append, List.mem_cons, List.mem_append,
      List.mem_map] at hm
    rw [Stores.deliver_eq]
    obtain rfl | ⟨r, hr, rfl⟩ | ⟨r, hr, rfl⟩ := hm
    · -- The product's key is taken, as the product exists.
      obtain ⟨e, he⟩ := List.exists_mem_of_ne_nil _ hexists
      have hkey : body.productId ∈ (s0.products.content body.productId).map uniqueKey :=
        List.mem_map.mpr ⟨e, he, (Repository.mem_content.mp he).2⟩
      have hkept : orKeep s0.products ((ProductService.createProduct s0.products
            ⟨body.productId, body.name, body.weight, none⟩).map Prod.fst) = s0.products :=
        createEntity_kept (Or.inr (Or.inr hkey))
      exact congrArg (fun r => { s0 with products := r }) hkept
    · have hkept : orKeep s0.recommendations ((RecommendationService.createRecommendation s0.recommendations
            (recommendationOf body r)).map Prod.fst) = s0.recommendations :=
        createEntity_kept (hcond.imp id fun hc => (hc.1 r hr).imp id recommendationKey_mem_iff.mpr)
      exact congrArg (fun r => { s0 with recommendations := r }) hkept
    · have hkept : orKeep s0.reviews ((ReviewService.createReview s0.reviews (reviewOf body r)).map Prod.fst)
            = s0.reviews :=
        createEntity_kept (hcond.imp id fun hc => (hc.2 r hr).imp id reviewKey_mem_iff.mpr)
      exact congrArg (fun r => { s0 with reviews := r }) hkept

/-- The stores after the create of `aggregateOne`: product 1 and its recommendation 1. -/
def storesOne : Stores := Stores.empty.apply (.createCompositeProduct aggregateOne)

/-- Product 1 again, with recommendation 2. -/
def aggregateAgain : ProductAggregate := ⟨1, some "bond", 1, some [⟨2, some "author", 1, none⟩], none, none⟩

def createOnce : List Action := [.send 0, .send 0, .consume .products 0, .consume .recommendations 0]

/-- **A rejected create can still add to the stores.** Product 1 exists, and its create is posted again with a new
    recommendation: the product service refuses its event, the recommendation service stores the new one. -/
theorem not_always_create_existing_unchanged :
    ¬ ∀ (part : Int → Nat) (body : ProductAggregate) (s0 : Stores) (tr : List Action) (t : Landscape),
      s0.products.content body.productId ≠ [] →
      Machine.exec (step part) tr (start [(Command.createCompositeProduct body).sends] s0) = some t → t.Drained →
        t.stores = s0 := by
  intro hall
  have hsame := hall (fun _ => 0) aggregateAgain storesOne createOnce
    ((Machine.exec (step fun _ => 0) createOnce
      (start [(Command.createCompositeProduct aggregateAgain).sends] storesOne)).getD (start [] storesOne))
    (by decide) rfl ⟨by decide, by funext c; obtain ⟨tp, q⟩ := c; cases tp <;> cases q <;> rfl⟩
  have hlen := congrArg (fun s => s.recommendations.rows.length) hsame
  exact absurd hlen (by decide)

/-- The same aggregate posted twice changes nothing. -/
theorem create_existing_unchanged_same :
    ((Machine.exec (step fun _ => 0) createOnce
      (start [(Command.createCompositeProduct aggregateOne).sends] storesOne)).getD (start [] storesOne)).stores
      = storesOne :=
  (create_existing_unchanged_iff (fun _ => 0) aggregateOne storesOne createOnce _ (by decide) rfl
    ⟨by decide, by funext c; obtain ⟨tp, q⟩ := c; cases tp <;> cases q <;> rfl⟩).mpr (Or.inr ⟨by decide, by decide⟩)

end Landscape

end NewOrbit.Shop
