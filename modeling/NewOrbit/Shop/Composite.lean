import NewOrbit.Shop.Services

/-!
# `Shop.Composite` — the commands of the composite service

`ProductCompositeServiceImpl` turns a create or a delete of an aggregate into sends to three output channels;
`ProductCompositeIntegration` builds the event of each send. A command's body makes its sends one after
another and nothing else, so it is embedded as the list of its sends, in source order. Stores that are
written to directly, without queues, give the synchronous reading of a command (`Stores.apply`); it is the
delivery of the command's sends in order (`apply_eq_deliver`).
-/

namespace NewOrbit.Shop

/-- The three output channels, each the queue of one core service. -/
inductive Topic
  | products
  | recommendations
  | reviews
  deriving DecidableEq, Repr

/-- One message on an output channel. -/
inductive Send
  | products (event : Event Product)
  | recommendations (event : Event Recommendation)
  | reviews (event : Event Review)
  deriving DecidableEq, Repr

namespace Send

def topic : Send → Topic
  | products _ => .products
  | recommendations _ => .recommendations
  | reviews _ => .reviews

/-- `payload.key` -/
def key : Send → Int
  | products event => event.key
  | recommendations event => event.key
  | reviews event => event.key

def eventType : Send → EventType
  | products event => event.eventType
  | recommendations event => event.eventType
  | reviews event => event.eventType

def products? : Send → Option (Event Product)
  | products event => some event
  | _ => none

def recommendations? : Send → Option (Event Recommendation)
  | recommendations event => some event
  | _ => none

def reviews? : Send → Option (Event Review)
  | reviews event => some event
  | _ => none

/-- A create carries its data, and the event key is the product of the data. -/
def WellFormed : Send → Prop
  | products event => event.WellKeyed Product.productId ∧ (event.eventType = .create → event.data ≠ none)
  | recommendations event =>
      event.WellKeyed Recommendation.productId ∧ (event.eventType = .create → event.data ≠ none)
  | reviews event => event.WellKeyed Review.productId ∧ (event.eventType = .create → event.data ≠ none)

end Send

namespace ProductCompositeIntegration

def createProduct (body : Product) : Send := .products ⟨.create, body.productId, some body⟩

def deleteProduct (pid : Int) : Send := .products ⟨.delete, pid, none⟩

def createRecommendation (body : Recommendation) : Send := .recommendations ⟨.create, body.productId, some body⟩

def deleteRecommendations (pid : Int) : Send := .recommendations ⟨.delete, pid, none⟩

def createReview (body : Review) : Send := .reviews ⟨.create, body.productId, some body⟩

def deleteReviews (pid : Int) : Send := .reviews ⟨.delete, pid, none⟩

end ProductCompositeIntegration

namespace ProductCompositeService

open ProductCompositeIntegration

def recommendationOf (body : ProductAggregate) (r : RecommendationSummary) : Recommendation :=
  ⟨body.productId, r.recommendationId, r.author, r.rate, r.content, none⟩

def reviewOf (body : ProductAggregate) (r : ReviewSummary) : Review :=
  ⟨body.productId, r.reviewId, r.author, r.subject, r.content, none⟩

/-- Product first, then the recommendations, then the reviews; a null list sends nothing. -/
def internalCreateCompositeProduct (body : ProductAggregate) : List Send :=
  createProduct ⟨body.productId, body.name, body.weight, none⟩
    :: ((body.recommendations.getD []).map fun r => createRecommendation (recommendationOf body r))
    ++ ((body.reviews.getD []).map fun r => createReview (reviewOf body r))

def internalDeleteCompositeProduct (pid : Int) : List Send :=
  [deleteProduct pid, deleteRecommendations pid, deleteReviews pid]

end ProductCompositeService

inductive Command
  | createCompositeProduct (body : ProductAggregate)
  | deleteCompositeProduct (pid : Int)
  deriving DecidableEq, Repr

namespace Command

/-- The product a command is about. -/
def productId : Command → Int
  | createCompositeProduct body => body.productId
  | deleteCompositeProduct pid => pid

def sends : Command → List Send
  | createCompositeProduct body => ProductCompositeService.internalCreateCompositeProduct body
  | deleteCompositeProduct pid => ProductCompositeService.internalDeleteCompositeProduct pid

/-- Every send of a command is well formed and has the product of the command as its key. -/
theorem sends_spec (c : Command) {m : Send} (hm : m ∈ c.sends) : m.WellFormed ∧ m.key = c.productId := by
  cases c with
  | createCompositeProduct body =>
      simp only [sends, ProductCompositeService.internalCreateCompositeProduct, List.cons_append,
        List.mem_cons, List.mem_append, List.mem_map] at hm
      obtain rfl | ⟨r, _, rfl⟩ | ⟨r, _, rfl⟩ := hm
      all_goals exact ⟨⟨fun d hd => Option.some.inj hd ▸ rfl, fun _ => Option.some_ne_none _⟩, rfl⟩
  | deleteCompositeProduct pid =>
      simp only [sends, ProductCompositeService.internalDeleteCompositeProduct, List.mem_cons,
        List.not_mem_nil, or_false] at hm
      obtain rfl | rfl | rfl := hm
      all_goals exact ⟨⟨fun d hd => (nomatch hd), fun h => (nomatch h)⟩, rfl⟩

/-- Where a command sends a delete to one queue, it sends deletes to all three. -/
theorem delete_mem_sends {c : Command} {m : Send} (hm : m ∈ c.sends) (hd : m.eventType = .delete) (t : Topic) :
    ∃ d ∈ c.sends, d.topic = t ∧ d.eventType = .delete := by
  cases c with
  | createCompositeProduct body =>
      simp only [sends, ProductCompositeService.internalCreateCompositeProduct, List.cons_append,
        List.mem_cons, List.mem_append, List.mem_map] at hm
      obtain rfl | ⟨r, _, rfl⟩ | ⟨r, _, rfl⟩ := hm
      all_goals exact nomatch hd
  | deleteCompositeProduct pid =>
      simp only [sends, ProductCompositeService.internalDeleteCompositeProduct]
      cases t with
      | products => exact ⟨_, List.mem_cons_self, rfl, rfl⟩
      | recommendations => exact ⟨_, List.mem_cons_of_mem _ List.mem_cons_self, rfl, rfl⟩
      | reviews => exact ⟨_, List.mem_cons_of_mem _ (List.mem_cons_of_mem _ List.mem_cons_self), rfl, rfl⟩

end Command

/-! ## The stores of the three core services -/

structure Stores where
  products : Repository ProductEntity
  recommendations : Repository RecommendationEntity
  reviews : Repository ReviewEntity

namespace Stores

/-- Nothing stored yet; the reviews are in a relational table, the rest are documents. -/
def empty : Stores := ⟨.empty fun _ => false, .empty fun _ => false, .empty ReviewEntity.tooLong⟩

/-- A consumer takes a message off its queue. -/
def deliver (s : Stores) : Send → Stores
  | .products event => { s with products := ProductService.deliver s.products event }
  | .recommendations event => { s with recommendations := RecommendationService.deliver s.recommendations event }
  | .reviews event => { s with reviews := ReviewService.deliver s.reviews event }

/-- The message is no create of an entity that the store of its topic refuses. -/
def takes (s : Stores) : Send → Bool
  | .products event => event.taken s.products.refuses ProductMapper.apiToEntity
  | .recommendations event => event.taken s.recommendations.refuses RecommendationMapper.apiToEntity
  | .reviews event => event.taken s.reviews.refuses ReviewMapper.apiToEntity

theorem takes_delete (s : Stores) {m : Send} (h : m.eventType = .delete) : s.takes m = true := by
  cases m with
  | products event => obtain ⟨type, _, _⟩ := event; cases h; rfl
  | recommendations event => obtain ⟨type, _, _⟩ := event; cases h; rfl
  | reviews event => obtain ⟨type, _, _⟩ := event; cases h; rfl

/-- The same entities for every product, up to generated ids and versions. -/
def SameContent (s s' : Stores) : Prop :=
  ∀ k, s.products.content k = s'.products.content k ∧
    s.recommendations.content k = s'.recommendations.content k ∧
    s.reviews.content k = s'.reviews.content k

/-- Every recommendation and every review belongs to a product of the product store. -/
def OrphanFree (s : Stores) : Prop :=
  (∀ r ∈ s.recommendations.rows, ∃ p ∈ s.products.rows, p.entity.productId = r.entity.productId) ∧
  (∀ r ∈ s.reviews.rows, ∃ p ∈ s.products.rows, p.entity.productId = r.entity.productId)

/-! ### Commands applied directly to the stores

The synchronous reading: each core service is called with what the command's event would carry. A call that
is rejected leaves its store as it was, and the remaining calls of the command are still made. -/

def createProduct (s : Stores) (body : Product) : Stores :=
  { s with products := orKeep s.products ((ProductService.createProduct s.products body).map Prod.fst) }

def createRecommendation (s : Stores) (body : Recommendation) : Stores :=
  { s with
    recommendations := orKeep s.recommendations
      ((RecommendationService.createRecommendation s.recommendations body).map Prod.fst) }

def createReview (s : Stores) (body : Review) : Stores :=
  { s with reviews := orKeep s.reviews ((ReviewService.createReview s.reviews body).map Prod.fst) }

def deleteProduct (s : Stores) (pid : Int) : Stores :=
  { s with products := orKeep s.products (ProductService.deleteProduct s.products pid) }

def deleteRecommendations (s : Stores) (pid : Int) : Stores :=
  { s with
    recommendations := orKeep s.recommendations
      (RecommendationService.deleteRecommendations s.recommendations pid) }

def deleteReviews (s : Stores) (pid : Int) : Stores :=
  { s with reviews := orKeep s.reviews (ReviewService.deleteReviews s.reviews pid) }

def apply (s : Stores) : Command → Stores
  | .createCompositeProduct body =>
      let s := s.createProduct ⟨body.productId, body.name, body.weight, none⟩
      let s := (body.recommendations.getD []).foldl
        (fun s r => s.createRecommendation (ProductCompositeService.recommendationOf body r)) s
      (body.reviews.getD []).foldl (fun s r => s.createReview (ProductCompositeService.reviewOf body r)) s
  | .deleteCompositeProduct pid => ((s.deleteProduct pid).deleteRecommendations pid).deleteReviews pid

/-- Delivery of a message, with the attempts resolved: the processing of the event, or the store as it was. -/
theorem deliver_eq (s : Stores) (m : Send) :
    s.deliver m = match m with
      | .products event => { s with products := orKeep s.products (ProductService.process s.products event) }
      | .recommendations event =>
          { s with
            recommendations := orKeep s.recommendations (RecommendationService.process s.recommendations event) }
      | .reviews event => { s with reviews := orKeep s.reviews (ReviewService.process s.reviews event) } := by
  cases m with
  | products event => exact congrArg (fun r => { s with products := r }) (attempts_eq _ event 2 _)
  | recommendations event => exact congrArg (fun r => { s with recommendations := r }) (attempts_eq _ event 2 _)
  | reviews event => exact congrArg (fun r => { s with reviews := r }) (attempts_eq _ event 2 _)

/-- **A command applied synchronously is its sends, delivered in order.** -/
theorem apply_eq_deliver (s : Stores) (c : Command) : s.apply c = c.sends.foldl deliver s := by
  cases c with
  | createCompositeProduct body =>
      simp only [apply, Command.sends, ProductCompositeService.internalCreateCompositeProduct,
        List.cons_append, List.foldl_cons, List.foldl_append, List.foldl_map, deliver_eq]
      rfl
  | deleteCompositeProduct pid =>
      simp only [apply, Command.sends, ProductCompositeService.internalDeleteCompositeProduct,
        List.foldl_cons, List.foldl_nil, deliver_eq]
      rfl

theorem foldl_apply (s : Stores) (cmds : List Command) :
    cmds.foldl apply s = (cmds.flatMap Command.sends).foldl deliver s := by
  induction cmds generalizing s with
  | nil => rfl
  | cons c cs ih => rw [List.foldl_cons, ih, apply_eq_deliver, List.flatMap_cons, List.foldl_append]

end Stores

end NewOrbit.Shop
