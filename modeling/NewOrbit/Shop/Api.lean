import Mathlib.Data.List.Basic

/-!
# `Shop.Api` — the data the shop's services exchange

The value classes of the `api` project: the aggregate a client posts, the per-service objects the composite
service makes of it, and the `Event` that carries one of them to a core service. A Java `String` reference
may be null, hence `Option String`; an `int` here is only compared, stored and printed.
-/

namespace NewOrbit.Shop

structure Product where
  productId : Int
  name : Option String
  weight : Int
  serviceAddress : Option String
  deriving DecidableEq, Repr

structure Recommendation where
  productId : Int
  recommendationId : Int
  author : Option String
  rate : Int
  content : Option String
  serviceAddress : Option String
  deriving DecidableEq, Repr

structure Review where
  productId : Int
  reviewId : Int
  author : Option String
  subject : Option String
  content : Option String
  serviceAddress : Option String
  deriving DecidableEq, Repr

structure RecommendationSummary where
  recommendationId : Int
  author : Option String
  rate : Int
  content : Option String
  deriving DecidableEq, Repr

structure ReviewSummary where
  reviewId : Int
  author : Option String
  subject : Option String
  content : Option String
  deriving DecidableEq, Repr

structure ServiceAddresses where
  compositeAddress : Option String
  productAddress : Option String
  reviewAddress : Option String
  recommendationAddress : Option String
  deriving DecidableEq, Repr

/-- The composite object of the public API. Both lists may be null. -/
structure ProductAggregate where
  productId : Int
  name : Option String
  weight : Int
  recommendations : Option (List RecommendationSummary)
  reviews : Option (List ReviewSummary)
  serviceAddresses : Option ServiceAddresses
  deriving DecidableEq, Repr

inductive EventType
  | create
  | delete
  deriving DecidableEq, Repr

/-- `Event<Integer, T>`; `data` is null in a delete event. The creation time, which is only logged, is left
    out. -/
structure Event (T : Type) where
  eventType : EventType
  key : Int
  data : Option T
  deriving DecidableEq, Repr

/-- What a service call or the processing of an event ends with when it does not return. -/
inductive ServiceError
  | invalidInput (message : String)
  | notFound (message : String)
  | nullPointer
  | dataIntegrityViolation
  deriving DecidableEq, Repr

end NewOrbit.Shop
