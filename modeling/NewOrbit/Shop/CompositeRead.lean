import NewOrbit.Shop.Reads

/-!
# `Shop.CompositeRead` — reading an aggregate through the composite service

`getCompositeProduct` asks the three core services and zips what they answer. A failure of the recommendations or
of the reviews cuts the list short; a failure of the product is mapped to an exception of the shop, or passed on;
where the circuit breaker refuses the call a fallback product is taken. The fallback is an argument of
`onErrorReturn`, so it is built before any call is made: for product 13 this throws, whatever the product service
would have answered (`reads_iff`).

The security context is only logged and left out here. `ObjectMapper.readValue` is a parameter.
-/

namespace NewOrbit.Shop

inductive Throwable
  | NotFoundException (message : Option String)
  | InvalidInputException (message : Option String)
  | WebClientResponseException (status : Nat) (body message : String)
  | CallNotPermittedException
  | NullPointerException
  | other (what : String)
  deriving DecidableEq, Repr

/-- The body of an error response, as far as it is read. -/
structure HttpErrorInfo where
  message : Option String
  deriving DecidableEq, Repr

/-- One attempt to call the product service: refused by the circuit breaker, or answered with a product (`none` for
    a response without a body) or with an error status, or failed otherwise: no answer in time, no connection, a
    body that is no product. -/
inductive Attempt
  | refused
  | emits (product : Option Product)
  | status (code : Nat) (body message : String)
  | fails (what : String)
  deriving DecidableEq, Repr

/-- What a list call emits before it completes or fails. -/
structure Emission (α : Type) where
  emitted : List α
  failure : Option String
  deriving DecidableEq, Repr

structure Calls where
  product : ℕ → Attempt
  recommendations : Emission Recommendation
  reviews : Emission Review

/-! ## The calls -/

namespace ProductCompositeIntegration

-- `mapper.readValue(body, HttpErrorInfo.class)`: an `IOException`, or the value, which is null for the JSON null.
variable (readValue : String → Except Unit (Option HttpErrorInfo))

/-- `none` stands for the `NullPointerException` of `getMessage` on null. -/
def getErrorMessage (body message : String) : Option (Option String) :=
  match readValue body with
  | .error ()       => some (some message)
  | .ok (some info) => some info.message
  | .ok none        => none

def handleException (code : Nat) (body message : String) : Throwable :=
  match code with
  | 404 => ((getErrorMessage readValue body message).map .NotFoundException).getD .NullPointerException
  | 422 => ((getErrorMessage readValue body message).map .InvalidInputException).getD .NullPointerException
  | _   => .WebClientResponseException code body message

/-- `@Retry(name = "product")`: three attempts at most, and a further one only after an internal server error. -/
def retry (attempts : ℕ → Attempt) : ℕ → ℕ → Attempt
  | 0,     i => attempts i
  | k + 1, i =>
      match attempts i with
      | .status 500 _ _ => retry attempts k (i + 1)
      | attempt         => attempt

def lastAttempt (attempts : ℕ → Attempt) : Attempt := retry attempts 2 0

/-- What an attempt signals. -/
def signal : Attempt → Except Throwable (Option Product)
  | .refused                  => .error .CallNotPermittedException
  | .emits product            => .ok product
  | .status code body message => .error (handleException readValue code body message)
  | .fails what               => .error (.other what)

def getProduct (attempts : ℕ → Attempt) : Except Throwable (Option Product) :=
  signal readValue (lastAttempt attempts)

/-- `getRecommendations` and `getReviews`: a failure ends the list. -/
def getList {α : Type} (e : Emission α) : List α := e.emitted

end ProductCompositeIntegration

/-! ## The composite -/

/-- How a method that returns a `Mono` ends: it throws, or the `Mono` it returns signals an error, a value or
    nothing. -/
inductive Result (α : Type)
  | throws (e : Throwable)
  | returns (signal : Except Throwable (Option α))
  deriving DecidableEq

namespace ProductCompositeService
open ProductCompositeIntegration

variable (readValue : String → Except Unit (Option HttpErrorInfo)) (serviceAddress : String)

def getProductFallbackValue (pid : Int) : Except Throwable Product :=
  if pid = 13 then
    .error (.NotFoundException (some ("Product Id: " ++ toString pid ++ " not found in fallback cache!")))
  else .ok ⟨pid, some ("Fallback product" ++ toString pid), pid, some serviceAddress⟩

/-- `onErrorReturn(CallNotPermittedException.class, fallback)` -/
def onErrorReturn (fallback : Product) : Except Throwable (Option Product) → Except Throwable (Option Product)
  | .error .CallNotPermittedException => .ok (some fallback)
  | signal                            => signal

/-- The aggregate of a product and of what the other two calls emitted. -/
def aggregate (calls : Calls) (product : Product) : ProductAggregate :=
  createProductAggregate product (some (getList calls.recommendations)) (some (getList calls.reviews)) serviceAddress

def getCompositeProduct (pid : Int) (calls : Calls) : Result ProductAggregate :=
  match getProductFallbackValue serviceAddress pid with
  | .error e     => .throws e
  | .ok fallback => .returns do
      let product ← onErrorReturn fallback (getProduct readValue calls.product)
      -- `Mono.zip` completes empty if one of its sources does.
      return product.map (aggregate serviceAddress calls)

/-! ## What a read should end with

The cases are those of the last attempt at the product call. For product 13 the fallback throws before any of them
matters; in the other cases only the body of an error response can go wrong, where it is the JSON null. -/

/-- The read ends as the last attempt at the product call says: with the aggregate of the product it returned; with
    `NotFoundException` or `InvalidInputException` for the status 404 or 422; with the fallback, if the call was
    refused; and in any other case as the call itself did. -/
def Reads (pid : Int) (calls : Calls) : Prop :=
  let result := getCompositeProduct readValue serviceAddress pid calls
  match lastAttempt calls.product with
  | .emits product  => result = .returns (.ok (product.map (aggregate serviceAddress calls)))
  | .status 404 _ _ => ∃ message, result = .returns (.error (.NotFoundException message))
  | .status 422 _ _ => ∃ message, result = .returns (.error (.InvalidInputException message))
  | .status code body message => result = .returns (.error (.WebClientResponseException code body message))
  | .fails what     => result = .returns (.error (.other what))
  | .refused        =>
      match getProductFallbackValue serviceAddress pid with
      | .ok fallback => result = .returns (.ok (some (aggregate serviceAddress calls fallback)))
      | .error e     => result = .throws e ∨ result = .returns (.error e)

/-- The fallback of the product can be built, or is needed; and the body of a response with the status 404 or 422
    is not the JSON null. -/
def Readable (pid : Int) (calls : Calls) : Prop :=
  (pid = 13 → lastAttempt calls.product = .refused) ∧
    ∀ code body message, lastAttempt calls.product = .status code body message → code = 404 ∨ code = 422 →
      readValue body ≠ .ok none

section
variable {readValue serviceAddress} {pid : Int} {calls : Calls}

/-- For product 13 the method itself throws. -/
theorem getCompositeProduct_thirteen :
    getCompositeProduct readValue serviceAddress 13 calls =
      .throws (.NotFoundException (some "Product Id: 13 not found in fallback cache!")) := rfl

theorem getCompositeProduct_of_ne (hpid : pid ≠ 13) :
    getCompositeProduct readValue serviceAddress pid calls = .returns do
      let product ← onErrorReturn ⟨pid, some ("Fallback product" ++ toString pid), pid, some serviceAddress⟩
        (getProduct readValue calls.product)
      return product.map (aggregate serviceAddress calls) := by
  rw [getCompositeProduct, getProductFallbackValue, if_neg hpid]

/-- For product 13 a read ends as it should only where the fallback is needed. -/
theorem reads_thirteen_iff : Reads readValue serviceAddress 13 calls ↔ lastAttempt calls.product = .refused := by
  unfold Reads
  dsimp only
  rw [getCompositeProduct_thirteen]
  constructor
  · intro h
    split at h
    case h_6 heq => exact heq
    all_goals simp at h
  · intro h
    rw [h]
    exact .inl rfl

theorem getErrorMessage_eq_none (body message : String) :
    getErrorMessage readValue body message = none ↔ readValue body = .ok none := by
  unfold getErrorMessage
  split <;> simp_all

/-- A message that can be read makes an exception of it. -/
theorem handleException_iff (exception : Option String → Throwable) (hne : ∀ m, exception m ≠ .NullPointerException)
    (body message : String) :
    (∃ m, ((getErrorMessage readValue body message).map exception).getD .NullPointerException = exception m) ↔
      readValue body ≠ .ok none := by
  rw [Ne, ← getErrorMessage_eq_none body message]
  cases getErrorMessage readValue body message with
  | none => simpa using fun m => (hne m).symm
  | some m => simp

theorem handleException_ne (readValue : String → Except Unit (Option HttpErrorInfo)) (code : Nat)
    (body message : String) :
    handleException readValue code body message ≠ .CallNotPermittedException := by
  unfold handleException
  split
  · cases getErrorMessage readValue body message <;> simp
  · cases getErrorMessage readValue body message <;> simp
  · simp

/-- An error status is signalled as `handleException` maps it. -/
theorem getCompositeProduct_of_status (hpid : pid ≠ 13) {code : Nat} {body message : String}
    (hlast : lastAttempt calls.product = .status code body message) :
    getCompositeProduct readValue serviceAddress pid calls =
      .returns (.error (handleException readValue code body message)) := by
  have hne := handleException_ne readValue code body message
  rw [getCompositeProduct_of_ne hpid, getProduct, hlast, signal]
  generalize handleException readValue code body message = e at hne
  cases e <;> first | rfl | exact absurd rfl hne

theorem reads_iff_of_ne (hpid : pid ≠ 13) : Reads readValue serviceAddress pid calls ↔
    ∀ code body message, lastAttempt calls.product = .status code body message → code = 404 ∨ code = 422 →
      readValue body ≠ .ok none := by
  unfold Reads
  dsimp only
  cases hlast : lastAttempt calls.product with
  | status code body message =>
      have hbody : (∀ code' body' message', Attempt.status code body message = .status code' body' message' →
          code' = 404 ∨ code' = 422 → readValue body' ≠ .ok none) ↔
            (code = 404 ∨ code = 422 → readValue body ≠ .ok none) := by
        constructor
        · exact fun h hcode => h _ _ _ rfl hcode
        · rintro h _ _ _ ⟨⟩ hcode
          exact h hcode
      rw [hbody, getCompositeProduct_of_status hpid hlast]
      by_cases h404 : code = 404
      · subst h404
        simpa [handleException] using handleException_iff .NotFoundException (by simp) body message
      by_cases h422 : code = 422
      · subst h422
        simpa [handleException] using handleException_iff .InvalidInputException (by simp) body message
      simp [handleException, h404, h422]
  | refused =>
      rw [getCompositeProduct_of_ne hpid, getProduct, hlast, getProductFallbackValue, if_neg hpid]
      exact ⟨fun _ => nofun, fun _ => rfl⟩
  | emits product =>
      rw [getCompositeProduct_of_ne hpid, getProduct, hlast]
      exact ⟨fun _ => nofun, fun _ => rfl⟩
  | fails what =>
      rw [getCompositeProduct_of_ne hpid, getProduct, hlast]
      exact ⟨fun _ => nofun, fun _ => rfl⟩

end

/-- **A read ends as it should exactly when the fallback can be built or is needed, and an error that is mapped has a
    message to read.** -/
theorem reads_iff (pid : Int) (calls : Calls) :
    Reads readValue serviceAddress pid calls ↔ Readable readValue pid calls := by
  by_cases hpid : pid = 13
  · subst hpid
    rw [reads_thirteen_iff, Readable]
    constructor
    · intro hrefused
      refine ⟨fun _ => hrefused, fun code body message hstatus => ?_⟩
      rw [hrefused] at hstatus
      cases hstatus
    · exact fun h => h.1 rfl
  · rw [reads_iff_of_ne hpid, Readable]
    exact (and_iff_right fun h => absurd h hpid).symm

/-- Product 13 is stored and returned, and the read throws. -/
theorem not_always_reads : ¬ ∀ readValue serviceAddress pid calls, Reads readValue serviceAddress pid calls := by
  intro h
  have hrefused := reads_thirteen_iff.mp (h (fun _ => .error ()) "composite" 13
    ⟨fun _ => .emits (some ⟨13, some "name", 1, some "product"⟩), ⟨[], none⟩, ⟨[], none⟩⟩)
  cases hrefused

end ProductCompositeService

end NewOrbit.Shop
