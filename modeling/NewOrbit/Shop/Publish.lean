import NewOrbit.Shop.Consistency

/-!
# `Shop.Publish` — commands whose sends may fail

A send to an output channel may throw. The body of a command makes its sends one after another inside a `try`
that logs a `RuntimeException` and rethrows it; nothing takes a message back that is on its channel already. A
handler is embedded with the messages published so far as its state, which an exception leaves as it is.

`handle_eq` says that a command makes its sends in order, and `forM_send_error` is the law of the first send that
throws. Together: a command that fails has published the sends before the failing one (`handle_error`).
-/

namespace NewOrbit.Shop

structure RuntimeException where
  message : String
  deriving DecidableEq, Repr

/-- The output channels: what a send throws, if it does, after the sends before it. -/
abbrev Channels := List Send → Send → Option RuntimeException

/-- The body of a command, with the messages published so far. -/
abbrev Handling := EStateM RuntimeException (List Send)

/-- `messageSources.output….send(message)` -/
def send (channels : Channels) (m : Send) : Handling Unit := fun published =>
  match channels published m with
  | none   => .ok () (published ++ [m])
  | some e => .error e published

namespace ProductCompositeService

open ProductCompositeIntegration

def createCompositeProduct (channels : Channels) (body : ProductAggregate) : Handling Unit := do
  try
    send channels (createProduct ⟨body.productId, body.name, body.weight, none⟩)
    if let some recommendations := body.recommendations then
      recommendations.forM fun r => send channels (createRecommendation (recommendationOf body r))
    if let some reviews := body.reviews then
      reviews.forM fun r => send channels (createReview (reviewOf body r))
  catch re =>
    throw re

def deleteCompositeProduct (channels : Channels) (pid : Int) : Handling Unit := do
  try
    send channels (deleteProduct pid)
    send channels (deleteRecommendations pid)
    send channels (deleteReviews pid)
  catch re =>
    throw re

end ProductCompositeService

def Command.handle (channels : Channels) : Command → Handling Unit
  | .createCompositeProduct body => ProductCompositeService.createCompositeProduct channels body
  | .deleteCompositeProduct pid  => ProductCompositeService.deleteCompositeProduct channels pid

/-! ## A handler makes its sends in order -/

/-- Catching an exception to rethrow it changes nothing. -/
theorem tryCatch_throw (x : Handling Unit) : (tryCatch x fun re => throw re) = x := by
  funext published
  show EStateM.tryCatch x EStateM.throw published = _
  unfold EStateM.tryCatch
  cases x published <;> rfl

/-- **A command makes its sends one after another.** -/
theorem handle_eq (channels : Channels) (c : Command) : c.handle channels = c.sends.forM (send channels) := by
  cases c with
  | createCompositeProduct body =>
      show ProductCompositeService.createCompositeProduct channels body = _
      unfold ProductCompositeService.createCompositeProduct
      rw [tryCatch_throw]
      obtain ⟨pid, name, weight, recommendations, reviews, addresses⟩ := body
      cases recommendations <;> cases reviews <;>
        simp [Command.sends, ProductCompositeService.internalCreateCompositeProduct]
  | deleteCompositeProduct pid =>
      show ProductCompositeService.deleteCompositeProduct channels pid = _
      unfold ProductCompositeService.deleteCompositeProduct
      rw [tryCatch_throw]
      simp [Command.sends, ProductCompositeService.internalDeleteCompositeProduct]

theorem forM_send_cons (channels : Channels) (m : Send) (ms published : List Send) :
    (m :: ms).forM (send channels) published
      = match channels published m with
        | none   => ms.forM (send channels) (published ++ [m])
        | some e => .error e published := by
  show EStateM.bind (send channels m) (fun _ => ms.forM (send channels)) published = _
  unfold EStateM.bind send
  cases channels published m <;> rfl

/-- **The first send that throws.** Everything before it is published, nothing from it on. -/
theorem forM_send_error {channels : Channels} {ms published published' : List Send} {e : RuntimeException}
    (h : ms.forM (send channels) published = .error e published') :
    ∃ before m after, ms = before ++ m :: after ∧ published' = published ++ before ∧
      channels published' m = some e ∧
      ∀ p m' q, before = p ++ m' :: q → channels (published ++ p) m' = none := by
  induction ms generalizing published with
  | nil => cases h
  | cons m ms ih =>
      rw [forM_send_cons] at h
      cases hm : channels published m with
      | some e' =>
          rw [hm] at h
          cases h
          refine ⟨[], m, ms, rfl, (List.append_nil _).symm, hm, fun p m' q hp => ?_⟩
          exact absurd hp (by simp)
      | none =>
          rw [hm] at h
          obtain ⟨before, m', after, rfl, rfl, he, hbefore⟩ := ih h
          refine ⟨m :: before, m', after, rfl, by rw [List.append_assoc, List.singleton_append], he, ?_⟩
          intro p x q hp
          -- Either `x` is the first send, or it is one of the later ones.
          rcases List.cons_eq_append_iff.mp hp with ⟨rfl, hx⟩ | ⟨p, rfl, hx⟩
          · cases hx
            rw [List.append_nil]
            exact hm
          · have hx := hbefore p x q hx
            rwa [List.append_assoc, List.singleton_append] at hx

/-- Sends none of which throws. -/
theorem forM_send_ok {channels : Channels} {ms published published' : List Send}
    (h : ms.forM (send channels) published = .ok () published') : published' = published ++ ms := by
  induction ms generalizing published with
  | nil => cases h; exact (List.append_nil _).symm
  | cons m ms ih =>
      rw [forM_send_cons] at h
      cases hm : channels published m with
      | some e' => rw [hm] at h; cases h
      | none =>
          rw [hm] at h
          rw [ih h, List.append_assoc, List.singleton_append]

/-- **A command that returns has published all of its sends.** -/
theorem handle_ok {channels : Channels} {c : Command} {published : List Send}
    (h : c.handle channels [] = .ok () published) : published = c.sends := by
  rw [handle_eq] at h
  exact forM_send_ok h

/-! ## A command that fails -/

/-- The first send of a command is the one to the product queue, and the only one. -/
theorem Command.sends_cons (c : Command) :
    ∃ m rest, c.sends = m :: rest ∧ m.topic = .products ∧ ∀ m' ∈ rest, m'.topic ≠ .products := by
  cases c with
  | createCompositeProduct body =>
      refine ⟨_, _, rfl, rfl, fun m' hm => ?_⟩
      rcases List.mem_append.mp hm with hm | hm
      all_goals
        obtain ⟨_, _, rfl⟩ := List.mem_map.mp hm
        exact fun h => nomatch h
  | deleteCompositeProduct pid =>
      refine ⟨_, _, rfl, rfl, fun m' hm => ?_⟩
      rcases List.mem_cons.mp hm with rfl | hm
      · exact fun h => nomatch h
      · rw [List.mem_singleton.mp hm]
        exact fun h => nomatch h

/-- Nothing comes before a send exactly when it is the one to the product queue. -/
theorem Command.before_eq_nil_iff {c : Command} {before after : List Send} {m : Send}
    (h : c.sends = before ++ m :: after) : before = [] ↔ m.topic = .products := by
  obtain ⟨m0, rest, hsends, hfirst, hrest⟩ := c.sends_cons
  rw [hsends] at h
  rcases List.cons_eq_append_iff.mp h with ⟨rfl, hm⟩ | ⟨before, rfl, hm⟩
  · cases hm
    exact iff_of_true rfl hfirst
  · have hmem : m ∈ rest := hm ▸ List.mem_append_right _ List.mem_cons_self
    exact iff_of_false (List.cons_ne_nil _ _) (hrest m hmem)

/-- **A failed command has published the sends before the failing one**, in order: none exactly when it was the
    send to the product queue, the first, that threw. Whatever the interleaving of the queues, the stores then
    hold what delivering those events leaves; with none published they are as they were. -/
theorem handle_error (channels : Channels) (c : Command) (e : RuntimeException) (published : List Send)
    (h : c.handle channels [] = .error e published) :
    ∃ m after, c.sends = published ++ m :: after ∧ channels published m = some e ∧
      (∀ p m' q, published = p ++ m' :: q → channels p m' = none) ∧
      (published = [] ↔ m.topic = .products) ∧
      ∀ (part : Int → Nat) (s0 : Stores) (tr : List Action) (t : Landscape),
        Machine.exec (Landscape.step part) tr (Landscape.start [published] s0) = some t → t.Drained →
          t.stores.SameContent (published.foldl Stores.deliver s0) ∧ (published = [] → t.stores = s0) := by
  rw [handle_eq] at h
  obtain ⟨before, m, after, hsends, hpub, he, hbefore⟩ := forM_send_error h
  rw [List.nil_append] at hpub
  subst hpub
  simp only [List.nil_append] at hbefore
  refine ⟨m, after, hsends, he, hbefore, Command.before_eq_nil_iff hsends, fun part s0 tr t hrun hd => ⟨?_, ?_⟩⟩
  · have hwf : ∀ x ∈ published, x.WellFormed :=
      fun x hx => (c.sends_spec (hsends ▸ List.mem_append_left _ hx)).1
    exact Landscape.drained_single hwf hrun hd
  · rintro rfl
    refine Landscape.stores_of_keep (fun l hl x hx => ?_) hrun
    rw [List.mem_singleton.mp hl] at hx
    exact absurd hx List.not_mem_nil

/-- Channels whose recommendation queue is down. -/
def recommendationsDown : Channels := fun _ m =>
  if m.topic = .recommendations then some ⟨"failed to send message to channel 'output-recommendations'"⟩ else none

/-- **A failed command may have published events.** The delete of product 1 with the recommendation queue down. -/
theorem not_always_unpublished :
    ¬ ∀ (channels : Channels) (c : Command) (e : RuntimeException) (published : List Send),
      c.handle channels [] = .error e published → published = [] := by
  intro hall
  have hnil := hall recommendationsDown (.deleteCompositeProduct 1) _ [.products ⟨.delete, 1, none⟩] rfl
  exact absurd hnil (List.cons_ne_nil _ _)

/-- The create of an aggregate with a recommendation, with the recommendation queue down: the product is sent. -/
theorem handle_error_recommendationsDown :
    ∃ m after, (Command.createCompositeProduct Landscape.aggregateOne).sends
        = [.products ⟨.create, 1, some ⟨1, some "bond", 1, none⟩⟩] ++ m :: after ∧
      m.topic ≠ .products := by
  obtain ⟨m, after, hsends, _, _, hfirst, _⟩ := handle_error recommendationsDown
    (.createCompositeProduct Landscape.aggregateOne) _ [.products ⟨.create, 1, some ⟨1, some "bond", 1, none⟩⟩] rfl
  exact ⟨m, after, hsends, fun htop => List.cons_ne_nil _ _ (hfirst.mpr htop)⟩

end NewOrbit.Shop
