import Mathlib.Data.List.Induction
import NewOrbit.Lib.Override

/-!
# `Lib.Upsert` — stores in which an event changes the first element of its key, or adds one

An element may be found by several keys; once an event has changed it, or has added it, it is found by the key of
that event alone (`Lawful`). It then *owns* the key: it is the first element found by it, and stays so
(`Owns.run`). Two results rest on this. After a list of events each of their keys has an owner that shows what
the events of the key set, so the same events again change nothing that shows (`run_run`). And where no key finds
two elements and no element is found by two keys, every element is an owner, and its fields are those the last
event of its key has set (`Separate`).
-/

namespace Upsert

variable {S E K F V : Type*} [DecidableEq K]

/-- What finds an element, and what an event does to one or makes anew. -/
structure Schema (S E K : Type*) where
  has  : K → S → Bool
  key  : E → K
  set  : S → E → S
  make : List S → E → S

variable (σ : Schema S E K)

/-- The first element found by `k`, changed by an event. -/
def update (k : K) (e : E) : List S → List S
  | []     => []
  | s :: c => if σ.has k s then σ.set s e :: c else s :: update k e c

def upsert (c : List S) (e : E) : List S :=
  if c.any (σ.has (σ.key e)) then update σ (σ.key e) e c else c ++ [σ.make c e]

def run (es : List E) (c : List S) : List S := es.foldl (upsert σ) c

/-- The laws of a schema for the elements that are `Ok`, with what an element shows and what an event sets. -/
structure Lawful (Ok : S → Prop) (view : S → F → Option V) (val : E → F → Option V) : Prop where
  has_set   : ∀ s e, Ok s → σ.has (σ.key e) s = true → ∀ k, σ.has k (σ.set s e) = true ↔ k = σ.key e
  has_make  : ∀ c e k, σ.has k (σ.make c e) = true ↔ k = σ.key e
  ok_set    : ∀ s e, Ok s → σ.has (σ.key e) s = true → Ok (σ.set s e)
  ok_make   : ∀ c e, Ok (σ.make c e)
  view_set  : ∀ s e, view (σ.set s e) = Override.overlay (view s) (val e)
  view_make : ∀ c e, Override.overlay (view (σ.make c e)) (val e) = view (σ.make c e)

variable {σ} {Ok : S → Prop} {view : S → F → Option V} {val : E → F → Option V} {c : List S} {e : E}

/-! ## One event

Either an element is found, and the first of those is changed, or none is, and one is added (`upsert_cases`).
Everything below is shown for these two cases. -/

omit [DecidableEq K] in
theorem update_append {k : K} {before after : List S} {s : S} (hbefore : ∀ t ∈ before, σ.has k t = false)
    (hs : σ.has k s = true) :
    update σ k e (before ++ s :: after) = before ++ σ.set s e :: after := by
  induction before with
  | nil => rw [List.nil_append, update, if_pos hs, List.nil_append]
  | cons t before ih =>
      rw [List.forall_mem_cons] at hbefore
      rw [List.cons_append, update, if_neg (by simp [hbefore.1]), ih hbefore.2, List.cons_append]

omit [DecidableEq K] in
/-- **What an event does**: it changes the first element found by its key, or adds one where there is none. -/
theorem upsert_cases (c : List S) (e : E) :
    (∃ before s after, c = before ++ s :: after ∧ (∀ t ∈ before, σ.has (σ.key e) t = false) ∧
      σ.has (σ.key e) s = true ∧ upsert σ c e = before ++ σ.set s e :: after) ∨
    ((∀ t ∈ c, σ.has (σ.key e) t = false) ∧ upsert σ c e = c ++ [σ.make c e]) := by
  by_cases hany : c.any (σ.has (σ.key e)) = true
  · obtain ⟨s, hs, hfirst⟩ : ∃ s, c.find? (σ.has (σ.key e)) = some s ∧ σ.has (σ.key e) s = true := by
      obtain ⟨t, ht, hkey⟩ := List.any_eq_true.mp hany
      have hsome : (c.find? (σ.has (σ.key e))).isSome = true := List.find?_isSome.mpr ⟨t, ht, hkey⟩
      obtain ⟨s, hs⟩ := Option.isSome_iff_exists.mp hsome
      exact ⟨s, hs, List.find?_some hs⟩
    obtain ⟨-, before, after, rfl, hbefore⟩ := List.find?_eq_some_iff_append.mp hs
    have hbefore' : ∀ t ∈ before, σ.has (σ.key e) t = false := by
      intro t ht
      simpa using hbefore t ht
    refine Or.inl ⟨before, s, after, rfl, hbefore', hfirst, ?_⟩
    rw [upsert, if_pos hany, update_append hbefore' hfirst]
  · refine Or.inr ⟨?_, if_neg hany⟩
    simpa using hany

omit [DecidableEq K] in
theorem ok_upsert (hσ : Lawful σ Ok view val) (hok : ∀ s ∈ c, Ok s) : ∀ s ∈ upsert σ c e, Ok s := by
  rcases upsert_cases (σ := σ) c e with ⟨before, s, after, rfl, -, hs, hset⟩ | ⟨-, hmake⟩
  · rw [hset]
    rw [List.forall_mem_append, List.forall_mem_cons] at hok ⊢
    exact ⟨hok.1, hσ.ok_set s e hok.2.1 hs, hok.2.2⟩
  · rw [hmake, List.forall_mem_append, List.forall_mem_singleton]
    exact ⟨hok, hσ.ok_make c e⟩

omit [DecidableEq K] in
theorem ok_run (hσ : Lawful σ Ok view val) (es : List E) (hok : ∀ s ∈ c, Ok s) : ∀ s ∈ run σ es c, Ok s := by
  induction es generalizing c with
  | nil => exact hok
  | cons e es ih => exact ih (ok_upsert hσ hok)

/-! ## Owners

An owner is found by its key before all others, and by no other key. So an event of another key cannot find it, and an
event of its own key finds nothing else: the position of an owner is the same after any run, and what it shows is laid
over by the events of its key. -/

omit [DecidableEq K] in
/-- The other elements of a store in which one was changed. -/
theorem getElem?_update {before after : List S} {s t : S} {j : Nat} (hj : j ≠ before.length) :
    (before ++ s :: after)[j]? = (before ++ t :: after)[j]? := by
  rcases Nat.lt_or_ge j before.length with hlt | hge
  · rw [List.getElem?_append_left hlt, List.getElem?_append_left hlt]
  · obtain ⟨n, hn⟩ : ∃ n, j - before.length = n + 1 := ⟨j - before.length - 1, by omega⟩
    rw [List.getElem?_append_right hge, List.getElem?_append_right hge, hn, List.getElem?_cons_succ,
      List.getElem?_cons_succ]

/-- The element at position `i` is the first that is found by `k`, and is found by nothing else. -/
structure Owns (σ : Schema S E K) (l : List S) (k : K) (i : Nat) (s : S) : Prop where
  here  : l[i]? = some s
  alone : ∀ k', σ.has k' s = true ↔ k' = k
  first : ∀ j t, j < i → l[j]? = some t → σ.has k t = false

omit [DecidableEq K] in
theorem Owns.unique {k : K} {i j : Nat} {s t : S} (hs : Owns σ c k i s) (ht : Owns σ c k j t) :
    i = j ∧ s = t := by
  have hij : i = j := by
    rcases Nat.lt_trichotomy i j with h | h | h
    · exact absurd (ht.first i s h hs.here) (by simp [(hs.alone k).mpr rfl])
    · exact h
    · exact absurd (hs.first j t h ht.here) (by simp [(ht.alone k).mpr rfl])
  subst hij
  exact ⟨rfl, Option.some.inj (hs.here.symm.trans ht.here)⟩

omit [DecidableEq K] in
/-- The first element found by the key of an event owns it afterwards. -/
theorem owns_of_set (hσ : Lawful σ Ok view val) {before : List S} (after : List S) {s : S} (hok : Ok s)
    (hbefore : ∀ t ∈ before, σ.has (σ.key e) t = false) (hs : σ.has (σ.key e) s = true) :
    Owns σ (before ++ σ.set s e :: after) (σ.key e) before.length (σ.set s e) where
  here  := by simp
  alone := hσ.has_set s e hok hs
  first := by
    intro j t hj ht
    rw [List.getElem?_append_left hj] at ht
    exact hbefore t (List.mem_of_getElem? ht)

omit [DecidableEq K] in
theorem owns_of_make (hσ : Lawful σ Ok view val) (hnone : ∀ t ∈ c, σ.has (σ.key e) t = false) :
    Owns σ (c ++ [σ.make c e]) (σ.key e) c.length (σ.make c e) where
  here  := by simp
  alone := hσ.has_make c e
  first := by
    intro j t hj ht
    rw [List.getElem?_append_left hj] at ht
    exact hnone t (List.mem_of_getElem? ht)

/-- **An owner stays**: an event of its key changes it, and no other event does. -/
theorem Owns.upsert (hσ : Lawful σ Ok view val) (hok : ∀ s ∈ c, Ok s) {k : K} {i : Nat} {s : S}
    (h : Owns σ c k i s) (e : E) :
    Owns σ (upsert σ c e) k i (if σ.key e = k then σ.set s e else s) := by
  have hs : σ.has k s = true := (h.alone k).mpr rfl
  rcases upsert_cases (σ := σ) c e with ⟨before, s', after, rfl, hbefore, hs', hset⟩ | ⟨hnone, hmake⟩
  · have hok' : Ok s' := hok s' (by simp)
    have hnew := owns_of_set hσ after hok' hbefore hs'
    rw [hset]
    by_cases hk : σ.key e = k
    · subst hk
      -- The element that was changed is the owner, the first one with the key.
      have hat : i = before.length ∧ s = s' := by
        rcases Nat.lt_trichotomy i before.length with hlt | heq | hgt
        · have hmem := h.here
          rw [List.getElem?_append_left hlt] at hmem
          exact absurd (hbefore s (List.mem_of_getElem? hmem)) (by simp [hs])
        · refine ⟨heq, ?_⟩
          have hhere := h.here
          rw [heq] at hhere
          simpa using hhere.symm
        · exact absurd (h.first before.length s' hgt (by simp)) (by simp [hs'])
      rw [if_pos rfl, hat.1, hat.2]
      exact hnew
    · -- Another element was changed; it is found by the other key only, so it does not come before the owner.
      have hne : i ≠ before.length := by
        intro heq
        have hhere := h.here
        rw [heq] at hhere
        have hss : s' = s := by simpa using hhere
        exact hk ((h.alone (σ.key e)).mp (hss ▸ hs'))
      rw [if_neg hk]
      refine ⟨(getElem?_update hne).trans h.here, h.alone, ?_⟩
      intro j t hj ht
      by_cases hjb : j = before.length
      · rw [hjb, hnew.here] at ht
        rw [← Option.some.inj ht]
        have hiff := hσ.has_set s' e hok' hs' k
        by_contra hfound
        exact hk (hiff.mp (by simpa using hfound)).symm
      · exact h.first j t hj ((getElem?_update hjb).trans ht)
  · have hk : σ.key e ≠ k := by
      rintro rfl
      exact absurd (hnone s (List.mem_of_getElem? h.here)) (by simp [hs])
    rw [hmake, if_neg hk]
    have hlt : i < c.length := by
      have hhere := h.here
      exact (List.getElem?_eq_some_iff.mp hhere).1
    refine ⟨(List.getElem?_append_left hlt).trans h.here, h.alone, ?_⟩
    intro j t hj ht
    rw [List.getElem?_append_left (by omega)] at ht
    exact h.first j t hj ht

/-- **After any events an owner is where it was, and shows what the events of its key have set**, the last of them
    on top. -/
theorem Owns.run (hσ : Lawful σ Ok view val) {k : K} {i : Nat} {s : S} (h : Owns σ c k i s)
    (hok : ∀ s ∈ c, Ok s) (es : List E) :
    ∃ t, Owns σ (run σ es c) k i t ∧ view t = Override.layers val (view s) (es.filter (σ.key · = k)) := by
  induction es generalizing c s with
  | nil => exact ⟨s, h, rfl⟩
  | cons e es ih =>
      obtain ⟨t, ht, hview⟩ := ih (h.upsert hσ hok e) (ok_upsert hσ hok)
      refine ⟨t, ht, hview.trans ?_⟩
      by_cases hk : σ.key e = k
      · rw [if_pos hk, List.filter_cons_of_pos (by simpa using hk), hσ.view_set]
        rfl
      · rw [if_neg hk, List.filter_cons_of_neg (by simpa using hk)]

/-- A key that finds nothing is owned by the element its first event adds. -/
theorem owns_run_of_new (hσ : Lawful σ Ok view val) (hok : ∀ s ∈ c, Ok s) {k : K} (es : List E)
    (hnone : ∀ s ∈ c, σ.has k s = false) (hk : k ∈ es.map σ.key) :
    ∃ c' e i t later, Owns σ (run σ es c) k i t ∧ es.filter (σ.key · = k) = e :: later ∧
      view t = Override.layers val (view (σ.make c' e)) later := by
  induction es generalizing c with
  | nil => cases hk
  | cons e es ih =>
      by_cases he : σ.key e = k
      · subst he
        rcases upsert_cases (σ := σ) c e with ⟨before, s, after, rfl, -, hs, -⟩ | ⟨-, hmake⟩
        · exact absurd (hnone s (by simp)) (by simp [hs])
        · have hnew := owns_of_make hσ hnone
          rw [← hmake] at hnew
          obtain ⟨t, ht, hview⟩ := hnew.run hσ (ok_upsert hσ hok) es
          exact ⟨c, e, _, t, _, ht, List.filter_cons_of_pos (by simp), hview⟩
      · have hk' : k ∈ es.map σ.key := by
          rw [List.map_cons, List.mem_cons] at hk
          exact hk.resolve_left (Ne.symm he)
        -- An event of another key leaves an element with that key only.
        have hnone' : ∀ s ∈ upsert σ c e, σ.has k s = false := by
          rcases upsert_cases (σ := σ) c e with ⟨before, s, after, rfl, -, hs, hset⟩ | ⟨-, hmake⟩
          · rw [hset]
            rw [List.forall_mem_append, List.forall_mem_cons] at hnone ⊢
            refine ⟨hnone.1, ?_, hnone.2.2⟩
            have hiff := hσ.has_set s e (hok s (by simp)) hs k
            by_contra hfound
            exact he (hiff.mp (by simpa using hfound)).symm
          · rw [hmake, List.forall_mem_append, List.forall_mem_singleton]
            refine ⟨hnone, ?_⟩
            by_contra hfound
            exact he ((hσ.has_make c e k).mp (by simpa using hfound)).symm
        obtain ⟨c', e', i, t, later, ht, hfilter, hview⟩ := ih (ok_upsert hσ hok) hnone' hk'
        exact ⟨c', e', i, t, later, ht, (List.filter_cons_of_neg (by simpa using he)).trans hfilter, hview⟩

/-! ## Stores in which no key finds two elements

In such stores each element that is found by a key owns it. Both properties are kept by an event, because a changed
element is found by the key it was found by. -/

variable (σ) in
/-- The element is found by one key at most. -/
def Single (s : S) : Prop := ∀ k k', σ.has k s = true → σ.has k' s = true → k = k'

variable (σ) in
def Separate (c : List S) : Prop := c.Pairwise fun s t => ∀ k, σ.has k s = true → σ.has k t = false

omit [DecidableEq K] in
/-- What an event changes is found by the same keys as before. -/
theorem has_set_eq (hσ : Lawful σ Ok view val) {s : S} (hok : Ok s) (hsingle : Single σ s)
    (hs : σ.has (σ.key e) s = true) (k : K) : σ.has k (σ.set s e) = σ.has k s := by
  rw [Bool.eq_iff_iff, hσ.has_set s e hok hs]
  constructor
  · rintro rfl
    exact hs
  · intro hk
    exact hsingle _ _ hk hs

omit [DecidableEq K] in
theorem single_upsert (hσ : Lawful σ Ok view val) (hok : ∀ s ∈ c, Ok s) (hsingle : ∀ s ∈ c, Single σ s) :
    ∀ s ∈ upsert σ c e, Single σ s := by
  rcases upsert_cases (σ := σ) c e with ⟨before, s, after, rfl, -, hs, hset⟩ | ⟨-, hmake⟩
  · have hkeys := has_set_eq hσ (hok s (by simp)) (hsingle s (by simp)) hs
    rw [hset]
    rw [List.forall_mem_append, List.forall_mem_cons] at hsingle ⊢
    refine ⟨hsingle.1, ?_, hsingle.2.2⟩
    intro k k'
    rw [hkeys, hkeys]
    exact hsingle.2.1 k k'
  · rw [hmake, List.forall_mem_append, List.forall_mem_singleton]
    refine ⟨hsingle, ?_⟩
    intro k k' hk hk'
    exact ((hσ.has_make c e k).mp hk).trans ((hσ.has_make c e k').mp hk').symm

omit [DecidableEq K] in
theorem separate_upsert (hσ : Lawful σ Ok view val) (hok : ∀ s ∈ c, Ok s) (hsingle : ∀ s ∈ c, Single σ s)
    (hsep : Separate σ c) : Separate σ (upsert σ c e) := by
  rcases upsert_cases (σ := σ) c e with ⟨before, s, after, rfl, -, hs, hset⟩ | ⟨hnone, hmake⟩
  · have hkeys := has_set_eq hσ (hok s (by simp)) (hsingle s (by simp)) hs
    rw [hset]
    rw [Separate, List.pairwise_append, List.pairwise_cons] at hsep ⊢
    obtain ⟨hbefore, ⟨hfirst, hafter⟩, hcross⟩ := hsep
    refine ⟨hbefore, ⟨fun t ht k => ?_, hafter⟩, fun t ht u hu => ?_⟩
    · rw [hkeys]
      exact hfirst t ht k
    · rcases List.mem_cons.mp hu with rfl | hu
      · intro k
        rw [hkeys]
        exact hcross t ht s List.mem_cons_self k
      · exact hcross t ht u (List.mem_cons_of_mem _ hu)
  · rw [hmake, Separate, List.pairwise_append]
    refine ⟨hsep, List.pairwise_singleton _ _, fun t ht u hu k hk => ?_⟩
    rw [List.mem_singleton.mp hu]
    by_contra hfound
    obtain rfl := (hσ.has_make c e k).mp (by simpa using hfound)
    exact absurd (hnone t ht) (by simp [hk])

omit [DecidableEq K] in
/-- A key finds something after an event if it did before or is that of the event. -/
theorem found_upsert (hσ : Lawful σ Ok view val) (hok : ∀ s ∈ c, Ok s) (hsingle : ∀ s ∈ c, Single σ s) {k : K} :
    (∃ s ∈ upsert σ c e, σ.has k s = true) ↔ (∃ s ∈ c, σ.has k s = true) ∨ k = σ.key e := by
  rcases upsert_cases (σ := σ) c e with ⟨before, s, after, rfl, -, hs, hset⟩ | ⟨-, hmake⟩
  · have hkeys := has_set_eq hσ (hok s (by simp)) (hsingle s (by simp)) hs
    rw [hset]
    have hsame : (∃ t ∈ before ++ σ.set s e :: after, σ.has k t = true) ↔
        ∃ t ∈ before ++ s :: after, σ.has k t = true := by
      simp [or_and_right, exists_or, hkeys]
    rw [hsame]
    refine (or_iff_left_of_imp ?_).symm
    rintro rfl
    exact ⟨s, by simp, hs⟩
  · rw [hmake]
    simp [or_and_right, exists_or, hσ.has_make]

omit [DecidableEq K] in
/-- **Events keep the keys apart**, and find what they found and their own keys. -/
theorem run_separate (hσ : Lawful σ Ok view val) (hok : ∀ s ∈ c, Ok s) (hsingle : ∀ s ∈ c, Single σ s)
    (hsep : Separate σ c) (es : List E) :
    (∀ s ∈ run σ es c, Single σ s) ∧ Separate σ (run σ es c) ∧
      ∀ k, (∃ s ∈ run σ es c, σ.has k s = true) ↔ (∃ s ∈ c, σ.has k s = true) ∨ k ∈ es.map σ.key := by
  induction es generalizing c with
  | nil => exact ⟨hsingle, hsep, fun k => by simp [run]⟩
  | cons e es ih =>
      obtain ⟨hsingle', hsep', hfound⟩ :=
        ih (ok_upsert hσ hok) (single_upsert hσ hok hsingle) (separate_upsert hσ hok hsingle hsep)
      refine ⟨hsingle', hsep', fun k => ?_⟩
      rw [List.map_cons, List.mem_cons, ← or_assoc, ← found_upsert hσ hok hsingle]
      exact hfound k

omit [DecidableEq K] in
/-- Every element with a key is the owner of it. -/
theorem owns_of_separate (hsingle : ∀ s ∈ c, Single σ s) (hsep : Separate σ c) {k : K} {s : S} (hs : s ∈ c)
    (hk : σ.has k s = true) : ∃ i, Owns σ c k i s := by
  obtain ⟨i, hi⟩ := List.mem_iff_getElem?.mp hs
  refine ⟨i, hi, ?_, ?_⟩
  · intro k'
    constructor
    · intro hk'
      exact hsingle s hs k' k hk' hk
    · rintro rfl
      exact hk
  · intro j t hj ht
    obtain ⟨hj', rfl⟩ := List.getElem?_eq_some_iff.mp ht
    obtain ⟨hi', rfl⟩ := List.getElem?_eq_some_iff.mp hi
    have hjk := List.pairwise_iff_getElem.mp hsep j i hj' hi' hj k
    by_contra hfound
    exact absurd (hjk (by simpa using hfound)) (by simp [hk])

omit [DecidableEq K] in
/-- Elements that are found by no key of the events are left as they are. -/
theorem filter_run (hσ : Lawful σ Ok view val) (hok : ∀ s ∈ c, Ok s) {p : S → Bool} (es : List E)
    (hp : ∀ e ∈ es, ∀ s, σ.has (σ.key e) s = true → p s = false) : (run σ es c).filter p = c.filter p := by
  induction es generalizing c with
  | nil => rfl
  | cons e es ih =>
      rw [List.forall_mem_cons] at hp
      refine (ih (ok_upsert hσ hok) hp.2).trans ?_
      rcases upsert_cases (σ := σ) c e with ⟨before, s, after, rfl, -, hs, hset⟩ | ⟨-, hmake⟩
      · have hset' : σ.has (σ.key e) (σ.set s e) = true := (hσ.has_set s e (hok s (by simp)) hs _).mpr rfl
        rw [hset, List.filter_append, List.filter_append, List.filter_cons_of_neg (by simp [hp.1 _ hset']),
          List.filter_cons_of_neg (by simp [hp.1 s hs])]
      · have hmake' : σ.has (σ.key e) (σ.make c e) = true := (hσ.has_make c e _).mpr rfl
        rw [hmake, List.filter_append, List.filter_cons_of_neg (by simp [hp.1 _ hmake']), List.filter_nil,
          List.append_nil]

/-! ## The same events again

After a run every key of its events has an owner that shows what they set, so each of the same events finds its owner
and changes nothing that shows. -/

/-- Every key of the events has an owner, which shows what they have set. -/
def Settled (σ : Schema S E K) (view : S → F → Option V) (val : E → F → Option V) (es : List E) (c : List S) :
    Prop :=
  ∀ k ∈ es.map σ.key, ∃ i s, Owns σ c k i s ∧
    Override.layers val (view s) (es.filter (σ.key · = k)) = view s

omit [DecidableEq K] in
/-- An element found by the key of an event has an owner afterwards, which shows what the event has set. -/
theorem owns_of_upsert (hσ : Lawful σ Ok view val) (hok : ∀ s ∈ c, Ok s) (e : E) :
    ∃ i s, Owns σ (upsert σ c e) (σ.key e) i s ∧ Override.overlay (view s) (val e) = view s := by
  rcases upsert_cases (σ := σ) c e with ⟨before, s, after, rfl, hbefore, hs, hset⟩ | ⟨hnone, hmake⟩
  · rw [hset]
    refine ⟨_, _, owns_of_set hσ _ (hok s (by simp)) hbefore hs, ?_⟩
    rw [hσ.view_set, Override.overlay_self]
  · rw [hmake]
    exact ⟨_, _, owns_of_make hσ hnone, hσ.view_make c e⟩

theorem settled_snoc (hσ : Lawful σ Ok view val) (hok : ∀ s ∈ c, Ok s) {es : List E}
    (h : Settled σ view val es c) (e : E) : Settled σ view val (es ++ [e]) (upsert σ c e) := by
  intro k hk
  by_cases he : σ.key e = k
  · subst he
    rw [List.filter_append, List.filter_cons_of_pos (by simp), List.filter_nil]
    by_cases hold : σ.key e ∈ es.map σ.key
    · obtain ⟨i, s, hs, hview⟩ := h _ hold
      have hs' := hs.upsert hσ hok e
      rw [if_pos rfl] at hs'
      refine ⟨i, _, hs', ?_⟩
      -- What was set before is set still, or is set anew by `e`.
      rw [hσ.view_set]
      exact Override.layers_snoc_of_layers hview e
    · obtain ⟨i, s, hs, hview⟩ := owns_of_upsert hσ hok e
      have hnil : es.filter (σ.key · = σ.key e) = [] := by
        rw [List.filter_eq_nil_iff]
        intro e' he' hkey
        exact hold (List.mem_map.mpr ⟨e', he', by simpa using hkey⟩)
      refine ⟨i, s, hs, ?_⟩
      rw [hnil]
      simpa [Override.layers] using hview
  · rw [List.map_append, List.mem_append, List.map_singleton, List.mem_singleton] at hk
    obtain ⟨i, s, hs, hview⟩ := h k (hk.resolve_right (Ne.symm he))
    have hs' := hs.upsert hσ hok e
    rw [if_neg he] at hs'
    refine ⟨i, s, hs', ?_⟩
    rw [List.filter_append, List.filter_cons_of_neg (by simpa using he), List.filter_nil, List.append_nil]
    exact hview

/-- After a list of events its keys are settled. -/
theorem settled_run (hσ : Lawful σ Ok view val) (hok : ∀ s ∈ c, Ok s) (es : List E) :
    Settled σ view val es (run σ es c) := by
  induction es using List.reverseRecOn with
  | nil =>
      intro k hk
      cases hk
  | append_singleton es e ih =>
      have hrun : run σ (es ++ [e]) c = upsert σ (run σ es c) e := by
        rw [run, List.foldl_append]
        rfl
      rw [hrun]
      exact settled_snoc hσ (ok_run hσ es hok) ih e

/-- Where every key of the events has an owner, the events leave each other element alone, and add none. -/
theorem run_elsewhere (hσ : Lawful σ Ok view val) (hok : ∀ s ∈ c, Ok s) {es : List E}
    (howned : ∀ k ∈ es.map σ.key, ∃ i s, Owns σ c k i s) {j : Nat}
    (hj : ∀ k ∈ es.map σ.key, ∀ s, ¬ Owns σ c k j s) : (run σ es c)[j]? = (c : List S)[j]? := by
  induction es generalizing c with
  | nil => rfl
  | cons e es ih =>
      rw [List.map_cons, List.forall_mem_cons] at howned hj
      have howned' : ∀ k ∈ es.map σ.key, ∃ i s, Owns σ (upsert σ c e) k i s := by
        intro k hk
        obtain ⟨i, s, hs⟩ := howned.2 k hk
        exact ⟨i, _, hs.upsert hσ hok e⟩
      have hj' : ∀ k ∈ es.map σ.key, ∀ s, ¬ Owns σ (upsert σ c e) k j s := by
        intro k hk s hs
        obtain ⟨i, t, ht⟩ := howned.2 k hk
        obtain ⟨rfl, -⟩ := (ht.upsert hσ hok e).unique hs
        exact hj.2 k hk t ht
      refine (ih (ok_upsert hσ hok) howned' hj').trans ?_
      obtain ⟨i, s, hs⟩ := howned.1
      have hij : j ≠ i := by
        rintro rfl
        exact hj.1 s hs
      rcases upsert_cases (σ := σ) c e with ⟨before, s', after, rfl, hbefore, hs', hset⟩ | ⟨hnone, -⟩
      · have hi := ((owns_of_set hσ _ (hok s' (by simp)) hbefore hs').unique (hset ▸ hs.upsert hσ hok e)).1
        rw [hset]
        exact getElem?_update (hi ▸ hij)
      · exact absurd (hnone s (List.mem_of_getElem? hs.here)) (by simp [(hs.alone _).mpr rfl])

/-- **The same events again change nothing that shows.** -/
theorem run_run (hσ : Lawful σ Ok view val) (hok : ∀ s ∈ c, Ok s) (es : List E) :
    (run σ es (run σ es c)).map view = (run σ es c).map view := by
  have hok' := ok_run hσ es hok
  have hsettled := settled_run hσ hok es
  apply List.ext_getElem?
  intro i
  rw [List.getElem?_map, List.getElem?_map]
  by_cases hi : ∃ k ∈ es.map σ.key, ∃ s, Owns σ (run σ es c) k i s
  · obtain ⟨k, hk, s, hs⟩ := hi
    obtain ⟨j, s', hs', hview⟩ := hsettled k hk
    obtain ⟨rfl, rfl⟩ := hs.unique hs'
    obtain ⟨t, ht, hlayers⟩ := hs.run hσ hok' es
    rw [ht.here, hs.here, Option.map_some, Option.map_some, hlayers, hview]
  · have hother : ∀ k ∈ es.map σ.key, ∀ s, ¬ Owns σ (run σ es c) k i s :=
      fun k hk s hs => hi ⟨k, hk, s, hs⟩
    have howned : ∀ k ∈ es.map σ.key, ∃ j s, Owns σ (run σ es c) k j s := by
      intro k hk
      obtain ⟨j, s, hs, -⟩ := hsettled k hk
      exact ⟨j, s, hs⟩
    rw [run_elsewhere hσ hok' howned hother]

end Upsert
