import Mathlib.Data.List.Induction
import Mathlib.Data.Option.Basic

/-!
# `Lib.Machine` — runs of a labelled machine

A machine is a partial step function `step : S → A → Option S`: the label carries every choice the
environment makes (who moves, what a clock reads, where a crash hits), so a run is determined by its start
and its list of labels. `exec` runs such a list. The rules of this file are the two ways the clients reason
about runs: an invariant of the state (`exec_invariant`), and a relation between the labels taken so far and
the state reached (`exec_trace`). Runs all of whose steps meet a condition are those of `Each`.
-/

namespace Machine

variable {S A : Type*}

/-- Run the labels in order; `none` as soon as one of them is not enabled. -/
def exec (step : S → A → Option S) : List A → S → Option S
  | [],      s => some s
  | a :: as, s => (step s a).bind (exec step as)

/-- `t` is reached from `s` by some run. -/
def Reaches (step : S → A → Option S) (s t : S) : Prop := ∃ tr, exec step tr s = some t

variable {step : S → A → Option S}

/-- The first step of a run, and the run that is left. -/
theorem exec_cons_iff {a : A} {as : List A} {s u : S} :
    exec step (a :: as) s = some u ↔ ∃ t, step s a = some t ∧ exec step as t = some u :=
  Option.bind_eq_some_iff

theorem exec_append (as bs : List A) (s : S) :
    exec step (as ++ bs) s = (exec step as s).bind (exec step bs) := by
  induction as generalizing s with
  | nil => rfl
  | cons a as ih =>
      show (step s a).bind (exec step (as ++ bs)) = ((step s a).bind (exec step as)).bind _
      rw [Option.bind_assoc]
      exact congrArg _ (funext ih)

/-- The last step of a run, and the run before it. -/
theorem exec_snoc_iff {as : List A} {a : A} {s u : S} :
    exec step (as ++ [a]) s = some u ↔ ∃ t, exec step as s = some t ∧ step t a = some u := by
  rw [exec_append, Option.bind_eq_some_iff]
  apply exists_congr
  intro t
  apply and_congr_right
  intro _
  rw [exec_cons_iff]
  exact ⟨fun ⟨v, hv, hu⟩ => by rw [hv]; exact hu, fun h => ⟨u, h, rfl⟩⟩

/-- **Trace rule.** A relation between the labels taken and the state, true of the empty run and kept by
    every step, holds of every run. -/
theorem exec_trace {I : List A → S → Prop} {s : S} (h0 : I [] s)
    (hstep : ∀ tr t a u, I tr t → step t a = some u → I (tr ++ [a]) u)
    {tr : List A} {t : S} (h : exec step tr s = some t) : I tr t := by
  induction tr using List.reverseRecOn generalizing t with
  | nil => exact Option.some.inj h ▸ h0
  | append_singleton tr a ih =>
      obtain ⟨m, hm, ha⟩ := exec_snoc_iff.mp h
      exact hstep tr m a t (ih hm) ha

/-- **Invariant rule.** A state predicate kept by every step is kept by every run. -/
theorem exec_invariant {I : S → Prop} (hstep : ∀ t a u, I t → step t a = some u → I u)
    {s : S} (h0 : I s) {tr : List A} {t : S} (h : exec step tr s = some t) : I t :=
  exec_trace (I := fun _ => I) h0 (fun _ t a u hI ha => hstep t a u hI ha) h

/-- A machine that never refuses folds its labels. -/
theorem exec_some (f : S → A → S) (tr : List A) (s : S) :
    exec (fun s a => some (f s a)) tr s = some (tr.foldl f s) := by
  induction tr generalizing s with
  | nil => rfl
  | cons a as ih => exact ih (f s a)

/-! ## Conditions on the steps of a run

A condition may look at the state before a step and at its label. It is split along a run from either end, so that an
induction may go with `exec` or with the trace. -/

/-- Every step of the run satisfies `P`, a condition on its label and on the state it starts in. -/
def Each (step : S → A → Option S) (P : S → A → Prop) (tr : List A) (s : S) : Prop :=
  ∀ before a after, tr = before ++ a :: after → ∀ t, exec step before s = some t → P t a

variable {P : S → A → Prop}

theorem each_nil (s : S) : Each step P [] s := fun before a after h => absurd h (by simp)

/-- The condition on the first step, and on the run that is left. -/
theorem each_cons_iff {a : A} {as : List A} {s : S} :
    Each step P (a :: as) s ↔ P s a ∧ ∀ t, step s a = some t → Each step P as t := by
  constructor
  · intro h
    refine ⟨h [] a as rfl s rfl, fun t ht before b after hb u hu => ?_⟩
    exact h (a :: before) b after (by rw [hb, List.cons_append]) u (exec_cons_iff.mpr ⟨t, ht, hu⟩)
  · rintro ⟨ha, has⟩ before b after hb u hu
    rcases List.cons_eq_append_iff.mp hb with ⟨rfl, hfirst⟩ | ⟨before, rfl, hlater⟩
    · cases hfirst
      obtain rfl : s = u := Option.some.inj hu
      exact ha
    · obtain ⟨t, ht, hu⟩ := exec_cons_iff.mp hu
      exact has t ht before b after hlater u hu

instance decidableEach [∀ s a, Decidable (P s a)] : (tr : List A) → (s : S) → Decidable (Each step P tr s)
  | [],      s => isTrue (each_nil s)
  | a :: as, s =>
    have : Decidable (∀ t, step s a = some t → Each step P as t) :=
      match step s a with
      | none   => isTrue fun _ ht => nomatch ht
      | some u =>
        have := decidableEach as u
        decidable_of_iff (Each step P as u) ⟨fun hu _ ht => Option.some.inj ht ▸ hu, fun ht => ht u rfl⟩
    decidable_of_iff _ each_cons_iff.symm

/-- A label of a run with one step more is the last one, or one of those before. -/
theorem snoc_eq_append_cons_iff {tr before after : List A} {a b : A} :
    tr ++ [a] = before ++ b :: after ↔
      (tr = before ∧ a = b ∧ after = []) ∨ ∃ init, after = init ++ [a] ∧ tr = before ++ b :: init := by
  constructor
  · intro h
    rcases List.eq_nil_or_concat after with rfl | ⟨init, x, rfl⟩
    · obtain ⟨htr, hab⟩ := List.append_inj' h rfl
      exact Or.inl ⟨htr, List.singleton_inj.mp hab, rfl⟩
    · rw [List.concat_eq_append, ← List.cons_append, ← List.append_assoc] at h
      obtain ⟨htr, hax⟩ := List.append_inj' h rfl
      exact Or.inr ⟨init, by rw [List.singleton_inj.mp hax, List.concat_eq_append], htr⟩
  · rintro (⟨rfl, rfl, rfl⟩ | ⟨init, rfl, rfl⟩)
    · rfl
    · rw [List.append_assoc, List.cons_append]

/-- The condition on a run and one step more. -/
theorem each_snoc_iff {tr : List A} {a : A} {s t : S} (h : exec step tr s = some t) :
    Each step P (tr ++ [a]) s ↔ Each step P tr s ∧ P t a := by
  constructor
  · intro he
    refine ⟨fun before b after hb u hu => ?_, he tr a [] rfl t h⟩
    exact he before b (after ++ [a]) (by rw [hb, List.append_assoc, List.cons_append]) u hu
  · rintro ⟨he, ha⟩ before b after hb u hu
    rcases snoc_eq_append_cons_iff.mp hb with ⟨rfl, rfl, rfl⟩ | ⟨init, rfl, hinit⟩
    · obtain rfl : t = u := Option.some.inj (h.symm.trans hu)
      exact ha
    · exact he before b init hinit u hu

/-- **Trace rule with a condition on the steps.** -/
theorem exec_trace_each {I : List A → S → Prop} {s : S} (h0 : I [] s)
    (hstep : ∀ tr t a u, exec step tr s = some t → I tr t → P t a → step t a = some u → I (tr ++ [a]) u)
    {tr : List A} {t : S} (h : exec step tr s = some t) (he : Each step P tr s) : I tr t := by
  induction tr using List.reverseRecOn generalizing t with
  | nil => exact Option.some.inj h ▸ h0
  | append_singleton tr a ih =>
      obtain ⟨m, hm, ha⟩ := exec_snoc_iff.mp h
      obtain ⟨htr, hP⟩ := (each_snoc_iff hm).mp he
      exact hstep tr m a t hm (ih hm htr) hP ha

end Machine
