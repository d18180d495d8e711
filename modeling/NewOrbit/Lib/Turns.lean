import Mathlib.Data.List.Basic

/-!
# `Lib.Turns` — machines that read a stream in turns

In a turn such a machine waits for more, hands out a message, fails, or reads on: it takes some of what is there and
is in another state. A `Cuttable` machine does not depend on how much is there: a turn that took all there was, and
left something to wait for, is continued by the next one as if all had been there at once. Then the messages and the
failure are the same for every cutting of the stream (`Cuttable.append`, `Cuttable.append_error`,
`Cuttable.pieces`).
-/

namespace Turns

variable {S M E B : Type*}

inductive Turn (S M E : Type*)
  | wait
  | emit (m : M) (s : S)
  | fail (e : E)
  | read (s : S) (used : Nat)

/-- The turn, with `n` more taken. -/
def Turn.shift (n : Nat) : Turn S M E → Turn S M E
  | wait        => wait
  | emit m s    => emit m s
  | fail e      => fail e
  | read s used => read s (n + used)

/-- Turns until there is nothing left, or a failure: the messages handed out, and how it ended. -/
inductive Runs (turn : S → List B → Turn S M E) : S → List B → List M → Except E S → Prop
  | wait {s : S} (h : turn s [] = .wait) : Runs turn s [] [] (.ok s)
  | emit {s s' : S} {m : M} {bs : List B} {ms : List M} {r : Except E S} (h : turn s bs = .emit m s')
      (rest : Runs turn s' bs ms r) : Runs turn s bs (m :: ms) r
  | fail {s : S} {e : E} {bs : List B} (h : turn s bs = .fail e) : Runs turn s bs [] (.error e)
  | read {s s' : S} {n : Nat} {bs : List B} {ms : List M} {r : Except E S} (h : turn s bs = .read s' n)
      (rest : Runs turn s' (bs.drop n) ms r) : Runs turn s bs ms r

/-- The turns do not depend on how much is there. -/
structure Cuttable (turn : S → List B → Turn S M E) (Good : S → Prop) : Prop where
  good_emit : ∀ {s s' m bs}, Good s → turn s bs = .emit m s' → Good s'
  good_read : ∀ {s s' n bs}, Good s → turn s bs = .read s' n → Good s'
  emit_any  : ∀ {s s' m xs}, Good s → turn s xs = .emit m s' → ∀ ys, turn s ys = .emit m s'
  wait_nil  : ∀ {s bs}, Good s → turn s bs = .wait → bs = []
  fail_more : ∀ {s e xs}, Good s → turn s xs = .fail e → ∀ ys, turn s (xs ++ ys) = .fail e
  read_le   : ∀ {s s' n xs}, Good s → turn s xs = .read s' n → n ≤ xs.length
  read_more : ∀ {s s' n xs}, Good s → turn s xs = .read s' n → ∀ ys, ys ≠ [] →
    turn s (xs ++ ys) = .read s' n ∨
      n = xs.length ∧ turn s' [] = .wait ∧ turn s (xs ++ ys) = (turn s' ys).shift n

variable {turn : S → List B → Turn S M E} {Good : S → Prop} {s s' : S} {xs ys : List B} {ms ms' : List M}
  {r r' : Except E S} {e : E}

/-- The turns determine the messages and the end. -/
theorem Runs.det (h : Runs turn s xs ms r) (h' : Runs turn s xs ms' r') : ms = ms' ∧ r = r' := by
  induction h generalizing ms' r' with
  | wait h =>
      cases h' with
      | wait _ => exact ⟨rfl, rfl⟩
      | emit hemit _ => rw [h] at hemit; cases hemit
      | fail hfail => rw [h] at hfail; cases hfail
      | read hread _ => rw [h] at hread; cases hread
  | emit h _ ih =>
      cases h' with
      | wait hwait => rw [h] at hwait; cases hwait
      | emit hemit rest =>
          rw [h] at hemit
          cases hemit
          obtain ⟨rfl, rfl⟩ := ih rest
          exact ⟨rfl, rfl⟩
      | fail hfail => rw [h] at hfail; cases hfail
      | read hread _ => rw [h] at hread; cases hread
  | fail h =>
      cases h' with
      | wait hwait => rw [h] at hwait; cases hwait
      | emit hemit _ => rw [h] at hemit; cases hemit
      | fail hfail =>
          rw [h] at hfail
          cases hfail
          exact ⟨rfl, rfl⟩
      | read hread _ => rw [h] at hread; cases hread
  | read h _ ih =>
      cases h' with
      | wait hwait => rw [h] at hwait; cases hwait
      | emit hemit _ => rw [h] at hemit; cases hemit
      | fail hfail => rw [h] at hfail; cases hfail
      | read hread rest =>
          rw [h] at hread
          cases hread
          exact ih rest

namespace Cuttable
variable (hc : Cuttable turn Good)
include hc

theorem good_run (hs : Good s) (h : Runs turn s xs ms r) (hr : r = .ok s') : Good s' := by
  induction h with
  | wait _ => exact Except.ok.inj hr ▸ hs
  | emit h _ ih => exact ih (hc.good_emit hs h) hr
  | fail _ => cases hr
  | read h _ ih => exact ih (hc.good_read hs h) hr

/-- **A run goes on where the one before it stopped.** -/
theorem append (hs : Good s) (h : Runs turn s xs ms r) (hr : r = .ok s') (h' : Runs turn s' ys ms' r') :
    Runs turn s (xs ++ ys) (ms ++ ms') r' := by
  induction h with
  | wait _ => exact Except.ok.inj hr ▸ h'
  | emit h _ ih => exact .emit (hc.emit_any hs h _) (ih (hc.good_emit hs h) hr)
  | fail _ => cases hr
  | @read s t n xs ms r h rest ih =>
      have hle := hc.read_le hs h
      by_cases hys : ys = []
      · subst hys
        have hih := ih (hc.good_read hs h) hr
        rw [List.append_nil] at hih ⊢
        exact .read h hih
      · obtain hsame | ⟨hall, hwait, hshift⟩ := hc.read_more hs h ys hys
        · refine .read hsame ?_
          rw [List.drop_append_of_le_length hle]
          exact ih (hc.good_read hs h) hr
        · -- All was taken, so the first run stopped there, and the next turn goes on with this one.
          have hdrop : xs.drop n = [] := List.drop_eq_nil_of_le (Nat.le_of_eq hall.symm)
          rw [hdrop] at rest
          obtain ⟨rfl, rfl⟩ := rest.det (.wait hwait)
          cases Except.ok.inj hr
          have hrest : ∀ k, (xs ++ ys).drop (n + k) = ys.drop k := by
            intro k
            rw [hall, ← List.drop_drop, List.drop_left]
          cases h' with
          | wait _ => exact absurd rfl hys
          | emit hemit _ => rw [hc.emit_any (hc.good_read hs h) hemit []] at hwait; cases hwait
          | fail hfail => exact .fail (by rw [hshift, hfail]; rfl)
          | @read _ u k _ _ _ hread hrun =>
              have hnext : turn s (xs ++ ys) = .read u (n + k) := by
                rw [hshift, hread]
                rfl
              exact .read hnext (by rwa [hrest])

/-- **After a failure nothing matters.** -/
theorem append_error (hs : Good s) (h : Runs turn s xs ms r) (hr : r = .error e) (ys : List B) :
    Runs turn s (xs ++ ys) ms (.error e) := by
  induction h with
  | wait _ => cases hr
  | emit h _ ih => exact .emit (hc.emit_any hs h _) (ih (hc.good_emit hs h) hr)
  | fail h => exact Except.error.inj hr ▸ .fail (hc.fail_more hs h ys)
  | @read s t n xs ms r h rest ih =>
      by_cases hys : ys = []
      · subst hys
        rw [List.append_nil]
        exact hr ▸ .read h rest
      · obtain hsame | ⟨hall, hwait, hshift⟩ := hc.read_more hs h ys hys
        · refine .read hsame ?_
          rw [List.drop_append_of_le_length (hc.read_le hs h)]
          exact ih (hc.good_read hs h) hr
        · -- All was taken and nothing was left to fail at.
          have hdrop : xs.drop n = [] := List.drop_eq_nil_of_le (Nat.le_of_eq hall.symm)
          rw [hdrop] at rest
          obtain ⟨_, rfl⟩ := rest.det (.wait hwait)
          cases hr

/-- Every run ends, if every turn that does not end it leaves less to do. -/
theorem total (weight : S → Nat → Nat)
    (hemit : ∀ {s s' m bs}, Good s → turn s bs = .emit m s' → weight s' bs.length < weight s bs.length)
    (hread : ∀ {s s' n bs}, Good s → turn s bs = .read s' n → weight s' (bs.drop n).length < weight s bs.length)
    (hs : Good s) (bs : List B) : ∃ ms r, Runs turn s bs ms r := by
  suffices hbound : ∀ k s (bs : List B), weight s bs.length < k → Good s → ∃ ms r, Runs turn s bs ms r from
    hbound _ s bs (Nat.lt_succ_self _) hs
  intro k
  induction k with
  | zero => intro s bs h; exact absurd h (Nat.not_lt_zero _)
  | succ k ih =>
      intro s bs h hs
      cases hturn : turn s bs with
      | wait =>
          obtain rfl := hc.wait_nil hs hturn
          exact ⟨_, _, .wait hturn⟩
      | emit m s' =>
          obtain ⟨ms, r, hrun⟩ := ih s' bs (Nat.lt_of_lt_of_le (hemit hs hturn) (Nat.le_of_lt_succ h))
            (hc.good_emit hs hturn)
          exact ⟨_, _, .emit hturn hrun⟩
      | fail e => exact ⟨_, _, .fail hturn⟩
      | read s' n =>
          obtain ⟨ms, r, hrun⟩ := ih s' (bs.drop n) (Nat.lt_of_lt_of_le (hread hs hturn) (Nat.le_of_lt_succ h))
            (hc.good_read hs hturn)
          exact ⟨_, _, .read hturn hrun⟩

/-- The messages read off the front of a stream come first among those read off all of it. -/
theorem prefix_of_append (htotal : ∀ t, Good t → ∃ ns q, Runs turn t ys ns q) (hs : Good s)
    (h : Runs turn s xs ms r) (h' : Runs turn s (xs ++ ys) ms' r') : ms <+: ms' := by
  cases r with
  | error e => exact ((hc.append_error hs h rfl ys).det h').1 ▸ List.prefix_refl ms
  | ok t =>
      obtain ⟨ns, q, hrun⟩ := htotal t (hc.good_run hs h rfl)
      exact ((hc.append hs h rfl hrun).det h').1 ▸ List.prefix_append ms ns

end Cuttable

/-! ## Pieces

A list of pieces is read one after another, each from the state in which the piece before has left the machine. -/

/-- The pieces are read one after the other, up to a failure. -/
inductive RunsAll (turn : S → List B → Turn S M E) : S → List (List B) → List M → Except E S → Prop
  | nil {s : S} : RunsAll turn s [] [] (.ok s)
  | cons {s s' : S} {piece : List B} {pieces : List (List B)} {ms ms' : List M} {r : Except E S}
      (h : Runs turn s piece ms (.ok s')) (rest : RunsAll turn s' pieces ms' r) : RunsAll turn s (piece :: pieces) (ms ++ ms') r
  | error {s : S} {e : E} {piece : List B} {pieces : List (List B)} {ms : List M} (h : Runs turn s piece ms (.error e)) :
      RunsAll turn s (piece :: pieces) ms (.error e)

/-- A run that does not fail ends where the machine waits. -/
theorem Runs.waits (h : Runs turn s xs ms r) (hr : r = .ok s') : turn s' [] = .wait := by
  induction h with
  | wait h => exact Except.ok.inj hr ▸ h
  | emit _ _ ih => exact ih hr
  | fail _ => cases hr
  | read _ _ ih => exact ih hr

/-- **Every cutting gives the same.** -/
theorem Cuttable.pieces (hc : Cuttable turn Good) (hs : Good s) (hwait : turn s [] = .wait) {pieces : List (List B)}
    (h : RunsAll turn s pieces ms r) : Runs turn s pieces.flatten ms r := by
  induction h with
  | nil => exact .wait hwait
  | cons h _ ih => exact hc.append hs h rfl (ih (hc.good_run hs h rfl) (h.waits rfl))
  | error h => exact hc.append_error hs h rfl _

end Turns
