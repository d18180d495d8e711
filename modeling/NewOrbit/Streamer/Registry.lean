import Mathlib.Data.List.Count
import Mathlib.Logic.Function.Basic
import NewOrbit.Lib.Machine

/-!
# `Streamer.Registry` — the session registries of the streamer and of the enricher

`WebSocket` and `EnricherServerEndpoint` keep the sessions of each ISIN in a list of its own, in a concurrent map.
Every operation on the map and on a list is a step, and the handlers of different sessions interleave in any way.
`onOpen` looks for the list, puts a new one where it found none, gets the list again and adds the session: between
the check and the `put` another handler may have put its list, got it and added its session, and the `put` drops
all of that. `registered_iff` says that nothing else goes wrong: a session is told of the next message exactly once
unless a list was put for its ISIN after its handler got one.
-/

namespace NewOrbit.Streamer

/-- The two endpoints; the enricher's `onOpen` first turns the idle timeout off. -/
inductive Endpoint
  | WebSocket
  | EnricherServerEndpoint
  deriving DecidableEq, Repr

/-- Where the handlers of a session are: not opened yet, at a step of `onOpen`, opened, at a step of `onClose` or
    `onError`, closed or failed, or ended by a `NullPointerException`. -/
inductive PC
  | idle
  | setMaxIdleTimeout
  | containsKey
  | put
  | get
  | add (list : Nat)
  | opened
  | closing
  | remove (list : Nat)
  | closed
  | thrown
  deriving DecidableEq, Repr

inductive Op
  | open
  | setMaxIdleTimeout
  | containsKey
  | put
  | get
  | add
  | close
  | getToRemove
  | remove
  deriving DecidableEq, Repr

/-- The first step of `onOpen`. -/
def Endpoint.onOpen : Endpoint → PC
  | WebSocket => .containsKey
  | EnricherServerEndpoint => .setMaxIdleTimeout

variable {σ κ : Type} [DecidableEq σ] [DecidableEq κ]

/-- The map holds references to lists; the lists are on a heap, `next` being the first free place. -/
structure Registry (σ κ : Type) where
  sessions : κ → Option Nat
  heap     : Nat → List σ
  next     : Nat
  pc       : σ → PC

namespace Registry

def init : Registry σ κ := ⟨fun _ => none, fun _ => [], 0, fun _ => .idle⟩

def goto (s : Registry σ κ) (i : σ) (p : PC) : Registry σ κ := { s with pc := Function.update s.pc i p }

/-- `sessions.put(isin, new ArrayList<>())` -/
def putNew (s : Registry σ κ) (i : σ) (k : κ) : Registry σ κ where
  sessions := Function.update s.sessions k (some s.next)
  heap := Function.update s.heap s.next []
  next := s.next + 1
  pc := Function.update s.pc i .get

def addTo (s : Registry σ κ) (i : σ) (r : Nat) : Registry σ κ :=
  { s with heap := Function.update s.heap r (s.heap r ++ [i]), pc := Function.update s.pc i .opened }

def removeFrom (s : Registry σ κ) (i : σ) (r : Nat) : Registry σ κ :=
  { s with heap := Function.update s.heap r ((s.heap r).erase i), pc := Function.update s.pc i .closed }

/-- One step of one session; `isin` is the path parameter it came with. `onClose` and `onError` may both be called,
    in any order. -/
def step (e : Endpoint) (isin : σ → κ) (s : Registry σ κ) : σ × Op → Option (Registry σ κ)
  | (i, op) => match op, s.pc i with
    | .open, .idle => some (s.goto i e.onOpen)
    | .setMaxIdleTimeout, .setMaxIdleTimeout => some (s.goto i .containsKey)
    | .containsKey, .containsKey => some (s.goto i (if (s.sessions (isin i)).isSome then .get else .put))
    | .put, .put => some (s.putNew i (isin i))
    | .get, .get => match s.sessions (isin i) with
      | some r => some (s.goto i (.add r))
      | none   => some (s.goto i .thrown)
    | .add, .add r => some (s.addTo i r)
    | .close, .opened => some (s.goto i .closing)
    | .close, .closed => some (s.goto i .closing)
    | .getToRemove, .closing => match s.sessions (isin i) with
      | some r => some (s.goto i (.remove r))
      | none   => some (s.goto i .thrown)
    | .remove, .remove r => some (s.removeFrom i r)
    | _, _ => none

/-- Whom `broadcast(isin, message)` sends to, in order. -/
def broadcast (s : Registry σ κ) (k : κ) : List σ :=
  match s.sessions k with
  | none   => []
  | some r => s.heap r

/-! ## What a step does

Every step moves one handler, and beside that changes the map, one list, or nothing (`Step`). The lemmas before it say
where the handlers are, what the lists hold and what the map says after each of these changes. -/

section Updates
omit [DecidableEq κ]

theorem pc_goto (s : Registry σ κ) (i j : σ) (p : PC) : (s.goto i p).pc j = if j = i then p else s.pc j :=
  Function.update_apply ..

theorem pc_addTo (s : Registry σ κ) (i j : σ) (r : Nat) : (s.addTo i r).pc j = if j = i then .opened else s.pc j :=
  Function.update_apply ..

theorem pc_removeFrom (s : Registry σ κ) (i j : σ) (r : Nat) :
    (s.removeFrom i r).pc j = if j = i then .closed else s.pc j := Function.update_apply ..

theorem heap_addTo (s : Registry σ κ) (i : σ) (r r' : Nat) :
    (s.addTo i r).heap r' = if r' = r then s.heap r ++ [i] else s.heap r' := Function.update_apply ..

theorem heap_removeFrom (s : Registry σ κ) (i : σ) (r r' : Nat) :
    (s.removeFrom i r).heap r' = if r' = r then (s.heap r).erase i else s.heap r' := Function.update_apply ..

end Updates

theorem pc_putNew (s : Registry σ κ) (i j : σ) (k : κ) : (s.putNew i k).pc j = if j = i then .get else s.pc j :=
  Function.update_apply ..

theorem heap_putNew (s : Registry σ κ) (i : σ) (k : κ) (r : Nat) :
    (s.putNew i k).heap r = if r = s.next then [] else s.heap r := Function.update_apply ..

theorem sessions_putNew (s : Registry σ κ) (i : σ) (k k' : κ) :
    (s.putNew i k).sessions k' = if k' = k then some s.next else s.sessions k' := Function.update_apply ..

/-- The step relation, one constructor for each way a step goes. -/
inductive Step (e : Endpoint) (isin : σ → κ) (s : Registry σ κ) : σ → Op → Registry σ κ → Prop
  | opens {i} (h : s.pc i = .idle) : Step e isin s i .open (s.goto i e.onOpen)
  | timeout {i} (h : s.pc i = .setMaxIdleTimeout) : Step e isin s i .setMaxIdleTimeout (s.goto i .containsKey)
  | found {i r} (h : s.pc i = .containsKey) (hr : s.sessions (isin i) = some r) :
      Step e isin s i .containsKey (s.goto i .get)
  | missing {i} (h : s.pc i = .containsKey) (hr : s.sessions (isin i) = none) :
      Step e isin s i .containsKey (s.goto i .put)
  | puts {i} (h : s.pc i = .put) : Step e isin s i .put (s.putNew i (isin i))
  | gets {i r} (h : s.pc i = .get) (hr : s.sessions (isin i) = some r) : Step e isin s i .get (s.goto i (.add r))
  | getsNull {i} (h : s.pc i = .get) (hr : s.sessions (isin i) = none) : Step e isin s i .get (s.goto i .thrown)
  | adds {i r} (h : s.pc i = .add r) : Step e isin s i .add (s.addTo i r)
  | closes {i} (h : s.pc i = .opened ∨ s.pc i = .closed) : Step e isin s i .close (s.goto i .closing)
  | finds {i r} (h : s.pc i = .closing) (hr : s.sessions (isin i) = some r) :
      Step e isin s i .getToRemove (s.goto i (.remove r))
  | findsNull {i} (h : s.pc i = .closing) (hr : s.sessions (isin i) = none) :
      Step e isin s i .getToRemove (s.goto i .thrown)
  | removes {i r} (h : s.pc i = .remove r) : Step e isin s i .remove (s.removeFrom i r)

variable {e : Endpoint} {isin : σ → κ}

theorem step_cases {s t : Registry σ κ} {i : σ} {op : Op} (h : step e isin s (i, op) = some t) :
    Step e isin s i op t := by
  unfold step at h
  dsimp only at h
  split at h
  · cases h; exact .opens ‹_›
  · cases h; exact .timeout ‹_›
  · rename_i hpc
    cases hr : s.sessions (isin i) with
    | none => rw [hr] at h; cases h; exact .missing hpc hr
    | some r => rw [hr] at h; cases h; exact .found hpc hr
  · cases h; exact .puts ‹_›
  · rename_i hpc
    cases hr : s.sessions (isin i) with
    | none => rw [hr] at h; cases h; exact .getsNull hpc hr
    | some r => rw [hr] at h; cases h; exact .gets hpc hr
  · cases h; exact .adds ‹_›
  · cases h; exact .closes (Or.inl ‹_›)
  · cases h; exact .closes (Or.inr ‹_›)
  · rename_i hpc
    cases hr : s.sessions (isin i) with
    | none => rw [hr] at h; cases h; exact .findsNull hpc hr
    | some r => rw [hr] at h; cases h; exact .finds hpc hr
  · cases h; exact .removes ‹_›
  · cases h

/-! ## The map and the lists

A list that was put is never put again, so the lists of different ISINs are different ones, and a session is only ever
added to a list of its own ISIN. Once the map has a list for an ISIN it always has one, which is why no handler is
ended by `get` being null. -/

/-- From the `get` of `onOpen` on, a handler relies on the map having a list for its ISIN. -/
def NeedsList : PC → Prop
  | .idle | .setMaxIdleTimeout | .containsKey | .put => False
  | _ => True

/-- Lists are fresh when they are put, each is in the map for one ISIN, and has sessions of that ISIN only. -/
structure Inv (isin : σ → κ) (s : Registry σ κ) : Prop where
  fresh   : ∀ k r, s.sessions k = some r → r < s.next
  empty   : ∀ r, s.next ≤ r → s.heap r = []
  inj     : ∀ k k' r, s.sessions k = some r → s.sessions k' = some r → k = k'
  own     : ∀ k r, s.sessions k = some r → ∀ i ∈ s.heap r, isin i = k
  adding  : ∀ i r, s.pc i = .add r → r < s.next ∧ ∀ k, s.sessions k = some r → isin i = k
  present : ∀ i, NeedsList (s.pc i) → ∃ r, s.sessions (isin i) = some r
  thrown  : ∀ i, s.pc i ≠ .thrown

omit [DecidableEq σ] [DecidableEq κ] in
theorem inv_init : Inv isin (init : Registry σ κ) :=
  ⟨nofun, fun _ _ => rfl, nofun, nofun, nofun, nofun, nofun⟩

omit [DecidableEq κ] in
/-- One handler moves, the others stay where they are. -/
theorem forall_pc {s t : Registry σ κ} {i : σ} {p : PC} {Q : σ → PC → Prop}
    (hpc : ∀ j, t.pc j = if j = i then p else s.pc j) (hi : Q i p) (hs : ∀ j, Q j (s.pc j)) :
    ∀ j, Q j (t.pc j) := by
  intro j
  rw [hpc]
  split
  · next hij => exact hij ▸ hi
  · exact hs j

omit [DecidableEq κ] in
/-- A handler moves on, to a place where what it relies on is there. -/
theorem Inv.goto {s : Registry σ κ} (h : Inv isin s) {i : σ} {p : PC}
    (hadd : ∀ r, p = .add r → s.sessions (isin i) = some r)
    (hlist : NeedsList p → ∃ r, s.sessions (isin i) = some r) (hthrown : p ≠ .thrown) : Inv isin (s.goto i p) where
  fresh := h.fresh
  empty := h.empty
  inj := h.inj
  own := h.own
  adding j r := by
    refine forall_pc (Q := fun j p => p = .add r → r < s.next ∧ ∀ k, s.sessions k = some r → isin j = k)
      (pc_goto s i · p) (fun hp => ?_) (fun j => h.adding j r) j
    exact ⟨h.fresh _ r (hadd r hp), fun k hk => h.inj _ _ r (hadd r hp) hk⟩
  present := forall_pc (Q := fun j p => NeedsList p → ∃ r, s.sessions (isin j) = some r) (pc_goto s i · p) hlist
    h.present
  thrown := forall_pc (Q := fun _ p => p ≠ .thrown) (pc_goto s i · p) hthrown h.thrown

theorem Inv.putNew {s : Registry σ κ} (h : Inv isin s) (i : σ) : Inv isin (s.putNew i (isin i)) where
  fresh k r hk := by
    rw [sessions_putNew] at hk
    split at hk
    · cases hk; exact Nat.lt_succ_self _
    · exact Nat.lt_succ_of_lt (h.fresh k r hk)
  empty r hr := by
    have hlt : s.next < r := hr
    rw [heap_putNew, if_neg (by omega)]
    exact h.empty r (by omega)
  inj k k' r hk hk' := by
    rw [sessions_putNew] at hk hk'
    split at hk <;> split at hk'
    · next h1 h2 => exact h1.trans h2.symm
    · cases hk; exact absurd (h.fresh _ _ hk') (Nat.lt_irrefl _)
    · cases hk'; exact absurd (h.fresh _ _ hk) (Nat.lt_irrefl _)
    · exact h.inj k k' r hk hk'
  own k r hk j hj := by
    rw [heap_putNew] at hj
    rw [sessions_putNew] at hk
    split at hj
    · cases hj
    · next hr =>
        split at hk
        · cases hk; exact absurd rfl hr
        · exact h.own k r hk j hj
  adding j r := by
    refine forall_pc (Q := fun j p => p = .add r →
        r < s.next + 1 ∧ ∀ k, (s.putNew i (isin i)).sessions k = some r → isin j = k)
      (pc_putNew s i · (isin i)) nofun (fun j hj => ?_) j
    obtain ⟨hlt, hown⟩ := h.adding j r hj
    refine ⟨Nat.lt_succ_of_lt hlt, fun k hk => ?_⟩
    rw [sessions_putNew] at hk
    split at hk
    · cases hk; exact absurd hlt (Nat.lt_irrefl _)
    · exact hown k hk
  present := by
    refine forall_pc (Q := fun j p => NeedsList p → ∃ r, (s.putNew i (isin i)).sessions (isin j) = some r)
      (pc_putNew s i · (isin i)) (fun _ => ⟨s.next, ?_⟩) (fun j hj => ?_)
    · rw [sessions_putNew, if_pos rfl]
    · rw [sessions_putNew]
      split
      · exact ⟨_, rfl⟩
      · exact h.present j hj
  thrown := forall_pc (Q := fun _ p => p ≠ .thrown) (pc_putNew s i · (isin i)) nofun h.thrown

section
omit [DecidableEq κ]

theorem Inv.addTo {s : Registry σ κ} (h : Inv isin s) {i : σ} {r : Nat} (hpc : s.pc i = .add r) :
    Inv isin (s.addTo i r) where
  fresh := h.fresh
  empty r' hr' := by
    have hle : s.next ≤ r' := hr'
    have hlt := (h.adding i r hpc).1
    rw [heap_addTo, if_neg (by omega)]
    exact h.empty r' hle
  inj := h.inj
  own k r' hk j hj := by
    rw [heap_addTo] at hj
    split at hj
    · next hr =>
        subst hr
        rcases List.mem_append.mp hj with hj | hj
        · exact h.own k r' hk j hj
        · rw [List.mem_singleton.mp hj]
          exact (h.adding i r' hpc).2 k hk
    · exact h.own k r' hk j hj
  adding j r' := forall_pc (Q := fun j p => p = .add r' → r' < s.next ∧ ∀ k, s.sessions k = some r' → isin j = k)
    (pc_addTo s i · r) nofun (fun j => h.adding j r') j
  present := by
    refine forall_pc (Q := fun j p => NeedsList p → ∃ r, s.sessions (isin j) = some r) (pc_addTo s i · r)
      (fun _ => h.present i ?_) h.present
    rw [hpc]
    exact trivial
  thrown := forall_pc (Q := fun _ p => p ≠ .thrown) (pc_addTo s i · r) nofun h.thrown

theorem Inv.removeFrom {s : Registry σ κ} (h : Inv isin s) {i : σ} {r : Nat} (hpc : s.pc i = .remove r) :
    Inv isin (s.removeFrom i r) where
  fresh := h.fresh
  empty r' hr' := by
    rw [heap_removeFrom]
    split
    · next hr => rw [← hr, h.empty r' hr', List.erase_nil]
    · exact h.empty r' hr'
  inj := h.inj
  own k r' hk j hj := by
    rw [heap_removeFrom] at hj
    split at hj
    · next hr => exact h.own k r' hk j (hr ▸ List.mem_of_mem_erase hj)
    · exact h.own k r' hk j hj
  adding j r' := forall_pc (Q := fun j p => p = .add r' → r' < s.next ∧ ∀ k, s.sessions k = some r' → isin j = k)
    (pc_removeFrom s i · r) nofun (fun j => h.adding j r') j
  present := by
    refine forall_pc (Q := fun j p => NeedsList p → ∃ r, s.sessions (isin j) = some r) (pc_removeFrom s i · r)
      (fun _ => h.present i ?_) h.present
    rw [hpc]
    exact trivial
  thrown := forall_pc (Q := fun _ p => p ≠ .thrown) (pc_removeFrom s i · r) nofun h.thrown

end

theorem Inv.step {s t : Registry σ κ} (h : Inv isin s) {a : σ × Op} (hstep : step e isin s a = some t) :
    Inv isin t := by
  obtain ⟨i, op⟩ := a
  cases step_cases hstep with
  | opens hpc => cases e <;> exact h.goto nofun nofun nofun
  | timeout hpc => exact h.goto nofun nofun nofun
  | found hpc hr => exact h.goto nofun (fun _ => ⟨_, hr⟩) nofun
  | missing hpc hr => exact h.goto nofun nofun nofun
  | puts hpc => exact h.putNew i
  | gets hpc hr => exact h.goto (fun r hp => by cases hp; exact hr) (fun _ => ⟨_, hr⟩) nofun
  | getsNull hpc hr =>
      obtain ⟨r, hr'⟩ := h.present i (by rw [hpc]; exact trivial)
      exact nomatch hr.symm.trans hr'
  | adds hpc => exact h.addTo hpc
  | closes hpc =>
      refine h.goto nofun (fun _ => h.present i ?_) nofun
      rcases hpc with hpc | hpc
      all_goals rw [hpc]; exact trivial
  | finds hpc hr => exact h.goto nofun (fun _ => ⟨_, hr⟩) nofun
  | findsNull hpc hr =>
      obtain ⟨r, hr'⟩ := h.present i (by rw [hpc]; exact trivial)
      exact nomatch hr.symm.trans hr'
  | removes hpc => exact h.removeFrom hpc

/-! ## Where an opened session is

Whether a session is in the list of the map is decided between the `get` of its handler and the last step of the run:
it is unless a list was put for its ISIN in between (`Superseded`). This section follows a session through the steps
of all other handlers. -/

/-- A list was put for the ISIN of `i` after the handler of `i` had got one. -/
def Superseded (isin : σ → κ) (tr : List (σ × Op)) (i : σ) : Prop :=
  ∃ before j after, tr = before ++ (j, .put) :: after ∧ isin j = isin i ∧ (i, .get) ∈ before

omit [DecidableEq σ] [DecidableEq κ] in
theorem Superseded.got {tr : List (σ × Op)} {i : σ} (h : Superseded isin tr i) : (i, .get) ∈ tr := by
  obtain ⟨before, j, after, rfl, -, hmem⟩ := h
  exact List.mem_append_left _ hmem

omit [DecidableEq σ] [DecidableEq κ] in
theorem superseded_snoc_iff {tr : List (σ × Op)} {i j : σ} {op : Op} :
    Superseded isin (tr ++ [(j, op)]) i ↔ Superseded isin tr i ∨ op = .put ∧ isin j = isin i ∧ (i, .get) ∈ tr := by
  constructor
  · rintro ⟨before, k, after, heq, hk, hmem⟩
    -- The list was put by the last step, or by one of those before.
    rcases Machine.snoc_eq_append_cons_iff.mp heq with ⟨rfl, hlast, rfl⟩ | ⟨init, rfl, hinit⟩
    · cases hlast
      exact Or.inr ⟨rfl, hk, hmem⟩
    · exact Or.inl ⟨before, k, init, hinit, hk, hmem⟩
  · rintro (⟨before, k, after, rfl, hk, hmem⟩ | ⟨rfl, hk, hmem⟩)
    · exact ⟨before, k, after ++ [(j, op)], by simp, hk, hmem⟩
    · exact ⟨tr, j, [], rfl, hk, hmem⟩

/-- The handler of `i` got the list `r`, which is the list of its ISIN as long as none was put since. -/
structure Got (isin : σ → κ) (tr : List (σ × Op)) (s : Registry σ κ) (i : σ) (r : Nat) : Prop where
  got     : (i, .get) ∈ tr
  current : s.sessions (isin i) = some r ↔ ¬ Superseded isin tr i

/-- `i` is `n` times in the list `r`, and in no other. -/
def Only (s : Registry σ κ) (i : σ) (n r : Nat) : Prop := ∀ r', (s.heap r').count i = if r' = r then n else 0

/-- The steps of `onOpen` up to `get`. -/
def BeforeAdd : PC → Prop
  | .idle | .setMaxIdleTimeout | .containsKey | .put | .get => True
  | _ => False

/-- What the run so far says about a session that was not closed. -/
structure Placed (isin : σ → κ) (tr : List (σ × Op)) (s : Registry σ κ) (i : σ) : Prop where
  before : BeforeAdd (s.pc i) → (i, .get) ∉ tr ∧ ∀ r, i ∉ s.heap r
  adding : ∀ r, s.pc i = .add r → Got isin tr s i r ∧ ∀ r, i ∉ s.heap r
  opened : s.pc i = .opened → ∃ r, Got isin tr s i r ∧ Only s i 1 r

section
omit [DecidableEq κ]

theorem Only.lt_next {s : Registry σ κ} (hinv : Inv isin s) {i : σ} {r : Nat} (h : Only s i 1 r) : r < s.next := by
  by_contra hle
  have hone := h r
  rw [if_pos rfl, hinv.empty r (Nat.le_of_not_lt hle)] at hone
  exact absurd hone (by simp)

/-- A step of another handler, which leaves the counts of `i` and the list `i` got where they are. -/
theorem Placed.other {tr : List (σ × Op)} {s t : Registry σ κ} {i : σ} {a : σ × Op} (hinv : Inv isin s)
    (h : Placed isin tr s i) (hpc : t.pc i = s.pc i) (hheap : ∀ r, (t.heap r).count i = (s.heap r).count i)
    (hget : a.1 ≠ i) (hgot : ∀ r < s.next, Got isin tr s i r → Got isin (tr ++ [a]) t i r) :
    Placed isin (tr ++ [a]) t i := by
  have hmem : ∀ r, i ∉ s.heap r → i ∉ t.heap r := fun r hr => by
    rw [← List.count_eq_zero] at hr ⊢
    exact (hheap r).trans hr
  refine ⟨fun hb => ?_, fun r hr => ?_, fun ho => ?_⟩
  · rw [hpc] at hb
    obtain ⟨hnot, hnone⟩ := h.before hb
    refine ⟨fun hin => ?_, fun r => hmem r (hnone r)⟩
    rcases List.mem_append.mp hin with hin | hin
    · exact hnot hin
    · exact hget (congrArg Prod.fst (List.mem_singleton.mp hin).symm)
  · rw [hpc] at hr
    obtain ⟨hg, hnone⟩ := h.adding r hr
    exact ⟨hgot r (hinv.adding i r hr).1 hg, fun r => hmem r (hnone r)⟩
  · rw [hpc] at ho
    obtain ⟨r, hg, honly⟩ := h.opened ho
    exact ⟨r, hgot r (honly.lt_next hinv) hg, fun r' => (hheap r').trans (honly r')⟩

end

omit [DecidableEq σ] [DecidableEq κ] in
/-- A step that puts no list for the ISIN. -/
theorem Got.snoc {tr : List (σ × Op)} {s t : Registry σ κ} {i : σ} {r : Nat} {a : σ × Op} (h : Got isin tr s i r)
    (hs : t.sessions (isin i) = s.sessions (isin i)) (hput : a.2 = .put → isin a.1 ≠ isin i) :
    Got isin (tr ++ [a]) t i r := by
  refine ⟨List.mem_append_left _ h.got, ?_⟩
  rw [hs, h.current, superseded_snoc_iff]
  exact not_congr ⟨Or.inl, fun hor => hor.resolve_right fun ⟨hop, hk, _⟩ => hput hop hk⟩

theorem Got.putNew {tr : List (σ × Op)} {s : Registry σ κ} {i : σ} {r : Nat} (h : Got isin tr s i r)
    (hr : r < s.next) (j : σ) : Got isin (tr ++ [(j, .put)]) (s.putNew j (isin j)) i r := by
  by_cases hk : isin i = isin j
  · refine ⟨List.mem_append_left _ h.got, ?_⟩
    rw [sessions_putNew, if_pos hk, Option.some.injEq, superseded_snoc_iff]
    exact iff_of_false (by omega) (not_not_intro (Or.inr ⟨rfl, hk.symm, h.got⟩))
  · exact h.snoc (by rw [sessions_putNew, if_neg hk]) fun _ => Ne.symm hk

section
omit [DecidableEq κ]

theorem count_addTo {s : Registry σ κ} {i j : σ} (hij : j ≠ i) (r r' : Nat) :
    ((s.addTo j r).heap r').count i = (s.heap r').count i := by
  rw [heap_addTo]
  split
  · next hr => rw [hr, List.count_append, List.count_singleton, if_neg (by simpa using hij), Nat.add_zero]
  · rfl

theorem count_removeFrom {s : Registry σ κ} {i j : σ} (hij : j ≠ i) (r r' : Nat) :
    ((s.removeFrom j r).heap r').count i = (s.heap r').count i := by
  rw [heap_removeFrom]
  split
  · next hr => rw [hr, List.count_erase_of_ne (Ne.symm hij)]
  · rfl

end

theorem count_putNew {s : Registry σ κ} (hinv : Inv isin s) (i j : σ) (r : Nat) :
    ((s.putNew j (isin j)).heap r).count i = (s.heap r).count i := by
  rw [heap_putNew]
  split
  · next hr => rw [hinv.empty r (Nat.le_of_eq hr.symm)]
  · rfl

theorem placed_other {tr : List (σ × Op)} {s t : Registry σ κ} {i j : σ} {op : Op} (hinv : Inv isin s)
    (h : Placed isin tr s i) (hij : j ≠ i) (hstep : step e isin s (j, op) = some t) :
    Placed isin (tr ++ [(j, op)]) t i := by
  cases step_cases hstep with
  | puts hpc =>
      exact h.other hinv ((pc_putNew ..).trans (if_neg hij.symm)) (count_putNew hinv i j) hij
        fun r hr hg => hg.putNew hr j
  | adds hpc =>
      exact h.other hinv ((pc_addTo ..).trans (if_neg hij.symm)) (count_addTo hij _) hij
        fun r hr hg => hg.snoc rfl nofun
  | removes hpc =>
      exact h.other hinv ((pc_removeFrom ..).trans (if_neg hij.symm)) (count_removeFrom hij _) hij
        fun r hr hg => hg.snoc rfl nofun
  | _ =>
      exact h.other hinv ((pc_goto ..).trans (if_neg hij.symm)) (fun _ => rfl) hij
        fun r hr hg => hg.snoc rfl nofun

/-! ## The handler of the session itself

Up to `get` the session is in no list, from `add` on it is in the one its handler got, once. A handler that is done
leaves nothing to show. -/

omit [DecidableEq κ] in
/-- A handler that is done with `onOpen`, or was ended: nothing is said of its session. -/
theorem placed_of_done {tr : List (σ × Op)} {s : Registry σ κ} {i : σ} {p : PC} (hpc : s.pc i = p)
    (hb : ¬ BeforeAdd p) (ha : ∀ r, p ≠ .add r) (ho : p ≠ .opened) : Placed isin tr s i where
  before hp := absurd (hpc ▸ hp) hb
  adding r hr := absurd (hpc.symm.trans hr) (ha r)
  opened hp := absurd (hpc.symm.trans hp) ho

omit [DecidableEq κ] in
theorem pc_goto_self (s : Registry σ κ) (i : σ) (p : PC) : (s.goto i p).pc i = p := Function.update_self ..

omit [DecidableEq κ] in
/-- A step of `onOpen` before `get`. -/
theorem Placed.goto_before {tr : List (σ × Op)} {s : Registry σ κ} {i : σ} {op : Op} {p : PC}
    (h : Placed isin tr s i) (hs : BeforeAdd (s.pc i)) (hop : op ≠ .get) (hp : BeforeAdd p) :
    Placed isin (tr ++ [(i, op)]) (s.goto i p) i where
  before _ := by
    obtain ⟨hnot, hnone⟩ := h.before hs
    refine ⟨fun hin => ?_, hnone⟩
    rcases List.mem_append.mp hin with hin | hin
    · exact hnot hin
    · exact hop (congrArg Prod.snd (List.mem_singleton.mp hin)).symm
  adding r hr := by
    rw [pc_goto_self] at hr
    exact absurd hp (by rw [hr]; exact id)
  opened ho := by
    rw [pc_goto_self] at ho
    exact absurd hp (by rw [ho]; exact id)

theorem Placed.putNew {tr : List (σ × Op)} {s : Registry σ κ} {i : σ} (h : Placed isin tr s i)
    (hpc : s.pc i = .put) : Placed isin (tr ++ [(i, .put)]) (s.putNew i (isin i)) i where
  before _ := by
    obtain ⟨hnot, hnone⟩ := h.before (by rw [hpc]; exact trivial)
    refine ⟨by simpa using hnot, fun r => ?_⟩
    rw [heap_putNew]
    split
    · exact List.not_mem_nil
    · exact hnone r
  adding r hr := by
    rw [pc_putNew, if_pos rfl] at hr
    cases hr
  opened ho := by
    rw [pc_putNew, if_pos rfl] at ho
    cases ho

omit [DecidableEq κ] in
theorem Placed.gets {tr : List (σ × Op)} {s : Registry σ κ} {i : σ} {r : Nat} (h : Placed isin tr s i)
    (hpc : s.pc i = .get) (hr : s.sessions (isin i) = some r) :
    Placed isin (tr ++ [(i, .get)]) (s.goto i (.add r)) i := by
  obtain ⟨hnot, hnone⟩ := h.before (by rw [hpc]; exact trivial)
  refine ⟨fun hb => ?_, fun r' hr' => ⟨⟨by simp, ?_⟩, hnone⟩, fun ho => ?_⟩
  · rw [pc_goto_self] at hb
    exact hb.elim
  · rw [pc_goto_self] at hr'
    cases hr'
    rw [superseded_snoc_iff]
    exact iff_of_true hr (not_or.mpr ⟨fun hsup => hnot hsup.got, nofun⟩)
  · rw [pc_goto_self] at ho
    cases ho

omit [DecidableEq κ] in
theorem Placed.addTo {tr : List (σ × Op)} {s : Registry σ κ} {i : σ} {r : Nat} (h : Placed isin tr s i)
    (hpc : s.pc i = .add r) : Placed isin (tr ++ [(i, .add)]) (s.addTo i r) i := by
  obtain ⟨hgot, hnone⟩ := h.adding r hpc
  have hself : (s.addTo i r).pc i = .opened := (pc_addTo ..).trans (if_pos rfl)
  refine ⟨fun hb => ?_, fun r' hr' => ?_, fun _ => ⟨r, hgot.snoc rfl nofun, fun r' => ?_⟩⟩
  · rw [hself] at hb
    exact hb.elim
  · rw [hself] at hr'
    cases hr'
  · rw [heap_addTo]
    split
    · rw [List.count_append, List.count_eq_zero.mpr (hnone r), List.count_singleton_self]
    · exact List.count_eq_zero.mpr (hnone r')

theorem placed_own {tr : List (σ × Op)} {s t : Registry σ κ} {i : σ} {op : Op} (h : Placed isin tr s i)
    (hstep : step e isin s (i, op) = some t) : Placed isin (tr ++ [(i, op)]) t i := by
  cases step_cases hstep with
  | opens hpc =>
      refine h.goto_before (by rw [hpc]; exact trivial) nofun ?_
      cases e <;> exact trivial
  | timeout hpc => exact h.goto_before (by rw [hpc]; exact trivial) nofun trivial
  | found hpc hr => exact h.goto_before (by rw [hpc]; exact trivial) nofun trivial
  | missing hpc hr => exact h.goto_before (by rw [hpc]; exact trivial) nofun trivial
  | puts hpc => exact h.putNew hpc
  | gets hpc hr => exact h.gets hpc hr
  | adds hpc => exact h.addTo hpc
  | removes hpc => exact placed_of_done ((pc_removeFrom ..).trans (if_pos rfl)) id nofun nofun
  | _ => exact placed_of_done (pc_goto_self ..) id nofun nofun

/-! ## Every run

The two invariants together give the count of a session among those told of a message. Handlers that run one after
another supersede nothing, and the race of the first two sessions of an ISIN shows that others do. -/

/-- What holds of the registry and of every session, after any run. -/
structure RunInv (isin : σ → κ) (tr : List (σ × Op)) (s : Registry σ κ) : Prop where
  inv    : Inv isin s
  placed : ∀ i, Placed isin tr s i

omit [DecidableEq κ] in
theorem runInv_init : RunInv isin [] (init : Registry σ κ) :=
  ⟨inv_init, fun _ => ⟨fun _ => ⟨List.not_mem_nil, fun _ => List.not_mem_nil⟩, nofun, nofun⟩⟩

theorem RunInv.step {tr : List (σ × Op)} {s t : Registry σ κ} {a : σ × Op} (h : RunInv isin tr s)
    (hstep : step e isin s a = some t) : RunInv isin (tr ++ [a]) t := by
  obtain ⟨j, op⟩ := a
  refine ⟨h.inv.step hstep, fun i => ?_⟩
  by_cases hij : j = i
  · subst hij
    exact placed_own (h.placed j) hstep
  · exact placed_other h.inv (h.placed i) hij hstep

theorem runInv {tr : List (σ × Op)} {s : Registry σ κ} (h : Machine.exec (step e isin) tr init = some s) :
    RunInv isin tr s := Machine.exec_trace runInv_init (fun _ _ _ _ hI hs => hI.step hs) h

/-- No handler is ever ended by `sessions.get(isin)` being null. -/
theorem not_thrown {tr : List (σ × Op)} {s : Registry σ κ} (h : Machine.exec (step e isin) tr init = some s)
    (i : σ) : s.pc i ≠ .thrown := (runInv h).inv.thrown i

omit [DecidableEq σ] [DecidableEq κ] in
/-- A session is never told of the messages of another ISIN. -/
theorem Inv.mem_broadcast {s : Registry σ κ} (h : Inv isin s) {i : σ} {k : κ} (hi : i ∈ s.broadcast k) :
    isin i = k := by
  unfold broadcast at hi
  cases hr : s.sessions k with
  | none => rw [hr] at hi; cases hi
  | some r => rw [hr] at hi; exact h.own k r hr i hi

omit [DecidableEq κ] in
theorem RunInv.count_broadcast {tr : List (σ × Op)} {s : Registry σ κ} (h : RunInv isin tr s) {i : σ}
    (hi : s.pc i = .opened) : (s.broadcast (isin i)).count i = 1 ↔ ¬ Superseded isin tr i := by
  obtain ⟨r, hgot, honly⟩ := (h.placed i).opened hi
  obtain ⟨r', hr'⟩ := h.inv.present i (by rw [hi]; exact trivial)
  have hcount : (s.broadcast (isin i)).count i = if r' = r then 1 else 0 := by
    unfold broadcast
    rw [hr']
    exact honly r'
  rw [hcount, ← hgot.current, hr', Option.some.injEq]
  by_cases hrr : r' = r
  · rw [if_pos hrr]
    exact iff_of_true rfl hrr
  · rw [if_neg hrr]
    exact iff_of_false nofun hrr

/-- **Who is told.** On either endpoint and after any interleaving, the opened sessions are each told of the next
    message of their ISIN exactly once, and of no other ISIN's, iff no list was put for the ISIN of an opened session
    after its handler had got one. -/
theorem registered_iff {tr : List (σ × Op)} {t : Registry σ κ} (h : Machine.exec (step e isin) tr init = some t) :
    (∀ i, t.pc i = .opened → (t.broadcast (isin i)).count i = 1 ∧ ∀ k ≠ isin i, i ∉ t.broadcast k)
      ↔ ∀ i, t.pc i = .opened → ¬ Superseded isin tr i := by
  have hinv := runInv h
  apply forall_congr'
  intro i
  apply forall_congr'
  intro hi
  rw [hinv.count_broadcast hi, and_iff_left_iff_imp]
  exact fun _ k hk hmem => hk (hinv.inv.mem_broadcast hmem).symm

/-- Two clients subscribe to one bond, one after the other. -/
def inTurn : List (Bool × Op) :=
  [(false, .open), (false, .containsKey), (false, .put), (false, .get), (false, .add),
   (true, .open), (true, .containsKey), (true, .get), (true, .add)]

theorem registered_iff_inTurn :
    ∃ t : Registry Bool String,
      Machine.exec (step .WebSocket fun _ => "DE0001102580") inTurn init = some t
      ∧ t.broadcast "DE0001102580" = [false, true]
      ∧ ((∀ i, t.pc i = .opened →
            (t.broadcast "DE0001102580").count i = 1 ∧ ∀ k ≠ "DE0001102580", i ∉ t.broadcast k)
          ↔ ∀ i, t.pc i = .opened → ¬ Superseded (fun _ => "DE0001102580") inTurn i) :=
  have h := Option.some_get (x := Machine.exec (step .WebSocket fun _ : Bool => "DE0001102580") inTurn init)
    (by decide +kernel)
  ⟨_, h.symm, by decide +kernel, registered_iff h.symm⟩

/-- Both handlers find no list, and the second puts its own when the first is done. -/
def race (e : Endpoint) : List (Bool × Op) :=
  (match e with
    | .WebSocket => [(false, .open), (true, .open)]
    | .EnricherServerEndpoint =>
        [(false, .open), (false, .setMaxIdleTimeout), (true, .open), (true, .setMaxIdleTimeout)])
  ++ [(false, .containsKey), (true, .containsKey), (false, .put), (false, .get), (false, .add),
      (true, .put), (true, .get), (true, .add)]

theorem race_runs (e : Endpoint) :
    (Machine.exec (step e fun _ => "DE0001102580") (race e) init).isSome := by
  cases e <;> decide +kernel

/-- On neither endpoint are all opened sessions told of the next message, even when no handler is running. -/
theorem not_always_registered :
    ¬ ∃ e : Endpoint, ∀ (isin : Bool → String) (tr : List (Bool × Op)) (t : Registry Bool String),
      Machine.exec (step e isin) tr init = some t → (∀ i, t.pc i = .idle ∨ t.pc i = .opened ∨ t.pc i = .closed) →
      ∀ i, t.pc i = .opened → (t.broadcast (isin i)).count i = 1 ∧ ∀ k ≠ isin i, i ∉ t.broadcast k := by
  rintro ⟨e, hall⟩
  have hlost := hall (fun _ => "DE0001102580") (race e) _ (Option.some_get (race_runs e)).symm
    (by cases e <;> decide +kernel) false (by cases e <;> decide +kernel)
  exact absurd hlost.1 (by cases e <;> decide +kernel)

end Registry

end NewOrbit.Streamer
