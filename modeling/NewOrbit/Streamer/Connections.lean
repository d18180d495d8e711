import Mathlib.Data.List.Induction
import Mathlib.Data.List.Nodup
import Mathlib.Data.List.TakeWhile

/-!
# `Streamer.Connections` — the open connections of the WebSocket server

The server keeps a weak handle of every connection that was opened. A handle may expire at any time, and nothing
takes it out of the list then; `onClose` does, with every other expired handle. Whatever the order of the events,
the handles that have not expired are those of the connections that were opened and not closed since, in the order
they were opened in (`live_run`).
-/

namespace NewOrbit.Streamer.Connections

variable {σ : Type} [DecidableEq σ]

inductive Event (σ : Type) where
  | onOpen (conn : σ)
  | onClose (conn : σ)
  | expire (conn : σ)
  deriving DecidableEq, Repr

/-- The server's list, and the handles whose connection is gone. -/
structure Server (σ : Type) where
  openConnections : List σ
  expired : List σ
  deriving DecidableEq, Repr

namespace Server

def init : Server σ := ⟨[], []⟩

/-- `conn.lock()`: the connection, which its address identifies, or null. -/
def lock (s : Server σ) (conn : σ) : Option σ := if conn ∈ s.expired then none else some conn

def onOpen (s : Server σ) (conn : σ) : Server σ := { s with openConnections := s.openConnections ++ [conn] }

end Server

/-- `std::remove_if`: the elements that stay are moved to the front, in their order, and the new end is behind
    them. What is left between the new end and the old is not specified. -/
def removeIf (p : σ → Bool) (l : List σ) : List σ × Nat :=
  let stay := l.filter fun x => !p x
  (stay ++ l.drop stay.length, stay.length)

namespace Server

def onClose (s : Server σ) (conn : σ) : Server σ :=
  let connVal := s.lock conn
  let (elements, newEnd) := removeIf (fun elem =>
    if elem ∈ s.expired then true else if s.lock elem = connVal then true else false) s.openConnections
  { s with openConnections := elements.take newEnd }

def expire (s : Server σ) (conn : σ) : Server σ := { s with expired := conn :: s.expired }

def step (s : Server σ) : Event σ → Server σ
  | .onOpen conn  => s.onOpen conn
  | .onClose conn => s.onClose conn
  | .expire conn  => s.expire conn

def run (tr : List (Event σ)) : Server σ := tr.foldl step init

/-- The entries that have not expired. -/
def live (s : Server σ) : List σ := s.openConnections.filter fun conn => conn ∉ s.expired

end Server

/-! ## The connections, by the events -/

/-- The connections opened, in order. -/
def opened (tr : List (Event σ)) : List σ :=
  tr.filterMap fun
    | .onOpen conn => some conn
    | _            => none

/-- The connection was closed after it was opened. -/
def closedSince (tr : List (Event σ)) (conn : σ) : Bool :=
  (tr.dropWhile (· ≠ .onOpen conn)).tail.contains (.onClose conn)

/-- Opened, and not yet closed or expired. -/
def alive (tr : List (Event σ)) : List σ :=
  (opened tr).filter fun conn => !closedSince tr conn && !tr.contains (.expire conn)

/-! ## One event

A close takes out all expired handles, and of the live ones that of the closed connection only, since a live handle
never locks to null. -/

open Server

omit [DecidableEq σ] in
theorem take_removeIf (p : σ → Bool) (l : List σ) : (removeIf p l).1.take (removeIf p l).2 = l.filter fun x => !p x :=
  List.take_left

theorem live_onOpen (s : Server σ) (conn : σ) :
    (s.onOpen conn).live = s.live ++ if conn ∈ s.expired then [] else [conn] := by
  rw [live, onOpen, List.filter_append]
  by_cases h : conn ∈ s.expired
  · simp [live, h]
  · simp [live, h]

theorem openConnections_onClose (s : Server σ) (conn : σ) :
    (s.onClose conn).openConnections = s.live.filter (· ≠ conn) := by
  show (removeIf _ _).1.take (removeIf _ _).2 = _
  rw [take_removeIf, live, List.filter_filter]
  apply List.filter_congr
  intro elem _
  by_cases helem : elem ∈ s.expired
  · simp [helem]
  · -- A live handle is never equal to null, which an expired one locks to.
    by_cases hconn : conn ∈ s.expired
    · have hne : elem ≠ conn := fun h => helem (h ▸ hconn)
      simp [lock, helem, hconn, hne]
    · simp [lock, helem, hconn]

theorem notMem_expired_of_live {s : Server σ} {conn : σ} (h : conn ∈ s.live) : conn ∉ s.expired :=
  of_decide_eq_true (List.mem_filter.mp h).2

/-- A close leaves the live handles but the closed one, and nothing else. -/
theorem live_onClose (s : Server σ) (conn : σ) : (s.onClose conn).live = s.live.filter (· ≠ conn) := by
  rw [live, openConnections_onClose, List.filter_eq_self]
  intro elem helem
  exact decide_eq_true (notMem_expired_of_live (s := s) (List.mem_of_mem_filter helem))

theorem live_expire (s : Server σ) (conn : σ) : (s.expire conn).live = s.live.filter (· ≠ conn) := by
  rw [live, expire, live, List.filter_filter]
  apply List.filter_congr
  intro elem _
  by_cases h : elem = conn
  · simp [h]
  · simp [h]

theorem run_snoc (tr : List (Event σ)) (e : Event σ) : run (tr ++ [e]) = (run tr).step e :=
  List.foldl_concat ..

theorem mem_expired_run {tr : List (Event σ)} {conn : σ} : conn ∈ (run tr).expired ↔ .expire conn ∈ tr := by
  induction tr using List.reverseRecOn with
  | nil => simp [run, init]
  | append_singleton tr e ih => cases e <;> simp [run_snoc, step, onOpen, onClose, expire, ih, or_comm]

/-! ## The events so far

The list of those that are alive changes with each event in the same way as the live handles do. For `onOpen` this
needs that a connection is opened once. -/

omit [DecidableEq σ] in
theorem mem_opened {tr : List (Event σ)} {conn : σ} : conn ∈ opened tr ↔ .onOpen conn ∈ tr := by
  simp only [opened, List.mem_filterMap]
  constructor
  · rintro ⟨e, he, heq⟩
    cases e with
    | onOpen conn' => cases heq; exact he
    | onClose _ => cases heq
    | expire _ => cases heq
  · exact fun h => ⟨_, h, rfl⟩

omit [DecidableEq σ] in
theorem opened_snoc (tr : List (Event σ)) (e : Event σ) :
    opened (tr ++ [e]) = opened tr ++ match e with
      | .onOpen conn => [conn]
      | _            => [] := by
  rw [opened, List.filterMap_append]
  cases e <;> rfl

/-- A connection that was opened is closed by a later close of it, and by nothing else. -/
theorem closedSince_snoc {tr : List (Event σ)} {conn : σ} (h : conn ∈ opened tr) (e : Event σ) :
    closedSince (tr ++ [e]) conn = (closedSince tr conn || e = .onClose conn) := by
  have hne : tr.dropWhile (· ≠ .onOpen conn) ≠ [] := by
    rw [Ne, List.dropWhile_eq_nil_iff]
    exact fun hall => absurd (hall _ (mem_opened.mp h)) (by simp)
  rw [closedSince, closedSince, List.dropWhile_append, if_neg (by simpa using hne), List.tail_append_of_ne_nil hne]
  simp [eq_comm]

/-- A connection that is opened now has not been closed since. -/
theorem closedSince_onOpen {tr : List (Event σ)} {conn : σ} (h : conn ∉ opened tr) :
    closedSince (tr ++ [.onOpen conn]) conn = false := by
  have hnil : tr.dropWhile (· ≠ .onOpen conn) = [] := by
    rw [List.dropWhile_eq_nil_iff]
    intro e he
    exact decide_eq_true fun heq => h (mem_opened.mpr (heq ▸ he))
  rw [closedSince, List.dropWhile_append, hnil]
  simp

theorem alive_onOpen {tr : List (Event σ)} {conn : σ} (h : conn ∉ opened tr) :
    alive (tr ++ [.onOpen conn]) = alive tr ++ if .expire conn ∈ tr then [] else [conn] := by
  rw [alive, opened_snoc, List.filter_append]
  congr 1
  · apply List.filter_congr
    intro conn' hconn'
    simp [closedSince_snoc hconn']
  · by_cases hexp : .expire conn ∈ tr
    · simp [hexp]
    · simp [hexp, closedSince_onOpen h]

theorem alive_onClose (tr : List (Event σ)) (conn : σ) :
    alive (tr ++ [.onClose conn]) = (alive tr).filter (· ≠ conn) := by
  rw [alive, opened_snoc, List.append_nil, alive, List.filter_filter]
  apply List.filter_congr
  intro conn' hconn'
  rw [closedSince_snoc hconn']
  by_cases heq : conn' = conn
  · simp [heq]
  · simp [heq, Ne.symm heq]

theorem alive_expire (tr : List (Event σ)) (conn : σ) :
    alive (tr ++ [.expire conn]) = (alive tr).filter (· ≠ conn) := by
  rw [alive, opened_snoc, List.append_nil, alive, List.filter_filter]
  apply List.filter_congr
  intro conn' hconn'
  rw [closedSince_snoc hconn']
  by_cases heq : conn' = conn
  · simp [heq]
  · simp [heq]

/-! ## Every run -/

/-- **The live entries are the connections opened and not yet closed or expired**, in the order they were opened
    in. -/
theorem live_run {tr : List (Event σ)} (hopen : (opened tr).Nodup) : (run tr).live = alive tr := by
  induction tr using List.reverseRecOn with
  | nil => rfl
  | append_singleton tr e ih =>
      rw [opened_snoc] at hopen
      have hlive := ih (List.Nodup.of_append_left hopen)
      rw [run_snoc]
      cases e with
      | onOpen conn =>
          have hnew : conn ∉ opened tr := fun h => (List.disjoint_of_nodup_append hopen) h List.mem_cons_self
          rw [step, live_onOpen, hlive, alive_onOpen hnew]
          simp only [mem_expired_run]
      | onClose conn => rw [step, live_onClose, hlive, alive_onClose]
      | expire conn => rw [step, live_expire, hlive, alive_expire]

/-- **The server's list.** Every connection being opened once at most: the live entries are as above, each once;
    after a close there are no others; and the close of a handle that has expired leaves them all. -/
theorem openConnections_run (tr : List (Event σ)) (hopen : (opened tr).Nodup) :
    ((run tr).live = alive tr ∧ (alive tr).Nodup) ∧
      ∀ before conn, tr = before ++ [.onClose conn] →
        (∀ c ∈ (run tr).openConnections, c ∉ (run tr).expired) ∧
          (conn ∈ (run before).expired → (run tr).live = (run before).live) := by
  refine ⟨⟨live_run hopen, hopen.filter _⟩, ?_⟩
  rintro before conn rfl
  rw [run_snoc, step]
  constructor
  · intro c hc
    rw [openConnections_onClose] at hc
    exact notMem_expired_of_live (s := run before) (List.mem_of_mem_filter hc)
  · intro hexp
    rw [live_onClose, List.filter_eq_self]
    rintro c hc
    exact decide_eq_true fun heq => notMem_expired_of_live hc (heq ▸ hexp)

/-- Two connections; one handle expires, and the other connection is closed. -/
theorem openConnections_run_two :
    (run [.onOpen 1, .onOpen 2, .expire 1, .onClose 2]).live = alive [.onOpen 1, .onOpen 2, .expire 1, .onClose 2] :=
  (openConnections_run [.onOpen 1, .onOpen 2, .expire 1, .onClose 2] (by decide)).1.1

end NewOrbit.Streamer.Connections
