import NewOrbit.Displayer.Home
import NewOrbit.Lib.Requests

/-!
# `Displayer.Responses` — what the two dashboards show when responses overtake each other

`Home` of the log displayer asks again whenever `numLogs` changes, `AllBonds` of the bond displayer whenever
`page` does. Neither keeps note of what it has asked for: every response that arrives is shown, whichever value it
was asked for (`shows_last_response`). So the data shown is that of the response that arrived last, and is the
wrong one when an older request is answered later than the current one (`not_always_shows_current`).
-/

namespace NewOrbit.Displayer
open Js Machine Requests

/-! ## The log displayer -/

inductive HomeAction where
  | changeLogNum (value : List Char)
  | expandCards

/-- `Home` as a view. A request that fails, and a body of `null`, which has nothing to loop over, are logged and
    change nothing (`none`). -/
def homeView : View Home Value HomeAction (Option (List Log)) where
  initial := Home.initial
  param := Home.numLogs
  act
    | .changeLogNum value, s => s.changeLogNum value
    | .expandCards,        s => s.expandCards
  respond numLogs data s := data.elim s (s.respond numLogs)

/-- The graph, the logs, the cards and the share of answered requests are those of the response `data` to the
    request for `numLogs` logs. There are twelve cards at least, or all. -/
def ShowsLogs (numLogs : Value) (data : Option (List Log)) (s : Home) : Prop :=
  ∀ logs, data = some logs → s.graph = some (scan numLogs logs).data ∧ s.logs = logs ∧
    12 ≤ s.numCards ∧ s.cards = some (logs.take s.numCards.floor.toNat) ∧
    s.succeeded = ((sent logs).length, logs.length)

/-- The percentiles are those of the response `data`. -/
def ShowsPc (data : Option (List Log)) (s : Home) : Prop :=
  ∀ logs, data = some logs → s.pc = percentiles ((sent logs).map fun log => Rabbit.calToMS log.cal_duration)

/-- Some request in the response has been answered. -/
def answered (data : Option (List Log)) : Bool := data.any fun logs => !(sent logs).isEmpty

theorem numCards_le_atMost {s : Home} (h : (Number.finite s.numCards).lt (toNumber s.numLogs) = true) :
    s.numCards ≤ atMost (s.numCards + 48) (toNumber s.numLogs) := by
  cases hn : toNumber s.numLogs with
  | finite q =>
      rw [hn] at h
      have hlt : s.numCards < q := of_decide_eq_true h
      exact le_min (by linarith) hlt.le
  | _ => simp [atMost]

/-- The user's actions leave what is shown alone; `expandCards` shows more of it. -/
theorem showsLogs_act (a : HomeAction) (numLogs : Value) (data : Option (List Log)) (s : Home)
    (h : ShowsLogs numLogs data s) : ShowsLogs numLogs data (homeView.act a s) := by
  cases a with
  | changeLogNum value =>
      show ShowsLogs numLogs data (s.changeLogNum value)
      unfold Home.changeLogNum
      split
      · exact h
      · exact h
  | expandCards =>
      show ShowsLogs numLogs data s.expandCards
      unfold Home.expandCards
      split
      · rename_i hlt
        intro logs hdata
        obtain ⟨hgraph, hlogs, hnum, -, hsucceeded⟩ := h logs hdata
        exact ⟨hgraph, hlogs, hnum.trans (numCards_le_atMost hlt), by rw [hlogs], hsucceeded⟩
      · exact h

theorem showsPc_act (a : HomeAction) (data : Option (List Log)) (s : Home) (h : ShowsPc data s) :
    ShowsPc data (homeView.act a s) := by
  cases a with
  | changeLogNum value =>
      show ShowsPc data (s.changeLogNum value)
      unfold Home.changeLogNum
      split
      · exact h
      · exact h
  | expandCards =>
      show ShowsPc data s.expandCards
      unfold Home.expandCards
      split
      · exact h
      · exact h

theorem showsLogs_respond (numLogs : Value) (data : Option (List Log)) (s : Home) :
    ShowsLogs numLogs data (homeView.respond numLogs data s) := by
  rintro logs rfl
  exact ⟨rfl, rfl, le_refl 12, by rfl, succeeded_respond numLogs logs s⟩

theorem showsPc_respond (numLogs : Value) (data : Option (List Log)) (s : Home) (h : answered data = true) :
    ShowsPc data (homeView.respond numLogs data s) := by
  rintro logs rfl
  have hne : sent logs ≠ [] := by simpa [answered] using h
  exact (pc_respond numLogs logs s).trans (if_neg hne)

/-- A response without an answered request leaves the percentiles of an earlier one standing. -/
theorem pc_respond_of_not_answered (numLogs : Value) (data : Option (List Log)) (s : Home)
    (h : answered data = false) : (homeView.respond numLogs data s).pc = s.pc := by
  cases data with
  | none => rfl
  | some logs =>
      have hnil : sent logs = [] := by simpa [answered] using h
      exact (pc_respond numLogs logs s).trans (if_pos hnil)

/-! ## The bond displayer

The filters of `AllBonds` stay as they are here. -/

/-- What `bonds` holds: a text, or an entry for each bond. -/
inductive Bonds (Bond : Type) where
  | text (s : String)
  | entries (l : List Bond)
  deriving DecidableEq, Repr

variable {Bond : Type}

def Bonds.length : Bonds Bond → ℕ
  | text s    => s.length
  | entries l => l.length

structure AllBonds (Bond : Type) where
  bonds : Bonds Bond
  page : ℕ
  deriving DecidableEq, Repr

def AllBonds.initial : AllBonds Bond :=
  { bonds := .text "Please select number of bonds you want to load", page := 0 }

def AllBonds.nextPage (s : AllBonds Bond) : AllBonds Bond :=
  if 0 < s.bonds.length then { s with page := s.page + 1 } else s

def AllBonds.prevPage (s : AllBonds Bond) : AllBonds Bond :=
  if 0 < s.page then { s with page := s.page - 1 } else s

/-- What `getAllBonds` puts on the screen for a response; `none` is a request that failed. -/
def retrieved : Option (List Bond) → Bonds Bond
  | some data => .entries data
  | none      => .text "Error: bonds could not be retrieved"

inductive PageAction where
  | nextPage
  | prevPage

/-- `AllBonds` as a view. -/
def allBondsView (Bond : Type) : View (AllBonds Bond) ℕ PageAction (Option (List Bond)) where
  initial := AllBonds.initial
  param := AllBonds.page
  act
    | .nextPage, s => s.nextPage
    | .prevPage, s => s.prevPage
  respond _ data s := { s with bonds := retrieved data }

theorem bonds_act (a : PageAction) (s : AllBonds Bond) : ((allBondsView Bond).act a s).bonds = s.bonds := by
  cases a with
  | nextPage =>
      show s.nextPage.bonds = _
      unfold AllBonds.nextPage
      split <;> rfl
  | prevPage =>
      show s.prevPage.bonds = _
      unfold AllBonds.prevPage
      split <;> rfl

/-! ## What is shown when all responses have arrived -/

/-- **Both dashboards show the response that arrived last.** When nothing is under way any more, a response to a
    request for the current value has arrived, and what is shown is what the last response brought, for whichever
    value it was asked: of the log displayer the last one that was a list of logs, and for the percentiles the last
    one with an answered request in it. -/
theorem shows_last_response (Bond : Type) :
    (∀ sys, homeView.Run sys → sys.inFlight = [] → sys.state.numLogs ∈ sys.arrived.map Prod.fst ∧
      (∀ p r, (sys.arrived.filter fun a => a.2.isSome).getLast? = some (p, r) → ShowsLogs p r sys.state) ∧
      (∀ p r, (sys.arrived.filter fun a => answered a.2).getLast? = some (p, r) → ShowsPc r sys.state)) ∧
    (∀ sys, (allBondsView Bond).Run sys → sys.inFlight = [] → sys.state.page ∈ sys.arrived.map Prod.fst ∧
      ∃ p r, sys.arrived.getLast? = some (p, r) ∧ sys.state.bonds = retrieved r) := by
  constructor
  · intro sys hrun hdone
    refine ⟨(View.current_arrived hrun).resolve_right (hdone ▸ List.not_mem_nil), fun p r => ?_, fun p r => ?_⟩
    · refine View.last_shown Option.isSome ShowsLogs showsLogs_act (fun p r s _ => showsLogs_respond p r s) ?_
        hrun
      rintro p r q t s ht h
      obtain rfl : t = none := by simpa using ht
      exact h
    · refine View.last_shown answered (fun _ => ShowsPc) (fun a _ => showsPc_act a) showsPc_respond ?_ hrun
      intro p r q t s ht h logs hlogs
      rw [pc_respond_of_not_answered q t s ht]
      exact h logs hlogs
  · intro sys hrun hdone
    have harrived := (View.current_arrived hrun).resolve_right (hdone ▸ List.not_mem_nil)
    refine ⟨harrived, ?_⟩
    have hne : sys.arrived ≠ [] := fun hnil => by simp [hnil] at harrived
    obtain ⟨⟨p, r⟩, hlast⟩ : ∃ a, sys.arrived.getLast? = some a := ⟨_, List.getLast?_eq_some_getLast hne⟩
    refine ⟨p, r, hlast, ?_⟩
    refine View.last_shown (fun _ => true) (fun _ r s => s.bonds = retrieved r)
      (fun a _ _ s h => (bonds_act a s).trans h) (fun _ _ _ _ => rfl) (fun _ _ _ _ _ h => nomatch h) hrun
      (p := p) ?_
    rwa [List.filter_true]

/-- Two logs, and the newer of them. -/
def twoLogs : List Log := [⟨"", 0, 1, 1, false, 0, "", ""⟩, ⟨"", 0, 1, 2, false, 0, "", ""⟩]

def oneLog : List Log := twoLogs.take 1

/-- Two values each, and the responses in the order of the requests: the second is shown. -/
theorem shows_last_response_inOrder :
    (∃ sys, homeView.Run sys ∧ sys.inFlight = [] ∧ sys.state.numLogs = .string ['1'] ∧
      ShowsLogs (.string ['1']) (some oneLog) sys.state) ∧
    (∃ sys, (allBondsView ℕ).Run sys ∧ sys.inFlight = [] ∧ sys.state.page = 1 ∧
      sys.state.bonds = retrieved (some [7])) := by
  have hhome : (exec homeView.step
      [.user (.changeLogNum ['1']), .arrive 0 (some twoLogs), .arrive 0 (some oneLog)] homeView.mount).any
        (fun sys => sys.inFlight = [] ∧ sys.state.numLogs = .string ['1'] ∧
        sys.arrived = [(.number (.finite 200), some twoLogs), (.string ['1'], some oneLog)]) = true := by
    decide +kernel
  have hbonds : (exec (allBondsView ℕ).step [.arrive 0 (some [3]), .user .nextPage, .arrive 0 (some [7])]
      (allBondsView ℕ).mount).any (fun sys => sys.inFlight = [] ∧ sys.state.page = 1 ∧
        sys.arrived = [(0, some [3]), (1, some [7])]) = true := by
    decide +kernel
  obtain ⟨home, hhome, hprop⟩ := (Option.any_eq_true _ _).mp hhome
  obtain ⟨hdone, hnum, harrived⟩ := of_decide_eq_true hprop
  obtain ⟨bonds, hbonds, hprop⟩ := (Option.any_eq_true _ _).mp hbonds
  obtain ⟨hdone', hpage, harrived'⟩ := of_decide_eq_true hprop
  refine ⟨⟨home, ⟨_, hhome⟩, hdone, hnum, ?_⟩, ⟨bonds, ⟨_, hbonds⟩, hdone', hpage, ?_⟩⟩
  · exact ((shows_last_response ℕ).1 home ⟨_, hhome⟩ hdone).2.1 _ _ (by rw [harrived]; rfl)
  · obtain ⟨-, p, r, hlast, hshown⟩ := (shows_last_response ℕ).2 bonds ⟨_, hbonds⟩ hdone'
    rw [harrived'] at hlast
    cases hlast
    exact hshown

/-- An older request answered later: one log is asked for, and two are shown. -/
theorem not_always_shows_current : ¬ ∀ sys, homeView.Run sys → sys.inFlight = [] →
    ∃ r, (sys.state.numLogs, r) ∈ sys.arrived ∧ ShowsLogs sys.state.numLogs r sys.state ∧
      ShowsPc r sys.state := by
  intro h
  have hrun : (exec homeView.step [.user (.changeLogNum ['1']), .arrive 1 (some oneLog), .arrive 0 (some twoLogs)]
      homeView.mount).any (fun sys => sys.inFlight = [] ∧ sys.state.numLogs = .string ['1'] ∧
        sys.state.logs ≠ oneLog ∧
        sys.arrived = [(.string ['1'], some oneLog), (.number (.finite 200), some twoLogs)]) = true := by
    decide +kernel
  obtain ⟨sys, hexec, hprop⟩ := (Option.any_eq_true _ _).mp hrun
  obtain ⟨hdone, hnum, hlogs, harrived⟩ := of_decide_eq_true hprop
  obtain ⟨r, hr, hshows, -⟩ := h sys ⟨_, hexec⟩ hdone
  rw [hnum, harrived] at hr
  obtain rfl : r = some oneLog := by simpa using hr
  exact hlogs (hshows oneLog rfl).2.1

end NewOrbit.Displayer
