import NewOrbit.Lib.JsOrder
import NewOrbit.Rabbit.Dashboard

/-!
# `Displayer.Home` — the view of the log displayer

`Home.js` asks the log server for the newest `numLogs` logs, when it is mounted and whenever the user changes that
number, and shows what comes back: the durations as a graph, four percentiles of them, the share of the requests
that were answered, and the logs themselves as cards, twelve at first and more on demand.

A value is what JavaScript computes wherever `Lib.Js` has a result; where it has none the value stands as `none`.
-/

namespace NewOrbit.Displayer
open Js
open Rabbit (calToMS)

/-- A log as the response has it; a card shows one. -/
structure Log where
  request_time : String
  cal_type : Int
  num1 : Int
  num2 : Int
  response_sent : Bool
  response : Int
  response_time : String
  cal_duration : String
  deriving DecidableEq, Repr

/-- A point of the graph: `{ x: numLogs - i, y, y0: 0 }`, the difference not carried out. -/
structure Point where
  numLogs : Value
  i : ℕ
  y : Option Value
  deriving DecidableEq

/-- The state of the view. `none` stands for the `loading...` of `cards` and `graph`, and `succeeded` is a
    quotient. -/
structure Home where
  cards : Option (List Log)
  numCards : ℚ
  pc : Option (List Value)
  logs : List Log
  graph : Option (List Point)
  succeeded : ℕ × ℕ
  numLogs : Value
  logNumError : String
  deriving DecidableEq

def Home.initial : Home :=
  { cards := none, numCards := 0, pc := some (List.replicate 4 (.number (.finite 0))), logs := [], graph := none,
    succeeded := (0, 1), numLogs := .number (.finite 200), logNumError := "" }

/-! ## What the user does -/

/-- `changeLogNum`, on the text of the number field. -/
def Home.changeLogNum (value : List Char) (s : Home) : Home :=
  if (toNumber (.string value)).lt (.finite 1) then { s with logNumError := "Please enter a positive number" }
  else { s with numLogs := .string value, logNumError := "" }

/-- `Math.min(q, n)`, where `n` is not below every number. -/
def atMost (q : ℚ) : Number → ℚ
  | .finite r => min q r
  | _         => q

/-- `expandCards` -/
def Home.expandCards (s : Home) : Home :=
  if (Number.finite s.numCards).lt (toNumber s.numLogs) then
    let newNum := atMost (s.numCards + 48) (toNumber s.numLogs)
    { s with cards := some (s.logs.take newNum.floor.toNat), numCards := newNum }
  else s

/-! ## What a response changes -/

/-- The variables of the loop over the response. -/
structure Scan where
  calDurations : List (Option Value)
  failedNum : ℕ
  data : List Point
  i : ℕ
  deriving DecidableEq

/-- The body of the loop. -/
def scanLog (numLogs : Value) (s : Scan) (log : Log) : Scan :=
  if log.response_sent then
    { s with
      calDurations := s.calDurations ++ [calToMS log.cal_duration]
      data := s.data ++ [⟨numLogs, s.i, calToMS log.cal_duration⟩]
      i := s.i + 1 }
  else { s with failedNum := s.failedNum + 1 }

def scan (numLogs : Value) (data : List Log) : Scan :=
  data.foldl (scanLog numLogs) { calDurations := [], failedNum := 0, data := [], i := 0 }

/-- The indices of the four percentiles. No array is so long that the doubles between would round otherwise. -/
def indices (n : ℕ) : List ℕ := [n / 2, n * 3 / 4, n * 19 / 20, n * 99 / 100]

/-- The four percentiles: `calDurations.sort()`, and an element for each index. -/
def percentiles (calDurations : List (Option Value)) : Option (List Value) := do
  let calDurations ← calDurations.mapM id
  let calDurations ← sort calDurations
  return (indices calDurations.length).map (Js.get calDurations)

/-- The response to the request for `numLogs` logs. -/
def Home.respond (numLogs : Value) (data : List Log) (s : Home) : Home :=
  let loop := scan numLogs data
  { s with
    graph := some loop.data
    pc := if 0 < loop.calDurations.length then percentiles loop.calDurations else s.pc
    succeeded := (data.length - loop.failedNum, data.length)
    logs := data
    cards := some (data.take 12)
    numCards := 12 }

/-! ## The loop -/

/-- The logs that have been answered. -/
def sent (data : List Log) : List Log := data.filter Log.response_sent

/-- What the loop has collected at its end. -/
theorem foldl_scanLog (numLogs : Value) (data : List Log) (s : Scan) :
    (data.foldl (scanLog numLogs) s).calDurations =
        s.calDurations ++ (sent data).map (fun log => calToMS log.cal_duration) ∧
      (data.foldl (scanLog numLogs) s).failedNum + (sent data).length = s.failedNum + data.length := by
  induction data generalizing s with
  | nil => simp [sent]
  | cons log data ih =>
      obtain ⟨hdurations, hfailed⟩ := ih (scanLog numLogs s log)
      rw [List.foldl_cons, hdurations]
      cases hsent : log.response_sent with
      | true =>
          simp only [sent, List.filter_cons, hsent, if_true, scanLog, List.length_cons, List.map_cons,
            List.append_assoc, List.singleton_append, true_and] at hfailed ⊢
          omega
      | false =>
          simp only [sent, List.filter_cons, hsent, Bool.false_eq_true, if_false, scanLog, List.length_cons,
            true_and] at hfailed ⊢
          omega

theorem calDurations_scan (numLogs : Value) (data : List Log) :
    (scan numLogs data).calDurations = (sent data).map fun log => calToMS log.cal_duration :=
  (foldl_scanLog numLogs data _).1

/-- The quotient shown is that of the answered logs. -/
theorem succeeded_respond (numLogs : Value) (data : List Log) (s : Home) :
    (s.respond numLogs data).succeeded = ((sent data).length, data.length) := by
  have h : (scan numLogs data).failedNum + (sent data).length = 0 + data.length :=
    (foldl_scanLog numLogs data _).2
  show (data.length - (scan numLogs data).failedNum, data.length) = _
  rw [Prod.mk.injEq]
  exact ⟨by omega, rfl⟩

theorem pc_respond (numLogs : Value) (data : List Log) (s : Home) :
    (s.respond numLogs data).pc =
      if sent data = [] then s.pc else percentiles ((sent data).map fun log => calToMS log.cal_duration) := by
  show (if 0 < (scan numLogs data).calDurations.length then _ else _) = _
  rw [calDurations_scan]
  by_cases hnil : sent data = []
  · simp [hnil]
  · rw [if_pos (by simpa using List.length_pos_of_ne_nil hnil), if_neg hnil]

end NewOrbit.Displayer
