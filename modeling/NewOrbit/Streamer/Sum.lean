import NewOrbit.Lib.Stoi

/-!
# `Streamer.Sum` — what the WebSocket server answers

`onMessage` cuts the payload at its first `+`, reads a number on either side and answers with the sum, or with a
complaint about the first side that is no number. It catches one of the two exceptions of `stoi`: a number that is
no `int` ends the server's event loop (`answered_iff`). Where there is no `+`, `find` returns `npos`, the second
number is looked for from `npos + 1` on, which is 0, and so the first one is added to itself (`sums_iff`).
-/

namespace NewOrbit.Streamer
open CString

/-- How a handler ends. After an operation that C++ leaves undefined anything may follow. -/
inductive Ending where
  | returned
  | thrown (e : Exception)
  | undefined
  deriving DecidableEq, Repr

/-- What `onMessage` does: the replies it sends, and how it ends. -/
structure Reaction where
  sent : List Bytes
  ending : Ending
  deriving DecidableEq, Repr

/-- `message.find("+")`; `none` stands for `npos`. -/
def find (message : Bytes) : Option Nat := message.idxOf? 43

/-- `message.substr(0, message.find("+"))` -/
def firstText (message : Bytes) : Bytes :=
  match find message with
  | some i => message.take i
  | none   => message

/-- `message.substr(message.find("+") + 1, npos)`, where `npos + 1` is 0. -/
def secondText (message : Bytes) : Bytes :=
  match find message with
  | some i => message.drop (i + 1)
  | none   => message.drop 0

def sumReply (sum : Int) : Bytes := bytes "The sum is " ++ to_string sum

/-- `WebsocketServer::onMessage`. The connection is open while its message is handled, so `sendMessage` sends. -/
def onMessage (message : Bytes) : Reaction :=
  match stoi (firstText message) with
  | .error .invalid_argument => ⟨[bytes "Input for number 1 is invalid"], .returned⟩
  | .error .out_of_range     => ⟨[], .thrown .out_of_range⟩
  | .ok firstNum =>
    match stoi (secondText message) with
    | .error .invalid_argument => ⟨[bytes "Input for number 2 is invalid"], .returned⟩
    | .error .out_of_range     => ⟨[], .thrown .out_of_range⟩
    | .ok secondNum =>
      match int (firstNum + secondNum) with
      | some sum => ⟨[sumReply sum], .returned⟩
      | none     => ⟨[], .undefined⟩

/-! ## One reply, and no exception

Each side that is read has three outcomes, and the sum may leave `int`. One reply and no exception is what is left
where none of the numbers is out of range. -/

/-- `onMessage` sends one reply and returns. -/
def Answered (message : Bytes) : Prop := ∃ reply, onMessage message = ⟨[reply], .returned⟩

/-- A number at the start of the first text is an `int`, and if there is one, so is a number at the start of the
    second text and the sum of the two. -/
def InRange (message : Bytes) : Prop :=
  ∀ a, strtol (firstText message) = some a → InInt a ∧
    ∀ b, strtol (secondText message) = some b → InInt b ∧ InInt (a + b)

/-- **A message is answered exactly when every number that is read is an `int`, and the sum is.** -/
theorem answered_iff (message : Bytes) : Answered message ↔ InRange message := by
  unfold Answered InRange onMessage stoi
  cases strtol (firstText message) with
  | none => simp
  | some a =>
      by_cases ha : InInt a
      · cases strtol (secondText message) with
        | none => simp [ha]
        | some b =>
            by_cases hb : InInt b
            · by_cases hsum : InInt (a + b)
              · simp [ha, hb, hsum, int]
              · simp [ha, hb, hsum, int]
            · simp [ha, hb]
      · simp [ha]

/-- A number that is no `int`. -/
theorem not_always_answered : ¬ ∀ message, Answered message := by
  intro h
  obtain ⟨reply, hreply⟩ := h (bytes "99999999999+1")
  have hthrown : onMessage (bytes "99999999999+1") = ⟨[], .thrown .out_of_range⟩ := by decide +kernel
  rw [hthrown] at hreply
  cases hreply

/-! ## The sum

Decimal texts have no plus sign, so the payload is cut between them. Without a plus sign both numbers are read from
the whole message. -/

/-- What the test page sends for the decimal texts of two integers. -/
def payload (a b : Int) : Bytes := to_string a ++ 43 :: to_string b

/-- The message is not answered with a sum. -/
def NoSum (message : Bytes) : Prop :=
  (onMessage message).ending ≠ .undefined ∧ ∀ sum, sumReply sum ∉ (onMessage message).sent

theorem find_payload (a b : Int) : find (payload a b) = some (to_string a).length := by
  have hplus : (43 : UInt8) ∉ to_string a := by
    intro hmem
    rcases mem_to_string hmem with h | h
    · exact absurd h (by decide)
    · exact absurd h (by decide)
  rw [find, payload, List.idxOf?_eq_some_iff]
  refine ⟨by simp, by simp, fun j hj heq => hplus ?_⟩
  rw [List.getElem_append_left hj] at heq
  exact heq ▸ List.getElem_mem hj

theorem firstText_payload (a b : Int) : firstText (payload a b) = to_string a := by
  rw [firstText, find_payload]
  simp [payload]

theorem secondText_payload (a b : Int) : secondText (payload a b) = to_string b := by
  rw [secondText, find_payload]
  simp [payload]

theorem onMessage_payload {a b : Int} (ha : InInt a) (hb : InInt b) :
    onMessage (payload a b) =
      if InInt (a + b) then ⟨[sumReply (a + b)], .returned⟩ else ⟨[], .undefined⟩ := by
  rw [onMessage, firstText_payload, secondText_payload, stoi_to_string ha, stoi_to_string hb]
  by_cases hsum : InInt (a + b)
  · simp [int, hsum]
  · simp [int, hsum]

/-- Without a `+` both numbers are read from the whole message. -/
theorem texts_of_notMem {message : Bytes} (h : 43 ∉ message) :
    firstText message = message ∧ secondText message = message := by
  have hfind : find message = none := List.idxOf?_eq_none_iff.mpr h
  simp [firstText, secondText, hfind]

theorem sumReply_ne (sum : Int) :
    bytes "Input for number 1 is invalid" ≠ sumReply sum ∧ bytes "Input for number 2 is invalid" ≠ sumReply sum := by
  have hsum : (sumReply sum).head? = some 84 := by
    have htext : bytes "The sum is " = 84 :: (bytes "The sum is ").tail := by decide +kernel
    rw [sumReply, htext]
    rfl
  refine ⟨fun h => ?_, fun h => ?_⟩ <;> rw [← h] at hsum <;> exact absurd hsum (by decide +kernel)

theorem noSum_iff (message : Bytes) (h : 43 ∉ message) :
    NoSum message ↔ ∀ n, strtol message = some n → ¬ InInt n := by
  obtain ⟨hfirst, hsecond⟩ := texts_of_notMem h
  rw [NoSum, onMessage, hfirst, hsecond, stoi]
  cases strtol message with
  | none => simpa using fun sum => (sumReply_ne sum).1.symm
  | some n =>
      by_cases hn : InInt n
      · by_cases hsum : InInt (n + n)
        · simp [hn, hsum, int]
        · simp [hn, hsum, int]
      · simp [hn]

/-- **Two integers are answered with their sum exactly when it is an `int`, and a message without a `+` is answered
    with no sum exactly when it does not start with an `int`.** -/
theorem sums_iff (a b : Int) (message : Bytes) :
    (InInt a → InInt b →
      (onMessage (payload a b) = ⟨[sumReply (a + b)], .returned⟩ ↔ InInt (a + b))) ∧
    (43 ∉ message → (NoSum message ↔ ∀ n, strtol message = some n → ¬ InInt n)) := by
  refine ⟨fun ha hb => ?_, noSum_iff message⟩
  rw [onMessage_payload ha hb]
  by_cases hsum : InInt (a + b)
  · simp [hsum]
  · simp [hsum]

/-- A negative number and one more, and a message that is no number. -/
theorem sums_iff_small : onMessage (payload (-3) 5) = ⟨[sumReply 2], .returned⟩ ∧ NoSum (bytes "five") := by
  obtain ⟨hsum, hnoSum⟩ := sums_iff (-3) 5 (bytes "five")
  refine ⟨(hsum (by decide) (by decide)).mpr (by decide), (hnoSum (by decide +kernel)).mpr ?_⟩
  have hnone : strtol (bytes "five") = none := by decide +kernel
  simp [hnone]

/-- A number alone is added to itself. -/
theorem not_always_sums :
    ¬ ((∀ a b, InInt a → InInt b → onMessage (payload a b) = ⟨[sumReply (a + b)], .returned⟩) ∧
      ∀ message, 43 ∉ message → NoSum message) := by
  rintro ⟨-, hnone⟩
  have hnum := (noSum_iff (bytes "5") (by decide +kernel)).mp (hnone _ (by decide +kernel)) 5
    (by decide +kernel)
  exact hnum (by decide)

end NewOrbit.Streamer
