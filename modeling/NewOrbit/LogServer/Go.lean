import Mathlib.Data.Nat.Digits.Defs
import NewOrbit.Rabbit.Json

/-!
# `LogServer.Go` — integers and slices as the Go library has them

`log-server` reads two integers with `strconv.Atoi`, collects its results in a slice that starts as the nil slice,
and writes a part of that slice as JSON. A slice that nothing was appended to is nil, and nil it stays when it is
sliced: `encoding/json` writes `null` for it, and not the empty array.
-/

namespace NewOrbit.LogServer
open Rabbit (Json)

/-- The run-time panics of a handler. -/
inductive Panic where
  | nilPointer
  | sliceBounds
  deriving DecidableEq, Repr

/-! ## `strconv.Atoi` -/

/-- The value of a text of at least one ASCII digit. -/
def digits (cs : List Char) : Option Int :=
  if cs ≠ [] ∧ cs.all Char.isDigit then some (Nat.ofDigitChars 10 cs 0 : Int) else none

/-- An optional sign, then digits. -/
def signedDigits : List Char → Option Int
  | '-' :: cs => (digits cs).map (- ·)
  | '+' :: cs => digits cs
  | cs        => digits cs

/-- `strconv.Atoi(s)`, where `int` has 64 bits; `none` stands for the error. -/
def Atoi (s : String) : Option Int :=
  (signedDigits s.toList).filter fun n => -2 ^ 63 ≤ n ∧ n < 2 ^ 63

/-! ## Slices -/

/-- A slice: the nil slice, or one with an array behind it. -/
inductive Slice (α : Type) where
  | nil
  | of (elements : List α)
  deriving DecidableEq, Repr

namespace Slice

variable {α : Type}

def elements : Slice α → List α
  | nil   => []
  | of xs => xs

/-- `append(s, x)`. -/
def append (s : Slice α) (x : α) : Slice α := of (s.elements ++ [x])

/-- `s[low:high]`. The array may reach beyond the length of the slice; no slice is cut there here. -/
def slice (low high : Int) (s : Slice α) : Except Panic (Slice α) :=
  if 0 ≤ low ∧ low ≤ high ∧ high ≤ s.elements.length then
    .ok (match s with
      | nil   => nil
      | of xs => of ((xs.take high.toNat).drop low.toNat))
  else .error .sliceBounds

/-- What `json.NewEncoder` writes for a slice. -/
def encode (f : α → Json) : Slice α → Json
  | nil   => .null
  | of xs => .array (xs.map f)

variable {s : Slice α} {xs : List α} {low high : Int}

/-- Appending one element after the other; no element leaves a nil slice nil. -/
theorem foldl_append (xs : List α) (s : Slice α) :
    xs.foldl append s = if xs = [] then s else of (s.elements ++ xs) := by
  induction xs generalizing s with
  | nil => rfl
  | cons x xs ih =>
      rw [List.foldl_cons, ih, if_neg (List.cons_ne_nil x xs)]
      by_cases hxs : xs = []
      · rw [if_pos hxs, hxs]
        rfl
      · rw [if_neg hxs]
        simp only [append, elements, List.append_assoc, List.singleton_append]

@[simp] theorem elements_foldl_append (xs : List α) (s : Slice α) :
    (xs.foldl append s).elements = s.elements ++ xs := by
  rw [foldl_append]
  split
  · rename_i h
    rw [h, List.append_nil]
  · rfl

theorem slice_of_neg (h : low < 0) : s.slice low high = .error .sliceBounds :=
  if_neg fun hb => absurd hb.1 (Int.not_le.mpr h)

theorem slice_of (h0 : 0 ≤ low) (hle : low ≤ high) (hlen : high ≤ xs.length) :
    (of xs).slice low high = .ok (of ((xs.take high.toNat).drop low.toNat)) := if_pos ⟨h0, hle, hlen⟩

theorem slice_nil_zero : (nil : Slice α).slice 0 0 = .ok nil := rfl

end Slice

end NewOrbit.LogServer
