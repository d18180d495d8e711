import Mathlib.Data.Rat.Floor
import NewOrbit.Lib.CString

/-!
# `Rabbit.Json` — JSON values as `json.hpp` stores and converts them

`nlohmann::json` (3.9.1, vendored) as far as the worker and the client use it: the value types, `operator[]`
with a string key, and the implicit conversions to `std::string` and `int`, each with the exception it throws.
Reading and printing JSON text are parameters of the programs (`Receive.Host`).
-/

namespace NewOrbit.Rabbit
open CString

/-- How an operation of the programs can end other than with a result. `undefined` stands for the operations
    C++ gives no meaning to: signed overflow, `atoi(NULL)`. -/
inductive Fault where
  | parse_error (id : Nat) (what : String)
  | type_error (id : Nat) (what : String)
  | out_of_range (what : String)
  | bson_exception (what : String)
  | mongo_exception (what : String)
  | undefined
  deriving DecidableEq, Repr

/-- A result, or the fault that stands for its absence. -/
def orFault {α : Type} (e : Fault) : Option α → Except Fault α
  | some a => .ok a
  | none   => .error e

@[simp] theorem orFault_eq_ok {α : Type} {e : Fault} {o : Option α} {a : α} :
    orFault e o = .ok a ↔ o = some a := by
  cases o <;> simp [orFault]

/-- The faults of a sequence are those of its first part, then those of its second. -/
@[simp] theorem bind_eq_ok {α β : Type} {x : Except Fault α} {f : α → Except Fault β} {b : β} :
    (x >>= f) = .ok b ↔ ∃ a, x = .ok a ∧ f a = .ok b := by
  cases x <;> simp [Bind.bind, Except.bind]

/-! ## Objects -/

namespace Fields
variable {α : Type}

def get (key : String) : List (String × α) → Option α
  | []           => none
  | (k, v) :: fs => if key = k then some v else get key fs

/-- Assignment in a `std::map`: the entry of the key is replaced, or inserted at its place in the order. -/
def set (key : String) (val : α) : List (String × α) → List (String × α)
  | []           => [(key, val)]
  | (k, v) :: fs =>
      if key = k then (key, val) :: fs
      else if key < k then (key, val) :: (k, v) :: fs
      else (k, v) :: set key val fs

@[simp] theorem get_set_self (key : String) (val : α) (fs : List (String × α)) :
    get key (set key val fs) = some val := by
  induction fs with
  | nil => simp [set, get]
  | cons kv fs ih =>
      by_cases hk : key = kv.1
      · simp [set, get, hk]
      · by_cases hlt : key < kv.1
        · simp [set, get, hk, hlt]
        · simp [set, get, hk, hlt, ih]

theorem get_set_of_ne {key key' : String} (h : key' ≠ key) (val : α) (fs : List (String × α)) :
    get key' (set key val fs) = get key' fs := by
  induction fs with
  | nil => simp [set, get, h]
  | cons kv fs ih =>
      by_cases hk : key = kv.1
      · simp [set, get, ← hk, h]
      · by_cases hlt : key < kv.1
        · simp [set, get, hk, hlt, h]
        · simp [set, get, hk, hlt, ih]

end Fields

/-! ## Values -/

/-- A JSON value. `number_integer` stands for `number_integer_t` and `number_unsigned_t`, which print, convert
    and are named alike; a finite `double` is the rational it denotes. -/
inductive Json where
  | null
  | boolean (b : Bool)
  | number_integer (n : Int)
  | number_float (q : Rat)
  | string (s : String)
  | array (xs : List Json)
  | object (fs : List (String × Json))

namespace Json

/-! ### Equality of values is decidable -/

mutual

def beq : Json → Json → Bool
  | null,             null             => true
  | boolean b,        boolean c        => b == c
  | number_integer m, number_integer n => m == n
  | number_float q,   number_float r   => q == r
  | string s,         string t         => s == t
  | array xs,         array ys         => beqList xs ys
  | object fs,        object gs        => beqFields fs gs
  | _,                _                => false

def beqList : List Json → List Json → Bool
  | [],      []      => true
  | x :: xs, y :: ys => beq x y && beqList xs ys
  | _,       _       => false

def beqFields : List (String × Json) → List (String × Json) → Bool
  | [],           []           => true
  | (k, x) :: fs, (l, y) :: gs => k == l && beq x y && beqFields fs gs
  | _,            _            => false

end

mutual

theorem eq_of_beq : ∀ x y : Json, beq x y = true → x = y
  | null,             y, h => by cases y <;> simp_all [beq]
  | boolean _,        y, h => by cases y <;> simp_all [beq]
  | number_integer _, y, h => by cases y <;> simp_all [beq]
  | number_float _,   y, h => by cases y <;> simp_all [beq]
  | string _,         y, h => by cases y <;> simp_all [beq]
  | array xs,         y, h => by
      cases y with
      | array ys => rw [eq_of_beqList xs ys h]
      | _ => cases h
  | object fs,        y, h => by
      cases y with
      | object gs => rw [eq_of_beqFields fs gs h]
      | _ => cases h

theorem eq_of_beqList : ∀ xs ys : List Json, beqList xs ys = true → xs = ys
  | [],      ys, h => by cases ys with
      | nil => rfl
      | cons => cases h
  | x :: xs, ys, h => by
      cases ys with
      | nil => cases h
      | cons y ys =>
          rw [beqList, Bool.and_eq_true] at h
          rw [eq_of_beq x y h.1, eq_of_beqList xs ys h.2]

theorem eq_of_beqFields : ∀ fs gs : List (String × Json), beqFields fs gs = true → fs = gs
  | [],           gs, h => by cases gs with
      | nil => rfl
      | cons => cases h
  | (k, x) :: fs, gs, h => by
      cases gs with
      | nil => cases h
      | cons g gs =>
          obtain ⟨l, y⟩ := g
          rw [beqFields, Bool.and_eq_true, Bool.and_eq_true, beq_iff_eq] at h
          rw [h.1.1, eq_of_beq x y h.1.2, eq_of_beqFields fs gs h.2]

end

mutual

theorem beq_self : ∀ x : Json, beq x x = true
  | null             => rfl
  | boolean b        => by simp [beq]
  | number_integer n => by simp [beq]
  | number_float q   => by simp [beq]
  | string s         => by simp [beq]
  | array xs         => beqList_self xs
  | object fs        => beqFields_self fs

theorem beqList_self : ∀ xs : List Json, beqList xs xs = true
  | []      => rfl
  | x :: xs => by rw [beqList, beq_self x, beqList_self xs]; rfl

theorem beqFields_self : ∀ fs : List (String × Json), beqFields fs fs = true
  | []           => rfl
  | (k, x) :: fs => by rw [beqFields, beq_self x, beqFields_self fs, beq_self_eq_true]; rfl

end

instance : DecidableEq Json := fun x y =>
  decidable_of_iff (beq x y = true) ⟨eq_of_beq x y, fun h => h ▸ beq_self x⟩

def type_name : Json → String
  | null             => "null"
  | boolean _        => "boolean"
  | number_integer _ => "number"
  | number_float _   => "number"
  | string _         => "string"
  | array _          => "array"
  | object _         => "object"

/-- `j[key] = val`: a null value becomes an object first. -/
def put (j : Json) (key : String) (val : Json) : Except Fault Json :=
  match j with
  | null      => .ok (object [(key, val)])
  | object fs => .ok (object (Fields.set key val fs))
  | j         => .error (.type_error 305 ("cannot use operator[] with a string argument with " ++ j.type_name))

@[simp] theorem put_object (fs : List (String × Json)) (key : String) (val : Json) :
    (object fs).put key val = .ok (object (Fields.set key val fs)) := rfl

/-- The value read by `j[key]`; a missing key reads as null (`operator[]` inserts it). -/
def index (key : String) : Json → Except Fault Json
  | null      => .ok null
  | object fs => .ok ((Fields.get key fs).getD null)
  | j         => .error (.type_error 305 ("cannot use operator[] with a string argument with " ++ j.type_name))

/-- Conversion to `std::string`. -/
def toStr : Json → Except Fault String
  | string s => .ok s
  | j        => .error (.type_error 302 ("type must be string, but is " ++ j.type_name))

/-- Conversion to `int`: integers are cut to 32 bits, a `double` loses its fraction and must fit. -/
def toInt : Json → Except Fault Int
  | number_integer n => .ok (CString.toInt n)
  | number_float q   => orFault .undefined (CString.int (Int.tdiv q.num q.den))
  | boolean b        => .ok b.toInt
  | j                => .error (.type_error 302 ("type must be number, but is " ++ j.type_name))

/-- `string s = j[key]`. The null that `operator[]` inserts for a missing key does not outlive the call: its
    conversion throws. -/
def strAt (key : String) (j : Json) : Except Fault String := j.index key >>= toStr

/-- `int n = j[key]`. -/
def intAt (key : String) (j : Json) : Except Fault Int := j.index key >>= toInt

theorem toStr_eq_ok {j : Json} {s : String} : j.toStr = .ok s ↔ j = string s := by
  cases j <;> simp [toStr]

theorem index_eq_ok {key : String} {j v : Json} (hv : v ≠ null) :
    j.index key = .ok v ↔ ∃ fs, j = object fs ∧ Fields.get key fs = some v := by
  cases j with
  | object fs => cases hget : Fields.get key fs <;> simp [index, hget, Ne.symm hv]
  | _ => simp [index, Ne.symm hv]

theorem strAt_eq_ok {key : String} {j : Json} {s : String} :
    strAt key j = .ok s ↔ ∃ fs, j = object fs ∧ Fields.get key fs = some (string s) := by
  rw [← index_eq_ok (by simp)]
  constructor
  · intro h
    obtain ⟨v, hv, hs⟩ := bind_eq_ok.mp h
    rw [← toStr_eq_ok.mp hs]
    exact hv
  · intro h
    exact bind_eq_ok.mpr ⟨_, h, rfl⟩

theorem intAt_eq_ok {key : String} {j : Json} {n : Int} :
    intAt key j = .ok n ↔ ∃ fs v, j = object fs ∧ Fields.get key fs = some v ∧ v.toInt = .ok n := by
  constructor
  · intro h
    obtain ⟨v, hv, hn⟩ := bind_eq_ok.mp h
    have hnull : v ≠ null := by rintro rfl; simp [toInt] at hn
    obtain ⟨fs, hj, hget⟩ := (index_eq_ok hnull).mp hv
    exact ⟨fs, v, hj, hget, hn⟩
  · rintro ⟨fs, v, hj, hget, hn⟩
    have hnull : v ≠ null := by rintro rfl; simp [toInt] at hn
    exact bind_eq_ok.mpr ⟨v, (index_eq_ok hnull).mpr ⟨fs, hj, hget⟩, hn⟩

end Json

end NewOrbit.Rabbit
