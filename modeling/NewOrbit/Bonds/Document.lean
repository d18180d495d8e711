import Mathlib.Data.List.FinRange
import Mathlib.Data.List.OfFn
import NewOrbit.Lib.LinkedMap

/-!
# `Bonds.Document` — BSON documents in Java, and what they say

`Value` is what `org.bson.Document` can hold, a nested document included; a `LinkedHashMap` is a `LinkedMap`.
`Value.equals` is the `equals` method of each class. `Value.meaning` is what a value says: a document says which
name has which value, in no order, and a `java.util.Date` says the same as a `java.sql.Timestamp` of its instant.
Equal values have one meaning (`Value.meaning_eq_of_equals`).
-/

namespace NewOrbit.Bonds

/-- `org.bson.types.Decimal128`: the two halves of its 128 bits. -/
structure Decimal128 where
  high : BitVec 64
  low  : BitVec 64
  deriving DecidableEq, Repr

/-- A value in a document, by its Java class. `other` is a class the two programs never make (`Double`,
    `Binary`, ...), equal to itself with the same content. -/
inductive Value where
  | null
  | bool (b : Bool)
  | int (n : Int)
  | long (n : Int)
  | decimal128 (d : Decimal128)
  | string (s : String)
  | date (ms : Int)
  | timestamp (ms : Int)
  | objectId (id : BitVec 96)
  | other (className : String) (content : List (BitVec 8))
  | array (length : Nat) (item : Fin length → Value)
  | document (d : LinkedMap String Value)

/-- `org.bson.Document`. -/
abbrev Document := LinkedMap String Value

namespace Value

/-- Induction over values: a nested document by the value at each of its keys. -/
theorem induct {P : Value → Prop} (null : P null) (bool : ∀ b, P (bool b)) (int : ∀ n, P (int n))
    (long : ∀ n, P (long n)) (decimal128 : ∀ d, P (decimal128 d)) (string : ∀ s, P (string s))
    (date : ∀ ms, P (date ms)) (timestamp : ∀ ms, P (timestamp ms)) (objectId : ∀ id, P (objectId id))
    (other : ∀ c bs, P (other c bs)) (array : ∀ n f, (∀ i, P (f i)) → P (array n f))
    (document : ∀ d : Document, (∀ k h, P (d.value k h)) → P (document d)) (v : Value) : P v :=
  Value.rec (motive_1 := P) (motive_2 := fun d => ∀ k h, P (d.value k h)) null bool int long decimal128 string
    date timestamp objectId other array document (fun _ _ _ ih => ih) v

/-! ## `equals` -/

/-- `v.equals(w)`. A `Date` equals every `Date` of its instant, a `Timestamp` being one; a `Timestamp` equals
    a `Timestamp` only. -/
def equals : Value → Value → Bool
  | null,              null           => true
  | bool b,            bool c         => b == c
  | int m,             int n          => m == n
  | long m,            long n         => m == n
  | decimal128 d,      decimal128 e   => d == e
  | string s,          string t       => s == t
  | date a,            date b         => a == b
  | date a,            timestamp b    => a == b
  | timestamp a,       timestamp b    => a == b
  | objectId a,        objectId b     => a == b
  | other c bs,        other c' bs'   => c == c' && bs == bs'
  | array m f,         array n g      =>
      if h : m = n then (List.finRange m).all fun i => equals (f i) (g (i.cast h)) else false
  | document ⟨ks, _, f⟩, document e   =>
      ks.length == e.size && ks.attach.all fun k => (e.get k.1).any fun w => equals (f k.1 k.2) w
  | _,                 _              => false

/-! ## Meaning -/

/-- What a value says. -/
inductive Meaning where
  | null
  | bool (b : Bool)
  | int (n : Int)
  | long (n : Int)
  | decimal128 (d : Decimal128)
  | string (s : String)
  | instant (ms : Int)
  | objectId (id : BitVec 96)
  | other (className : String) (content : List (BitVec 8))
  | array (items : List Meaning)
  | document (entry : String → Option Meaning)

def meaning : Value → Meaning
  | null                 => .null
  | bool b               => .bool b
  | int n                => .int n
  | long n               => .long n
  | decimal128 d         => .decimal128 d
  | string s             => .string s
  | date ms              => .instant ms
  | timestamp ms         => .instant ms
  | objectId id          => .objectId id
  | other c bs           => .other c bs
  | array _ f            => .array (List.ofFn fun i => meaning (f i))
  | document ⟨ks, _, f⟩  => .document fun k => if h : k ∈ ks then some (meaning (f k h)) else none

end Value

/-- A document as a map from names to meanings. -/
def Document.meaning (d : Document) (k : String) : Option Value.Meaning := (d.get k).map Value.meaning

namespace Value

@[simp] theorem meaning_document (d : Document) : meaning (document d) = .document d.meaning := by
  rw [meaning]
  congr 1
  funext k
  by_cases h : k ∈ d.keys
  · rw [dif_pos h, Document.meaning, LinkedMap.get_of_mem h, Option.map_some]
  · rw [dif_neg h, Document.meaning, LinkedMap.get_of_notMem h, Option.map_none]

end Value

/-- A walk over the keys of one document, with a bound on the size of the other, compares all they say. -/
theorem Document.meaning_eq_of_walk {d e : Document} (hsize : e.size ≤ d.size)
    (hwalk : ∀ k (h : k ∈ d.keys), ∃ w, e.get k = some w ∧ (d.value k h).meaning = w.meaning) :
    d.meaning = e.meaning := by
  have hget : ∀ k, (e.map Value.meaning).get k = (d.map Value.meaning).get k := by
    apply LinkedMap.get_eq_of_size_le (by simpa using hsize)
    intro k h
    obtain ⟨w, hw, hvw⟩ := hwalk k h
    have hv : d.get k = some (d.value k h) := LinkedMap.get_of_mem (m := d) h
    rw [LinkedMap.get_map, LinkedMap.get_map, hw, hv, Option.map_some, Option.map_some, hvw]
  funext k
  have hk := hget k
  rw [LinkedMap.get_map, LinkedMap.get_map] at hk
  exact hk.symm

namespace Value

/-- **`equals` is sound**: values it holds equal have one meaning. -/
theorem meaning_eq_of_equals (v : Value) : ∀ w, equals v w = true → meaning v = meaning w := by
  induction v using Value.induct with
  | array m f ih =>
      intro w h
      cases w with
      | array n g =>
          rw [equals] at h
          split at h
          · next hmn =>
              subst hmn
              rw [meaning, meaning]
              congr 2
              funext i
              exact ih i (g i) (List.all_eq_true.mp h i (List.mem_finRange i))
          · cases h
      | _ => cases h
  | document d ih =>
      intro w h
      cases w with
      | document e =>
          rw [equals, Bool.and_eq_true, beq_iff_eq, List.all_eq_true] at h
          rw [meaning_document, meaning_document]
          congr 1
          apply Document.meaning_eq_of_walk (Nat.le_of_eq h.1.symm)
          intro k hk
          obtain ⟨w, hw, heq⟩ := (Option.any_eq_true _ _).mp (h.2 ⟨k, hk⟩ (List.mem_attach _ _))
          exact ⟨w, hw, ih k hk w heq⟩
      | _ => cases h
  | _ => intro w h; cases w <;> simp_all [equals, meaning]

/-! ## What Mongo gives back -/

/-- A value as it is read after it was stored: a `Timestamp` comes back as a `Date` of the same instant, every
    other value as it was. -/
def stored : Value → Value
  | timestamp ms        => date ms
  | array n f           => array n fun i => stored (f i)
  | document ⟨ks, h, f⟩ => document ⟨ks, h, fun k hk => stored (f k hk)⟩
  | v                   => v

@[simp] theorem stored_document (d : Document) : stored (document d) = document (d.map stored) := rfl

end Value

end NewOrbit.Bonds
