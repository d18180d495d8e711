import Mathlib.Data.List.Rotate
import NewOrbit.Lib.Wire

/-!
# `Lib.Octets` — words in memory, and key streams

A machine word is a number, and lies in memory as octets in the order of the machine (`store`, `load`). What is done
to words has an effect on their octets: exclusive or goes octet by octet (`store_xor`), and turning a word by whole
octets turns the octets (`store_turn`), for either order. A key stream gives an octet for every position; `mask` adds
it to a text, piece by piece if need be (`mask_append`), and adding it twice changes nothing (`mask_mask`).
-/

namespace Octets
open Framing Wire

/-! ## Big-endian numbers -/

/-- The octets of a number are those of its high part and those of its low part. -/
theorem be_append {m n a b : Nat} (hb : b < 256 ^ n) : be (m + n) (a * 256 ^ n + b) = be m a ++ be n b := by
  induction n generalizing a b with
  | zero =>
      have hb0 : b = 0 := by simpa using hb
      simp [hb0, be]
  | succ n ih =>
      have hdiv : b / 256 < 256 ^ n := Nat.div_lt_of_lt_mul (by rw [Nat.mul_comm, ← Nat.pow_succ]; exact hb)
      have hpow : a * 256 ^ (n + 1) = 256 * (a * 256 ^ n) := by rw [Nat.pow_succ, ← Nat.mul_assoc, Nat.mul_comm]
      have hhigh : (a * 256 ^ (n + 1) + b) / 256 = a * 256 ^ n + b / 256 := by omega
      have hlow : UInt8.ofNat (a * 256 ^ (n + 1) + b) = UInt8.ofNat b := by
        apply UInt8.toNat_inj.mp
        rw [UInt8.toNat_ofNat', UInt8.toNat_ofNat']
        omega
      show be (m + n) ((a * 256 ^ (n + 1) + b) / 256) ++ [UInt8.ofNat (a * 256 ^ (n + 1) + b)] = _
      rw [hhigh, hlow, ih hdiv, be, List.append_assoc]

theorem be_eq_append {m n k : Nat} : be (m + n) k = be m (k / 256 ^ n) ++ be n (k % 256 ^ n) := by
  have hlow : k % 256 ^ n < 256 ^ n := Nat.mod_lt k (Nat.pow_pos (by decide))
  rw [← be_append hlow, Nat.mul_comm, Nat.div_add_mod]

theorem be_xor (w a b : Nat) : be w (a ^^^ b) = List.zipWith (· ^^^ ·) (be w a) (be w b) := by
  induction w generalizing a b with
  | zero => rfl
  | succ w ih =>
      have hhigh : (a ^^^ b) / 256 = a / 256 ^^^ b / 256 := by
        have hshift := Nat.shiftRight_xor_distrib (a := a) (b := b) (i := 8)
        rwa [Nat.shiftRight_eq_div_pow, Nat.shiftRight_eq_div_pow, Nat.shiftRight_eq_div_pow] at hshift
      have hlow : UInt8.ofNat (a ^^^ b) = UInt8.ofNat a ^^^ UInt8.ofNat b := by
        apply UInt8.toNat_inj.mp
        rw [UInt8.toNat_xor, UInt8.toNat_ofNat', UInt8.toNat_ofNat', UInt8.toNat_ofNat', Nat.xor_mod_two_pow]
      rw [be, be, be, hhigh, hlow, ih, List.zipWith_append (by rw [length_be, length_be])]
      rfl

/-! ## Words in memory

What is said of words is said of their big-endian octets first, and then of the same in the other order. -/

/-- The octets of a word of `width` octets, the lowest first on a little-endian machine. -/
def store (little : Bool) (width n : Nat) : List UInt8 :=
  if little then (be width n).reverse else be width n

/-- The word that the octets are. -/
def load (little : Bool) (bs : List UInt8) : Nat := ofBe (if little then bs.reverse else bs)

variable {little : Bool} {width : Nat}

@[simp] theorem length_store (n : Nat) : (store little width n).length = width := by
  cases little <;> simp [store]

theorem store_load (bs : List UInt8) : store little bs.length (load little bs) = bs := by
  cases little with
  | false => exact be_ofBe bs
  | true =>
      have hrev := be_ofBe bs.reverse
      rw [List.length_reverse] at hrev
      show (be bs.length (ofBe bs.reverse)).reverse = bs
      rw [hrev, List.reverse_reverse]

theorem load_store {n : Nat} (h : n < 256 ^ width) : load little (store little width n) = n := by
  cases little with
  | false => exact ofBe_be h
  | true =>
      show ofBe (be width n).reverse.reverse = n
      rw [List.reverse_reverse, ofBe_be h]

theorem load_lt (bs : List UInt8) : load little bs < 256 ^ bs.length := by
  cases little with
  | false => exact ofBe_lt bs
  | true =>
      have hrev := ofBe_lt bs.reverse
      rwa [List.length_reverse] at hrev

theorem store_xor (a b : Nat) :
    store little width (a ^^^ b) = List.zipWith (· ^^^ ·) (store little width a) (store little width b) := by
  cases little with
  | false => exact be_xor width a b
  | true =>
      show (be width (a ^^^ b)).reverse = List.zipWith _ (be width a).reverse (be width b).reverse
      rw [be_xor, List.reverse_zipWith (by rw [length_be, length_be])]

/-- The word turned by `o` octets, towards the front of the memory. -/
def turn (little : Bool) (width o n : Nat) : Nat :=
  if little then n % 256 ^ o * 256 ^ (width - o) + n / 256 ^ o
  else n % 256 ^ (width - o) * 256 ^ o + n / 256 ^ (width - o)

/-- **Turning a word turns its octets.** -/
theorem store_turn {o n : Nat} (ho : o ≤ width) (hn : n < 256 ^ width) :
    store little width (turn little width o n) = (store little width n).rotate o := by
  have hdiv : ∀ k ≤ width, n / 256 ^ k < 256 ^ (width - k) := by
    intro k hk
    apply Nat.div_lt_of_lt_mul
    rwa [← Nat.pow_add, Nat.add_sub_cancel' hk]
  cases little with
  | false =>
      obtain ⟨k, rfl⟩ : ∃ k, width = k + o := ⟨width - o, (Nat.sub_add_cancel ho).symm⟩
      have hhigh : n / 256 ^ k < 256 ^ o := by
        have h := hdiv k (Nat.le_add_right k o)
        rwa [Nat.add_sub_cancel_left] at h
      have hsplit : be (k + o) n = be o (n / 256 ^ k) ++ be k (n % 256 ^ k) := by rw [Nat.add_comm, be_eq_append]
      show be (k + o) (n % 256 ^ (k + o - o) * 256 ^ o + n / 256 ^ (k + o - o)) = (be (k + o) n).rotate o
      rw [Nat.add_sub_cancel, be_append hhigh, hsplit, List.rotate_eq_drop_append_take (by simp),
        List.drop_left' (length_be _ _), List.take_left' (length_be _ _)]
  | true =>
      obtain ⟨k, rfl⟩ : ∃ k, width = o + k := ⟨width - o, (Nat.add_sub_cancel' ho).symm⟩
      have hhigh : n / 256 ^ o < 256 ^ k := by
        have h := hdiv o (Nat.le_add_right o k)
        rwa [Nat.add_sub_cancel_left] at h
      have hsplit : be (o + k) n = be k (n / 256 ^ o) ++ be o (n % 256 ^ o) := by rw [Nat.add_comm, be_eq_append]
      show (be (o + k) (n % 256 ^ o * 256 ^ (o + k - o) + n / 256 ^ o)).reverse = (be (o + k) n).reverse.rotate o
      rw [Nat.add_sub_cancel_left, be_append hhigh, hsplit, List.reverse_append, List.reverse_append,
        List.rotate_eq_drop_append_take (by simp), List.drop_left' (by simp), List.take_left' (by simp)]

/-! ## Key streams -/

/-- The text with a key stream added to it. -/
def mask (ks : Nat → UInt8) (bs : List UInt8) : List UInt8 := bs.mapIdx fun i b => b ^^^ ks i

variable {ks ks' : Nat → UInt8}

@[simp] theorem mask_nil (ks : Nat → UInt8) : mask ks [] = [] := rfl

theorem mask_cons (ks : Nat → UInt8) (b : UInt8) (bs : List UInt8) :
    mask ks (b :: bs) = (b ^^^ ks 0) :: mask (fun i => ks (1 + i)) bs := by
  rw [mask, List.mapIdx_cons]
  simp [mask, Nat.add_comm]

@[simp] theorem length_mask (ks : Nat → UInt8) (bs : List UInt8) : (mask ks bs).length = bs.length := List.length_mapIdx

theorem mask_append (ks : Nat → UInt8) (xs ys : List UInt8) :
    mask ks (xs ++ ys) = mask ks xs ++ mask (fun i => ks (xs.length + i)) ys := by
  rw [mask, List.mapIdx_append]
  simp [mask, Nat.add_comm]

theorem mask_mask (ks : Nat → UInt8) (bs : List UInt8) : mask ks (mask ks bs) = bs := by
  apply List.ext_getElem
  · simp
  · intro i h h'
    have hkey : bs[i] ^^^ ks i ^^^ ks i = bs[i] := by rw [UInt8.xor_assoc, UInt8.xor_self, UInt8.xor_zero]
    simpa only [mask, List.getElem_mapIdx] using hkey

theorem mask_congr {bs : List UInt8} (h : ∀ i < bs.length, ks i = ks' i) : mask ks bs = mask ks' bs := by
  apply List.ext_getElem
  · simp
  · intro i hi hi'
    simp [mask, h i (by simpa using hi)]

/-- Adding the octets of a list, one to one. -/
theorem zipWith_xor {bs key : List UInt8} (hlen : key.length = bs.length) (h : ∀ i < bs.length, key[i]? = some (ks i)) :
    List.zipWith (· ^^^ ·) bs key = mask ks bs := by
  apply List.ext_getElem
  · simp [hlen]
  · intro i hi hi'
    have hbs : i < bs.length := by simpa [hlen] using hi
    have hkey := h i hbs
    rw [List.getElem?_eq_getElem (by omega)] at hkey
    simp [mask, Option.some.inj hkey]

/-- A key stream that repeats itself. -/
def Periodic (p : Nat) (ks : Nat → UInt8) : Prop := ∀ i, ks (i + p) = ks i

theorem Periodic.shift {p : Nat} (h : Periodic p ks) (n : Nat) : Periodic p fun i => ks (n + i) := by
  intro i
  show ks (n + (i + p)) = ks (n + i)
  rw [← Nat.add_assoc, h]

theorem Periodic.mod {p : Nat} (h : Periodic p ks) (i : Nat) : ks (i % p) = ks i := by
  conv_rhs => rw [← Nat.mod_add_div i p]
  generalize i / p = k
  induction k with
  | zero => rw [Nat.mul_zero, Nat.add_zero]
  | succ k ih => rw [Nat.mul_succ, ← Nat.add_assoc, h, ← ih]

end Octets
