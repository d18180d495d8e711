import NewOrbit.LogServer.Entries

/-!
# `LogServer.Paging` — reading the log page by page

A client that asks for the pages of `k` entries one after the other, until one has fewer, gets every entry of `All`
once and in order: a page is the part of the list of `All` that its bounds say (`page_eq_drop`), although `Page`
counts and decodes anew each time. The bounds are texts in the path, and a text that is no `int` counts as 0. So the
pages are complete exactly as long as the ends of those with entries are integers of 64 bits (`complete_iff`).
-/

namespace NewOrbit.LogServer
open Rabbit (Json)

/-! ## Bounds as texts -/

theorem signedDigits_toDigits (n : ℕ) : signedDigits (Nat.toDigits 10 n) = some (n : ℤ) := by
  have hdigit : ∀ c ∈ Nat.toDigits 10 n, c.isDigit = true :=
    fun c hc => Nat.isDigit_of_mem_toDigits (by decide) (by decide) hc
  have hdigits : digits (Nat.toDigits 10 n) = some (n : ℤ) := by
    rw [digits, if_pos ⟨Nat.toDigits_ne_nil, List.all_eq_true.mpr hdigit⟩, Nat.ofDigitChars_ten_toDigits]
  unfold signedDigits
  split
  · rename_i cs heq
    exact absurd (hdigit '-' (by rw [heq]; exact List.mem_cons_self)) (by decide)
  · rename_i cs heq
    exact absurd (hdigit '+' (by rw [heq]; exact List.mem_cons_self)) (by decide)
  · exact hdigits

/-- A natural number in the path is read back, if it is an `int`. -/
theorem parameter_toString (n : ℕ) : parameter (toString n) = if n < 2 ^ 63 then (n : ℤ) else 0 := by
  have hlist : (toString n).toList = Nat.toDigits 10 n := Nat.toList_repr
  rw [parameter, Atoi, hlist, signedDigits_toDigits, Option.filter_some]
  by_cases hn : n < 2 ^ 63
  · have hint : -2 ^ 63 ≤ (n : ℤ) ∧ (n : ℤ) < 2 ^ 63 := by omega
    rw [if_pos hn, if_pos (decide_eq_true hint), Option.getD_some]
  · have hint : ¬ (-2 ^ 63 ≤ (n : ℤ) ∧ (n : ℤ) < 2 ^ 63) := by omega
    rw [if_neg hn, if_neg (by simpa using hint), Option.getD_none]

/-! ## Pages

The first pages are put together by induction on their number. A page whose end is no `int` has the end 0 and nothing
in it, and where it should have entries the reading ends too early. -/

/-- The entries of the `j`-th page, the first being the 0-th. -/
def page (docs : List Document) (k j : ℕ) : List Json :=
  entries (Page (some docs) (toString (j * k)) (toString ((j + 1) * k)))

/-- The pages up to the first with fewer than `k` entries, one after the other, are the list of `All`. -/
def Complete (docs : List Document) (k : ℕ) : Prop :=
  ∃ m, (∀ j < m, (page docs k j).length = k) ∧ (page docs k m).length < k ∧
    (List.range (m + 1)).flatMap (page docs k) = entries (All (some docs))

section
variable {docs : List Document} {k j : ℕ}

/-- A page whose end is an `int` has the entries between its bounds. -/
theorem page_of_lt (h : (j + 1) * k < 2 ^ 63) :
    page docs k j = ((entries (All (some docs))).take ((j + 1) * k)).drop (j * k) := by
  have hstart : j * k < 2 ^ 63 := by linarith [Nat.mul_le_mul_right k (Nat.le_succ j)]
  have hparam : parameter (toString (j * k)) = ((j * k : ℕ) : ℤ) := by rw [parameter_toString, if_pos hstart]
  rw [page, entries_page (by omega), hparam, collected, parameter_toString, if_pos h, Int.toNat_natCast,
    Int.toNat_natCast, entries_all, List.map_drop, List.map_take]

/-- Any other page is empty: its end counts as 0. -/
theorem page_of_le (h : 2 ^ 63 ≤ (j + 1) * k) : page docs k j = [] := by
  have hend : parameter (toString ((j + 1) * k)) = 0 := by rw [parameter_toString, if_neg (by omega)]
  have hstart : 0 ≤ parameter (toString (j * k)) := by
    rw [parameter_toString]
    split <;> omega
  rw [page, entries_page hstart, collected, hend]
  simp

/-- The end of every page with entries is an `int`. -/
def EndsFit (docs : List Document) (k : ℕ) : Prop :=
  ∀ j, j * k < (decodable docs).length → (j + 1) * k < 2 ^ 63

theorem length_entries_all (docs : List Document) : (entries (All (some docs))).length = (decodable docs).length := by
  rw [entries_all, List.length_map]
  generalize Calculation.zero = calc_
  induction docs generalizing calc_ with
  | nil => rfl
  | cons doc docs ih => cases hf : doc.fails <;> simpa [decoded_cons, decodable, hf] using ih (doc.Decode calc_)

/-- **A page is the part of the list between its bounds.** -/
theorem page_eq_drop (hfit : EndsFit docs k) (j : ℕ) :
    page docs k j = ((entries (All (some docs))).take ((j + 1) * k)).drop (j * k) := by
  by_cases hend : (j + 1) * k < 2 ^ 63
  · exact page_of_lt hend
  · have hlen : (decodable docs).length ≤ j * k := by
      by_contra hlt
      exact hend (hfit j (by omega))
    rw [page_of_le (by omega), List.drop_eq_nil_of_le]
    rw [List.length_take, length_entries_all]
    omega

theorem flatMap_page (hfit : EndsFit docs k) (m : ℕ) :
    (List.range m).flatMap (page docs k) = (entries (All (some docs))).take (m * k) := by
  induction m with
  | zero => simp
  | succ m ih =>
      rw [List.range_succ, List.flatMap_append, List.flatMap_singleton, ih, page_eq_drop hfit]
      generalize entries (All (some docs)) = l
      have hle : m * k ≤ (m + 1) * k := Nat.mul_le_mul_right k (Nat.le_succ m)
      have htake : l.take (m * k) = (l.take ((m + 1) * k)).take (m * k) := by
        rw [List.take_take, Nat.min_eq_left hle]
      rw [htake, List.take_append_drop]

theorem length_flatMap_page {m : ℕ} (h : ∀ j < m, (page docs k j).length = k) :
    ((List.range m).flatMap (page docs k)).length = m * k := by
  induction m with
  | zero => simp
  | succ m ih =>
      rw [List.range_succ, List.flatMap_append, List.flatMap_singleton, List.length_append,
        ih (fun j hj => h j (by omega)), h m (by omega), Nat.succ_mul]

end

/-- A page with entries whose end is no `int` is empty, and the reading stops there. -/
theorem endsFit_of_complete {docs : List Document} {k : ℕ} (hk : 1 ≤ k) (h : Complete docs k) : EndsFit docs k := by
  obtain ⟨m, hfull, hlast, hall⟩ := h
  intro j hj
  by_contra hend
  have hempty : (page docs k j).length = 0 := by rw [page_of_le (by omega), List.length_nil]
  have hmj : m ≤ j := by
    by_contra hlt
    have := hfull j (by omega)
    omega
  have hlen : m * k + (page docs k m).length = (decodable docs).length := by
    rw [← length_entries_all, ← hall, List.range_succ, List.flatMap_append, List.flatMap_singleton,
      List.length_append, length_flatMap_page hfull]
  rcases Nat.eq_or_lt_of_le hmj with rfl | hlt
  · omega
  · have hmul : (m + 1) * k ≤ j * k := Nat.mul_le_mul_right k hlt
    rw [Nat.succ_mul] at hmul
    omega

theorem complete_of_endsFit {docs : List Document} {k : ℕ} (hk : 1 ≤ k) (hfit : EndsFit docs k) :
    Complete docs k := by
  have hdiv := Nat.div_add_mod (decodable docs).length k
  have hmod := Nat.mod_lt (decodable docs).length (show k > 0 by omega)
  have hlength : ∀ j, (page docs k j).length = min ((j + 1) * k) (decodable docs).length - j * k := by
    intro j
    rw [page_eq_drop hfit, List.length_drop, List.length_take, length_entries_all]
  rw [Nat.mul_comm] at hdiv
  refine ⟨(decodable docs).length / k, fun j hj => ?_, ?_, ?_⟩
  · have hmul : (j + 1) * k ≤ (decodable docs).length / k * k := Nat.mul_le_mul_right k hj
    rw [hlength, Nat.min_eq_left (by omega), Nat.succ_mul]
    omega
  · rw [hlength, Nat.succ_mul]
    omega
  · rw [flatMap_page hfit, List.take_of_length_le]
    rw [length_entries_all, Nat.succ_mul]
    omega

/-- **Reading the pages of `k` entries up to the first that is not full gives the list of `All`, exactly as long as
    the ends of the pages with entries are integers of 64 bits.** -/
theorem complete_iff (docs : List Document) {k : ℕ} (hk : 1 ≤ k) : Complete docs k ↔ EndsFit docs k :=
  ⟨endsFit_of_complete hk, complete_of_endsFit hk⟩

/-- A page size that is no `int`. -/
theorem not_always_complete : ¬ ∀ docs k, 1 ≤ k → Complete docs k := by
  intro h
  have hfit := endsFit_of_complete (by decide) (h [unanswered] (2 ^ 63) (by decide)) 0 (by decide)
  exact absurd hfit (by decide)

/-- Two entries, one on each page, and an empty page to end with. -/
theorem complete_iff_ones : Complete [unanswered, answered] 1 := by
  apply (complete_iff [unanswered, answered] (by decide)).mpr
  intro j hj
  have hj : j * 1 < 2 := hj
  omega

end NewOrbit.LogServer
