import Mathlib.Data.List.GetD
import NewOrbit.Displayer.Home
import NewOrbit.Lib.Ranked

/-!
# `Displayer.Percentiles` — the percentiles shown, against the durations measured

The view sorts what `calToMS` makes of the durations as texts. These texts have two digits before the point, so
their order is the order of the values they denote (`Lib.JsOrder`), and the four elements are the right ones of
the values. The values are what is wrong: from a minute on they are what the duration leaves behind its last full
minute, and less than a millisecond (`seconds_lt_iff`). A percentile is right exactly when the element at its
index is the same whether or not the full minutes are left out of all the durations (`percentiles_iff`).
-/

namespace NewOrbit.Displayer
open CString Js
open Rabbit (calToMS convertMilliToTime behindPoint)

/-- The text `calToMS` makes of a duration of `d` milliseconds. -/
def shown (d : ℕ) : List Char :=
  ld 2 (d % 60000 / 1000 : ℕ) ++ '.' :: behindPoint (d / 3600000) (d % 3600000 / 60000) (d % 1000)

/-- The number it denotes. -/
def seconds (d : ℕ) : ℚ :=
  (d % 60000 / 1000 : ℕ) + fraction (behindPoint (d / 3600000) (d % 3600000 / 60000) (d % 1000))

theorem calToMS_duration {d : ℕ} (hd : d < 2 ^ 63) :
    calToMS (convertMilliToTime d) = some (.string (shown d)) := by
  rw [Rabbit.convertMilliToTime_natCast]
  exact Rabbit.calToMS_hhmmss (by omega) (by omega) _ _

theorem toNumber_shown (d : ℕ) : toNumber (.string (shown d)) = .finite (seconds d) :=
  Rabbit.toNumber_behindPoint _ _ _ _

/-! ## The value of a text

What is shown lies less than a millisecond above the duration without its full minutes (`seconds_bounds`), and so it
compares with whole milliseconds as that does. -/

/-- Digits behind the milliseconds add less than one of them. -/
theorem fraction_append (xs : List Char) {ys : List Char} (hys : ∀ c ∈ ys, c.isDigit = true) :
    digits xs / 10 ^ xs.length ≤ fraction (xs ++ ys) ∧
      fraction (xs ++ ys) < (digits xs + 1 : ℚ) / 10 ^ xs.length := by
  have hpos : (0 : ℚ) < 10 ^ xs.length := by positivity
  have h := digits_add_fraction xs ys
  have h0 := fraction_nonneg ys
  have h1 := fraction_lt_one hys
  rw [div_le_iff₀ hpos, lt_div_iff₀ hpos]
  constructor
  · linarith
  · linarith

/-- **What is shown is the duration without its full minutes, to the millisecond.** -/
theorem seconds_bounds (d : ℕ) :
    ((d % 60000 : ℕ) : ℚ) / 1000 ≤ seconds d ∧ seconds d < ((d % 60000 : ℕ) + 1 : ℚ) / 1000 := by
  have hlen : (ld 3 ((d % 1000 : ℕ) : ℤ)).length = 3 := Rabbit.length_ld 3 _ (by decide) (by omega)
  have hdigits : ∀ c ∈ Nat.toDigits 10 (d % 3600000 / 60000 * 60) ++ Nat.toDigits 10 (d / 3600000 * 3600),
      c.isDigit = true := by
    intro c hc
    rcases List.mem_append.mp hc with hc | hc
    · exact Nat.isDigit_of_mem_toDigits (by decide) (by decide) hc
    · exact Nat.isDigit_of_mem_toDigits (by decide) (by decide) hc
  obtain ⟨hlow, hhigh⟩ := fraction_append (ld 3 ((d % 1000 : ℕ) : ℤ)) hdigits
  rw [hlen, Rabbit.digits_ld] at hlow hhigh
  have hsum : ((d % 60000 : ℕ) : ℚ) = 1000 * (d % 60000 / 1000 : ℕ) + (d % 1000 : ℕ) := by
    exact_mod_cast (show d % 60000 = 1000 * (d % 60000 / 1000) + d % 1000 by omega)
  unfold seconds behindPoint
  rw [hsum]
  constructor
  · linarith
  · linarith

theorem seconds_lt_iff (d y : ℕ) : seconds d < (y : ℚ) / 1000 ↔ d % 60000 < y := by
  obtain ⟨hlow, hhigh⟩ := seconds_bounds d
  constructor
  · intro h
    have hlt : ((d % 60000 : ℕ) : ℚ) < y := by linarith
    exact_mod_cast hlt
  · intro h
    have hle : ((d % 60000 : ℕ) + 1 : ℚ) ≤ y := by exact_mod_cast h
    linarith

/-- Nothing is shown as more than it is. -/
theorem seconds_le (d : ℕ) : seconds d ≤ (d : ℚ) / 1000 := by
  by_cases hd : d < 60000
  · have hhr : d / 3600000 = 0 := by omega
    have hmin : d % 3600000 / 60000 = 0 := by omega
    have hn : 1000 * (d % 60000 / 1000) + d % 1000 = d := by omega
    have hvalue := Rabbit.value_of_lt_minute (d % 60000 / 1000) (d % 1000) (by omega)
    rw [hn] at hvalue
    rw [seconds, hhr, hmin, ← hvalue]
    rfl
  · have hhigh := (seconds_bounds d).2
    have hle : ((d % 60000 : ℕ) + 1 : ℚ) ≤ d := by
      exact_mod_cast (show d % 60000 + 1 ≤ d by omega)
    linarith

/-- The texts are in the order of the values. -/
theorem seconds_le_of_textLE {d e : ℕ} (h : textLE (shown d) (shown e) = true) : seconds d ≤ seconds e := by
  have hlen : ∀ d : ℕ, (ld 2 ((d % 60000 / 1000 : ℕ) : ℤ)).length = 2 :=
    fun d => Rabbit.length_ld 2 _ (by decide) (by omega)
  have hle := decimal_le_of_le ((hlen d).trans (hlen e).symm) (Rabbit.isDigit_ld _ _) (Rabbit.isDigit_ld _ _)
    (Rabbit.isDigit_behindPoint _ _ _) (Rabbit.isDigit_behindPoint _ _ _) h
  rwa [Rabbit.digits_ld, Rabbit.digits_ld] at hle

/-! ## The four percentiles

The texts and the durations are sorted each for itself. By `Lib.Ranked` the element at an index is told by how many
elements are below a bound, so the two lists are compared bound by bound. -/

/-- The durations in increasing order. -/
def sorted (ds : List ℕ) : List ℕ := ds.mergeSort (· ≤ ·)

/-- The view shows the elements at the four indices of the sorted durations, in seconds; the indices are in range,
    and the values do not decrease. -/
def ShowsPercentiles (ds : List ℕ) (pc : Option (List Value)) : Prop :=
  (∀ k ∈ indices ds.length, k < ds.length) ∧ ∃ vs ws, pc = some vs ∧ vs.map toNumber = ws.map .finite ∧
    ws.Pairwise (· ≤ ·) ∧ ws = (indices ds.length).map fun k => ((sorted ds).getD k 0 : ℚ) / 1000

theorem sorts_sorted {ι : Type} (f : ι → ℕ) (ds : List ι) : Ranked.Sorts f ds (sorted (ds.map f)) where
  perm := List.mergeSort_perm _ _
  increasing := by
    have htrans : ∀ a b c : ℕ, decide (a ≤ b) = true → decide (b ≤ c) = true → decide (a ≤ c) = true := by
      simpa using fun a b c => Nat.le_trans
    have htotal : ∀ a b : ℕ, (decide (a ≤ b) || decide (b ≤ a)) = true := by
      simpa using Nat.le_total
    have h := List.pairwise_mergeSort htrans htotal (ds.map f)
    simpa [sorted] using h

/-- What the durations are in order. -/
theorem sorted_eq_of_perm {ds es : List ℕ} (hperm : ds.Perm es) (hes : es.Pairwise (· ≤ ·)) : sorted ds = es := by
  have hs := sorts_sorted id ds
  rw [List.map_id] at hs
  exact ((List.mergeSort_perm ds _).trans hperm).eq_of_pairwise (fun _ _ _ _ => le_antisymm) hs.increasing hes

/-- The durations in the order of their texts. -/
def textOrder (ds : List ℕ) : List ℕ := ds.mergeSort fun d e => textLE (shown d) (shown e)

theorem mergeSort_map_shown (ds : List ℕ) : (ds.map shown).mergeSort textLE = (textOrder ds).map shown :=
  (List.map_mergeSort (s := textLE) (f := shown) fun _ _ _ _ => rfl).symm

theorem sort_shown (ds : List ℕ) :
    sort (ds.map fun d => .string (shown d)) = some ((textOrder ds).map fun d => .string (shown d)) := by
  have h := sort_strings (ds.map shown)
  rwa [mergeSort_map_shown, List.map_map, List.map_map] at h

/-- Sorted as texts, the values are sorted. -/
theorem sorts_textOrder (ds : List ℕ) : Ranked.Sorts seconds ds ((textOrder ds).map seconds) where
  perm := (List.mergeSort_perm _ _).map seconds
  increasing := by
    have h := pairwise_mergeSort_textLE (ds.map shown)
    rw [mergeSort_map_shown, List.pairwise_map] at h
    exact List.pairwise_map.mpr (h.imp fun hde => seconds_le_of_textLE hde)

theorem length_textOrder (ds : List ℕ) : (textOrder ds).length = ds.length := List.length_mergeSort ds

/-- **An element shown is right exactly when the full minutes make no difference at its index.** -/
theorem seconds_eq_iff {ds : List ℕ} {k : ℕ} (hk : k < ds.length) :
    ((textOrder ds).map seconds).getD k 0 = ((sorted ds).getD k 0 : ℚ) / 1000 ↔
      (sorted (ds.map (· % 60000))).getD k 0 = (sorted ds).getD k 0 := by
  have hw := sorts_textOrder ds
  have hs := sorts_sorted id ds
  have hu := sorts_sorted (· % 60000) ds
  rw [List.map_id] at hs
  have hkw : k < ((textOrder ds).map seconds).length := by rwa [hw.length_eq]
  have hks : k < (sorted ds).length := by rwa [hs.length_eq]
  have hku : k < (sorted (ds.map (· % 60000))).length := by rwa [hu.length_eq]
  rw [List.getD_eq_getElem _ _ hkw, List.getD_eq_getElem _ _ hks, List.getD_eq_getElem _ _ hku]
  -- Whether a value is below a bound is decided by what the duration leaves behind its full minutes.
  have hlt : ∀ y : ℕ, ((textOrder ds).map seconds)[k] < (y : ℚ) / 1000 ↔ (sorted (ds.map (· % 60000)))[k] < y :=
    fun y => hw.lt_iff_lt hu hkw hku fun d _ => seconds_lt_iff d y
  have hle : ((textOrder ds).map seconds)[k] ≤ ((sorted ds)[k] : ℚ) / 1000 := by
    refine hw.le_of_imp hs hkw hks (fun d _ hd => (seconds_le d).trans ?_) (le_refl (sorted ds)[k])
    have hcast : (d : ℚ) ≤ (sorted ds)[k] := by exact_mod_cast hd
    linarith
  have hmod : (sorted (ds.map (· % 60000)))[k] ≤ (sorted ds)[k] :=
    hu.le_of_imp hs hku hks (fun d _ hd => (Nat.mod_le d 60000).trans hd) (le_refl (sorted ds)[k])
  constructor
  · intro heq
    have hnot := (hlt (sorted ds)[k]).not.mp (not_lt.mpr heq.ge)
    omega
  · intro heq
    have hnot := (hlt (sorted ds)[k]).not.mpr (by omega)
    exact le_antisymm hle (not_lt.mp hnot)

theorem indices_lt {n k : ℕ} (hn : 0 < n) (hk : k ∈ indices n) : k < n := by
  simp only [indices, List.mem_cons, List.not_mem_nil, or_false] at hk
  omega

theorem indices_pairwise (n : ℕ) : (indices n).Pairwise (· ≤ ·) := by
  simp only [indices, List.pairwise_cons, List.mem_cons, List.not_mem_nil, or_false, forall_eq_or_imp, forall_eq,
    List.Pairwise.nil, and_true, false_imp_iff, implies_true]
  omega

/-- What the view shows for the durations of the answered logs. -/
theorem pc_durations (numLogs : Value) (s : Home) {data : List Log} {ds : List ℕ} (hne : ds ≠ [])
    (hlong : ∀ d ∈ ds, d < 2 ^ 63)
    (hdata : (sent data).map Log.cal_duration = ds.map fun d => convertMilliToTime (d : ℕ)) :
    (s.respond numLogs data).pc =
      some ((indices ds.length).map (Js.get ((textOrder ds).map fun d => .string (shown d)))) := by
  have hsent : sent data ≠ [] := by
    intro hnil
    rw [hnil, List.map_nil, eq_comm, List.map_eq_nil_iff] at hdata
    exact hne hdata
  have hvalues : ((sent data).map fun log => calToMS log.cal_duration).mapM id =
      some (ds.map fun d => .string (shown d)) := by
    have hmap : (sent data).map (fun log => calToMS log.cal_duration) =
        ds.map fun d => some (.string (shown d)) := by
      rw [← Function.comp_def calToMS, ← List.map_map, hdata, List.map_map]
      exact List.map_congr_left fun d hd => calToMS_duration (hlong d hd)
    rw [hmap, List.mapM_map]
    exact List.mapM_pure ..
  rw [pc_respond, if_neg hsent, percentiles, hvalues]
  simp only [Option.bind_eq_bind, Option.bind_some, sort_shown, Option.pure_def, List.length_map,
    length_textOrder]

/-- What the four texts denote, one after the other. -/
theorem map_toNumber_indices {ds : List ℕ} (hne : ds ≠ []) :
    ((indices ds.length).map (Js.get ((textOrder ds).map fun d => .string (shown d)))).map toNumber =
      ((indices ds.length).map fun k => ((textOrder ds).map seconds).getD k 0).map Number.finite := by
  rw [List.map_map, List.map_map]
  apply List.map_congr_left
  intro k hk
  have hlt : k < (textOrder ds).length := by
    rw [length_textOrder]
    exact indices_lt (List.length_pos_of_ne_nil hne) hk
  show toNumber (Js.get _ k) = .finite (List.getD _ k 0)
  rw [Js.get, List.getD_eq_getElem _ _ (by rwa [List.length_map]),
    List.getD_eq_getElem _ _ (by rwa [List.length_map]), List.getElem_map, List.getElem_map, toNumber_shown]

/-- **The percentiles are right exactly when the full minutes make no difference:** at each of the four indices,
    the durations sorted and what they leave behind their last full minutes sorted have the same element. -/
theorem percentiles_iff (numLogs : Value) (s : Home) (data : List Log) (ds : List ℕ) (hne : ds ≠ [])
    (hlong : ∀ d ∈ ds, d < 2 ^ 63)
    (hdata : (sent data).map Log.cal_duration = ds.map fun d => convertMilliToTime (d : ℕ)) :
    ShowsPercentiles ds (s.respond numLogs data).pc ↔
      ∀ k ∈ indices ds.length, (sorted (ds.map (· % 60000))).getD k 0 = (sorted ds).getD k 0 := by
  have hrange : ∀ k ∈ indices ds.length, k < ds.length :=
    fun k hk => indices_lt (List.length_pos_of_ne_nil hne) hk
  have hvalues : ((indices ds.length).map fun k => ((textOrder ds).map seconds).getD k 0) =
      ((indices ds.length).map fun k => ((sorted ds).getD k 0 : ℚ) / 1000) ↔
        ∀ k ∈ indices ds.length, (sorted (ds.map (· % 60000))).getD k 0 = (sorted ds).getD k 0 := by
    rw [List.map_inj_left]
    exact forall₂_congr fun k hk => seconds_eq_iff (hrange k hk)
  -- The four values do not decrease, right or wrong.
  have hincreasing :
      ((indices ds.length).map fun k => ((textOrder ds).map seconds).getD k 0).Pairwise (· ≤ ·) := by
    refine List.pairwise_map.mpr ((indices_pairwise _).imp_of_mem fun {i j} hi hj hij => ?_)
    have hlen := (sorts_textOrder ds).length_eq
    rw [List.getD_eq_getElem _ _ (hlen ▸ hrange i hi), List.getD_eq_getElem _ _ (hlen ▸ hrange j hj)]
    rcases Nat.eq_or_lt_of_le hij with rfl | hlt
    · exact le_refl _
    · exact List.pairwise_iff_getElem.mp (sorts_textOrder ds).increasing i j _ _ hlt
  rw [← hvalues, ShowsPercentiles, pc_durations numLogs s hne hlong hdata]
  constructor
  · rintro ⟨-, vs, ws, hvs, hws, -, rfl⟩
    obtain rfl := Option.some.inj hvs
    rw [map_toNumber_indices hne] at hws
    exact List.map_injective_iff.mpr (fun _ _ h => Number.finite.inj h) hws
  · intro heq
    exact ⟨hrange, _, _, rfl, map_toNumber_indices hne, hincreasing, heq⟩

/-- Three answered requests, the slowest of over a minute, and one that is not answered: the median is right, and the
    other percentiles are not. -/
theorem percentiles_iff_answered : ¬ ShowsPercentiles [62000, 500, 1500] (Home.initial.respond (.number (.finite 200))
    [⟨"", 0, 1, 2, true, 3, "", "00:01:02.000"⟩, ⟨"", 0, 1, 2, true, 3, "", "00:00:00.500"⟩,
     ⟨"", 0, 1, 2, false, 0, "", ""⟩, ⟨"", 0, 1, 2, true, 3, "", "00:00:01.500"⟩]).pc := by
  have hsorted : sorted [62000, 500, 1500] = [500, 1500, 62000] := sorted_eq_of_perm (by decide) (by decide)
  have hrest : sorted ([62000, 500, 1500].map (· % 60000)) = [500, 1500, 2000] :=
    sorted_eq_of_perm (by decide) (by decide)
  rw [percentiles_iff _ _ _ [62000, 500, 1500] (by decide) (by decide) (by decide +kernel), hrest, hsorted]
  decide

/-- One minute is shown as less than a millisecond. -/
theorem not_always_showsPercentiles : ¬ ∀ (numLogs : Value) (s : Home) (data : List Log) (ds : List ℕ), ds ≠ [] →
    (∀ d ∈ ds, d < 2 ^ 63) → (sent data).map Log.cal_duration = (ds.map fun d => convertMilliToTime (d : ℕ)) →
      ShowsPercentiles ds (s.respond numLogs data).pc := by
  intro h
  have hdata : (sent [⟨"", 0, 1, 2, true, 3, "", "00:01:00.000"⟩]).map Log.cal_duration =
      [60000].map fun d : ℕ => convertMilliToTime (d : ℕ) := by decide +kernel
  obtain ⟨-, vs, ws, hvs, hws, -, rfl⟩ := h (.number (.finite 200)) Home.initial
    [⟨"", 0, 1, 2, true, 3, "", "00:01:00.000"⟩] [60000] (by decide) (by decide) hdata
  rw [pc_durations _ _ (by decide) (by decide) hdata, Option.some.injEq] at hvs
  rw [← hvs, map_toNumber_indices (by decide)] at hws
  have heq := List.map_injective_iff.mpr (fun _ _ h => Number.finite.inj h) hws
  have hlt : 0 < [60000].length := by decide
  have hzero := (seconds_eq_iff hlt).mp (List.map_inj_left.mp heq 0 (by decide))
  rw [List.map_singleton, sorted, sorted, List.mergeSort_singleton, List.mergeSort_singleton] at hzero
  exact absurd hzero (by decide)

end NewOrbit.Displayer
