import NewOrbit.Lib.Js
import NewOrbit.Rabbit.Duration
import Mathlib.Tactic.Linarith
import Mathlib.Tactic.Positivity
import Mathlib.Tactic.Ring

/-!
# `Rabbit.Dashboard` — the worker's durations, read by the dashboard

The worker prints a duration of milliseconds as `hh:mm:ss.mmm` (`convertMilliToTime`); the log displayer's
`calToMS` is to turn the text into seconds. It starts from the text of the seconds and adds the minutes and the
hours to it with `+`, which for a string is concatenation: the digits of `60 * mm` and of `3600 * hh` end up behind
those of the milliseconds (`calToMS_hhmmss`). Below a minute these digits are two zeros and do no harm; from a
minute on the value is wrong (`calToMS_iff`).
-/

namespace NewOrbit.Rabbit
open CString Js

/-- `calToMS` of `Home.js`; the text that is logged when the result is not a number is left out. -/
def calToMS (s : String) : Option Value := do
  let times := split ':' s.toList
  let ans := Js.get times 2
  let ans ← add ans (← mul (Js.get times 1) (.number (.finite 60)))
  let ans ← add ans (← mul (Js.get times 0) (.number (.finite 3600)))
  if isNaN ans then return .number (.finite 0) else return ans

/-! ## The printed fields -/

theorem isDigit_ld (width n : Nat) : ∀ c ∈ ld width (n : Int), c.isDigit = true :=
  fun _ hc => digit_of_mem_ld (Int.natCast_nonneg n) hc

theorem digits_ld (width n : Nat) : digits (ld width (n : Int)) = n := by
  rw [digits, ld, if_neg (by omega), List.leftpad, Nat.ofDigitChars_append, Nat.ofDigitChars_replicate_zero,
    Nat.mul_zero, Nat.ofDigitChars_ten_toDigits, Int.natAbs_natCast]

/-- The four fields of a duration. -/
theorem convertMilliToTime_natCast (n : Nat) : convertMilliToTime n = String.ofList
    (hhmmss (n / 3600000 : Nat) (n % 3600000 / 60000 : Nat) (n % 60000 / 1000 : Nat) (n % 1000 : Nat)) := by
  have hhr : Int.tdiv n 3600000 = (n / 3600000 : Nat) := rfl
  have hmin : (n : Int) - 3600000 * (n / 3600000 : Nat) = (n % 3600000 : Nat) := by omega
  have hmin' : Int.tdiv (n % 3600000 : Nat) 60000 = (n % 3600000 / 60000 : Nat) := rfl
  have hsec : ((n % 3600000 : Nat) : Int) - 60000 * (n % 3600000 / 60000 : Nat) = (n % 60000 : Nat) := by omega
  have hsec' : Int.tdiv (n % 60000 : Nat) 1000 = (n % 60000 / 1000 : Nat) := rfl
  have hms : ((n % 60000 : Nat) : Int) - 1000 * (n % 60000 / 1000 : Nat) = (n % 1000 : Nat) := by omega
  simp only [convertMilliToTime, hhr, hmin, hmin', hsec, hsec', hms]

theorem split_hhmmss (hr min sec milli : Nat) : split ':' (hhmmss hr min sec milli)
    = [.string (ld 2 (hr : Int)), .string (ld 2 (min : Int)),
        .string (ld 2 (sec : Int) ++ '.' :: ld 3 (milli : Int))] := by
  have hfree : ∀ {w n : Nat}, ∀ c ∈ ld w (n : Int), (c == ':') = false := by
    intro w n c hc
    exact beq_false_of_ne (ne_of_isDigit (isDigit_ld _ _ c hc) (by decide))
  have hlast : ∀ c ∈ ld 2 (sec : Int) ++ '.' :: ld 3 (milli : Int), (c == ':') = false := by
    intro c hc
    rcases List.mem_append.mp hc with hc | hc
    · exact hfree c hc
    · rcases List.mem_cons.mp hc with rfl | hc
      · rfl
      · exact hfree c hc
  have hshape : hhmmss (hr : Int) min sec milli = ld 2 (hr : Int) ++ ':' ::
      (ld 2 (min : Int) ++ ':' :: (ld 2 (sec : Int) ++ '.' :: ld 3 (milli : Int))) := by
    simp only [hhmmss, List.append_assoc, List.cons_append]
  rw [split, hshape, List.splitOn, List.splitOnP_append_cons_of_forall_mem hfree ':' rfl,
    List.splitOnP_append_cons_of_forall_mem hfree ':' rfl, List.splitOnP_eq_singleton hlast]
  rfl

/-- The hours of a 64-bit number of milliseconds, in seconds, are a double. -/
theorem isExact_hours {hr : Nat} (h : hr ≤ 2562047788015) : IsExact hr ∧ IsExact ((hr * 3600 : Nat) : ℚ) :=
  ⟨isExact_natCast (Or.inl (by omega)), isExact_natCast (Or.inr (by omega))⟩

theorem mul_ld {n k : Nat} (hn : IsExact n) (hk : IsExact k) (hnk : IsExact ((n * k : Nat) : ℚ)) :
    mul (.string (ld 2 (n : Int))) (.number (.finite k)) = some (.number (.finite ((n * k : Nat) : ℚ))) := by
  have h := mul_digits (ld_ne_nil 2 n) (isDigit_ld 2 n) (k := k) (by rwa [digits_ld]) hk
    (by rwa [digits_ld])
  rwa [digits_ld] at h

/-- What ends up behind the point: the milliseconds, and the digits of the minutes and the hours in seconds. -/
def behindPoint (hr min milli : Nat) : List Char :=
  ld 3 (milli : Int) ++ (Nat.toDigits 10 (min * 60) ++ Nat.toDigits 10 (hr * 3600))

theorem isDigit_behindPoint (hr min milli : Nat) : ∀ c ∈ behindPoint hr min milli, c.isDigit = true := by
  intro c hc
  rw [behindPoint, List.mem_append, List.mem_append] at hc
  rcases hc with hc | hc | hc
  · exact isDigit_ld _ _ c hc
  · exact Nat.isDigit_of_mem_toDigits (by decide) (by decide) hc
  · exact Nat.isDigit_of_mem_toDigits (by decide) (by decide) hc

theorem toNumber_behindPoint (hr min sec milli : Nat) :
    toNumber (.string (ld 2 (sec : Int) ++ '.' :: behindPoint hr min milli))
      = .finite (sec + digits (behindPoint hr min milli) / 10 ^ (behindPoint hr min milli).length) := by
  have h := stringToNumber_decimal (ld_ne_nil 2 sec) (isDigit_ld 2 sec) (isDigit_behindPoint hr min milli)
  rwa [digits_ld] at h

/-- **What `calToMS` makes of a duration.** -/
theorem calToMS_hhmmss {hr min : Nat} (hhr : hr ≤ 2562047788015) (hmin : min < 60) (sec milli : Nat) :
    calToMS (String.ofList (hhmmss hr min sec milli))
      = some (.string (ld 2 (sec : Int) ++ '.' :: behindPoint hr min milli)) := by
  obtain ⟨hhours, hseconds⟩ := isExact_hours hhr
  have hminutes : IsExact ((min * 60 : Nat) : ℚ) := isExact_natCast (Or.inl (by omega))
  have hmul60 : mul (.string (ld 2 (min : Int))) (.number (.finite 60)) = _ :=
    mul_ld (k := 60) (isExact_natCast (Or.inl (by omega))) (isExact_natCast (Or.inl (by decide))) hminutes
  have hmul3600 : mul (.string (ld 2 (hr : Int))) (.number (.finite 3600)) = _ :=
    mul_ld (k := 3600) hhours (isExact_natCast (Or.inl (by decide))) hseconds
  have htext : ld 2 (sec : Int) ++ '.' :: ld 3 (milli : Int) ++ Nat.toDigits 10 (min * 60) ++
      Nat.toDigits 10 (hr * 3600) = ld 2 (sec : Int) ++ '.' :: behindPoint hr min milli := by
    simp only [behindPoint, List.append_assoc, List.cons_append]
  unfold calToMS
  rw [String.toList_ofList, split_hhmmss]
  simp only [Js.get, List.getD_cons_zero, List.getD_cons_succ, Option.bind_eq_bind, Option.pure_def]
  rw [hmul60, Option.bind_some, add_string_natCast _ hminutes, Option.bind_some, hmul3600, Option.bind_some,
    add_string_natCast _ hseconds, Option.bind_some, htext]
  -- The text is a number, so it is what `calToMS` returns.
  rw [isNaN, toNumber_behindPoint, if_neg (by simp)]

/-! ## The value -/

/-- Below a minute the digits behind the milliseconds are two zeros. -/
theorem value_of_lt_minute (sec milli : Nat) (hmilli : milli < 1000) :
    (sec + digits (behindPoint 0 0 milli) / 10 ^ (behindPoint 0 0 milli).length : ℚ)
      = ((1000 * sec + milli : Nat) : ℚ) / 1000 := by
  have hlen : (behindPoint 0 0 milli).length = 5 := by
    rw [behindPoint, List.length_append, length_ld 3 milli (by decide) (by omega)]
    rfl
  have hdigits : digits (behindPoint 0 0 milli) = milli * 100 := by
    have hld : Nat.ofDigitChars 10 (ld 3 (milli : Int)) 0 = milli := digits_ld 3 milli
    rw [digits, behindPoint, Nat.ofDigitChars_append, hld]
    show Nat.ofDigitChars 10 ['0', '0'] milli = _
    rw [Nat.ofDigitChars_cons, Nat.ofDigitChars_cons, Nat.ofDigitChars_nil]
    show 10 * (10 * milli + 0) + 0 = _
    omega
  rw [hlen, hdigits]
  push_cast
  ring

/-- What is behind the point is less than one second. -/
theorem value_lt (hr min sec milli : Nat) :
    (sec + digits (behindPoint hr min milli) / 10 ^ (behindPoint hr min milli).length : ℚ) < sec + 1 := by
  have hlt : (digits (behindPoint hr min milli) : ℚ) < 10 ^ (behindPoint hr min milli).length := by
    exact_mod_cast digits_lt (isDigit_behindPoint hr min milli)
  have hone := (div_lt_one (by positivity)).mpr hlt
  linarith

/-- **The dashboard reads a duration right exactly below a minute.** For every 64-bit number of milliseconds
    `calToMS` returns a text, and the number it denotes is the number of seconds exactly when the duration is less
    than a minute. -/
theorem calToMS_iff (d : Int) (hd : 0 ≤ d) (hlong : d < 2 ^ 63) :
    ∃ v, calToMS (convertMilliToTime d) = some v ∧ (toNumber v = .finite ((d : ℚ) / 1000) ↔ d < 60000) := by
  obtain ⟨n, rfl⟩ := Int.eq_ofNat_of_zero_le hd
  rw [convertMilliToTime_natCast]
  refine ⟨_, calToMS_hhmmss (by omega) (by omega) _ _, ?_⟩
  rw [toNumber_behindPoint, Number.finite.injEq, Int.cast_natCast]
  constructor
  · intro hvalue
    -- The text of the seconds comes first, and it is less than 60.
    have hlt := value_lt (n / 3600000) (n % 3600000 / 60000) (n % 60000 / 1000) (n % 1000)
    rw [hvalue, div_lt_iff₀ (by norm_num)] at hlt
    have hnat : n < (n % 60000 / 1000 + 1) * 1000 := by exact_mod_cast hlt
    omega
  · intro hlt
    have hhr : n / 3600000 = 0 := by omega
    have hmin : n % 3600000 / 60000 = 0 := by omega
    have hn : 1000 * (n % 60000 / 1000) + n % 1000 = n := by omega
    rw [hhr, hmin, value_of_lt_minute _ _ (Nat.mod_lt _ (by decide)), hn]

/-- **From a minute on the dashboard is wrong.** One minute is read as six ten-thousandths of a second. -/
theorem not_always_calToMS :
    ¬ ∀ d : Int, 0 ≤ d → d < 2 ^ 63 →
      (calToMS (convertMilliToTime d)).map toNumber = some (.finite ((d : ℚ) / 1000)) := by
  intro hall
  have hminute : calToMS (convertMilliToTime 60000) = some (.string "00.000600".toList) := by decide +kernel
  have hvalue := hall 60000 (by decide) (by decide)
  have hread : toNumber (.string "00.000600".toList) = .finite ((0 : Nat) + (600 : Nat) / 10 ^ 6) := by
    show stringToNumber (['0', '0'] ++ '.' :: ['0', '0', '0', '6', '0', '0']) = _
    exact stringToNumber_decimal (by decide) (List.all_eq_true.mp (by decide)) (List.all_eq_true.mp (by decide))
  rw [hminute, Option.map_some, hread, Option.some.injEq, Number.finite.injEq] at hvalue
  norm_num at hvalue

theorem calToMS_iff_second :
    ∃ v, calToMS (convertMilliToTime 1500) = some v ∧ toNumber v = .finite (3 / 2) := by
  obtain ⟨v, hv, hiff⟩ := calToMS_iff 1500 (by decide) (by decide)
  refine ⟨v, hv, ?_⟩
  rw [hiff.mpr (by decide)]
  norm_num

end NewOrbit.Rabbit
