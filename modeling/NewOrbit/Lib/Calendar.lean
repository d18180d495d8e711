import Mathlib.Algebra.Order.Group.Int
import Mathlib.Data.Nat.Find
import Mathlib.Order.Basic

/-!
# `Lib.Calendar` — the proleptic Gregorian calendar

Dates of any year, before year 1 too (year 0 is the year before it), with the number of the day a date stands
for, counted from 1 January 1970. The days number themselves year after year and month after month, so a number
is that of one date only (`Date.toDay_injective`), and `Date.ofDay` finds it (`Date.toDay_ofDay`). An instant lies
in one minute of one day (`Moment.eq_of_covers`).
-/

namespace Calendar

/-! ## Years -/

def isLeap (year : Int) : Bool := year % 4 = 0 && (year % 100 ≠ 0 || year % 400 = 0)

def yearLength (year : Int) : Int := if isLeap year then 366 else 365

/-- The number of 1 January. -/
def yearStart (year : Int) : Int :=
  365 * year + (year + 3) / 4 - (year + 99) / 100 + (year + 399) / 400 - 719528

theorem isLeap_iff {year : Int} : isLeap year = true ↔ year % 4 = 0 ∧ (year % 100 ≠ 0 ∨ year % 400 = 0) := by
  simp [isLeap]

/-- **A year starts where the year before it ends.** -/
theorem yearStart_succ (year : Int) : yearStart (year + 1) = yearStart year + yearLength year := by
  unfold yearStart yearLength
  split
  · next h =>
      rw [isLeap_iff] at h
      omega
  · next h =>
      rw [isLeap_iff] at h
      omega

theorem yearStart_mono {year year' : Int} (h : year ≤ year') : yearStart year ≤ yearStart year' := by
  unfold yearStart
  omega

/-! ## Months -/

def monthLength (year : Int) (month : Nat) : Nat :=
  if month = 2 then (if isLeap year then 29 else 28)
  else if month = 4 ∨ month = 6 ∨ month = 9 ∨ month = 11 then 30
  else 31

theorem monthLength_bounds (year : Int) (month : Nat) :
    28 ≤ monthLength year month ∧ monthLength year month ≤ 31 := by
  unfold monthLength
  split <;> split <;> omega

/-- The days of a year before a month. -/
def monthStart (year : Int) : Nat → Nat
  | 0         => 0
  | 1         => 0
  | month + 2 => monthStart year (month + 1) + monthLength year (month + 1)

theorem monthStart_succ (year : Int) {month : Nat} (h : 1 ≤ month) :
    monthStart year (month + 1) = monthStart year month + monthLength year month := by
  match month, h with
  | month + 1, _ => rfl

theorem monthStart_mono (year : Int) {month month' : Nat} (hpos : 1 ≤ month) (h : month ≤ month') :
    monthStart year month ≤ monthStart year month' := by
  induction h with
  | refl => exact le_refl _
  | @step month' h ih =>
      have hsucc := monthStart_succ year (le_trans hpos h)
      rw [Nat.succ_eq_add_one]
      omega

theorem monthStart_end (year : Int) : (monthStart year 13 : Int) = yearLength year := by
  unfold yearLength
  cases h : isLeap year <;> simp [monthStart, monthLength, h]

/-! ## Dates -/

/-- A day of the calendar. -/
@[ext] structure Date where
  year      : Int
  month     : Nat
  day       : Nat
  month_pos : 1 ≤ month
  month_le  : month ≤ 12
  day_pos   : 1 ≤ day
  day_le    : day ≤ monthLength year month

namespace Date

theorem day_le_31 (d : Date) : d.day ≤ 31 := le_trans d.day_le (monthLength_bounds d.year d.month).2

/-- The days from 1 January to a date. -/
def dayOfYear (d : Date) : Nat := monthStart d.year d.month + (d.day - 1)

/-- The number of a date. -/
def toDay (d : Date) : Int := yearStart d.year + d.dayOfYear

theorem dayOfYear_lt_monthStart (d : Date) : d.dayOfYear < monthStart d.year (d.month + 1) := by
  have hpos := d.day_pos
  have hle := d.day_le
  rw [monthStart_succ d.year d.month_pos, dayOfYear]
  omega

theorem dayOfYear_lt (d : Date) : (d.dayOfYear : Int) < yearLength d.year := by
  have hmonth := d.dayOfYear_lt_monthStart
  have hend : d.month + 1 ≤ 13 := Nat.succ_le_succ d.month_le
  have hyear := monthStart_mono d.year (Nat.le_add_left 1 d.month) hend
  rw [← monthStart_end]
  omega

/-- A day of an earlier year has a smaller number. -/
theorem year_le_of_toDay_le {d e : Date} (h : d.toDay ≤ e.toDay) : d.year ≤ e.year := by
  by_contra hlt
  have hnext : yearStart (e.year + 1) ≤ yearStart d.year := yearStart_mono (by omega)
  have hday := e.dayOfYear_lt
  rw [yearStart_succ] at hnext
  rw [toDay, toDay] at h
  omega

theorem month_le_of_dayOfYear_le {d e : Date} (hyear : d.year = e.year) (h : d.dayOfYear ≤ e.dayOfYear) :
    d.month ≤ e.month := by
  by_contra hlt
  have hnext := monthStart_mono e.year (Nat.le_add_left 1 e.month) (Nat.lt_of_not_le hlt)
  have hday := e.dayOfYear_lt_monthStart
  have hstart : monthStart e.year d.month ≤ d.dayOfYear := by
    rw [dayOfYear, hyear]
    exact Nat.le_add_right _ _
  omega

/-- **A number is that of one date.** -/
theorem toDay_injective : Function.Injective toDay := by
  intro d e h
  have hyear : d.year = e.year :=
    le_antisymm (year_le_of_toDay_le (le_of_eq h)) (year_le_of_toDay_le (le_of_eq h.symm))
  have hdayOfYear : d.dayOfYear = e.dayOfYear := by
    rw [toDay, toDay, hyear] at h
    omega
  have hmonth : d.month = e.month :=
    le_antisymm (month_le_of_dayOfYear_le hyear (le_of_eq hdayOfYear))
      (month_le_of_dayOfYear_le hyear.symm (le_of_eq hdayOfYear.symm))
  have hday : d.day = e.day := by
    have hd := d.day_pos
    have he := e.day_pos
    rw [dayOfYear, dayOfYear, hyear, hmonth] at hdayOfYear
    omega
  exact Date.ext hyear hmonth hday

end Date

/-! ## The date of a day

A year is estimated from the number of days and then corrected by one at most, and the month is the last one that
starts on the day or before it. -/

/-- The year of a day: an estimate by the mean length of a year is at most one off. -/
def yearOf (n : Int) : Int :=
  let year := (n + 719528) * 400 / 146097
  if n < yearStart year then year - 1 else if yearStart (year + 1) ≤ n then year + 1 else year

theorem yearStart_estimate (n : Int) :
    yearStart ((n + 719528) * 400 / 146097 - 1) ≤ n ∧ n < yearStart ((n + 719528) * 400 / 146097 + 1 + 1) := by
  generalize hyear : (n + 719528) * 400 / 146097 = year
  unfold yearStart
  constructor <;> omega

theorem yearOf_spec (n : Int) : yearStart (yearOf n) ≤ n ∧ n < yearStart (yearOf n + 1) := by
  obtain ⟨hlow, hhigh⟩ := yearStart_estimate n
  unfold yearOf
  dsimp only
  split
  · exact ⟨hlow, by rwa [Int.sub_add_cancel]⟩
  · next h =>
      split
      · next h' => exact ⟨h', hhigh⟩
      · next h' => exact ⟨Int.not_lt.mp h, Int.not_le.mp h'⟩

/-- The days of its year before a day. -/
def dayOfYearOf (n : Int) : Nat := (n - yearStart (yearOf n)).toNat

theorem dayOfYearOf_spec (n : Int) :
    yearStart (yearOf n) + dayOfYearOf n = n ∧ (dayOfYearOf n : Int) < yearLength (yearOf n) := by
  obtain ⟨hlow, hhigh⟩ := yearOf_spec n
  rw [yearStart_succ] at hhigh
  unfold dayOfYearOf
  omega

/-- The last month of the year that has started. -/
def monthOf (year : Int) (dayOfYear : Nat) : Nat :=
  Nat.findGreatest (fun month => monthStart year month ≤ dayOfYear) 12

theorem monthOf_pos (year : Int) (dayOfYear : Nat) : 1 ≤ monthOf year dayOfYear :=
  Nat.le_findGreatest (by decide) (Nat.zero_le _)

theorem monthOf_le (year : Int) (dayOfYear : Nat) : monthOf year dayOfYear ≤ 12 := Nat.findGreatest_le 12

theorem monthStart_monthOf (year : Int) (dayOfYear : Nat) : monthStart year (monthOf year dayOfYear) ≤ dayOfYear :=
  Nat.findGreatest_spec (P := fun month => monthStart year month ≤ dayOfYear) (Nat.zero_le 12) (Nat.zero_le _)

theorem lt_monthStart_monthOf {year : Int} {dayOfYear : Nat} (h : (dayOfYear : Int) < yearLength year) :
    dayOfYear < monthStart year (monthOf year dayOfYear + 1) := by
  rcases Nat.eq_or_lt_of_le (monthOf_le year dayOfYear) with h12 | h12
  · have hend := monthStart_end year
    rw [h12]
    show dayOfYear < monthStart year 13
    omega
  · apply Nat.not_le.mp
    exact Nat.findGreatest_is_greatest (P := fun month => monthStart year month ≤ dayOfYear)
      (Nat.lt_succ_self (monthOf year dayOfYear)) h12

namespace Date

/-- The date of a day. -/
def ofDay (n : Int) : Date where
  year      := yearOf n
  month     := monthOf (yearOf n) (dayOfYearOf n)
  day       := dayOfYearOf n - monthStart (yearOf n) (monthOf (yearOf n) (dayOfYearOf n)) + 1
  month_pos := monthOf_pos ..
  month_le  := monthOf_le ..
  day_pos   := Nat.le_add_left ..
  day_le    := by
    have hstart := monthStart_monthOf (yearOf n) (dayOfYearOf n)
    have hend := lt_monthStart_monthOf (dayOfYearOf_spec n).2
    rw [monthStart_succ _ (monthOf_pos ..)] at hend
    omega

@[simp] theorem toDay_ofDay (n : Int) : (ofDay n).toDay = n := by
  have hday : (ofDay n).dayOfYear = dayOfYearOf n := by
    have hstart := monthStart_monthOf (yearOf n) (dayOfYearOf n)
    show monthStart (yearOf n) (monthOf (yearOf n) (dayOfYearOf n)) + (dayOfYearOf n -
      monthStart (yearOf n) (monthOf (yearOf n) (dayOfYearOf n)) + 1 - 1) = dayOfYearOf n
    omega
  rw [toDay, hday]
  exact (dayOfYearOf_spec n).1

theorem ofDay_injective : Function.Injective ofDay := Function.LeftInverse.injective toDay_ofDay

example : ((ofDay 18488).year, (ofDay 18488).month, (ofDay 18488).day) = (2020, 8, 14) := by decide

end Date

/-! ## Minutes -/

/-- A minute of a day. -/
@[ext] structure Moment where
  date      : Date
  hour      : Nat
  minute    : Nat
  hour_lt   : hour < 24
  minute_lt : minute < 60

namespace Moment

/-- The milliseconds since 1970 at which a minute starts. -/
def start (m : Moment) : Int := ((m.date.toDay * 24 + m.hour) * 60 + m.minute) * 60000

/-- The instant `ms` lies in the minute. -/
def Covers (m : Moment) (ms : Int) : Prop := m.start ≤ ms ∧ ms < m.start + 60000

theorem covers_start (m : Moment) : m.Covers m.start := ⟨le_refl _, by omega⟩

/-- **An instant lies in one minute.** -/
theorem eq_of_covers {m n : Moment} {ms : Int} (hm : m.Covers ms) (hn : n.Covers ms) : m = n := by
  unfold Covers start at hm hn
  have hmhour := m.hour_lt
  have hmminute := m.minute_lt
  have hnhour := n.hour_lt
  have hnminute := n.minute_lt
  have hday : m.date.toDay = n.date.toDay := by omega
  have hhour : m.hour = n.hour := by omega
  have hminute : m.minute = n.minute := by omega
  exact Moment.ext (Date.toDay_injective hday) hhour hminute

end Moment

end Calendar
