import Mathlib.Data.List.DropRight
import Mathlib.Tactic.IntervalCases
import Mathlib.Tactic.SplitIfs
import NewOrbit.Bonds.Java
import NewOrbit.Lib.Calendar

/-!
# `Bonds.Dates` — what a date column says, and what is stored of it

`format` is `DateTimeFormatter.ofPattern("dd/MM/yyyy HH:mm")` writing a minute of the proleptic Gregorian
calendar, the one of `java.time`. A text the parser accepts need not be one that the formatter writes: the day
may be beyond the end of its month and the time 24:00, and the parser moves both. `RealDate` is what is left, and
**the stored instant formats back to the text exactly for real dates** (`formatsAs_timestampValueOf_iff`).
-/

namespace NewOrbit.Bonds

open Calendar

/-! ## The formatter

What a text says is settled by the formatter and not by the parser: a text stands for the minute that is written so.
-/

/-- `dd`, `MM`, `HH` and `mm`. -/
def twoDigitText (n : Nat) : List Char := [Nat.digitChar (n / 10), Nat.digitChar (n % 10)]

/-- `yyyy`: at least four digits, and a plus sign in front of more. -/
def yearOfEraText (year : Nat) : List Char :=
  let ds := Nat.toDigits 10 year
  if ds.length ≤ 4 then List.leftpad 4 '0' ds else '+' :: ds

/-- The year within its era: year 0 is the year 1 before Christ. -/
def eraYear (year : Int) : Nat := if 1 ≤ year then year.toNat else (1 - year).toNat

/-- `formatter.format(t)`. -/
def format (m : Moment) : List Char :=
  twoDigitText m.date.day ++ '/' :: (twoDigitText m.date.month ++ '/' ::
    (yearOfEraText (eraYear m.date.year) ++ ' ' :: (twoDigitText m.hour ++ ':' :: twoDigitText m.minute)))

/-- An instant, formatted in UTC, is the text `s`. -/
def FormatsAs (ms : Int) (s : String) : Prop := ∃ m : Moment, m.Covers ms ∧ s.toList = format m

theorem FormatsAs.unique {ms : Int} {s s' : String} (h : FormatsAs ms s) (h' : FormatsAs ms s') : s = s' := by
  obtain ⟨m, hm, hs⟩ := h
  obtain ⟨m', hm', hs'⟩ := h'
  rw [Moment.eq_of_covers hm hm', ← hs'] at hs
  exact String.toList_inj.mp hs

/-! ## The parser reads what the formatter writes

Field by field: two digits, a literal character, and a year of four digits or more. -/

theorem digitChar_toNat {n : Nat} (h : n < 10) : (Nat.digitChar n).toNat = n + 48 := by
  interval_cases n <;> rfl

theorem asciiDigit_digitChar {n : Nat} (h : n < 10) : asciiDigit (Nat.digitChar n) = some n := by
  rw [asciiDigit, Nat.isDigit_digitChar, digitChar_toNat h]
  simp [h]

theorem twoDigits_text {n : Nat} (h : n < 100) (cs : List Char) :
    twoDigits (twoDigitText n ++ cs) = some (n, cs) := by
  have htens : n / 10 < 10 := by omega
  have hones : n % 10 < 10 := by omega
  show (do
    let m ← asciiDigit (Nat.digitChar (n / 10))
    let n ← asciiDigit (Nat.digitChar (n % 10))
    some (10 * m + n, cs)) = some (n, cs)
  rw [asciiDigit_digitChar htens, asciiDigit_digitChar hones]
  simp only [Option.bind_eq_bind, Option.bind_some, Nat.div_add_mod]

@[simp] theorem literal_cons (c : Char) (cs : List Char) : literal c (c :: cs) = some cs := if_pos rfl

/-- An ASCII digit is read as its value. -/
theorem digit_of_isDigit {c : Char} (h : c.isDigit = true) : digit c = some (c.toNat - 48) := by
  have hrange := Char.isDigit_iff_toNat.mp h
  have hlow : 48 ≤ c.toNat := hrange.1
  have hhigh : c.toNat ≤ 57 := hrange.2
  rw [digit, zeroDigits, List.find?_cons_of_pos (by simp; omega)]
  rfl

theorem mapM_digit_of_isDigit {ds : List Char} (h : ∀ c ∈ ds, c.isDigit = true) :
    ds.mapM digit = some (ds.map fun c => c.toNat - 48) := by
  induction ds with
  | nil => rfl
  | cons c ds ih =>
      rw [List.forall_mem_cons] at h
      rw [List.mapM_cons, digit_of_isDigit h.1, ih h.2]
      rfl

/-- A text of ASCII digits is read as the number they write. -/
theorem digits_of_isDigit {ds : List Char} (hne : ds ≠ []) (h : ∀ c ∈ ds, c.isDigit = true) :
    digits ds = some (Nat.ofDigitChars 10 ds 0) := by
  match ds, hne with
  | c :: ds, _ =>
      rw [digits, mapM_digit_of_isDigit h, Option.map_some, Nat.ofDigitChars_eq_foldl, List.foldl_map]
      rfl

theorem isDigit_of_mem_toDigits {c : Char} {n : Nat} (h : c ∈ Nat.toDigits 10 n) : c.isDigit = true :=
  Nat.isDigit_of_mem_toDigits (by decide) (by decide) h

theorem leftpad_isDigit {n k : Nat} : ∀ c ∈ List.leftpad k '0' (Nat.toDigits 10 n), c.isDigit = true := by
  intro c h
  rw [List.leftpad, List.mem_append] at h
  rcases h with hzero | hdigit
  · rw [List.eq_of_mem_replicate hzero]
    rfl
  · exact isDigit_of_mem_toDigits hdigit

theorem ofDigitChars_leftpad (n k : Nat) :
    Nat.ofDigitChars 10 (List.leftpad k '0' (Nat.toDigits 10 n)) 0 = n := by
  rw [List.leftpad, Nat.ofDigitChars_append, Nat.ofDigitChars_replicate_zero, Nat.mul_zero,
    Nat.ofDigitChars_ten_toDigits]

/-- The digits in front of a blank are those up to it. -/
theorem takeWhile_isDigit {ds : List Char} (h : ∀ c ∈ ds, c.isDigit = true) (cs : List Char) :
    (ds ++ ' ' :: cs).takeWhile Char.isDigit = ds := by
  rw [List.takeWhile_append_of_pos h, List.takeWhile_cons_of_neg (by decide), List.append_nil]

theorem yearOfEra_text {year : Nat} (h : year < 10 ^ 19) (cs : List Char) :
    yearOfEra (yearOfEraText year ++ ' ' :: cs) = some (year, ' ' :: cs) := by
  unfold yearOfEraText
  by_cases hlong : (Nat.toDigits 10 year).length ≤ 4
  · -- Four digits, the first of which is no plus sign.
    rw [if_pos hlong]
    generalize hds : List.leftpad 4 '0' (Nat.toDigits 10 year) = ds
    have hdigit : ∀ c ∈ ds, c.isDigit = true := hds ▸ leftpad_isDigit
    have hlength : ds.length = 4 := by rw [← hds, List.length_leftpad, Nat.max_eq_left hlong]
    have hne : ds ≠ [] := by rw [← List.length_pos_iff, hlength]; decide
    have hvalue : digits ds = some year := by
      rw [digits_of_isDigit hne hdigit, ← hds, ofDigitChars_leftpad]
    have hplus : (ds ++ ' ' :: cs).head? ≠ some '+' := by
      rw [List.head?_append_of_ne_nil _ hne]
      intro hhead
      exact absurd (hdigit '+' (List.mem_of_mem_head? hhead)) (by decide)
    simp only [yearOfEra, hplus, if_false, takeWhile_isDigit hdigit, hlength, if_true, hvalue, Option.map_some]
    rw [← hlength, List.drop_left]
  · -- From five to nineteen digits, behind a plus sign.
    rw [if_neg hlong]
    have hdigit : ∀ c ∈ Nat.toDigits 10 year, c.isDigit = true := fun c => isDigit_of_mem_toDigits
    have hshort : (Nat.toDigits 10 year).length ≤ 19 :=
      (Nat.length_toDigits_le_iff (by decide) (by decide)).mpr h
    have hvalue : digits (Nat.toDigits 10 year) = some year := by
      rw [digits_of_isDigit Nat.toDigits_ne_nil hdigit, Nat.ofDigitChars_ten_toDigits]
    have hlength : 4 < (Nat.toDigits 10 year).length ∧ (Nat.toDigits 10 year).length ≤ 19 :=
      ⟨Nat.lt_of_not_le hlong, hshort⟩
    simp [yearOfEra, takeWhile_isDigit hdigit, hlength, hvalue]

theorem parse_of_format {s : String} {m : Moment} (hs : s.toList = format m)
    (hyear : eraYear m.date.year < 10 ^ 19) :
    parseLocalDateTime s = orThrow .DateTimeParseException
      (resolve m.date.day m.date.month (eraYear m.date.year) m.hour m.minute) := by
  have hmonth := m.date.month_le
  have hday := m.date.day_le_31
  have hhour := m.hour_lt
  have hminute := m.minute_lt
  have hend : twoDigits (twoDigitText m.minute) = some (m.minute, []) := twoDigits_text (by omega) []
  unfold parseLocalDateTime
  rw [hs, format]
  simp only [twoDigits_text (show m.date.day < 100 by omega), twoDigits_text (show m.date.month < 100 by omega),
    twoDigits_text (show m.hour < 100 by omega), yearOfEra_text hyear, hend, literal_cons, Option.bind_eq_bind,
    Option.bind_some, if_true]

/-! ## The calendars

`Timestamp.valueOf` counts days by the Julian calendar before October 1582. The Gregorian number of a day is that of
`Lib.Calendar`, and the Julian one is the same from March 200 to February 300 only. -/

theorem isLeap_eq {year : Int} {y : Nat} (h : year = y) : isLeap y = Calendar.isLeap year := by
  subst h
  unfold isLeap Calendar.isLeap
  congr 1
  · simp
    omega
  · congr 1 <;> simp <;> omega

theorem lengthOfMonth_eq {year : Int} {y : Nat} (h : year = y) (month : Nat) :
    lengthOfMonth y month = monthLength year month := by
  unfold lengthOfMonth monthLength
  rw [isLeap_eq h]

theorem lengthOfMonth_bounds (year month : Nat) :
    28 ≤ lengthOfMonth year month ∧ lengthOfMonth year month ≤ 31 := by
  rw [lengthOfMonth_eq rfl]
  exact monthLength_bounds year month

/-- The formula for the day of the year counts the days of the months before. -/
theorem dayOfYear_eq (d : Date) : dayOfYear (Calendar.isLeap d.year) d.month d.day = d.dayOfYear := by
  have hmonth := d.month_pos
  have hmonth' := d.month_le
  have hday := d.day_pos
  unfold dayOfYear Date.dayOfYear
  generalize d.month = month at hmonth hmonth'
  interval_cases month <;> cases hleap : Calendar.isLeap d.year <;>
    simp [monthStart, monthLength, hleap] <;> omega

theorem gregorianDay_eq {d : Date} {y : Nat} (h : d.year = y) : gregorianDay y d.month d.day = d.toDay := by
  unfold gregorianDay Date.toDay yearStart
  rw [isLeap_eq h, dayOfYear_eq, h]
  omega

/-- The day the Gregorian calendar came into use. -/
def firstGregorian : Date := ⟨1582, 10, 15, by decide, by decide, by decide, by decide⟩

/-- The years in which the calendars give a day the same date: from March 200 to February 300. -/
def CommonDate (d : Date) : Prop :=
  d.year = 200 ∧ 2 < d.month ∨ 200 < d.year ∧ d.year < 300 ∨ d.year = 300 ∧ d.month ≤ 2

/-- The centuries that began without a leap year number two in the years after 200, up to 300. -/
theorem centuries_eq_two_iff (y : Nat) :
    ((y : Int) + 99) / 100 - (y + 399) / 400 = 2 ↔ 200 < y ∧ y ≤ 300 := by
  obtain ⟨q, c, r, hy, hc, hr⟩ : ∃ q c r : Nat, y + 99 = 400 * q + 100 * c + r ∧ c < 4 ∧ r < 100 :=
    ⟨(y + 99) / 400, (y + 99) % 400 / 100, (y + 99) % 100, by omega, by omega, by omega⟩
  interval_cases c <;> omega

theorem julianDay_eq_iff {d : Date} {y : Nat} (h : d.year = y) :
    julianDay y d.month d.day = d.toDay ↔ CommonDate d := by
  have htwo := centuries_eq_two_iff y
  rw [← gregorianDay_eq h, CommonDate, h]
  unfold julianDay gregorianDay dayOfYear
  generalize (367 * (d.month : Int) - 362) / 12 + ((d.day : Int) - 1) = ofYear
  by_cases hmonth : d.month ≤ 2
  · simp only [hmonth, if_true, and_true]
    omega
  · -- From March on, a century that begins without a leap year counts already.
    have hleap : isLeap y = true ↔ y % 4 = 0 ∧ (y % 100 ≠ 0 ∨ y % 400 = 0) := by simp [isLeap]
    simp only [hmonth, if_false, and_false, or_false, decide_eq_true_eq, hleap]
    split <;> split <;> omega

/-! ## The instant of a text

The resolver moves a day beyond the end of its month to that end, and 24:00 to the next day. The instant may be
counted by the other calendar, and may go around the range of a `long`. A real date is one to which none of this
happens. -/

/-- The day `Timestamp.valueOf` takes a date for. -/
def LocalDateTime.toDay (t : LocalDateTime) : Int :=
  let g := gregorianDay t.year t.month t.day
  if gregorianDay 1582 10 15 ≤ g then g else julianDay t.year t.month t.day

/-- The milliseconds from 1970 to it, which may not fit a `long`. -/
def LocalDateTime.millis (t : LocalDateTime) : Int := ((t.toDay * 24 + t.hour) * 60 + t.minute) * 60000

theorem timestampValueOf_eq (t : LocalDateTime) : timestampValueOf t = t.millis.bmod (2 ^ 64) := rfl

/-- Below 24:00, only a day beyond the end of its month is moved. -/
theorem resolve_eq_some {day month year hour minute : Nat} {t : LocalDateTime} (hhour : hour ≤ 23)
    (h : resolve day month year hour minute = some t) :
    t = ⟨year, month, min day (lengthOfMonth year month), hour, minute⟩ ∧ 1 ≤ year ∧ year ≤ 999999999 := by
  unfold resolve at h
  split at h
  · next hranges =>
      exact ⟨(Option.some.inj h).symm, hranges.1, hranges.2.1⟩
  · cases h

/-- A date of a year before year 1 is read as one of a later year, on a later day. -/
theorem toDay_lt_of_era {d : Date} (hera : d.year ≤ 0) (hour minute : Nat) :
    d.toDay < LocalDateTime.toDay
      ⟨eraYear d.year, d.month, min d.day (lengthOfMonth (eraYear d.year) d.month), hour, minute⟩ := by
  have hyear : (eraYear d.year : Int) = 1 - d.year := by
    unfold eraYear
    split <;> omega
  have hlength := lengthOfMonth_bounds (eraYear d.year) d.month
  have hday := d.day_le_31
  generalize hmin : min d.day (lengthOfMonth (eraYear d.year) d.month) = day
  have hday' : d.day ≤ day + 3 := by omega
  unfold LocalDateTime.toDay Date.toDay gregorianDay julianDay yearStart
  rw [← dayOfYear_eq]
  unfold dayOfYear
  simp only [hyear]
  generalize (367 * (d.month : Int) - 362) / 12 = before
  split_ifs <;> omega

/-- `s` writes a date of the calendar and a time of the day: a year from 1 on, a day within its month, an hour up
    to 23. Before the Gregorian calendar came into use, the Julian one gives the day the same date; and the
    instant fits a `long`. -/
def RealDate (s : String) : Prop :=
  ∃ m : Moment, s.toList = format m ∧ 1 ≤ m.date.year ∧
    (firstGregorian.toDay ≤ m.date.toDay ∨ CommonDate m.date) ∧ m.start < 2 ^ 63

theorem millis_of_valid {m : Moment} {y : Nat} (hy : m.date.year = y) :
    LocalDateTime.millis ⟨y, m.date.month, m.date.day, m.hour, m.minute⟩ = m.start ↔
      firstGregorian.toDay ≤ m.date.toDay ∨ CommonDate m.date := by
  have hcutover : gregorianDay 1582 10 15 = firstGregorian.toDay := gregorianDay_eq (d := firstGregorian) rfl
  have hstart : LocalDateTime.millis ⟨y, m.date.month, m.date.day, m.hour, m.minute⟩ = m.start ↔
      LocalDateTime.toDay ⟨y, m.date.month, m.date.day, m.hour, m.minute⟩ = m.date.toDay := by
    unfold LocalDateTime.millis Moment.start
    simp only
    omega
  rw [hstart, ← julianDay_eq_iff hy]
  unfold LocalDateTime.toDay
  simp only [gregorianDay_eq hy, hcutover]
  split
  · next h => exact iff_of_true rfl (Or.inl h)
  · next h => exact ⟨Or.inr, fun h' => h'.resolve_left h⟩

/-- The years of the instants of a `long`. -/
theorem year_of_covers {m : Moment} {ms : Int} (hm : m.Covers ms) (hlow : -2 ^ 63 ≤ ms) (hhigh : ms < 2 ^ 63) :
    -300000000 ≤ m.date.year ∧ m.date.year ≤ 300000000 := by
  have hday := m.date.dayOfYear_lt
  have hhour := m.hour_lt
  have hminute := m.minute_lt
  have hlength : yearLength m.date.year ≤ 366 := by
    unfold yearLength
    split <;> omega
  unfold Moment.Covers Moment.start Date.toDay yearStart at hm
  omega

/-- The days of a date that was read stay far below the range of a `long`. -/
theorem toDay_bounds {t : LocalDateTime} (hyear : 1 ≤ t.year ∧ t.year ≤ 999999999)
    (hmonth : 1 ≤ t.month ∧ t.month ≤ 12) (hday : 1 ≤ t.day ∧ t.day ≤ 31) :
    -1000000 ≤ t.toDay ∧ t.toDay ≤ 400000000000 := by
  unfold LocalDateTime.toDay gregorianDay julianDay dayOfYear
  simp only
  split_ifs <;> omega

/-- **A stored instant of the same time of the day is that of the date read**: to go around the range of a `long`
    is to come back at another time of the day. -/
theorem millis_of_covers {m : Moment} {t : LocalDateTime} (hday : -1000000 ≤ t.toDay ∧ t.toDay ≤ 400000000000)
    (hhour : t.hour = m.hour) (hminute : t.minute = m.minute) (hm : m.Covers (timestampValueOf t)) :
    t.millis = m.start ∧ t.millis < 2 ^ 63 := by
  have hlow : -2 ^ 63 ≤ timestampValueOf t := Int.le_bmod (by decide)
  have hhigh : timestampValueOf t < 2 ^ 63 := Int.bmod_lt (by decide)
  obtain ⟨turns, hturns⟩ : ∃ turns, t.millis - timestampValueOf t = 2 ^ 64 * turns := Int.dvd_self_sub_bmod
  have hfew : -2 ≤ turns ∧ turns ≤ 2 := by
    unfold LocalDateTime.millis at hturns
    have := m.hour_lt
    have := m.minute_lt
    omega
  unfold Moment.Covers Moment.start at hm
  unfold LocalDateTime.millis at hturns ⊢
  unfold Moment.start
  rw [hhour, hminute] at *
  obtain ⟨hfew, hfew'⟩ := hfew
  interval_cases turns <;> omega

/-- The minute a text writes is the one the parser reads, but for a year before year 1. -/
theorem parse_eq {s : String} {m : Moment} {t : LocalDateTime} (hs : s.toList = format m)
    (hyear : m.date.year ≤ 300000000) (hyear' : -300000000 ≤ m.date.year) (h : parseLocalDateTime s = .ok t) :
    t = ⟨eraYear m.date.year, m.date.month,
        min m.date.day (lengthOfMonth (eraYear m.date.year) m.date.month), m.hour, m.minute⟩ ∧
      -1000000 ≤ t.toDay ∧ t.toDay ≤ 400000000000 := by
  have hera : eraYear m.date.year < 10 ^ 19 := by
    unfold eraYear
    split <;> omega
  rw [parse_of_format hs hera, orThrow_eq_ok] at h
  obtain ⟨rfl, hlow, hhigh⟩ := resolve_eq_some (Nat.le_of_lt_succ m.hour_lt) h
  have hlength := lengthOfMonth_bounds (eraYear m.date.year) m.date.month
  have hday := m.date.day_pos
  exact ⟨rfl, toDay_bounds ⟨hlow, hhigh⟩ ⟨m.date.month_pos, m.date.month_le⟩ (by simp only; omega)⟩

/-- The text of a date of the calendar is read as it is. -/
theorem parse_eq_of_pos {s : String} {m : Moment} {t : LocalDateTime} (hs : s.toList = format m)
    (hpos : 1 ≤ m.date.year) (hyear : m.date.year ≤ 300000000) (h : parseLocalDateTime s = .ok t) :
    t = ⟨m.date.year.toNat, m.date.month, m.date.day, m.hour, m.minute⟩ := by
  have hy : m.date.year = (m.date.year.toNat : Int) := by omega
  obtain ⟨rfl, -⟩ := parse_eq hs hyear (by omega) h
  rw [eraYear, if_pos hpos, lengthOfMonth_eq hy, Nat.min_eq_left m.date.day_le]

/-- A real date is read as it is, in a year far below the end of the parser's range. -/
theorem parse_of_real {s : String} {m : Moment} {t : LocalDateTime} (hs : s.toList = format m)
    (hpos : 1 ≤ m.date.year) (hfits : m.start < 2 ^ 63) (h : parseLocalDateTime s = .ok t) :
    -2 ^ 63 ≤ m.start ∧ t = ⟨m.date.year.toNat, m.date.month, m.date.day, m.hour, m.minute⟩ := by
  have hlow : -2 ^ 63 ≤ m.start := by
    unfold Moment.start Date.toDay yearStart
    omega
  exact ⟨hlow, parse_eq_of_pos hs hpos (year_of_covers m.covers_start hlow hfits).2 h⟩

/-- **What is stored of a text that was accepted formats back to it exactly when it is a real date.** -/
theorem formatsAs_timestampValueOf_iff {s : String} {t : LocalDateTime} (h : parseLocalDateTime s = .ok t) :
    FormatsAs (timestampValueOf t) s ↔ RealDate s := by
  constructor
  · rintro ⟨m, hm, hs⟩
    have hyear := year_of_covers hm (Int.le_bmod (by decide)) (Int.bmod_lt (by decide))
    obtain ⟨ht, hday⟩ := parse_eq hs hyear.2 hyear.1 h
    obtain ⟨hmillis, hfits⟩ := millis_of_covers hday (by rw [ht]) (by rw [ht]) hm
    have hpos : 1 ≤ m.date.year := by
      by_contra hera
      have hlater := toDay_lt_of_era (Int.lt_add_one_iff.mp (Int.not_le.mp hera)) m.hour m.minute
      rw [← ht] at hlater
      unfold LocalDateTime.millis Moment.start at hmillis
      rw [ht] at hmillis hlater
      simp only at hmillis
      omega
    refine ⟨m, hs, hpos, ?_, hmillis ▸ hfits⟩
    rw [parse_eq_of_pos hs hpos hyear.2 h] at hmillis
    exact (millis_of_valid (by omega)).mp hmillis
  · rintro ⟨m, hs, hpos, hcalendars, hfits⟩
    obtain ⟨hlow, ht⟩ := parse_of_real hs hpos hfits h
    refine ⟨m, ?_, hs⟩
    rw [timestampValueOf_eq, ht, (millis_of_valid (by omega)).mpr hcalendars,
      Int.bmod_eq_of_le (by omega) (by omega)]
    exact m.covers_start

end NewOrbit.Bonds
