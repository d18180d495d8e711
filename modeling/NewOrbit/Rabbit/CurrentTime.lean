import NewOrbit.Lib.Calendar
import NewOrbit.Rabbit.Elapsed
import NewOrbit.Rabbit.Timestamp

/-!
# `Rabbit.CurrentTime` — the instant that `getCurrentTime` names

The clock is read twice, for the time of day and then for the date. If both readings are of one local date, the text
names the first of them. When midnight passes in between, it names the time of day of the evening on the date of the
morning, almost a day ahead of both readings (`currentTime_iff`). The last twelve characters are the time of day of
the first reading in any case.
-/

namespace NewOrbit.Rabbit
open CString Calendar

/-! ## Readings, and the local time -/

/-- A reading of the clock: the nanoseconds since 1970, in 64 bits. -/
structure Reading where
  ns : Int
  ge_min : -9223372036854775808 ≤ ns
  le_max : ns ≤ 9223372036854775807

/-- What the local time is ahead at a second since 1970. The files of the zones have it in 32 bits. -/
structure Zone where
  ahead : Int → Int
  in_int : ∀ s, InInt (ahead s)

namespace Reading

/-- `tv_sec` -/
def sec (t : Reading) : Int := t.ns / 1000000000

/-- `tv_usec` -/
def usec (t : Reading) : Int := t.ns % 1000000000 / 1000

/-- The reading, rounded down to milliseconds. -/
def ms (t : Reading) : Int := t.ns / 1000000

/-- `chrono::system_clock::to_time_t` casts, and so rounds towards 1970. -/
def to_time_t (t : Reading) : Int := t.ns.tdiv 1000000000

end Reading

/-- The number of the local date at a second. -/
def localDay (zone : Zone) (s : Int) : Int := (s + zone.ahead s) / 86400

/-- `localtime`, at a second. 1 January 1970 was a Thursday. -/
def localtime (zone : Zone) (s : Int) : Tm :=
  let date := Date.ofDay (localDay zone s)
  let time := (s + zone.ahead s) % 86400
  { wday := ⟨((localDay zone s + 4) % 7).toNat, by omega⟩
    mon  := ⟨date.month - 1, by have := date.month_pos; have := date.month_le; omega⟩
    mday := date.day
    hour := (time / 3600).toNat
    min  := (time / 60 % 60).toNat
    sec  := (time % 60).toNat
    year := date.year.toNat }

/-- The two readings of `getCurrentTime`: `microsec_clock::local_time()`, and `ctime` of `system_clock::now()`. -/
def Clock.ofReadings (zone : Zone) (t1 t2 : Reading) : Clock where
  time_of_day := ((t1.sec + zone.ahead t1.sec) % 86400 * 1000000 + t1.usec).toNat
  in_day := by
    unfold Reading.usec
    omega
  now := localtime zone t2.to_time_t

/-- The milliseconds since the local midnight, at an instant in milliseconds. -/
def timeOfDay (zone : Zone) (ms : Int) : Int := (ms + zone.ahead (ms / 1000) * 1000) % day

/-- What the local clock shows at an instant in milliseconds. -/
def localTimestamp (zone : Zone) (ms : Int) : Timestamp :=
  let tm := localtime zone (ms / 1000)
  { wday := tm.wday, mon := tm.mon, mday := tm.mday, year := tm.year, hour := tm.hour, min := tm.min, sec := tm.sec
    milli := ms % 1000 }

/-! ## Local time as day and time of day

Local time is a number of days and a time of day, with the offset of the zone at that instant. Of the fields of the
clock, hours to milliseconds are the time of day, and the rest is the day. -/

theorem localDay_mul_add (zone : Zone) (ms : Int) :
    localDay zone (ms / 1000) * day + timeOfDay zone ms = ms + zone.ahead (ms / 1000) * 1000 := by
  unfold localDay timeOfDay day
  omega

theorem timeOfDay_bounds (zone : Zone) (ms : Int) : 0 ≤ timeOfDay zone ms ∧ timeOfDay zone ms < day := by
  unfold timeOfDay day
  omega

/-- The fields of the local time, by the time of day. -/
theorem localTimestamp_time (zone : Zone) (ms : Int) :
    (localTimestamp zone ms).hour = timeOfDay zone ms / 3600000 ∧
      (localTimestamp zone ms).min = timeOfDay zone ms / 60000 % 60 ∧
      (localTimestamp zone ms).sec = timeOfDay zone ms / 1000 % 60 ∧
      (localTimestamp zone ms).milli = timeOfDay zone ms % 1000 := by
  unfold localTimestamp localtime timeOfDay day
  dsimp only
  omega

/-- The fields of the clock, by its milliseconds. -/
theorem clock_time (c : Clock) : hours c = c.time_of_day / 1000 / 3600000 ∧
    minutes c = c.time_of_day / 1000 / 60000 % 60 ∧ seconds c = c.time_of_day / 1000 / 1000 % 60 ∧
      milliseconds c = c.time_of_day / 1000 % 1000 := by
  unfold milliseconds hours minutes seconds
  omega

theorem time_of_day_ofReadings (zone : Zone) (t1 t2 : Reading) :
    ((Clock.ofReadings zone t1 t2).time_of_day / 1000 : Nat) = timeOfDay zone t1.ms := by
  have hsec : t1.ms / 1000 = t1.sec := by
    unfold Reading.ms Reading.sec
    omega
  unfold timeOfDay
  rw [hsec]
  show ((((t1.sec + zone.ahead t1.sec) % 86400 * 1000000 + t1.usec).toNat / 1000 : Nat) : Int) = _
  unfold Reading.ms Reading.sec Reading.usec day
  omega

/-- The years of the readings, in all zones, are those from 1609 to 2330. -/
theorem year_localDay (zone : Zone) {s : Int} (hlow : -9223372037 ≤ s) (hhigh : s ≤ 9223372037) :
    1400 ≤ (Date.ofDay (localDay zone s)).year ∧ (Date.ofDay (localDay zone s)).year < 10000 := by
  have hzone := zone.in_int s
  have hdays : -131700 ≤ localDay zone s ∧ localDay zone s ≤ 131700 := by
    unfold localDay InInt at *
    omega
  obtain ⟨hstart, hend⟩ := yearOf_spec (localDay zone s)
  show 1400 ≤ yearOf (localDay zone s) ∧ yearOf (localDay zone s) < 10000
  generalize yearOf (localDay zone s) = year at *
  unfold yearStart at *
  constructor <;> omega

/-- boost throws for a year before 1400 or after 9999, and so for no first reading. -/
theorem year_sec (zone : Zone) (t : Reading) :
    1400 ≤ (Date.ofDay (localDay zone t.sec)).year ∧ (Date.ofDay (localDay zone t.sec)).year < 10000 := by
  have hmin := t.ge_min
  have hmax := t.le_max
  apply year_localDay <;> unfold Reading.sec <;> omega

theorem inRange_localtime (zone : Zone) (t : Reading) : (localtime zone t.to_time_t).InRange := by
  have hmin := t.ge_min
  have hmax := t.le_max
  have hsec : -9223372037 ≤ t.to_time_t ∧ t.to_time_t ≤ 9223372037 := by
    rcases Int.le_total 0 t.ns with h0 | h0
    · rw [Reading.to_time_t, Int.tdiv_eq_ediv_of_nonneg h0]
      omega
    · have hneg : t.to_time_t = -(-t.ns / 1000000000) := by
        rw [Reading.to_time_t, ← Int.tdiv_eq_ediv_of_nonneg (by omega), Int.neg_tdiv, Int.neg_neg]
      omega
  obtain ⟨hge, hlt⟩ := year_localDay zone hsec.1 hsec.2
  have hday := (Date.ofDay (localDay zone t.to_time_t)).day_le_31
  unfold localtime
  constructor <;> dsimp only <;> omega

/-! ## What the text names

The date comes from the second reading and the time of day from the first, so the text names the instants that have
both. Whether one of them lies between the readings is arithmetic, but for a zone that changes in between. -/

theorem localtime_date_iff {zone : Zone} {s s' : Int} (hyear : 0 < (localtime zone s).year) :
    ((localtime zone s).mon = (localtime zone s').mon ∧ (localtime zone s).mday = (localtime zone s').mday ∧
      (localtime zone s).year = (localtime zone s').year) ↔ localDay zone s = localDay zone s' := by
  constructor
  · rintro ⟨hmon, hmday, hyears⟩
    apply Date.ofDay_injective
    generalize hd : Date.ofDay (localDay zone s) = d
    generalize hd' : Date.ofDay (localDay zone s') = d'
    simp only [localtime, hd, hd', Fin.mk.injEq] at hmon hmday hyears hyear
    have hpos := d.month_pos
    have hpos' := d'.month_pos
    exact Date.ext (by omega) (by omega) hmday
  · intro h
    simp only [localtime, h, and_self]

/-- The text names an instant: the local clock shows it then. -/
def Names (zone : Zone) (text : String) (ms : Int) : Prop := Timestamp.read text = some (localTimestamp zone ms)

/-- **The text has the date of the second reading and the time of day of the first.** -/
theorem names_iff (zone : Zone) (t1 t2 : Reading) (ms : Int) :
    Names zone (getCurrentTime (Clock.ofReadings zone t1 t2)) ms ↔
      localDay zone (ms / 1000) = localDay zone t2.to_time_t ∧ timeOfDay zone ms = timeOfDay zone t1.ms := by
  have hrange := inRange_localtime zone t2
  have hread := read_getCurrentTime (c := Clock.ofReadings zone t1 t2) hrange
  have hyear : 0 < (localtime zone t2.to_time_t).year := Nat.lt_of_lt_of_le (by decide) hrange.year_ge
  have htod := time_of_day_ofReadings zone t1 t2
  obtain ⟨hh, hm, hs, hms⟩ := clock_time (Clock.ofReadings zone t1 t2)
  obtain ⟨hh', hm', hs', hms'⟩ := localTimestamp_time zone ms
  have hbounds := timeOfDay_bounds zone ms
  have hbounds1 := timeOfDay_bounds zone t1.ms
  rw [Names, hread, Option.some.injEq]
  constructor
  · intro heq
    have hday : localDay zone t2.to_time_t = localDay zone (ms / 1000) := by
      apply (localtime_date_iff hyear).mp
      have hmday := congrArg Timestamp.mday heq
      have hyears := congrArg Timestamp.year heq
      exact ⟨congrArg Timestamp.mon heq, Int.ofNat.inj hmday, Int.ofNat.inj hyears⟩
    have hhour := congrArg Timestamp.hour heq
    have hmin := congrArg Timestamp.min heq
    have hsec := congrArg Timestamp.sec heq
    have hmilli := congrArg Timestamp.milli heq
    dsimp only at hhour hmin hsec hmilli
    refine ⟨hday.symm, ?_⟩
    omega
  · rintro ⟨hday, htime⟩
    obtain ⟨hmon, hmday, hyears⟩ := (localtime_date_iff hyear).mpr hday.symm
    have hwday : (localtime zone t2.to_time_t).wday = (localtime zone (ms / 1000)).wday := by
      simp only [localtime, hday]
    rw [Timestamp.ext_iff]
    refine ⟨hwday, hmon, congrArg Nat.cast hmday, congrArg Nat.cast hyears, ?_, ?_, ?_, ?_⟩ <;> dsimp only <;> omega

/-- The text names an instant from the first reading to the second, both rounded down to milliseconds. -/
def NamesBetween (zone : Zone) (t1 t2 : Reading) : Prop :=
  ∃ ms, t1.ms ≤ ms ∧ ms ≤ t2.ms ∧ Names zone (getCurrentTime (Clock.ofReadings zone t1 t2)) ms

/-- Both readings are of one local date. -/
def SameDate (zone : Zone) (t1 t2 : Reading) : Prop := localDay zone t1.sec = localDay zone t2.to_time_t

/-- On the date of the second reading, and before it, the local clock shows the time of day of the first again. -/
def ComesAgain (zone : Zone) (t1 t2 : Reading) : Prop :=
  ∃ ms, t1.ms < ms ∧ ms ≤ t2.ms ∧ localDay zone (ms / 1000) = localDay zone t2.to_time_t ∧
    timeOfDay zone ms = timeOfDay zone t1.ms

theorem ms_div (t : Reading) : t.ms / 1000 = t.sec := by
  unfold Reading.ms Reading.sec
  omega

theorem ms_mono {t1 t2 : Reading} (h : t1.ns ≤ t2.ns) : t1.ms ≤ t2.ms := by
  unfold Reading.ms
  omega

theorem namesBetween_iff {zone : Zone} {t1 t2 : Reading} (h : t1.ns ≤ t2.ns) :
    NamesBetween zone t1 t2 ↔ SameDate zone t1 t2 ∨ ComesAgain zone t1 t2 := by
  constructor
  · rintro ⟨ms, hle, hle', hnames⟩
    obtain ⟨hday, htime⟩ := (names_iff zone t1 t2 ms).mp hnames
    rcases Int.lt_or_eq_of_le hle with hlt | rfl
    · exact Or.inr ⟨ms, hlt, hle', hday, htime⟩
    · rw [ms_div] at hday
      exact Or.inl hday
  · rintro (hsame | ⟨ms, hlt, hle', hday, htime⟩)
    · refine ⟨t1.ms, Int.le_refl _, ms_mono h, (names_iff zone t1 t2 t1.ms).mpr ⟨?_, rfl⟩⟩
      rw [ms_div]
      exact hsame
    · exact ⟨ms, Int.le_of_lt hlt, hle', (names_iff zone t1 t2 ms).mpr ⟨hday, htime⟩⟩

/-- **As long as the zone does not change** between two readings after 1970, the text names an instant between them
    exactly when the time of day of the first is not later than that of the second. -/
theorem namesBetween_iff_of_zone {zone : Zone} {t1 t2 : Reading} (h : t1.ns ≤ t2.ns) (h0 : 0 ≤ t2.ns)
    (hzone : ∀ s, t1.sec ≤ s → s ≤ t2.sec → zone.ahead s = zone.ahead t1.sec) :
    NamesBetween zone t1 t2 ↔ timeOfDay zone t1.ms ≤ timeOfDay zone t2.ms := by
  have hsec : t2.to_time_t = t2.ms / 1000 := by
    rw [ms_div, Reading.to_time_t, Int.tdiv_eq_ediv_of_nonneg h0, Reading.sec]
  have hms := ms_mono h
  have hahead : ∀ ms, t1.ms ≤ ms → ms ≤ t2.ms → zone.ahead (ms / 1000) = zone.ahead t1.sec := by
    intro ms hle hle'
    apply hzone
    · rw [← ms_div]
      omega
    · rw [← ms_div]
      omega
  have h1 := localDay_mul_add zone t1.ms
  have h2 := localDay_mul_add zone t2.ms
  rw [hahead t1.ms (Int.le_refl _) hms] at h1
  rw [hahead t2.ms hms (Int.le_refl _)] at h2
  simp only [NamesBetween, names_iff, hsec]
  constructor
  · rintro ⟨ms, hle, hle', hday, htime⟩
    have hlocal := localDay_mul_add zone ms
    rw [hahead ms hle hle', hday, htime] at hlocal
    omega
  · intro htime
    have hb1 := timeOfDay_bounds zone t1.ms
    have hb2 := timeOfDay_bounds zone t2.ms
    -- The instant with the time of day of the first reading, on the date of the second.
    obtain ⟨ms, hms⟩ : ∃ ms, ms = t2.ms - timeOfDay zone t2.ms + timeOfDay zone t1.ms := ⟨_, rfl⟩
    have hle : t1.ms ≤ ms := by
      unfold day at *
      omega
    have hle' : ms ≤ t2.ms := by omega
    have hlocal := localDay_mul_add zone ms
    have hb := timeOfDay_bounds zone ms
    rw [hahead ms hle hle'] at hlocal
    refine ⟨ms, hle, hle', ?_⟩
    unfold day at *
    omega

/-! ## The time of day that is cut off

The last twelve characters are printed from the first reading alone. -/

theorem rendering_ofReadings (zone : Zone) (t1 t2 : Reading) :
    rendering (timeOfDay zone t1.ms).toNat = String.ofList (hhmmss (hours (Clock.ofReadings zone t1 t2))
      (minutes (Clock.ofReadings zone t1 t2)) (seconds (Clock.ofReadings zone t1 t2))
      (milliseconds (Clock.ofReadings zone t1 t2))) := by
  obtain ⟨hh, hm, hs, hms⟩ := clock_time (Clock.ofReadings zone t1 t2)
  rw [← time_of_day_ofReadings zone t1 t2, Int.toNat_natCast, rendering, hh, hm, hs, hms]

/-- The last twelve characters of a text are the time of day of the first reading, and `getCalDuration` cuts them
    off. -/
def EndsWithTime (zone : Zone) (t1 : Reading) (text : String) : Prop :=
  ∃ front time, text = front ++ time ∧ time.length = 12 ∧ time = rendering (timeOfDay zone t1.ms).toNat ∧
    lastTwelve text = .ok (bytes time)

theorem length_hhmmss (c : Clock) : (hhmmss (hours c) (minutes c) (seconds c) (milliseconds c)).length = 12 := by
  have hour := length_ld 2 (hours c) (by decide) (Nat.lt_trans (hours_lt c) (by decide))
  have min := length_ld 2 (minutes c) (by decide) (Nat.lt_trans (minutes_lt c) (by decide))
  have sec := length_ld 2 (seconds c) (by decide) (Nat.lt_trans (seconds_lt c) (by decide))
  have milli := length_ld 3 (milliseconds c) (by decide) (milliseconds_lt c)
  simp only [hhmmss, List.length_append, List.length_cons, hour, min, sec, milli]

theorem endsWithTime (zone : Zone) (t1 t2 : Reading) :
    EndsWithTime zone t1 (getCurrentTime (Clock.ofReadings zone t1 t2)) := by
  have hlast := lastTwelve_getCurrentTime (Clock.ofReadings zone t1 t2)
  have htext := getCurrentTime_eq (c := Clock.ofReadings zone t1 t2) (inRange_localtime zone t2)
  rw [String.ofList_append, ← rendering_ofReadings] at htext
  rw [← rendering_ofReadings] at hlast
  refine ⟨_, rendering (timeOfDay zone t1.ms).toNat, htext, ?_, rfl, hlast⟩
  rw [rendering_ofReadings zone t1 t2, String.length_ofList]
  exact length_hhmmss _

/-- **The text names an instant between its two readings exactly when both are of one local date**, or so far apart
    that the time of day comes again. As long as the zone does not change, that is when the time of day has not
    started anew. The time of day that is cut off is right in any case. -/
theorem currentTime_iff (zone : Zone) (t1 t2 : Reading) (h : t1.ns ≤ t2.ns) :
    EndsWithTime zone t1 (getCurrentTime (Clock.ofReadings zone t1 t2)) ∧
      (NamesBetween zone t1 t2 ↔ SameDate zone t1 t2 ∨ ComesAgain zone t1 t2) ∧
      ((0 ≤ t2.ns ∧ ∀ s, t1.sec ≤ s → s ≤ t2.sec → zone.ahead s = zone.ahead t1.sec) →
        (NamesBetween zone t1 t2 ↔ timeOfDay zone t1.ms ≤ timeOfDay zone t2.ms)) :=
  ⟨endsWithTime zone t1 t2, namesBetween_iff h, fun hzone => namesBetween_iff_of_zone h hzone.1 hzone.2⟩

def utc : Zone := { ahead := fun _ => 0, in_int := fun _ => by decide }

/-- 14 August 2020, eight milliseconds apart. -/
theorem currentTime_iff_afternoon : NamesBetween utc ⟨1597421528539000000, by decide, by decide⟩
    ⟨1597421528547000000, by decide, by decide⟩ :=
  ((currentTime_iff utc ⟨1597421528539000000, by decide, by decide⟩ ⟨1597421528547000000, by decide, by decide⟩
    (by decide)).2.2 ⟨by decide, fun _ _ _ => rfl⟩).mpr (by decide)

/-- Across midnight. -/
theorem not_always_current : ¬ ∀ (zone : Zone) (t1 t2 : Reading), t1.ns ≤ t2.ns → NamesBetween zone t1 t2 := by
  intro h
  have hnames := h utc ⟨1597449599999000000, by decide, by decide⟩ ⟨1597449600000000000, by decide, by decide⟩
    (by decide)
  have htime := (namesBetween_iff_of_zone (by decide) (by decide) (fun _ _ _ => rfl)).mp hnames
  exact absurd htime (by decide)

example : getCurrentTime (Clock.ofReadings utc ⟨1597449599999000000, by decide, by decide⟩
    ⟨1597449600000000000, by decide, by decide⟩) = "Sat Aug 15 2020 23:59:59.999" := by decide

end NewOrbit.Rabbit
