import NewOrbit.Rabbit.Dashboard

/-!
# `Rabbit.Elapsed` — the duration of a calculation, over the instants

The client sends the text its `getCurrentTime` gives at the request, the worker takes the text of its own at the
response, and `getCalDuration` subtracts the two times of day. Of the date in front nothing is read. The result is
the time that has passed when both clocks count from the same midnight, and is wrong otherwise
(`getCalDuration_elapsed_iff`): behind a midnight by the days in between, behind a change of the zone's offset by
that change. A response in the early morning to a request of the evening before has a negative duration.
-/

namespace NewOrbit.Rabbit
open CString

/-! ## The text of a duration is read in one way

A negative field shows by its sign, and digits behind zeros are read in one way, so two durations with the same text
are one. -/

theorem ld_injective {width m n : Nat} (h : ld width (m : Int) = ld width (n : Int)) : m = n := by
  rw [← digits_ld width m, ← digits_ld width n, h]

/-- A field that has no sign in front is not negative. -/
theorem nonneg_of_ld {width : Nat} {n : Int} (h : '-' ∉ ld width n) : 0 ≤ n := by
  by_contra hneg
  rw [ld, if_pos (Int.not_le.mp hneg)] at h
  exact h List.mem_cons_self

theorem no_sign_ld (width n : Nat) : '-' ∉ ld width (n : Int) := by
  intro h
  exact absurd (isDigit_ld width n '-' h) (by decide)

theorem no_sign_hhmmss (hr min sec milli : Nat) : '-' ∉ hhmmss hr min sec milli := by
  simp [hhmmss, no_sign_ld]

theorem nonneg_of_hhmmss {hr min sec milli : Int} (h : '-' ∉ hhmmss hr min sec milli) :
    0 ≤ hr ∧ 0 ≤ min ∧ 0 ≤ sec ∧ 0 ≤ milli := by
  simp only [hhmmss, List.mem_append, List.mem_cons, not_or] at h
  obtain ⟨⟨⟨hhr, -, hmin⟩, -, hsec⟩, -, hmilli⟩ := h
  exact ⟨nonneg_of_ld hhr, nonneg_of_ld hmin, nonneg_of_ld hsec, nonneg_of_ld hmilli⟩

/-- The fields behind the hours have a fixed width, so the text tells the four fields apart. -/
theorem hhmmss_injective {hr min sec milli hr' min' sec' milli' : Nat} (hm : min < 60) (hm' : min' < 60)
    (hs : sec < 60) (hs' : sec' < 60) (hms : milli < 1000) (hms' : milli' < 1000)
    (h : hhmmss hr min sec milli = hhmmss hr' min' sec' milli') :
    hr = hr' ∧ min = min' ∧ sec = sec' ∧ milli = milli' := by
  have hwidth : ∀ {w m n : Nat}, 0 < w → m < 10 ^ w → n < 10 ^ w →
      (ld w (m : Int)).length = (ld w (n : Int)).length :=
    fun hw hm hn => (length_ld _ _ hw hm).trans (length_ld _ _ hw hn).symm
  have hmin : (ld 2 (min : Int)).length = (ld 2 (min' : Int)).length := hwidth (by decide) (by omega) (by omega)
  have hsec : (ld 2 (sec : Int)).length = (ld 2 (sec' : Int)).length := hwidth (by decide) (by omega) (by omega)
  have hmilli : (ld 3 (milli : Int)).length = (ld 3 (milli' : Int)).length :=
    hwidth (by decide) (by omega) (by omega)
  obtain ⟨h, h4⟩ := List.append_inj' h (by rw [List.length_cons, List.length_cons, hmilli])
  obtain ⟨h, h3⟩ := List.append_inj' h (by rw [List.length_cons, List.length_cons, hsec])
  obtain ⟨h1, h2⟩ := List.append_inj' h (by rw [List.length_cons, List.length_cons, hmin])
  exact ⟨ld_injective h1, ld_injective (List.cons.inj h2).2, ld_injective (List.cons.inj h3).2,
    ld_injective (List.cons.inj h4).2⟩

/-- The rendering of a number of milliseconds as hours, minutes, seconds and milliseconds. -/
def rendering (ms : Nat) : String :=
  String.ofList (hhmmss (ms / 3600000 : Nat) (ms / 60000 % 60 : Nat) (ms / 1000 % 60 : Nat) (ms % 1000 : Nat))

theorem convertMilliToTime_eq_rendering (n : Nat) : convertMilliToTime n = rendering n := by
  have hmin : n % 3600000 / 60000 = n / 60000 % 60 := by omega
  have hsec : n % 60000 / 1000 = n / 1000 % 60 := by omega
  rw [convertMilliToTime_natCast, rendering, hmin, hsec]

theorem rendering_injective {m n : Nat} (h : rendering m = rendering n) : m = n := by
  obtain ⟨hh, hm, hs, hms⟩ := hhmmss_injective (by omega) (by omega) (by omega) (by omega) (by omega) (by omega)
    (String.ofList_injective h)
  omega

/-- **A duration is rendered as the milliseconds it counts, and as those of no other duration.** -/
theorem convertMilliToTime_eq_iff {d : Int} {n : Nat} : convertMilliToTime d = rendering n ↔ d = n := by
  constructor
  · intro h
    have hchars := String.ofList_injective h
    -- No field of a rendering has a sign, and the fields of `d` add up to `d`.
    obtain ⟨hhr, hmin, hsec, hmilli⟩ := nonneg_of_hhmmss (hchars ▸ no_sign_hhmmss _ _ _ _)
    have hd : 0 ≤ d := by omega
    obtain ⟨m, rfl⟩ := Int.eq_ofNat_of_zero_le hd
    rw [convertMilliToTime_eq_rendering] at h
    exact congrArg Nat.cast (rendering_injective h)
  · rintro rfl
    exact convertMilliToTime_eq_rendering n

/-! ## Two clocks

Each text ends with the time of day of its clock. The difference of these is the time that has passed exactly if the
two midnights they are counted from are the same instant. -/

/-- The milliseconds of a day. -/
def day : Int := 86400000

/-- The local midnight before an instant. Instants are in milliseconds since the epoch; `zone t` is what the local
    time is ahead at the instant `t`. -/
def midnight (zone : Int → Int) (t : Int) : Int := t - (t + zone t) % day

/-- What the clock reads at the instant `t`, to the millisecond. -/
def Clock.At (c : Clock) (zone : Int → Int) (t : Int) : Prop :=
  (c.time_of_day / 1000 : Nat) = (t + zone t) % day

/-- `getCalDuration` subtracts the times of day. -/
theorem getCalDuration_getCurrentTime (c1 c2 : Clock) :
    getCalDuration (getCurrentTime c1) (getCurrentTime c2) =
      .ok (convertMilliToTime ((c2.time_of_day / 1000 : Nat) - (c1.time_of_day / 1000 : Nat))) := by
  have hclock : ∀ c : Clock, ∃ t ns, lastTwelve (getCurrentTime c) = .ok t ∧ clockNumbers t = some ns ∧
      millisec ns = some ((c.time_of_day / 1000 : Nat) : Int) := by
    intro c
    have hsum : (hours c * 60 * 60 + minutes c * 60 + seconds c) * 1000 + milliseconds c =
        c.time_of_day / 1000 := by
      unfold milliseconds hours minutes seconds
      omega
    refine ⟨_, _, lastTwelve_getCurrentTime c, clockNumbers_clock c, ?_⟩
    rw [millisec_of_clock (hours_lt c) (minutes_lt c) (seconds_lt c) (milliseconds_lt c), hsum]
  obtain ⟨t1, ns1, ht1, hns1, hms1⟩ := hclock c1
  obtain ⟨t2, ns2, ht2, hns2, hms2⟩ := hclock c2
  simp only [getCalDuration, bind_eq_ok, orFault_eq_ok]
  exact ⟨_, ht1, _, ht2, _, hns1, _, hns2, _, hms1, _, hms2, rfl⟩

/-- **The duration is the time that has passed exactly when both clocks count from the same midnight.** -/
theorem getCalDuration_elapsed_iff (zone1 zone2 : Int → Int) (t1 t2 : Int) (hle : t1 ≤ t2) (c1 c2 : Clock)
    (h1 : c1.At zone1 t1) (h2 : c2.At zone2 t2) :
    getCalDuration (getCurrentTime c1) (getCurrentTime c2) = .ok (rendering (t2 - t1).toNat) ↔
      midnight zone1 t1 = midnight zone2 t2 := by
  rw [getCalDuration_getCurrentTime, Except.ok.injEq, convertMilliToTime_eq_iff, h1, h2, midnight, midnight]
  omega

/-- Four minutes, two hours ahead of UTC. -/
theorem getCalDuration_elapsed_iff_noon :
    getCalDuration (getCurrentTime ⟨43200000000, by decide, ⟨5, 7, 14, 12, 0, 0, 2020⟩⟩)
      (getCurrentTime ⟨43440000999, by decide, ⟨5, 7, 14, 12, 4, 0, 2020⟩⟩) = .ok (rendering 240000) ↔
        midnight (fun _ => 7200000) 36000000 = midnight (fun _ => 7200000) 36240000 :=
  getCalDuration_elapsed_iff _ _ 36000000 36240000 (by decide) _ _ (by unfold Clock.At; decide)
    (by unfold Clock.At; decide)

/-- Across midnight: one millisecond is rendered as a negative duration of almost a day. -/
theorem not_always_elapsed : ¬ ∀ (zone : Int → Int) (t1 t2 : Int) (c1 c2 : Clock), t1 ≤ t2 → c1.At zone t1 →
    c2.At zone t2 →
      getCalDuration (getCurrentTime c1) (getCurrentTime c2) = .ok (rendering (t2 - t1).toNat) := by
  intro h
  have hone := h (fun _ => 0) 86399999 86400000 ⟨86399999000, by decide, ⟨4, 0, 1, 23, 59, 59, 1970⟩⟩
    ⟨0, by decide, ⟨5, 0, 2, 0, 0, 0, 1970⟩⟩ (by decide) (by unfold Clock.At; decide) (by unfold Clock.At; decide)
  rw [getCalDuration_getCurrentTime, Except.ok.injEq, convertMilliToTime_eq_iff] at hone
  exact absurd hone (by decide)

end NewOrbit.Rabbit
