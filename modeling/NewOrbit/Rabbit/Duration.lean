import NewOrbit.Rabbit.Json

/-!
# `Rabbit.Duration` — the clock, and the duration of a calculation

`utils.cpp`'s `getCurrentTime` prints the local time with its time of day in the last twelve characters;
`receive.cpp`'s `getCalDuration` cuts those off two such texts with `substr`, `strtok` and `atoi`, and prints
the difference. The request's text comes from the client and may be anything; the response's is the worker's
own, and `response_clock` says that its half of `getCalDuration` never fails.
-/

namespace NewOrbit.Rabbit
open CString

/-! ## `getCurrentTime` -/

/-- The fields of a `struct tm` that `ctime` prints. -/
structure Tm where
  wday : Fin 7
  mon  : Fin 12
  mday : Nat
  hour : Nat
  min  : Nat
  sec  : Nat
  year : Nat
  deriving Repr

def wdayName : Fin 7 → List Char := fun d =>
  (["Sun", "Mon", "Tue", "Wed", "Thu", "Fri", "Sat"].getD d.val "").toList

def monName : Fin 12 → List Char := fun m =>
  (["Jan", "Feb", "Mar", "Apr", "May", "Jun", "Jul", "Aug", "Sep", "Oct", "Nov", "Dec"].getD m.val "").toList

/-- `ctime`: `"Fri Aug 14 16:12:08 2020\n"`. -/
def ctime (t : Tm) : List Char :=
  wdayName t.wday ++ ' ' :: monName t.mon ++ (Nat.toDigits 10 t.mday).leftpad 3 ' ' ++
    ' ' :: ld 2 t.hour ++ ':' :: ld 2 t.min ++ ':' :: ld 2 t.sec ++ ' ' :: Nat.toDigits 10 t.year ++ ['\n']

/-- The two readings of the clock: boost's time of day in microseconds, and the local time of `system_clock`. -/
structure Clock where
  time_of_day : Nat
  in_day      : time_of_day < 86400000000
  now         : Tm

def hours (c : Clock) : Nat := c.time_of_day / 3600000000
def minutes (c : Clock) : Nat := c.time_of_day / 60000000 % 60
def seconds (c : Clock) : Nat := c.time_of_day / 1000000 % 60
def milliseconds (c : Clock) : Nat :=
  c.time_of_day / 1000 - (hours c * 3600 + minutes c * 60 + seconds c) * 1000

/-- `sprintf(buf, "%02ld:%02ld:%02ld.%03ld", ..)`, in `getCurrentTime` and in `convertMilliToTime`. -/
def hhmmss (hr min sec milli : Int) : List Char :=
  ld 2 hr ++ ':' :: ld 2 min ++ ':' :: ld 2 sec ++ '.' :: ld 3 milli

def getCurrentTime (c : Clock) : String :=
  let buf := hhmmss (hours c) (minutes c) (seconds c) (milliseconds c)
  let date := (ctime c.now).dropLast
  let year := date.drop (date.length - 4)
  -- The year is read before the time of day and the year are cut off.
  let date := date.take (date.length - 13)
  String.ofList (date ++ year ++ [' '] ++ buf)

/-! ## `getCalDuration` -/

def convertMilliToTime (duration : Int) : String :=
  let hr := Int.tdiv duration 3600000
  let duration := duration - 3600000 * hr
  let min := Int.tdiv duration 60000
  let duration := duration - 60000 * min
  let sec := Int.tdiv duration 1000
  let duration := duration - 1000 * sec
  String.ofList (hhmmss hr min sec duration)

/-- One `atoi(strtok(.., ":."))`: the number, and what is left. `atoi(NULL)` is undefined. -/
def nextNumber (s : Bytes) : Option (Int × Bytes) :=
  (strtok (bytes ":.") s).bind fun (t, r) => (atoi t).map (·, r)

/-- The four numbers cut off a time of day. -/
def clockNumbers (s : Bytes) : Option (Int × Int × Int × Int) := do
  let (hour, s) ← nextNumber s
  let (min, s) ← nextNumber s
  let (sec, s) ← nextNumber s
  let (milli, _) ← nextNumber s
  return (hour, min, sec, milli)

/-- `((hour * 60 * 60) + (min * 60) + sec)*1000 + milli`, in `int`. -/
def millisec : Int × Int × Int × Int → Option Int
  | (hour, min, sec, milli) => do
    let h ← int (hour * 60)
    let h ← int (h * 60)
    let m ← int (min * 60)
    let t ← int (h + m)
    let t ← int (t + sec)
    let t ← int (t * 1000)
    int (t + milli)

/-- `s.substr(s.length() - 12, 12)`, copied into a `char` array. -/
def lastTwelve (s : String) : Except Fault Bytes :=
  (orFault (.out_of_range "basic_string::substr") (substr (bytes s) (sizeSub (bytes s).length 12) 12)).map cstr

def getCalDuration (request_time response_time : String) : Except Fault String := do
  let request_array ← lastTwelve request_time
  let response_array ← lastTwelve response_time
  let t1 ← orFault .undefined (clockNumbers request_array)
  let t2 ← orFault .undefined (clockNumbers response_array)
  let millisec1 ← orFault .undefined (millisec t1)
  let millisec2 ← orFault .undefined (millisec t2)
  return convertMilliToTime (millisec2 - millisec1)

/-! ## Which request times have a duration

`strtok` cuts the text into tokens and `atoi` reads each, so a text has a duration if its last twelve octets begin
with four tokens that are numbers, and nothing overflows on the way to milliseconds. -/

theorem tokens_of_nextNumber {s r : Bytes} {n : Int} (h : nextNumber s = some (n, r)) :
    ∃ t, tokens (bytes ":.") s = t :: tokens (bytes ":.") r ∧ atoi t = some n := by
  rcases strtok_eq_tokens (bytes ":.") s with ⟨-, hnone⟩ | ⟨t, u, htok, hsome⟩
  · rw [nextNumber, hnone] at h
    cases h
  · rw [nextNumber, hsome] at h
    obtain ⟨m, hm, heq⟩ := Option.map_eq_some_iff.mp h
    cases heq
    exact ⟨t, htok, hm⟩

theorem nextNumber_of_tokens {s t : Bytes} {ts : List Bytes} {n : Int}
    (htok : tokens (bytes ":.") s = t :: ts) (hn : atoi t = some n) :
    ∃ r, tokens (bytes ":.") r = ts ∧ nextNumber s = some (n, r) := by
  rcases strtok_eq_tokens (bytes ":.") s with ⟨hnil, -⟩ | ⟨u, r, hcons, hsome⟩
  · rw [hnil] at htok
    cases htok
  · rw [hcons] at htok
    cases htok
    refine ⟨r, rfl, ?_⟩
    rw [nextNumber, hsome]
    show (atoi _).map (·, r) = _
    rw [hn]
    rfl

/-- The four numbers are the first four tokens. -/
theorem clockNumbers_eq_some {s : Bytes} {hour min sec milli : Int} :
    clockNumbers s = some (hour, min, sec, milli) ↔ ∃ a b c d rest,
      tokens (bytes ":.") s = a :: b :: c :: d :: rest ∧
        atoi a = some hour ∧ atoi b = some min ∧ atoi c = some sec ∧ atoi d = some milli := by
  simp only [clockNumbers, Option.bind_eq_bind, Option.bind_eq_some_iff, Option.pure_def, Option.some.injEq,
    Prod.exists, Prod.mk.injEq]
  constructor
  · rintro ⟨_, s1, h1, _, s2, h2, _, s3, h3, _, s4, h4, rfl, rfl, rfl, rfl⟩
    obtain ⟨a, ha, hna⟩ := tokens_of_nextNumber h1
    obtain ⟨b, hb, hnb⟩ := tokens_of_nextNumber h2
    obtain ⟨c, hc, hnc⟩ := tokens_of_nextNumber h3
    obtain ⟨d, hd, hnd⟩ := tokens_of_nextNumber h4
    exact ⟨a, b, c, d, _, by rw [ha, hb, hc, hd], hna, hnb, hnc, hnd⟩
  · rintro ⟨a, b, c, d, rest, htok, hna, hnb, hnc, hnd⟩
    obtain ⟨s1, ht1, h1⟩ := nextNumber_of_tokens htok hna
    obtain ⟨s2, ht2, h2⟩ := nextNumber_of_tokens ht1 hnb
    obtain ⟨s3, ht3, h3⟩ := nextNumber_of_tokens ht2 hnc
    obtain ⟨s4, -, h4⟩ := nextNumber_of_tokens ht3 hnd
    exact ⟨_, s1, h1, _, s2, h2, _, s3, h3, _, s4, h4, rfl, rfl, rfl, rfl⟩

/-- The `int` computation of the milliseconds stays within `int` at every step. -/
def NoOverflow (hour min sec milli : Int) : Prop :=
  InInt (hour * 60) ∧ InInt (hour * 60 * 60) ∧ InInt (min * 60) ∧ InInt (hour * 60 * 60 + min * 60) ∧
    InInt (hour * 60 * 60 + min * 60 + sec) ∧ InInt ((hour * 60 * 60 + min * 60 + sec) * 1000) ∧
    InInt ((hour * 60 * 60 + min * 60 + sec) * 1000 + milli)

theorem millisec_eq_some {hour min sec milli ms : Int} : millisec (hour, min, sec, milli) = some ms ↔
    NoOverflow hour min sec milli ∧ ms = (hour * 60 * 60 + min * 60 + sec) * 1000 + milli := by
  simp only [millisec, Option.bind_eq_bind, Option.bind_eq_some_iff, int_eq_some, NoOverflow]
  constructor
  · rintro ⟨_, ⟨h1, rfl⟩, _, ⟨h2, rfl⟩, _, ⟨h3, rfl⟩, _, ⟨h4, rfl⟩, _, ⟨h5, rfl⟩, _, ⟨h6, rfl⟩, h7, rfl⟩
    exact ⟨⟨h1, h2, h3, h4, h5, h6, h7⟩, rfl⟩
  · rintro ⟨⟨h1, h2, h3, h4, h5, h6, h7⟩, rfl⟩
    exact ⟨_, ⟨h1, rfl⟩, _, ⟨h2, rfl⟩, _, ⟨h3, rfl⟩, _, ⟨h4, rfl⟩, _, ⟨h5, rfl⟩, _, ⟨h6, rfl⟩, h7, rfl⟩

/-- A text whose last twelve bytes, up to a NUL, start with four numbers separated by `:` and `.` that do not
    overflow as a time of day. -/
def ClockText (s : String) : Prop :=
  12 ≤ (bytes s).length ∧ ∃ a b c d rest hour min sec milli,
    tokens (bytes ":.") (cstr ((bytes s).drop ((bytes s).length - 12))) = a :: b :: c :: d :: rest ∧
      atoi a = some hour ∧ atoi b = some min ∧ atoi c = some sec ∧ atoi d = some milli ∧
      NoOverflow hour min sec milli

theorem lastTwelve_eq_ok {s : String} {t : Bytes} : lastTwelve s = .ok t ↔
    12 ≤ (bytes s).length ∧ t = cstr ((bytes s).drop ((bytes s).length - 12)) := by
  by_cases hlen : 12 ≤ (bytes s).length
  · have htake : ((bytes s).drop ((bytes s).length - 12)).take 12 = (bytes s).drop ((bytes s).length - 12) :=
      List.take_of_length_le (by rw [List.length_drop]; omega)
    simp [lastTwelve, substr, sizeSub, hlen, htake, orFault, Except.map, eq_comm]
  · have hpos : ¬ sizeSub (bytes s).length 12 ≤ (bytes s).length := by
      rw [sizeSub, if_neg hlen]
      omega
    simp [lastTwelve, substr, hpos, hlen, orFault, Except.map]

/-! ## Reading back the worker's own clock

The twelve octets of the worker's own text are two digits three times and three digits, which are read back as they
were printed. -/

theorem hours_lt (c : Clock) : hours c < 24 := by
  have := c.in_day
  unfold hours
  omega

theorem minutes_lt (c : Clock) : minutes c < 60 := Nat.mod_lt _ (by decide)

theorem seconds_lt (c : Clock) : seconds c < 60 := Nat.mod_lt _ (by decide)

theorem milliseconds_lt (c : Clock) : milliseconds c < 1000 := by
  have := c.in_day
  unfold milliseconds hours minutes seconds
  omega

/-- A field within its width is printed in exactly that width. -/
theorem length_ld (width n : Nat) (hw : 0 < width) (hn : n < 10 ^ width) :
    (ld width (n : Int)).length = width := by
  have hlen : (Nat.toDigits 10 n).length ≤ width := (Nat.length_toDigits_le_iff (by decide) hw).mpr hn
  rw [ld, if_neg (by omega), List.length_leftpad, Int.natAbs_natCast]
  omega

/-- A printed field is a token: it has no delimiter. -/
theorem ld_free {width n : Nat} : ∀ b ∈ (ld width (n : Int)).map byte, (bytes ":.").contains b = false := by
  intro b hb
  obtain ⟨c, hc, rfl⟩ := List.mem_map.mp hb
  have hdigit := digit_of_mem_ld (Int.natCast_nonneg n) hc
  have hbounds := isDigit_bounds hdigit
  have hval := byte_toNat_of_isDigit hdigit
  have hdelims : bytes ":." = [58, 46] := by decide
  rw [hdelims]
  simp only [List.contains_cons, List.contains_nil, Bool.or_false, Bool.or_eq_false_iff, beq_eq_false_iff_ne, ne_eq,
    ← UInt8.toNat_inj]
  exact ⟨by simp; omega, by simp; omega⟩

/-- A printed number that `strtok` hands out is read back. -/
theorem nextNumber_of_strtok {width n : Nat} (hn : InInt n) {s r : Bytes}
    (h : strtok (bytes ":.") s = some ((ld width (n : Int)).map byte, r)) : nextNumber s = some ((n : Int), r) := by
  rw [nextNumber, h, Option.bind_some]
  show (atoi _).map (·, r) = _
  rw [atoi_ld (Int.natCast_nonneg n) hn]
  rfl

theorem map_ld_ne_nil (width n : Nat) : (ld width (n : Int)).map byte ≠ [] := by simpa using ld_ne_nil width n

theorem nextNumber_ld {width n : Nat} (hn : InInt n) {d : UInt8} (hd : (bytes ":.").contains d = true) (s : Bytes) :
    nextNumber ((ld width (n : Int)).map byte ++ d :: s) = some ((n : Int), s) :=
  nextNumber_of_strtok hn (strtok_append_cons (map_ld_ne_nil width n) ld_free hd s)

theorem nextNumber_ld_last {width n : Nat} (hn : InInt n) :
    nextNumber ((ld width (n : Int)).map byte) = some ((n : Int), []) :=
  nextNumber_of_strtok hn (strtok_eq_self (map_ld_ne_nil width n) ld_free)

theorem bytes_hhmmss (hr min sec milli : Nat) : bytes (String.ofList (hhmmss hr min sec milli)) =
    (ld 2 hr).map byte ++ 58 :: ((ld 2 min).map byte ++ 58 :: ((ld 2 sec).map byte ++ 46 ::
      (ld 3 milli).map byte)) := by
  have hld : ∀ {w n : Nat} {c : Char}, c ∈ ld w (n : Int) → c.val ≤ 127 :=
    fun {_ n _} hc => ascii_of_isDigit (digit_of_mem_ld (Int.natCast_nonneg n) hc)
  rw [bytes_ofList]
  · simp only [hhmmss, List.map_append, List.map_cons, List.append_assoc, List.cons_append]
    rfl
  · intro c hc
    simp only [hhmmss, List.mem_append, List.mem_cons] at hc
    rcases hc with ((hc | rfl | hc) | rfl | hc) | rfl | hc
    all_goals first | exact hld hc | decide

/-- `clockNumbers` reads back the four fields that were printed. -/
theorem clockNumbers_hhmmss {hr min sec milli : Nat} (hh : InInt hr) (hm : InInt min) (hs : InInt sec)
    (hms : InInt milli) : clockNumbers (bytes (String.ofList (hhmmss hr min sec milli))) =
      some ((hr : Int), (min : Int), (sec : Int), (milli : Int)) := by
  have hcolon : (bytes ":.").contains 58 = true := by decide
  have hdot : (bytes ":.").contains 46 = true := by decide
  simp only [clockNumbers, bytes_hhmmss, nextNumber_ld hh hcolon, nextNumber_ld hm hcolon,
    nextNumber_ld hs hdot, nextNumber_ld_last hms, Option.bind_eq_bind, Option.bind_some, Option.pure_def]

theorem clockNumbers_clock (c : Clock) :
    clockNumbers (bytes (String.ofList (hhmmss (hours c) (minutes c) (seconds c) (milliseconds c)))) =
      some ((hours c : Int), (minutes c : Int), (seconds c : Int), (milliseconds c : Int)) := by
  have hh := hours_lt c
  have hm := minutes_lt c
  have hs := seconds_lt c
  have hms := milliseconds_lt c
  exact clockNumbers_hhmmss (by unfold InInt; omega) (by unfold InInt; omega) (by unfold InInt; omega)
    (by unfold InInt; omega)

/-- The numbers of a clock do not overflow `int`. -/
theorem millisec_of_clock {hr min sec milli : Nat} (hh : hr < 24) (hm : min < 60) (hs : sec < 60)
    (hms : milli < 1000) : millisec ((hr : Int), (min : Int), (sec : Int), (milli : Int)) =
      some ((((hr * 60 * 60 + min * 60 + sec) * 1000 + milli : Nat) : Int)) := by
  simp only [millisec, Option.bind_eq_bind, Option.bind_eq_some_iff, int_eq_some, InInt]
  refine ⟨_, ⟨by omega, rfl⟩, _, ⟨by omega, rfl⟩, _, ⟨by omega, rfl⟩, _, ⟨by omega, rfl⟩, _, ⟨by omega, rfl⟩, _,
    ⟨by omega, rfl⟩, by omega, by push_cast; rfl⟩

theorem ld_no_nul {width n : Nat} {b : UInt8} (hb : b ∈ (ld width (n : Int)).map byte) : b ≠ 0 := by
  obtain ⟨c, hc, rfl⟩ := List.mem_map.mp hb
  have hdigit := digit_of_mem_ld (Int.natCast_nonneg n) hc
  have hbounds := isDigit_bounds hdigit
  rw [ne_eq, ← UInt8.toNat_inj, byte_toNat_of_isDigit hdigit]
  intro h
  exact absurd (h ▸ hbounds.1) (by decide)

/-- The last twelve characters of the worker's clock are its time of day. -/
theorem lastTwelve_getCurrentTime (c : Clock) : lastTwelve (getCurrentTime c) =
    .ok (bytes (String.ofList (hhmmss (hours c) (minutes c) (seconds c) (milliseconds c)))) := by
  have hh := hours_lt c
  have hm := minutes_lt c
  have hs := seconds_lt c
  have hms := milliseconds_lt c
  have hlen : (bytes (String.ofList (hhmmss (hours c) (minutes c) (seconds c) (milliseconds c)))).length = 12 := by
    simp only [bytes_hhmmss, List.length_append, List.length_cons, List.length_map,
      length_ld 2 (hours c) (by decide) (by omega), length_ld 2 (minutes c) (by decide) (by omega),
      length_ld 2 (seconds c) (by decide) (by omega), length_ld 3 (milliseconds c) (by decide) (by omega)]
  have hnul : ∀ b ∈ bytes (String.ofList (hhmmss (hours c) (minutes c) (seconds c) (milliseconds c))), b ≠ 0 := by
    intro b hb
    simp only [bytes_hhmmss, List.mem_append, List.mem_cons] at hb
    rcases hb with hb | rfl | hb | rfl | hb | rfl | hb
    all_goals first | exact ld_no_nul hb | decide
  have hsub := substr_append
    (bytes (String.ofList ((((ctime c.now).dropLast).take (((ctime c.now).dropLast).length - 13) ++
      ((ctime c.now).dropLast).drop (((ctime c.now).dropLast).length - 4)) ++ [' '])))
    (bytes (String.ofList (hhmmss (hours c) (minutes c) (seconds c) (milliseconds c))))
  -- Whatever `ctime` printed in front, `substr` starts at the twelfth character from the end.
  rw [hlen, ← bytes_append, ← String.ofList_append] at hsub
  rw [lastTwelve, getCurrentTime, hsub]
  exact congrArg Except.ok (cstr_eq_self hnul)

/-- **The worker's half of `getCalDuration` succeeds.** -/
theorem response_clock (c : Clock) : ∃ t ns ms, lastTwelve (getCurrentTime c) = .ok t ∧
    clockNumbers t = some ns ∧ millisec ns = some ms :=
  ⟨_, _, _, lastTwelve_getCurrentTime c, clockNumbers_clock c,
    millisec_of_clock (hours_lt c) (minutes_lt c) (seconds_lt c) (milliseconds_lt c)⟩

/-- **`getCalDuration` returns exactly for the request times that read as a time of day.** -/
theorem getCalDuration_isOk {request_time : String} {c : Clock} :
    (∃ duration, getCalDuration request_time (getCurrentTime c) = .ok duration) ↔ ClockText request_time := by
  obtain ⟨t2, ns2, ms2, ht2, hns2, hms2⟩ := response_clock c
  constructor
  · rintro ⟨duration, h⟩
    -- The request's half is what is left to hold: the response's never fails.
    simp only [getCalDuration, bind_eq_ok, orFault_eq_ok] at h
    obtain ⟨t1, ht1, _, -, ⟨hour, min, sec, milli⟩, hns1, _, -, ms1, hms1, -⟩ := h
    obtain ⟨hlen, rfl⟩ := lastTwelve_eq_ok.mp ht1
    obtain ⟨a, b, c, d, rest, htok, ha, hb, hc, hd⟩ := clockNumbers_eq_some.mp hns1
    exact ⟨hlen, a, b, c, d, rest, _, _, _, _, htok, ha, hb, hc, hd, (millisec_eq_some.mp hms1).1⟩
  · rintro ⟨hlen, a, b, c, d, rest, hour, min, sec, milli, htok, ha, hb, hc, hd, hno⟩
    have hns1 := clockNumbers_eq_some.mpr ⟨a, b, c, d, rest, htok, ha, hb, hc, hd⟩
    have hms1 := millisec_eq_some.mpr ⟨hno, rfl⟩
    simp only [getCalDuration, bind_eq_ok, orFault_eq_ok]
    exact ⟨_, _, lastTwelve_eq_ok.mpr ⟨hlen, rfl⟩, _, ht2, _, hns1, _, hns2, _, hms1, _, hms2, rfl⟩

end NewOrbit.Rabbit
