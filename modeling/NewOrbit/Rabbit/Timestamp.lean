import NewOrbit.Rabbit.Duration

/-!
# `Rabbit.Timestamp` — what the texts of the clock say

`getCurrentTime` puts its text together from pieces of fixed length that it cuts off the end of what `ctime` prints.
For a date with a year of four digits these are the date, the year and the time of day (`toList_getCurrentTime`), so
the text is read back as the fields that went into it (`read_getCurrentTime`).
-/

namespace NewOrbit.Rabbit
open CString

/-- The fields that a text like `Fri Aug 14 2020 16:12:08.539` names. -/
@[ext] structure Timestamp where
  wday  : Fin 7
  mon   : Fin 12
  mday  : Int
  year  : Int
  hour  : Int
  min   : Int
  sec   : Int
  milli : Int
  deriving DecidableEq, Repr

/-- The name that a word is. -/
def named {n : Nat} (name : Fin n → List Char) (word : Bytes) : Option (Fin n) :=
  (List.finRange n).find? fun i => (name i).map byte = word

/-- Five words: weekday, month, day, year and time of day. -/
def Timestamp.read (text : String) : Option Timestamp :=
  match tokens (bytes " ") (bytes text) with
  | [wday, mon, mday, year, time] => do
      let wday ← named wdayName wday
      let mon ← named monName mon
      let mday ← atoi mday
      let year ← atoi year
      let (hour, min, sec, milli) ← clockNumbers time
      return { wday, mon, mday, year, hour, min, sec, milli }
  | _ => none

/-! ## The pieces of the text -/

/-- The ranges of the fields that `localtime` gives, for a year of four digits. -/
structure Tm.InRange (t : Tm) : Prop where
  mday : t.mday < 100
  hour : t.hour < 24
  min : t.min < 60
  sec : t.sec < 60
  year_ge : 1000 ≤ t.year
  year_lt : t.year < 10000

/-- The date that `ctime` prints, with the blank behind it. -/
def datePart (t : Tm) : List Char :=
  wdayName t.wday ++ ' ' :: (monName t.mon ++ ((Nat.toDigits 10 t.mday).leftpad 3 ' ' ++ [' ']))

def timePart (t : Tm) : List Char := ld 2 t.hour ++ ':' :: (ld 2 t.min ++ ':' :: (ld 2 t.sec ++ [' ']))

theorem ctime_eq (t : Tm) : ctime t = datePart t ++ timePart t ++ Nat.toDigits 10 t.year ++ ['\n'] := by
  simp [ctime, datePart, timePart]

theorem length_timePart {t : Tm} (h : t.InRange) : (timePart t).length = 9 := by
  have hlen : ∀ {n : Nat}, n < 100 → (ld 2 (n : Int)).length = 2 := fun hn => length_ld 2 _ (by decide) hn
  have hour := hlen (Nat.lt_trans h.hour (by decide))
  have min := hlen (Nat.lt_trans h.min (by decide))
  have sec := hlen (Nat.lt_trans h.sec (by decide))
  simp only [timePart, List.length_append, List.length_cons, List.length_nil, hour, min, sec]

theorem length_year {t : Tm} (h : t.InRange) : (Nat.toDigits 10 t.year).length = 4 := by
  have hle := (Nat.length_toDigits_le_iff (b := 10) (k := 4) (by decide) (by decide)).mpr h.year_lt
  have hgt := mt (Nat.length_toDigits_le_iff (b := 10) (k := 3) (by decide) (by decide)).mp (Nat.not_lt.mpr h.year_ge)
  omega

/-- Cutting off both ends of a date. -/
theorem take_drop_date (date : List Char) {time year : List Char} (htime : time.length = 9)
    (hyear : year.length = 4) :
    (date ++ time ++ year).take ((date ++ time ++ year).length - 13) = date ∧
      (date ++ time ++ year).drop ((date ++ time ++ year).length - 4) = year := by
  have hlen : (date ++ time ++ year).length = date.length + 13 := by
    rw [List.length_append, List.length_append, htime, hyear]
  rw [hlen]
  constructor
  · rw [Nat.add_sub_cancel, List.append_assoc, List.take_left]
  · have hfront : date.length + 13 - 4 = (date ++ time).length := by
      rw [List.length_append, htime]
      rfl
    rw [hfront, List.drop_left]

/-- The text of the clock. -/
theorem getCurrentTime_eq {c : Clock} (h : c.now.InRange) : getCurrentTime c =
    String.ofList (datePart c.now ++ Nat.toDigits 10 c.now.year ++ [' '] ++
      hhmmss (hours c) (minutes c) (seconds c) (milliseconds c)) := by
  have hdate : (ctime c.now).dropLast = datePart c.now ++ timePart c.now ++ Nat.toDigits 10 c.now.year := by
    rw [ctime_eq, List.dropLast_concat]
  obtain ⟨htake, hdrop⟩ := take_drop_date (datePart c.now) (length_timePart h) (length_year h)
  simp only [getCurrentTime, hdate, htake, hdrop]

/-! ## Words -/

/-- A piece of the text between blanks. -/
structure Word (l : List Char) : Prop where
  ne_nil : l ≠ []
  visible : ∀ ch ∈ l, 33 ≤ ch.val.toNat ∧ ch.val.toNat ≤ 126

theorem word_of_all {l : List Char}
    (h : (!l.isEmpty && l.all fun ch => decide (33 ≤ ch.val.toNat ∧ ch.val.toNat ≤ 126)) = true) : Word l := by
  rw [Bool.and_eq_true, List.all_eq_true] at h
  refine ⟨fun hnil => ?_, fun ch hch => of_decide_eq_true (h.2 ch hch)⟩
  rw [hnil] at h
  exact absurd h.1 (by decide)

theorem word_wdayName (d : Fin 7) : Word (wdayName d) := by
  apply word_of_all
  decide +revert

theorem word_monName (m : Fin 12) : Word (monName m) := by
  apply word_of_all
  decide +revert

theorem word_toDigits (n : Nat) : Word (Nat.toDigits 10 n) := by
  refine ⟨Nat.toDigits_ne_nil, fun ch hch => ?_⟩
  have hbounds := isDigit_bounds (Nat.isDigit_of_mem_toDigits (by decide) (by decide) hch)
  omega

theorem word_hhmmss (hr min sec milli : Nat) : Word (hhmmss hr min sec milli) := by
  have hld : ∀ {width n : Nat} {ch : Char}, ch ∈ ld width (n : Int) → 33 ≤ ch.val.toNat ∧ ch.val.toNat ≤ 126 := by
    intro width n ch hch
    have hbounds := isDigit_bounds (digit_of_mem_ld (Int.natCast_nonneg n) hch)
    omega
  refine ⟨by simp [hhmmss], fun ch hch => ?_⟩
  simp only [hhmmss, List.mem_append, List.mem_cons] at hch
  rcases hch with ((hch | rfl | hch) | rfl | hch) | rfl | hch
  all_goals first | exact hld hch | decide

namespace Word
variable {l : List Char}

theorem ascii (h : Word l) : ∀ ch ∈ l, ch.val ≤ 127 := by
  intro ch hch
  have hvisible := h.visible ch hch
  exact UInt32.le_iff_toNat_le.mpr (show ch.val.toNat ≤ 127 by omega)

theorem bytes_eq (h : Word l) : bytes (String.ofList l) = l.map byte := bytes_ofList h.ascii

theorem map_ne_nil (h : Word l) : l.map byte ≠ [] := mt List.map_eq_nil_iff.mp h.ne_nil

/-- There is no blank in a word. -/
theorem free (h : Word l) : ∀ b ∈ l.map byte, (bytes " ").contains b = false := by
  have hblank : bytes " " = [32] := by decide
  intro b hb
  obtain ⟨ch, hch, rfl⟩ := List.mem_map.mp hb
  have hvisible := h.visible ch hch
  have hval : (byte ch).toNat = ch.val.toNat := by
    simp only [byte, UInt32.toNat_toUInt8]
    omega
  simp only [hblank, List.contains_cons, List.contains_nil, Bool.or_false, beq_eq_false_iff_ne, ne_eq,
    ← UInt8.toNat_inj, hval]
  show ¬ ch.val.toNat = 32
  omega

end Word

/-! ## Reading the text back -/

theorem named_wdayName (d : Fin 7) : named wdayName ((wdayName d).map byte) = some d := by
  decide +revert

theorem named_monName (m : Fin 12) : named monName ((monName m).map byte) = some m := by
  decide +revert

theorem ld_eq_toDigits (n : Nat) : ld 0 (n : Int) = Nat.toDigits 10 n := by
  rw [ld, if_neg (by omega), Int.natAbs_natCast]
  simp [List.leftpad]

theorem atoi_toDigits {n : Nat} (h : InInt n) : atoi ((Nat.toDigits 10 n).map byte) = some (n : Int) := by
  rw [← ld_eq_toDigits]
  exact atoi_ld (Int.natCast_nonneg n) h

theorem tokens_blanks (n : Nat) (s : Bytes) :
    tokens (bytes " ") (List.replicate n 32 ++ s) = tokens (bytes " ") s := by
  induction n with
  | zero => rfl
  | succ n ih =>
      rw [List.replicate_succ, List.cons_append, tokens_cons_delim (by decide), ih]

/-- The bytes of the date: its words, with blanks between them. -/
theorem bytes_datePart {t : Tm} (h : t.InRange) : ∃ n, bytes (String.ofList (datePart t)) =
    (wdayName t.wday).map byte ++ 32 :: ((monName t.mon).map byte ++ 32 :: (List.replicate n 32 ++
      ((Nat.toDigits 10 t.mday).map byte ++ [32]))) := by
  have hascii : ∀ ch ∈ datePart t, ch.val ≤ 127 := by
    intro ch hch
    simp only [datePart, List.leftpad, List.mem_append, List.mem_cons, List.not_mem_nil, or_false] at hch
    rcases hch with hch | rfl | hch | (hch | hch) | rfl
    · exact (word_wdayName t.wday).ascii ch hch
    · decide
    · exact (word_monName t.mon).ascii ch hch
    · rw [List.eq_of_mem_replicate hch]
      decide
    · exact (word_toDigits t.mday).ascii ch hch
    · decide
  -- A day has at most two digits, so there is a blank in front of it.
  have hlen : (Nat.toDigits 10 t.mday).length ≤ 2 :=
    (Nat.length_toDigits_le_iff (b := 10) (k := 2) (by decide) (by decide)).mpr h.mday
  have hpad : 3 - (Nat.toDigits 10 t.mday).length = 2 - (Nat.toDigits 10 t.mday).length + 1 := by omega
  refine ⟨2 - (Nat.toDigits 10 t.mday).length, ?_⟩
  have hblank : byte ' ' = 32 := by decide
  rw [bytes_ofList hascii, datePart, List.leftpad, hpad, List.replicate_succ]
  simp [hblank]

/-- The words of the text. -/
theorem tokens_getCurrentTime {c : Clock} (h : c.now.InRange) : tokens (bytes " ") (bytes (getCurrentTime c)) =
    [(wdayName c.now.wday).map byte, (monName c.now.mon).map byte, (Nat.toDigits 10 c.now.mday).map byte,
      (Nat.toDigits 10 c.now.year).map byte,
      bytes (String.ofList (hhmmss (hours c) (minutes c) (seconds c) (milliseconds c)))] := by
  have hblank : (bytes " ").contains 32 = true := by decide
  have hspace : bytes (String.ofList [' ']) = [32] := by decide
  obtain ⟨n, hdate⟩ := bytes_datePart h
  have hwday := word_wdayName c.now.wday
  have hmon := word_monName c.now.mon
  have hmday := word_toDigits c.now.mday
  have hyear := word_toDigits c.now.year
  have htime := word_hhmmss (hours c) (minutes c) (seconds c) (milliseconds c)
  have htext : bytes (getCurrentTime c) = (wdayName c.now.wday).map byte ++ 32 :: ((monName c.now.mon).map byte ++
      32 :: (List.replicate n 32 ++ ((Nat.toDigits 10 c.now.mday).map byte ++ 32 ::
        ((Nat.toDigits 10 c.now.year).map byte ++
          32 :: (hhmmss (hours c) (minutes c) (seconds c) (milliseconds c)).map byte)))) := by
    rw [getCurrentTime_eq h, String.ofList_append, String.ofList_append, String.ofList_append, bytes_append,
      bytes_append, bytes_append, hdate, hyear.bytes_eq, hspace, htime.bytes_eq]
    simp only [List.append_assoc, List.cons_append, List.nil_append]
  rw [htext, htime.bytes_eq, tokens_append_cons hwday.map_ne_nil hwday.free hblank,
    tokens_append_cons hmon.map_ne_nil hmon.free hblank, tokens_blanks,
    tokens_append_cons hmday.map_ne_nil hmday.free hblank, tokens_append_cons hyear.map_ne_nil hyear.free hblank,
    tokens_eq_singleton htime.map_ne_nil htime.free]

/-- **The text of the clock reads as the fields of its two readings.** -/
theorem read_getCurrentTime {c : Clock} (h : c.now.InRange) : Timestamp.read (getCurrentTime c) = some
    { wday := c.now.wday, mon := c.now.mon, mday := c.now.mday, year := c.now.year, hour := hours c
      min := minutes c, sec := seconds c, milli := milliseconds c } := by
  have hmday : InInt c.now.mday := by
    have := h.mday
    unfold InInt
    omega
  have hyear : InInt c.now.year := by
    have := h.year_lt
    unfold InInt
    omega
  simp only [Timestamp.read, tokens_getCurrentTime h, named_wdayName, named_monName, atoi_toDigits hmday,
    atoi_toDigits hyear, clockNumbers_clock, Option.bind_eq_bind, Option.bind_some, Option.pure_def]

end NewOrbit.Rabbit
