import Mathlib.Algebra.Group.Int.Defs
import Mathlib.Algebra.Group.Nat.Defs
import Mathlib.Data.List.DropRight
import Mathlib.Data.List.Infix

/-!
# `Bonds.Java` — strings, numbers and dates as the Java library reads them

The two bond programs convert CSV text by `String.trim`, `Integer.parseInt`, `Long.parseLong`,
`new BigDecimal(String)`, and `LocalDateTime.parse` followed by `Timestamp.valueOf` in the UTC time zone. A
`String` here is the sequence of its characters; that Java counts a supplementary character twice shows in
`length` and `substring1` only.
-/

namespace NewOrbit.Bonds

/-- The exceptions that leave a method of the two programs, by class. -/
inductive JavaException where
  | IOException
  | NullPointerException
  | IndexOutOfBoundsException
  | NumberFormatException
  | DateTimeParseException
  | ArithmeticException
  | AssertionError
  deriving DecidableEq, Repr

/-- A result, or the exception that stands for its absence. -/
def orThrow {α : Type} (e : JavaException) : Option α → Except JavaException α
  | some a => .ok a
  | none   => .error e

@[simp] theorem orThrow_eq_ok {α : Type} {e : JavaException} {o : Option α} {a : α} :
    orThrow e o = .ok a ↔ o = some a := by
  cases o <;> simp [orThrow]

theorem orThrow_error {α : Type} {e e' : JavaException} {o : Option α} (h : orThrow e o = .error e') : e' = e := by
  cases o with
  | none => exact (Except.error.inj h).symm
  | some a => cases h

/-- What a sequence returns, its first part has let through. -/
@[simp] theorem bind_eq_ok {α β : Type} {x : Except JavaException α} {f : α → Except JavaException β} {b : β} :
    (x >>= f) = .ok b ↔ ∃ a, x = .ok a ∧ f a = .ok b := by
  cases x <;> simp [Bind.bind, Except.bind]

theorem bind_eq_error {α β : Type} {f : α → Except JavaException β} {x : Except JavaException α}
    {e : JavaException} : x.bind f = .error e ↔ x = .error e ∨ ∃ a, x = .ok a ∧ f a = .error e := by
  cases x <;> simp [Except.bind]

/-! ## Strings -/

/-- `s.trim()`: the characters up to the blank are cut off at both ends. -/
def trim (s : String) : String :=
  String.ofList ((s.toList.dropWhile (· ≤ ' ')).rdropWhile (· ≤ ' '))

/-- `s.length()`, in UTF-16 code units. -/
def length (s : String) : Nat := s.toList.length + s.toList.countP fun c => 0x10000 ≤ c.toNat

/-- `s.substring(1)`. Half of a supplementary character is left standing as the replacement character. -/
def substring1 (s : String) : Except JavaException String :=
  match s.toList with
  | []      => .error .IndexOutOfBoundsException
  | c :: cs => .ok (String.ofList (if c.toNat < 0x10000 then cs else Char.ofNat 0xFFFD :: cs))

/-- `s.contains(t)`. -/
def contains (s t : String) : Bool := t.toList <:+: s.toList

/-! ## Numbers -/

/-- The characters of value 0 among the decimal digits `char` can hold (Unicode 6.2, that of Java 8). -/
def zeroDigits : List Nat :=
  [0x0030, 0x0660, 0x06F0, 0x07C0, 0x0966, 0x09E6, 0x0A66, 0x0AE6, 0x0B66, 0x0BE6, 0x0C66, 0x0CE6, 0x0D66,
   0x0E50, 0x0ED0, 0x0F20, 0x1040, 0x1090, 0x17E0, 0x1810, 0x1946, 0x19D0, 0x1A80, 0x1A90, 0x1B50, 0x1BB0,
   0x1C40, 0x1C50, 0xA620, 0xA8D0, 0xA900, 0xA9D0, 0xAA50, 0xABF0, 0xFF10]

/-- `Character.digit(c, 10)`. -/
def digit (c : Char) : Option Nat :=
  (zeroDigits.find? fun z => z ≤ c.toNat ∧ c.toNat < z + 10).map (c.toNat - ·)

/-- The value of a text of at least one digit. -/
def digits : List Char → Option Nat
  | []      => none
  | c :: cs => ((c :: cs).mapM digit).map (List.foldl (fun n d => 10 * n + d) 0)

/-- An optional sign, then digits. -/
def signedDigits : List Char → Option Int
  | '-' :: cs => (digits cs).map fun n => -n
  | '+' :: cs => (digits cs).map fun n => n
  | cs        => (digits cs).map fun n => n

/-- The parse of an integer type from `lo` to `hi`. -/
def parseSigned (lo hi : Int) (s : String) : Except JavaException Int :=
  match signedDigits s.toList with
  | some n => if lo ≤ n ∧ n ≤ hi then .ok n else .error .NumberFormatException
  | none   => .error .NumberFormatException

/-- `Integer.parseInt(s)`. -/
def parseInt : String → Except JavaException Int := parseSigned (-2 ^ 31) (2 ^ 31 - 1)

/-- `Long.parseLong(s)`. -/
def parseLong : String → Except JavaException Int := parseSigned (-2 ^ 63) (2 ^ 63 - 1)

theorem parseSigned_error {lo hi : Int} {s : String} {e : JavaException} (h : parseSigned lo hi s = .error e) :
    e = .NumberFormatException := by
  unfold parseSigned at h
  split at h
  · split at h <;> cases h
    rfl
  · cases h
    rfl

/-- `java.math.BigDecimal`: the number `unscaledValue * 10 ^ -scale`. -/
structure BigDecimal where
  unscaledValue : Int
  scale         : Int
  deriving DecidableEq, Repr

/-- The exponent after `e` or `E`: nothing, or a signed number that fits an `int`. -/
def exponent : List Char → Option Int
  | []      => some 0
  | _ :: cs => (signedDigits cs).filter fun n => -2 ^ 31 ≤ n ∧ n ≤ 2 ^ 31 - 1

/-- The digits of a significand, without its point, and how many of them stand behind the point. -/
def significand (cs : List Char) : Option (Nat × Nat) :=
  let whole := cs.takeWhile (· ≠ '.')
  let fraction := cs.drop (whole.length + 1)
  (digits (whole ++ fraction)).map (·, fraction.length)

/-- A number without its sign. -/
def unsignedDecimal (cs : List Char) : Option BigDecimal := do
  let mantissa := cs.takeWhile fun c => c ≠ 'e' ∧ c ≠ 'E'
  let (unscaledValue, fractionDigits) ← significand mantissa
  let exp ← exponent (cs.drop mantissa.length)
  let scale : Int := fractionDigits - exp
  if -2 ^ 31 ≤ scale ∧ scale ≤ 2 ^ 31 - 1 then some ⟨unscaledValue, scale⟩ else none

/-- `new BigDecimal(s)`. -/
def bigDecimal (s : String) : Except JavaException BigDecimal :=
  orThrow .NumberFormatException <|
    match s.toList with
    | '-' :: cs => (unsignedDecimal cs).map fun d => { d with unscaledValue := -d.unscaledValue }
    | '+' :: cs => unsignedDecimal cs
    | cs        => unsignedDecimal cs

/-! ## Dates

`DateTimeFormatter.ofPattern("dd/MM/yyyy HH:mm")` with the resolver style it has by default, `SMART`. -/

structure LocalDateTime where
  year   : Nat
  month  : Nat
  day    : Nat
  hour   : Nat
  minute : Nat
  deriving DecidableEq, Repr

/-- `Year.isLeap`. -/
def isLeap (year : Nat) : Bool := year % 4 = 0 && (year % 100 ≠ 0 || year % 400 = 0)

def lengthOfMonth (year month : Nat) : Nat :=
  if month = 2 then (if isLeap year then 29 else 28)
  else if month = 4 ∨ month = 6 ∨ month = 9 ∨ month = 11 then 30
  else 31

/-- The digits a formatter reads are those of ASCII. -/
def asciiDigit (c : Char) : Option Nat := if c.isDigit then some (c.toNat - 48) else none

/-- A two-digit field: `dd`, `MM`, `HH` or `mm`. -/
def twoDigits : List Char → Option (Nat × List Char)
  | a :: b :: cs => do
      let m ← asciiDigit a
      let n ← asciiDigit b
      some (10 * m + n, cs)
  | _            => none

/-- `yyyy`: four digits, or from five to nineteen after a plus sign. -/
def yearOfEra (cs : List Char) : Option (Nat × List Char) :=
  let plus := cs.head? = some '+'
  let cs := if plus then cs.tail else cs
  let ds := cs.takeWhile Char.isDigit
  if (if plus then 4 < ds.length ∧ ds.length ≤ 19 else ds.length = 4) then
    (digits ds).map (·, cs.drop ds.length)
  else none

def literal (c : Char) : List Char → Option (List Char)
  | []      => none
  | d :: cs => if d = c then some cs else none

/-- The day after, unless there is none in the range of years. -/
def LocalDateTime.plusDay (t : LocalDateTime) : Option LocalDateTime :=
  if t.day < lengthOfMonth t.year t.month then some { t with day := t.day + 1 }
  else if t.month < 12 then some { t with month := t.month + 1, day := 1 }
  else if t.year < 999999999 then some { t with year := t.year + 1, month := 1, day := 1 }
  else none

/-- The date and time of the fields read: a day beyond the end of its month is moved to the last day, 24:00 to
    the next day. -/
def resolve (day month year hour minute : Nat) : Option LocalDateTime :=
  if 1 ≤ year ∧ year ≤ 999999999 ∧ 1 ≤ month ∧ month ≤ 12 ∧ 1 ≤ day ∧ day ≤ 31 ∧ minute ≤ 59 then
    let day := min day (lengthOfMonth year month)
    if hour ≤ 23 then some ⟨year, month, day, hour, minute⟩
    else if hour = 24 ∧ minute = 0 then LocalDateTime.plusDay ⟨year, month, day, 0, 0⟩
    else none
  else none

/-- `LocalDateTime.parse(s, formatter)`. -/
def parseLocalDateTime (s : String) : Except JavaException LocalDateTime :=
  orThrow .DateTimeParseException do
    let (day, cs) ← twoDigits s.toList
    let cs ← literal '/' cs
    let (month, cs) ← twoDigits cs
    let cs ← literal '/' cs
    let (year, cs) ← yearOfEra cs
    let cs ← literal ' ' cs
    let (hour, cs) ← twoDigits cs
    let cs ← literal ':' cs
    let (minute, cs) ← twoDigits cs
    if cs = [] then resolve day month year hour minute else none

/-- The days from 1 January to a day, in a year that is a leap year or not. -/
def dayOfYear (leap : Bool) (month day : Nat) : Int :=
  (367 * month - 362) / 12 + (day - 1) - (if month ≤ 2 then 0 else if leap then 1 else 2)

/-- The days since 1 January 1970 by the Gregorian calendar. -/
def gregorianDay (year month day : Nat) : Int :=
  365 * year + (year + 3) / 4 - (year + 99) / 100 + (year + 399) / 400 + dayOfYear (isLeap year) month day
    - 719528

/-- The days since 1 January 1970 by the Julian calendar. -/
def julianDay (year month day : Nat) : Int :=
  365 * year + (year + 3) / 4 + dayOfYear (year % 4 = 0) month day - 719530

/-- `Timestamp.valueOf(t).getTime()`, the milliseconds since 1970. A `Date` made of year, month and day is read
    by the calendar in use at the time: Gregorian from 15 October 1582, Julian before. -/
def timestampValueOf (t : LocalDateTime) : Int :=
  let g := gregorianDay t.year t.month t.day
  let days := if gregorianDay 1582 10 15 ≤ g then g else julianDay t.year t.month t.day
  (((days * 24 + t.hour) * 60 + t.minute) * 60000).bmod (2 ^ 64)

end NewOrbit.Bonds
