import Bitext.Text.Basic

/-!
# Timestamps

Points in time in the compact notation `YYYYMMDDThhmmssZ`, in the Gregorian calendar extended to
all years from 262143 before to 262142 after year zero.  Reading is lenient about the number of
digits and about blanks before numbers; a leap second is kept as second 60.
-/
namespace Bitext

/-- A second of universal time. -/
structure Timestamp where
  year : Int
  month : Nat
  day : Nat
  hour : Nat
  minute : Nat
  /-- 60 for a leap second. -/
  second : Nat
  deriving DecidableEq, Repr

namespace Timestamp

/-- Years with a 29th of February. -/
def isLeapYear (year : Int) : Bool := year % 4 == 0 && (year % 100 != 0 || year % 400 == 0)

/-- The number of days of a month. -/
def daysIn (year : Int) (month : Nat) : Nat :=
  if month == 2 then (if isLeapYear year then 29 else 28)
  else if month == 4 || month == 6 || month == 9 || month == 11 then 30
  else 31

/-- The years that have dates. -/
def isYear (year : Int) : Bool := -262143 ≤ year && year ≤ 262142

/-- The date exists, and the time of day as well. -/
def isValid (t : Timestamp) : Bool :=
  isYear t.year && 1 ≤ t.month && t.month ≤ 12 && 1 ≤ t.day && t.day ≤ daysIn t.year t.month &&
    t.hour ≤ 23 && t.minute ≤ 59 && t.second ≤ 60

/-! ## Seconds since the start of 1970 -/

/-- The days from the start of 1970 to a date.  Years are counted from March on, so that leap days
come last. -/
def dayNumber (year : Int) (month day : Nat) : Int :=
  let shifted : Int := if month ≤ 2 then year - 1 else year
  let era := shifted / 400
  let yearOfEra := shifted % 400
  let dayOfYear : Int := (153 * ((month : Int) + (if month ≤ 2 then 9 else -3)) + 2) / 5 + day - 1
  era * 146097 + (yearOfEra * 365 + yearOfEra / 4 - yearOfEra / 100 + dayOfYear) - 719468

/-- The date with a given number of days since the start of 1970. -/
def dateOf (days : Int) : Int × Nat × Nat :=
  let z := days + 719468
  let era := z / 146097
  let dayOfEra := z % 146097
  let yearOfEra := (dayOfEra - dayOfEra / 1460 + dayOfEra / 36524 - dayOfEra / 146096) / 365
  let dayOfYear := dayOfEra - (365 * yearOfEra + yearOfEra / 4 - yearOfEra / 100)
  let shiftedMonth := (5 * dayOfYear + 2) / 153
  let day := dayOfYear - (153 * shiftedMonth + 2) / 5 + 1
  let month := if shiftedMonth < 10 then shiftedMonth + 3 else shiftedMonth - 9
  let year := yearOfEra + era * 400 + (if month ≤ 2 then 1 else 0)
  (year, month.toNat, day.toNat)

/-- The seconds since the start of 1970; a leap second counts as the one before it. -/
def seconds (t : Timestamp) : Int :=
  dayNumber t.year t.month t.day * 86400 + (t.hour * 3600 + t.minute * 60 + min t.second 59 : Nat)

/-- The time a given number of seconds after the start of 1970, if its year has dates. -/
def ofSeconds? (n : Int) : Option Timestamp :=
  let (year, month, day) := dateOf (n / 86400)
  let time := (n % 86400).toNat
  if isYear year then some ⟨year, month, day, time / 3600, time / 60 % 60, time % 60⟩ else none

/-! ## Notation -/

/-- A number with zeros in front up to a width. -/
def padded (width n : Nat) : Text :=
  let digits := Text.ofNat n
  List.replicate (width - digits.length) '0' ++ digits

/-- A year: four digits, or a sign and at least four digits outside the years 0 to 9999. -/
def yearText (year : Int) : Text :=
  if 0 ≤ year && year ≤ 9999 then padded 4 year.toNat
  else (if year < 0 then '-' else '+') :: padded 4 year.natAbs

/-- The compact notation. -/
def compact (t : Timestamp) : Text :=
  yearText t.year ++ padded 2 t.month ++ padded 2 t.day ++ 'T' ::
    (padded 2 t.hour ++ padded 2 t.minute ++ padded 2 t.second ++ ['Z'])

/-- A number of at least one and at most `width` ASCII digits, and what follows it. -/
def digits? (width : Nat) (t : Text) : Option (Nat × Text) :=
  let run := (t.take width).takeWhile fun c => '0' ≤ c && c ≤ '9'
  if run.isEmpty then none
  else some (run.foldl (fun n c => n * 10 + (c.toNat - 0x30)) 0, t.drop run.length)

/-- A number of at most two digits, after blanks. -/
def twoDigits? (t : Text) : Option (Nat × Text) := digits? 2 (Text.trimStart t)

/-- A year, after blanks: at most four digits, or a sign and any number of digits. -/
def year? (t : Text) : Option (Int × Text) :=
  match Text.trimStart t with
  | '+' :: rest => (digits? rest.length rest).map fun (n, rest) => (n, rest)
  | '-' :: rest => (digits? rest.length rest).map fun (n, rest) => (-(n : Int), rest)
  | rest => (digits? 4 rest).map fun (n, rest) => (n, rest)

/-- A given character, and what follows it. -/
def literal? (c : Char) : Text → Option Text
  | d :: rest => if c == d then some rest else none
  | [] => none

/-- Reads the compact notation; blanks may stand around it and before each number. -/
def parse? (t : Text) : Option Timestamp := do
  let (year, rest) ← year? (Text.trim t)
  let (month, rest) ← twoDigits? rest
  let (day, rest) ← twoDigits? rest
  let rest ← literal? 'T' rest
  let (hour, rest) ← twoDigits? rest
  let (minute, rest) ← twoDigits? rest
  let (second, rest) ← twoDigits? rest
  let rest ← literal? 'Z' rest
  let time : Timestamp := ⟨year, month, day, hour, minute, second⟩
  if rest.isEmpty && time.isValid then some time else none

end Timestamp

end Bitext
