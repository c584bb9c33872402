import Bitext.Bytes
import Bitext.Timestamp

/-!
# Members of archives

An archive is a list of members with distinct names.  Members carry the time of their last change in
the resolution that archives have: two seconds, between the years 1980 and 2107.
-/
namespace Bitext.Archive

/-- A time as archives keep it. -/
structure FileTime where
  year : Nat
  month : Nat
  day : Nat
  hour : Nat
  minute : Nat
  second : Nat
  deriving DecidableEq, Repr

namespace FileTime

/-- The first time there is; it stands for every date that does not exist. -/
def first : FileTime := ⟨1980, 1, 1, 0, 0, 0⟩

/-- The time that is kept for a timestamp: the year is moved into the range, and the second to the
even one at or before it. -/
def ofTimestamp (t : Timestamp) : FileTime :=
  let year := (max 1980 (min 2107 t.year)).toNat
  if t.day ≤ Timestamp.daysIn year t.month then
    ⟨year, t.month, t.day, t.hour, t.minute, min t.second 58 / 2 * 2⟩
  else first

/-- The date in the form in which archives write it. -/
def dateField (t : FileTime) : Nat := t.day + 32 * t.month + 512 * (t.year - 1980)

/-- The time of day in the form in which archives write it. -/
def timeField (t : FileTime) : Nat := t.second / 2 + 32 * t.minute + 2048 * t.hour

/-- The time in words: date and time of day. -/
def text (t : FileTime) : Text :=
  let two := Timestamp.padded 2
  Timestamp.padded 4 t.year ++ '-' :: two t.month ++ '-' :: two t.day ++ ' ' :: two t.hour ++
    ':' :: two t.minute ++ ':' :: two t.second

end FileTime

/-- A member of an archive. -/
structure Member where
  name : Text
  modified : FileTime
  content : Bytes
  deriving DecidableEq, Repr

end Bitext.Archive
