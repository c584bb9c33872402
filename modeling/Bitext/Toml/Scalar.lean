import Bitext.Decimal.Notation
import Bitext.Text.Basic
import Bitext.Toml.Value

/-!
# Strings, numbers and dates

The values of a TOML document that hold no other values.  Every reader takes something from the
start of a text and yields what it made of it and the rest.
-/
namespace Bitext.Toml

/-! ## Characters and lines -/

/-- Blanks inside a line. -/
def isBlank (c : Char) : Bool := c == ' ' || c == '\t'

/-- Drops the blanks at the start. -/
def skipBlanks (t : Text) : Text := t.dropWhile isBlank

/-- Characters that strings and comments may hold as they are. -/
def isPlain (c : Char) : Bool :=
  c == '\t' || (0x20 ≤ c.toNat && c.toNat ≤ 0x7E) || 0x80 ≤ c.toNat

/-- Behind a line break. -/
def newline? : Text → Option Text
  | '\n' :: rest => some rest
  | '\r' :: '\n' :: rest => some rest
  | _ => none

/-- Drops blanks and line breaks. -/
def skipLines : Text → Text
  | '\r' :: '\n' :: rest => skipLines rest
  | c :: rest => if isBlank c || c == '\n' then skipLines rest else c :: rest
  | [] => []

/-! ## Strings -/

/-- The character that a backslash and a letter stand for. -/
def letterEscape? : Char → Option Char
  | 'b' => some '\x08'
  | 't' => some '\t'
  | 'n' => some '\n'
  | 'f' => some '\x0c'
  | 'r' => some '\r'
  | '"' => some '"'
  | '\\' => some '\\'
  | _ => none

/-- The character whose scalar value is written with exactly `n` hexadecimal digits. -/
def scalarEscape? (n : Nat) (t : Text) : Option (Char × Text) := do
  let digits := t.take n
  if digits.length ≠ n then none
  else
    let value ← Text.number? 16 digits
    if value.isValidChar then return (Char.ofNat value, t.drop n) else none

/-- The character that is written behind a backslash. -/
def escape? : Text → Option (Char × Text)
  | 'u' :: rest => scalarEscape? 4 rest
  | 'U' :: rest => scalarEscape? 8 rest
  | c :: rest => (letterEscape? c).map (·, rest)
  | [] => none

/-- How a string is written. -/
structure Quoting where
  /-- The quotation mark, three of which enclose a string of several lines. -/
  mark : Char
  /-- Backslashes have a meaning. -/
  hasEscapes : Bool
  isMultiline : Bool

/-- Behind a backslash that ends a line: the next visible character. -/
def continuation? (q : Quoting) (t : Text) : Option Text :=
  if q.isMultiline then (newline? (skipBlanks t)).map skipLines else none

/-- Reads a string behind its opening marks.  Up to two marks may stand in front of the closing ones
of a string of several lines. -/
def stringBody? (q : Quoting) : (fuel : Nat) → Text → Option (Text × Text)
  | 0, _ => none
  | _ + 1, [] => none
  | fuel + 1, c :: rest =>
    let followedBy (x : Char) (more : Text) : Option (Text × Text) :=
      (stringBody? q fuel more).map fun (s, after) => (x :: s, after)
    if c == q.mark then
      if q.isMultiline then
        let marks := 1 + (rest.takeWhile (· == q.mark)).length
        if marks < 3 then followedBy c rest
        else
          -- Of five marks in a row the first two belong to the text.
          let inside := min (marks - 3) 2
          some (List.replicate inside c, rest.drop (inside + 2))
      else some ([], rest)
    else if c == '\\' && q.hasEscapes then
      match continuation? q rest with
      | some more => stringBody? q fuel more
      | none => (escape? rest).bind fun (x, more) => followedBy x more
    else if isPlain c then followedBy c rest
    else if q.isMultiline then (newline? (c :: rest)).bind (followedBy '\n')
    else none

/-- Reads a string behind its opening marks. -/
def quoted? (q : Quoting) (t : Text) : Option (Text × Text) :=
  let t := if q.isMultiline then (newline? t).getD t else t
  stringBody? q (t.length + 1) t

/-- Reads a string of one line. -/
def lineString? : Text → Option (Text × Text)
  | '"' :: rest => quoted? ⟨'"', true, false⟩ rest
  | '\'' :: rest => quoted? ⟨'\'', false, false⟩ rest
  | _ => none

/-- Reads a string. -/
def string? : Text → Option (Text × Text)
  | '"' :: '"' :: '"' :: rest => quoted? ⟨'"', true, true⟩ rest
  | '\'' :: '\'' :: '\'' :: rest => quoted? ⟨'\'', false, true⟩ rest
  | t => lineString? t

/-! ## Numbers -/

/-- Reads further digits; an underscore must stand between two of them. -/
def moreDigits? (p : Char → Bool) : Text → Option (Text × Text)
  | '_' :: c :: rest =>
    if p c then (moreDigits? p rest).map fun (ds, after) => (c :: ds, after) else none
  | ['_'] => none
  | c :: rest =>
    if p c then (moreDigits? p rest).map fun (ds, after) => (c :: ds, after)
    else some ([], c :: rest)
  | [] => some ([], [])

/-- Reads one or more digits. -/
def digits? (p : Char → Bool) : Text → Option (Text × Text)
  | c :: rest => if p c then (moreDigits? p rest).map fun (ds, after) => (c :: ds, after) else none
  | [] => none

/-- Reads a sign, if there is one. -/
def sign : Text → Text × Text
  | '+' :: rest => (['+'], rest)
  | '-' :: rest => (['-'], rest)
  | t => ([], t)

/-- Reads a decimal number with a sign, as a sign and digits; a zero in front stands alone. -/
def decimal? (t : Text) : Option (Text × Text × Text) := do
  let (s, rest) := sign t
  match rest with
  | '0' :: after => return (s, ['0'], after)
  | _ =>
    let (ds, after) ← digits? Decimal.isDigit rest
    return (s, ds, after)

/-- Reads an exponent with its letter. -/
def exponent? : Text → Option (Text × Text)
  | c :: rest =>
    if c == 'e' || c == 'E' then do
      let (s, rest) := sign rest
      let (ds, after) ← digits? Decimal.isDigit rest
      return ('e' :: (s ++ ds), after)
    else none
  | [] => none

/-- Reads a fraction with its point. -/
def fraction? : Text → Option (Text × Text)
  | '.' :: rest => (digits? Decimal.isDigit rest).map fun (ds, after) => ('.' :: ds, after)
  | _ => none

/-- Reads what must follow the whole part of a float: an exponent, or a fraction with or without
one. -/
def floatTail? (t : Text) : Option (Text × Text) :=
  match exponent? t with
  | some found => some found
  | none => do
    let (f, rest) ← fraction? t
    match exponent? rest with
    | some (e, after) => return (f ++ e, after)
    | none => return (f, rest)

/-- Reads infinity or what is no number. -/
def specialFloat? (t : Text) : Option (Float × Text) :=
  let (s, rest) := sign t
  let signed (x : Float) : Float := if s == ['-'] then -x else x
  match rest with
  | 'i' :: 'n' :: 'f' :: after => some (signed (1.0 / 0.0), after)
  | 'n' :: 'a' :: 'n' :: after => some (signed (0.0 / 0.0), after)
  | _ => none

/-- Reads a float.  A number too great for a float is refused, one too small is minus infinity. -/
def float? (t : Text) : Option (Float × Text) :=
  let written? : Option (Float × Text) := do
    let (s, whole, rest) ← decimal? t
    let (tail, after) ← floatTail? rest
    let x ← Decimal.read? (s ++ whole ++ tail)
    if x == 1.0 / 0.0 then none else return (x, after)
  match written? with
  | some found => some found
  | none => specialFloat? t

/-- A number in the range of integers. -/
def inRange? (n : Int) : Option Int :=
  if -0x8000000000000000 ≤ n && n < 0x8000000000000000 then some n else none

/-- Reads an integer with digits of another radix behind its two-character mark. -/
def radixInteger? (radix : Nat) (t : Text) : Option (Int × Text) := do
  let (ds, after) ← digits? (fun c => (Text.digit? radix c).isSome) t
  return (← inRange? (← Text.number? radix ds), after)

/-- Reads an integer. -/
def integer? : Text → Option (Int × Text)
  | '0' :: 'x' :: rest => radixInteger? 16 rest
  | '0' :: 'o' :: rest => radixInteger? 8 rest
  | '0' :: 'b' :: rest => radixInteger? 2 rest
  | t => do
    let (s, ds, after) ← decimal? t
    let n : Int := Decimal.natOf ds
    return (← inRange? (if s == ['-'] then -n else n), after)

/-! ## Dates and times -/

/-- Reads exactly `n` digits. -/
def fixed? (n : Nat) (t : Text) : Option (Nat × Text) :=
  let ds := t.take n
  if ds.length = n && ds.all Decimal.isDigit then some (Decimal.natOf ds, t.drop n) else none

/-- Reads two digits for a number in a range. -/
def two? (low high : Nat) (t : Text) : Option (Nat × Text) :=
  (fixed? 2 t).filter fun (n, _) => low ≤ n && n ≤ high

/-- Behind a given character. -/
def after? (c : Char) : Text → Option Text
  | d :: rest => if d == c then some rest else none
  | [] => none

/-- Behind a date that exists. -/
def date? (t : Text) : Option Text := do
  let (year, t) ← fixed? 4 t
  let (month, t) ← two? 1 12 (← after? '-' t)
  let (day, t) ← two? 1 31 (← after? '-' t)
  let isLeap := year % 4 == 0 && (year % 100 != 0 || year % 400 == 0)
  let last := if month == 2 then (if isLeap then 29 else 28) else if [4, 6, 9, 11].contains month then 30 else 31
  if day ≤ last then return t else none

/-- Behind a time of day. -/
def time? (t : Text) : Option Text := do
  let (_, t) ← two? 0 23 t
  let (_, t) ← two? 0 59 (← after? ':' t)
  let (_, t) ← two? 0 60 (← after? ':' t)
  match t with
  | '.' :: c :: rest =>
    return if Decimal.isDigit c then rest.dropWhile Decimal.isDigit else t
  | _ => return t

/-- Behind the distance from universal time. -/
def offset? : Text → Option Text
  | c :: rest =>
    if c == 'Z' || c == 'z' then some rest
    else if c == '+' || c == '-' then do
      let (_, t) ← two? 0 23 rest
      let (_, t) ← two? 0 59 (← after? ':' t)
      return t
    else none
  | [] => none

/-- Behind a time of day with its distance from universal time, if there is one, and the letter or
blank in front. -/
def timeOfDate? : Text → Option Text
  | c :: rest =>
    if c == 'T' || c == 't' || c == ' ' then (time? rest).map fun t => (offset? t).getD t else none
  | [] => none

/-- Behind a date, a time, or both. -/
def moment? (t : Text) : Option Text :=
  match date? t with
  | some rest => some ((timeOfDate? rest).getD rest)
  | none => time? t

/-! ## All together -/

/-- Reads a value that holds no other values. -/
def scalar? (t : Text) : Option (Toml × Text) :=
  match t with
  | '"' :: _ | '\'' :: _ => (string? t).map fun (s, after) => (.text s, after)
  | 't' :: 'r' :: 'u' :: 'e' :: after => some (.boolean true, after)
  | 'f' :: 'a' :: 'l' :: 's' :: 'e' :: after => some (.boolean false, after)
  | _ =>
    match moment? t with
    | some after => some (.moment, after)
    | none =>
      match float? t with
      | some (x, after) => some (.float x, after)
      | none => (integer? t).map fun (n, after) => (.integer n, after)

end Bitext.Toml
