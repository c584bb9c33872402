/-!
# Texts

A text is a list of Unicode scalar values.  All matching and all markup handling is defined on
scalar values, so positions, lengths and distances count them.

## Main definitions

* `Text.isSpace`: the characters with the property White_Space.
* `Text.trim`: a text without the blanks at its two ends.
* `Text.words`, `Text.collapse`: the maximal runs of other characters, and these joined by single
  spaces.
* `Text.splitFirst`, `Text.indexOf?`: cutting a text at a character, locating a text inside another.
* `Text.number?`: numbers written with digits.
-/
namespace Bitext

/-- A text, as its scalar values. -/
abbrev Text := List Char

namespace Text

/-- The characters with the property White_Space.  Zero-width spaces and the information
separators are not among them. -/
def isSpace (c : Char) : Bool :=
  let n := c.toNat
  (0x09 ≤ n && n ≤ 0x0D) || n == 0x20 || n == 0x85 || n == 0xA0 || n == 0x1680 ||
    (0x2000 ≤ n && n ≤ 0x200A) || n == 0x2028 || n == 0x2029 || n == 0x202F || n == 0x205F ||
    n == 0x3000

/-- A text without any visible character. -/
def isBlank (t : Text) : Bool := t.all isSpace

/-- Drops the blanks at the start. -/
def trimStart (t : Text) : Text := t.dropWhile isSpace

/-- Drops the blanks at the end. -/
def trimEnd (t : Text) : Text := (t.reverse.dropWhile isSpace).reverse

/-- Drops the blanks at both ends. -/
def trim (t : Text) : Text := trimEnd (trimStart t)

/-- The words of a text: its maximal runs without blanks. -/
def words (t : Text) : List Text := (t.splitOnP isSpace).filter (!·.isEmpty)

/-- Joins texts by single spaces. -/
def unwords (ws : List Text) : Text := [' '].intercalate ws

/-- The words of a text joined by single spaces: runs of blanks become one space, and the ends
are trimmed. -/
def collapse (t : Text) : Text := unwords (words t)

/-- The characters that are not blanks. -/
def visible (t : Text) : Text := t.filter (!isSpace ·)

/-- Cuts a text before its first character with property `p`. -/
def splitFirst (p : Char → Bool) (t : Text) : Text × Text :=
  (t.takeWhile (!p ·), t.dropWhile (!p ·))

/-- The number of characters before the first occurrence of `pattern` in `t`. -/
def indexOf? (pattern : Text) : Text → Option Nat
  | [] => if pattern.isEmpty then some 0 else none
  | c :: r => if pattern.isPrefixOf (c :: r) then some 0 else (indexOf? pattern r).map (· + 1)

/-- Joins texts by a separator. -/
def join (separator : Text) (ts : List Text) : Text := separator.intercalate ts

/-- The decimal digits of a number. -/
def ofNat (n : Nat) : Text := (Nat.repr n).toList

/-! ## Numbers -/

/-- The value of a digit, if it is below the radix.  Letters of either case are the digits from ten
on. -/
def digit? (radix : Nat) (c : Char) : Option Nat :=
  let n := c.toNat
  let value? :=
    if 0x30 ≤ n && n ≤ 0x39 then some (n - 0x30)
    else if 0x41 ≤ n && n ≤ 0x5A then some (n - 0x41 + 10)
    else if 0x61 ≤ n && n ≤ 0x7A then some (n - 0x61 + 10)
    else none
  value?.filter (· < radix)

/-- The number that a text writes in a radix; there must be at least one digit. -/
def number? (radix : Nat) (t : Text) : Option Nat :=
  if t.isEmpty then none
  else t.foldlM (fun n c => (digit? radix c).map (n * radix + ·)) 0

end Text

end Bitext
