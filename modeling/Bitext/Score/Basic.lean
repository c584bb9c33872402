import Bitext.Markup.Piece

/-!
# Numbers for scores, edit distance and similarity

Scores are computed with the four operations and comparisons only, so every definition that needs
numbers is given for any type that has them.  Programs compute with doubles; exact fractions give the
meaning.

The similarity of two texts compares what is left of them without tags.  It counts the edits between
them: the least number of insertions, deletions and substitutions of characters that turn the one
into the other, computed row by row.  Entry `j` of the row for a beginning of the first text is its
distance to the first `j` characters of the second one.
-/
namespace Bitext

/-- Numbers that scores are computed with. -/
class Score (α : Type) extends Add α, Sub α, Mul α, Div α where
  /-- The number closest to a natural number. -/
  ofNat : Nat → α
  /-- Less than; never of what is no number. -/
  lt : α → α → Bool
  /-- At most; never of what is no number. -/
  le : α → α → Bool
  /-- The least natural number that is not less, for a finite number. -/
  ceil? : α → Option Nat

namespace Score

instance : Score Float where
  ofNat n := Float.ofNat n
  lt x y := x < y
  le x y := x ≤ y
  ceil? x := if x.isFinite then some x.ceil.toUInt64.toNat else none

instance : Score Rat where
  ofNat n := n
  lt x y := decide (x < y)
  le x y := decide (x ≤ y)
  ceil? x := some x.ceil.toNat

variable {α : Type} [Score α]

/-- The number moved into the interval from `low` to `high`; what is no number stays as it is. -/
def clamp (low high x : α) : α :=
  let x := if lt x low then low else x
  if lt high x then high else x

end Score

/-! ## Similarity -/

namespace Text

/-- The entries of the next row behind its first one.  The new row is for one more character `c` of
the first text; `left` is the entry just computed, `above` the old row from the entry above it on. -/
def nextCells (c : Char) (left : Nat) : Text → (above : List Nat) → List Nat
  | d :: rest, diagonal :: up :: above =>
    let cost := if c == d then 0 else 1
    let cell := min (min (up + 1) (left + 1)) (diagonal + cost)
    cell :: nextCells c cell rest (up :: above)
  | _, _ => []

/-- The row for one more character of the first text. -/
def nextRow (t : Text) (row : List Nat) (c : Char) : List Nat :=
  let first := row.headD 0 + 1
  first :: nextCells c first t row

/-- The edit distance of two texts. -/
def distance (s t : Text) : Nat :=
  (s.foldl (nextRow t) (List.range (t.length + 1))).getLastD 0

end Text

/-- One less the edit distance of the plain texts divided by the length of the longer one; two empty
plain texts are equal. -/
def similarity {α : Type} [Score α] (s t : Text) : α :=
  let s := Markup.strip s
  let t := Markup.strip t
  let longest := max s.length t.length
  if longest == 0 then Score.ofNat 1
  else Score.ofNat 1 - Score.ofNat (Text.distance s t) / Score.ofNat longest

end Bitext
