/-!
# Sets of scalar values

A property of characters is given by a table: the inclusive ranges of scalar values that have it,
in increasing order and apart from one another.  Looking a character up halves the table until one
range is left.
-/
namespace Bitext.Unicode

/-- A set of scalar values, as inclusive ranges in increasing order. -/
structure Ranges where
  /-- First and last member of each range. -/
  bounds : Array (Nat × Nat)

namespace Ranges

/-- Looks for `n` among the ranges number `lo` to `hi - 1`, halving at most `fuel` times. -/
def find (r : Ranges) (n : Nat) : (fuel lo hi : Nat) → Bool
  | 0, _, _ => false
  | fuel + 1, lo, hi =>
    let mid := (lo + hi) / 2
    if lo < hi then
      match r.bounds[mid]? with
      | some (first, last) =>
        if n < first then r.find n fuel lo mid
        else if last < n then r.find n fuel (mid + 1) hi
        else true
      | none => false
    else false

/-- Membership in the set.  A search over `k` ranges halves at most `k + 1` times. -/
def contains (r : Ranges) (c : Char) : Bool :=
  r.find c.toNat (r.bounds.size + 1) 0 r.bounds.size

end Ranges

end Bitext.Unicode
