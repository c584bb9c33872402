/-!
# The shortest decimal of a binary number

A finite double stands for all real numbers that round to it.  Among the decimals in that interval
those with the fewest digits are the shortest, and of these the one closest to the double is its
decimal.  The search tries one, two, … digits; on each grid only the two neighbours of the double
can be the closest.

All comparisons are exact, on natural numbers.
-/
namespace Bitext

/-- A decimal `digits * 10 ^ exponent`. -/
structure Decimal where
  digits : Nat
  exponent : Int
  deriving DecidableEq, Repr

namespace Decimal

/-- A finite number `mantissa * 2 ^ exponent`. -/
structure Binary where
  mantissa : Nat
  exponent : Int
  /-- The gap to the next smaller double is half the gap to the next greater one. -/
  narrowBelow : Bool

/-- The magnitude of a finite double, by its bits. -/
def Binary.ofBits (bits : UInt64) : Binary :=
  let exponent := ((bits >>> 52) &&& 0x7FF).toNat
  let fraction := (bits &&& 0xFFFFFFFFFFFFF).toNat
  if exponent == 0 then ⟨fraction, -1074, false⟩
  else ⟨0x10000000000000 + fraction, (exponent : Int) - 1075, fraction == 0 && 1 < exponent⟩

/-- Where a double lies exactly between two decimals. -/
inductive Tie where
  | up
  | toEven
  deriving DecidableEq, Repr

/-- Compares `a * 10 ^ i` with `n * 2 ^ j`. -/
def compareScaled (a : Nat) (i : Int) (n : Nat) (j : Int) : Ordering :=
  compare (a * Nat.pow 10 i.toNat * Nat.pow 2 (-j).toNat)
    (n * Nat.pow 2 j.toNat * Nat.pow 10 (-i).toNat)

/-- The decimal is among the real numbers that round to `x`.  The ends of their interval belong to
it when the mantissa is even. -/
def Binary.readsBack (x : Binary) (d : Decimal) : Bool :=
  let low := if x.narrowBelow then 4 * x.mantissa - 1 else 4 * x.mantissa - 2
  let high := 4 * x.mantissa + 2
  let closed := x.mantissa % 2 == 0
  let atLow := compareScaled d.digits d.exponent low (x.exponent - 2)
  let atHigh := compareScaled d.digits d.exponent high (x.exponent - 2)
  (atLow == .gt || (closed && atLow == .eq)) && (atHigh == .lt || (closed && atHigh == .eq))

/-- The number of decimal digits of a number. -/
def digitCount (n : Nat) : Nat := (Nat.toDigits 10 n).length

/-- The least `k` with `x < 10 ^ k`, for `x` other than zero. -/
def Binary.scale (x : Binary) : Int :=
  let numerator := x.mantissa * Nat.pow 2 x.exponent.toNat
  let denominator := Nat.pow 2 (-x.exponent).toNat
  let estimate : Int := (digitCount numerator : Int) - digitCount denominator
  if numerator * Nat.pow 10 (-estimate).toNat < denominator * Nat.pow 10 estimate.toNat then
    estimate
  else estimate + 1

/-- The greatest multiple of `10 ^ exponent` that is at most `x`. -/
def Binary.floorAt (x : Binary) (exponent : Int) : Nat :=
  (x.mantissa * Nat.pow 2 x.exponent.toNat * Nat.pow 10 (-exponent).toNat) /
    (Nat.pow 2 (-x.exponent).toNat * Nat.pow 10 exponent.toNat)

/-- Moves the zeros at the end of the digits into the exponent; at most `fuel` of them. -/
def stripZeros : (fuel : Nat) → Decimal → Decimal
  | 0, d => d
  | fuel + 1, d =>
    if d.digits ≠ 0 && d.digits % 10 == 0 then stripZeros fuel ⟨d.digits / 10, d.exponent + 1⟩
    else d

/-- Of the two neighbours of `x` on the grid of multiples of `10 ^ exponent`, the closest one that
reads back. -/
def Binary.onGrid? (x : Binary) (tie : Tie) (exponent : Int) : Option Decimal :=
  let below := x.floorAt exponent
  let low : Decimal := ⟨below, exponent⟩
  let high : Decimal := ⟨below + 1, exponent⟩
  match x.readsBack low, x.readsBack high with
  | false, false => none
  | true, false => some low
  | false, true => some high
  | true, true =>
    match compareScaled (2 * below + 1) exponent (2 * x.mantissa) x.exponent with
    | .gt => some low
    | .lt => some high
    | .eq =>
      match tie with
      | .up => some high
      | .toEven => some (if below % 2 == 0 then low else high)

/-- The first hit with `count`, `count + 1`, … digits. -/
def Binary.search (x : Binary) (tie : Tie) (scale : Int) : (tries count : Nat) → Option Decimal
  | 0, _ => none
  | tries + 1, count =>
    match x.onGrid? tie (scale - count) with
    | some d => some (d.stripZeros count)
    | none => x.search tie scale tries (count + 1)

/-- The shortest decimal of a number other than zero; seventeen digits always suffice. -/
def Binary.shortest (x : Binary) (tie : Tie) : Decimal :=
  (x.search tie x.scale 17 1).getD
    ⟨x.mantissa * Nat.pow 2 x.exponent.toNat * Nat.pow 5 (-x.exponent).toNat, min x.exponent 0⟩

end Decimal

end Bitext
