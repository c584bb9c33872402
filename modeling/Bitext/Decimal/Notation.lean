import Bitext.Text.Basic
import Bitext.Decimal.Shortest

/-!
# Decimal notation

Writes doubles in a given notation and reads decimal texts.  A `Notation` is the list of decisions
that two ways to write the same number differ in.
-/
namespace Bitext.Decimal

/-- How doubles are written. -/
structure Notation where
  /-- Decimal exponents, counted from the first digit, that are written without an exponent;
  nothing means all. -/
  positional : Option (Int × Int)
  /-- Whole numbers end in a point and a zero. -/
  marksWhole : Bool
  /-- What becomes of a double halfway between two shortest decimals. -/
  tie : Tie
  /-- What is written for what is no number. -/
  nan : Text
  /-- What is written for infinities, without their sign, or for both if it has none. -/
  infinity : Text
  /-- Infinities have a sign. -/
  signedInfinity : Bool

namespace Notation

/-- The digits of a decimal without an exponent. -/
def plain (n : Notation) (d : Decimal) : Text :=
  let digits := Text.ofNat d.digits
  if 0 ≤ d.exponent then
    digits ++ List.replicate d.exponent.toNat '0' ++ if n.marksWhole then ['.', '0'] else []
  else
    let places := (-d.exponent).toNat
    if places < digits.length then
      digits.take (digits.length - places) ++ '.' :: digits.drop (digits.length - places)
    else '0' :: '.' :: (List.replicate (places - digits.length) '0' ++ digits)

/-- A decimal with one digit before the point and an exponent with a sign. -/
def scientific (d : Decimal) (exponent : Int) : Text :=
  let fraction :=
    match Text.ofNat d.digits with
    | [] => []
    | [c] => [c]
    | c :: rest => c :: '.' :: rest
  fraction ++ 'e' :: (if exponent < 0 then '-' else '+') :: Text.ofNat exponent.natAbs

/-- The text of the magnitude of a finite double. -/
def magnitude (n : Notation) (bits : UInt64) : Text :=
  let x := Binary.ofBits bits
  if x.mantissa == 0 then n.plain ⟨0, 0⟩
  else
    let d := x.shortest n.tie
    let exponent := d.exponent + digitCount d.digits - 1
    match n.positional with
    | none => n.plain d
    | some (least, greatest) =>
      if least ≤ exponent && exponent ≤ greatest then n.plain d else scientific d exponent

/-- The text of a double. -/
def write (n : Notation) (x : Float) : Text :=
  let bits := x.toBits
  let sign := if bits >>> 63 == 1 then ['-'] else []
  if x.isNaN then n.nan
  else if x.isInf then (if n.signedInfinity then sign else []) ++ n.infinity
  else sign ++ n.magnitude bits

end Notation

/-- Scores as they are shown to people: never an exponent, whole numbers without a point. -/
def shown : Notation :=
  ⟨none, false, .up, "NaN".toList, "inf".toList, true⟩

/-- Scores in structured output: whole numbers keep a point, very small and very great numbers have
an exponent, and what is no finite number is null. -/
def structured : Notation :=
  ⟨some (-5, 15), true, .toEven, "null".toList, "null".toList, false⟩

/-! ## Reading -/

/-- The double nearest to `digits * 10 ^ exponent`. -/
def nearest (digits : Nat) (exponent : Int) : Float :=
  let top := exponent + digitCount digits
  if digits == 0 || top < -400 then 0.0
  else if 400 < top then 1.0 / 0.0
  else if 0 ≤ exponent then Float.ofScientific digits false exponent.toNat
  else Float.ofScientific digits true (-exponent).toNat

/-- The number that ASCII digits write. -/
def natOf (digits : Text) : Nat := digits.foldl (fun n c => n * 10 + (c.toNat - 0x30)) 0

/-- An ASCII digit. -/
def isDigit (c : Char) : Bool := '0' ≤ c && c ≤ '9'

/-- Splits a sign off the start of a text; the flag tells a minus sign. -/
def splitSign : Text → Bool × Text
  | '+' :: rest => (false, rest)
  | '-' :: rest => (true, rest)
  | t => (false, t)

/-- An exponent with its sign, which must fill the text. -/
def exponent? (t : Text) : Option Int :=
  let (negative, digits) := splitSign t
  if digits.isEmpty || !digits.all isDigit then none
  else some (if negative then -(natOf digits : Int) else natOf digits)

/-- A double written with digits, an optional point and an optional exponent, or as a word for
infinity or for what is no number.  At least one digit stands before or after the point. -/
def read? (t : Text) : Option Float :=
  let (negative, body) := splitSign t
  let signed (x : Float) : Float := if negative then -x else x
  let folded := body.map Char.toLower
  if folded == "inf".toList || folded == "infinity".toList then some (signed (1.0 / 0.0))
  else if folded == "nan".toList then some (signed (0.0 / 0.0))
  else
    let whole := body.takeWhile isDigit
    let rest := body.dropWhile isDigit
    let (fraction, rest) :=
      match rest with
      | '.' :: after => (after.takeWhile isDigit, after.dropWhile isDigit)
      | _ => ([], rest)
    if whole.isEmpty && fraction.isEmpty then none
    else
      let value (exponent : Int) : Float :=
        signed (nearest (natOf (whole ++ fraction)) (exponent - fraction.length))
      match rest with
      | [] => some (value 0)
      | c :: rest => if c == 'e' || c == 'E' then (exponent? rest).map value else none

end Bitext.Decimal
