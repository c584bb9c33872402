/-!
# Bytes

Sequences of bytes, and the numbers that are written in them with the least significant byte first.
Data that are read from somewhere may be damaged; then only the bytes in front of the damage come.
-/
namespace Bitext

/-- A sequence of bytes. -/
abbrev Bytes := List UInt8

namespace Bytes

/-- A number in `width` bytes; what does not fit is cut off. -/
def little : (width : Nat) → Nat → Bytes
  | 0, _ => []
  | width + 1, n => UInt8.ofNat n :: little width (n / 256)

/-- The number that all of the bytes write. -/
def number (b : Bytes) : Nat := b.foldr (fun byte n => byte.toNat + 256 * n) 0

/-- The number in `width` bytes from a place on, if there are that many. -/
def field? (b : Bytes) (place width : Nat) : Option Nat :=
  let part := (b.drop place).take width
  if part.length = width then some (number part) else none

theorem length_little (width n : Nat) : (little width n).length = width := by
  induction width generalizing n with
  | zero => rfl
  | succ width ih => simp [little, ih]

/-- Writing a number that fits and reading it gives it back. -/
theorem number_little (width n : Nat) (fits : n < Nat.pow 256 width) : number (little width n) = n := by
  induction width generalizing n with
  | zero => simp_all [little, number]
  | succ width ih =>
    have unfolded : Nat.pow 256 (width + 1) = Nat.pow 256 width * 256 := rfl
    have smaller : n / 256 < Nat.pow 256 width := by omega
    have rest := ih (n / 256) smaller
    simp only [number, little, List.foldr_cons, UInt8.toNat_ofNat'] at rest ⊢
    rw [rest]
    omega

end Bytes

/-- Data that are read from somewhere: the bytes that come, and whether reading on behind them
fails. -/
structure Data where
  bytes : Bytes
  isDamaged : Bool
  deriving DecidableEq, Repr

/-- Data that can be read to their end. -/
@[coe] def Data.whole (b : Bytes) : Data := ⟨b, false⟩

instance : Coe Bytes Data := ⟨Data.whole⟩

end Bitext
