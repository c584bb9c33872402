import Bitext.Archive.Inflate
import Mathlib.Tactic.Common

/-!
# Unpacking stored blocks

Data that is packed as stored blocks is unpacked block by block: three bits say that a block is
stored and whether it is the last one, and its length stands behind them.

## Main results

* `Bytes.field?_little`, `Bytes.field?_append_right`: numbers in written bytes
* `inflate_storedBlocks`: the round trip
* `inflate_take_storedBlocks`: what is left of data that end too early
-/

namespace Bitext

namespace Bytes

variable {a b x : Bytes} {k w n : Nat}

/-! ## Numbers in written bytes -/

/-- A number that was written at the start. -/
theorem field?_little (h : n < Nat.pow 256 w) (x : Bytes) :
    field? (little w n ++ x) 0 w = some n := by
  have hpart : ((little w n ++ x).drop 0).take w = little w n := by
    rw [List.drop_zero, List.take_left' (length_little w n)]
  simp only [field?, hpart, length_little, if_true, number_little w n h]

/-- What stands in front of a number is passed over. -/
theorem field?_append_right (h : a.length ≤ k) (x : Bytes) (w : Nat) :
    field? (a ++ x) k w = field? x (k - a.length) w := by
  have hdrop : (a ++ x).drop k = x.drop (k - a.length) := by
    rw [List.drop_append, List.drop_eq_nil_of_le h, List.nil_append]
  simp only [field?, hdrop]

/-- A place behind another one is counted from there. -/
theorem field?_add (b : Bytes) (place k w : Nat) :
    field? b (place + k) w = field? (b.drop place) k w := by
  simp only [field?, List.drop_drop]

/-- Where there are too few bytes, there is no number. -/
theorem field?_eq_none (h : b.length < k + w) (hw : 0 < w) : field? b k w = none := by
  have hlength : ((b.drop k).take w).length ≠ w := by
    rw [List.length_take, List.length_drop]
    omega
  simp only [field?, hlength, if_false]

end Bytes

namespace Archive

open Bytes (little length_little field?_little field?_append_right field?_eq_none)

variable {b c rest : Bytes} {out : Array UInt8} {fuel : Nat}

/-! ## Blocks -/

/-- The first byte of a stored block has three bits that matter. -/
theorem inflateBlocks_stored (isLast : Bool) (rest : Bytes) :
    inflateBlocks (fuel + 1) out ⟨(if isLast then 1 else 0) :: rest, 0⟩ =
      (inflateStored out ⟨(if isLast then 1 else 0) :: rest, 3⟩).bind fun found =>
        if isLast then .ok found.1 else inflateBlocks fuel found.1 found.2 := by
  have hlast : BitStream.bit? ⟨(if isLast then 1 else 0) :: rest, 0⟩ =
      some (if isLast then 1 else 0, ⟨(if isLast then 1 else 0) :: rest, 1⟩) := by
    cases isLast <;> rfl
  have hkind : BitStream.number? 2 ⟨(if isLast then 1 else 0) :: rest, 1⟩ =
      some (0, ⟨(if isLast then 1 else 0) :: rest, 3⟩) := by
    cases isLast <;> simp [BitStream.number?, BitStream.bit?]
  simp only [inflateBlocks, foundOrDamaged, hlast, hkind, bind, Except.bind, if_true]
  cases isLast <;> rfl

/-- A stored block behind its first byte: two lengths that agree, then the content. -/
theorem inflateStored_header {n : Nat} (hn : n ≤ maxStored) (first : UInt8) (out : Array UInt8)
    (rest : Bytes) :
    inflateStored out ⟨first :: (little 2 n ++ (little 2 (maxStored - n) ++ rest)), 3⟩ =
      if rest.length < n then .error (out ++ rest.toArray)
      else .ok (out ++ (rest.take n).toArray, ⟨rest.drop n, 0⟩) := by
  have hlength : n < Nat.pow 256 2 := Nat.lt_of_le_of_lt hn (by decide)
  have hlacking : maxStored - n < Nat.pow 256 2 := Nat.lt_of_le_of_lt (Nat.sub_le _ _) (by decide)
  -- Behind the three bits the block goes on with the next byte.
  have halign : BitStream.align
      ⟨first :: (little 2 n ++ (little 2 (maxStored - n) ++ rest)), 3⟩ =
        little 2 n ++ (little 2 (maxStored - n) ++ rest) := rfl
  have hsecond : Bytes.field? (little 2 n ++ (little 2 (maxStored - n) ++ rest)) 2 2 =
      some (maxStored - n) := by
    rw [field?_append_right (Nat.le_of_eq (length_little 2 _)), length_little, Nat.sub_self,
      field?_little hlacking]
  have hdrop : (little 2 n ++ (little 2 (maxStored - n) ++ rest)).drop 4 = rest := by
    rw [← List.append_assoc]
    exact List.drop_left' (by rw [List.length_append, length_little, length_little])
  have hsum : ¬ n + (maxStored - n) ≠ maxStored := by omega
  simp only [inflateStored, halign, field?_little hlength, hsecond, foundOrDamaged, hsum, hdrop,
    if_false, bind, Except.bind]
  rfl

/-- The content of a stored block, behind its first byte. -/
theorem inflateStored_append (hc : c.length ≤ maxStored) (first : UInt8) (out : Array UInt8)
    (rest : Bytes) :
    inflateStored out ⟨first :: (little 2 c.length ++ little 2 (maxStored - c.length) ++ c ++ rest),
      3⟩ = .ok (out ++ c.toArray, ⟨rest, 0⟩) := by
  have henough : ¬ (c ++ rest).length < c.length := by
    rw [List.length_append]
    omega
  simp only [List.append_assoc, inflateStored_header hc, henough, if_false, List.take_left,
    List.drop_left]

/-- A stored block without both of its lengths has no content. -/
theorem inflateStored_of_short (h : b.length < 4) (first : UInt8) (out : Array UInt8) :
    inflateStored out ⟨first :: b, 3⟩ = .error out := by
  have halign : BitStream.align ⟨first :: b, 3⟩ = b := rfl
  have hsecond : Bytes.field? b 2 2 = none := field?_eq_none h (by decide)
  simp only [inflateStored, halign, hsecond, foundOrDamaged, bind, Except.bind]
  cases Bytes.field? b 0 2 <;> rfl

theorem length_storedBlock (isLast : Bool) (c : Bytes) :
    (storedBlock isLast c).length = c.length + 5 := by
  simp only [storedBlock, List.length_cons, List.length_append, length_little]
  omega

/-- A block is unpacked behind what has been unpacked before. -/
theorem inflateBlocks_storedBlock (hc : c.length ≤ maxStored) (isLast : Bool) (rest : Bytes) :
    inflateBlocks (fuel + 1) out ⟨storedBlock isLast c ++ rest, 0⟩ =
      if isLast then .ok (out ++ c.toArray)
      else inflateBlocks fuel (out ++ c.toArray) ⟨rest, 0⟩ := by
  rw [storedBlock, List.cons_append, inflateBlocks_stored, inflateStored_append hc]
  rfl

/-! ## Whole data -/

theorem inflateBlocks_storedBlocks (h : (storedBlocks b).length ≤ fuel) (out : Array UInt8) :
    inflateBlocks fuel out ⟨storedBlocks b, 0⟩ = .ok (out ++ b.toArray) := by
  -- The blocks are as many as the recursion has steps, and each takes one step of the fuel.
  induction b using storedBlocks.induct generalizing fuel out with
  | case1 b hlong ih =>
    rw [storedBlocks, dif_pos hlong] at h ⊢
    have hfirst : (b.take maxStored).length ≤ maxStored := List.length_take_le _ _
    rw [List.length_append, length_storedBlock] at h
    obtain ⟨fuel, rfl⟩ : ∃ n, fuel = n + 1 := ⟨fuel - 1, by omega⟩
    rw [inflateBlocks_storedBlock hfirst false, if_neg Bool.false_ne_true, ih (by omega)]
    have hjoin : (b.take maxStored).toArray ++ (b.drop maxStored).toArray = b.toArray := by
      rw [List.append_toArray, List.take_append_drop]
    rw [Array.append_assoc, hjoin]
  | case2 b hshort =>
    rw [storedBlocks, dif_neg hshort] at h ⊢
    rw [length_storedBlock] at h
    obtain ⟨fuel, rfl⟩ : ∃ n, fuel = n + 1 := ⟨fuel - 1, by omega⟩
    rw [← List.append_nil (storedBlock true b),
      inflateBlocks_storedBlock (Nat.le_of_not_lt hshort) true [], if_pos rfl]

/-- **Unpacking takes back packing.** -/
theorem inflate_storedBlocks (b : Bytes) : inflate (storedBlocks b) = .whole b := by
  rw [inflate, inflateBlocks_storedBlocks (by omega)]
  simp

/-! ## Data that end too early -/

/-- A block that is cut off is unpacked as far as it goes, behind its header of five bytes. -/
theorem inflateBlocks_take_storedBlock (hc : c.length ≤ maxStored) (isLast : Bool) {n : Nat}
    (hn : n < (storedBlock isLast c).length) :
    inflateBlocks (fuel + 1) out ⟨(storedBlock isLast c).take n, 0⟩ =
      .error (out ++ (c.take (n - 5)).toArray) := by
  rw [length_storedBlock] at hn
  cases n with
  | zero => simp [inflateBlocks, BitStream.bit?, foundOrDamaged, bind, Except.bind]
  | succ n =>
    rw [storedBlock, List.take_succ_cons, inflateBlocks_stored]
    by_cases hheader : n < 4
    · have hnone : n + 1 - 5 = 0 := by omega
      rw [inflateStored_of_short (by rw [List.length_take]; omega), hnone]
      simp [Except.bind]
    · have htake : (little 2 c.length ++ little 2 (maxStored - c.length) ++ c).take n =
          little 2 c.length ++ (little 2 (maxStored - c.length) ++ c.take (n - 4)) := by
        have hlengths : (little 2 c.length ++ little 2 (maxStored - c.length)).length = 4 := by
          rw [List.length_append, length_little, length_little]
        rw [List.take_append, List.take_of_length_le (by omega), hlengths, List.append_assoc]
      have hshort : (c.take (n - 4)).length < c.length := by
        rw [List.length_take]
        omega
      rw [htake, inflateStored_header hc, if_pos hshort]
      rfl

theorem inflateBlocks_take_storedBlocks {n : Nat} (hn : n < (storedBlocks b).length)
    (h : n < fuel) (out : Array UInt8) :
    ∃ k, inflateBlocks fuel out ⟨(storedBlocks b).take n, 0⟩ =
      .error (out ++ (b.take k).toArray) := by
  obtain ⟨fuel, rfl⟩ : ∃ m, fuel = m + 1 := ⟨fuel - 1, by omega⟩
  -- The data end within the first block, or else this block is unpacked and they end behind it.
  induction b using storedBlocks.induct generalizing n fuel out with
  | case1 b hlong ih =>
    have hfirst : (b.take maxStored).length ≤ maxStored := List.length_take_le _ _
    rw [storedBlocks, dif_pos hlong] at hn ⊢
    by_cases hwithin : n < (storedBlock false (b.take maxStored)).length
    · rw [List.take_append_of_le_length (Nat.le_of_lt hwithin), inflateBlocks_take_storedBlock hfirst _ hwithin,
        List.take_take]
      exact ⟨_, rfl⟩
    · have hrest : n - (storedBlock false (b.take maxStored)).length <
          (storedBlocks (b.drop maxStored)).length := by
        rw [List.length_append] at hn
        omega
      rw [List.take_append, List.take_of_length_le (by omega), inflateBlocks_storedBlock hfirst,
        if_neg Bool.false_ne_true]
      have hblock := length_storedBlock false (b.take maxStored)
      obtain ⟨fuel, rfl⟩ : ∃ m, fuel = m + 1 := ⟨fuel - 1, by omega⟩
      obtain ⟨k, hk⟩ := ih hrest (out ++ (b.take maxStored).toArray) fuel (by omega)
      have hjoin : (b.take maxStored).toArray ++ ((b.drop maxStored).take k).toArray =
          (b.take (maxStored + k)).toArray := by
        rw [List.append_toArray, List.take_add]
      exact ⟨maxStored + k, by rw [hk, Array.append_assoc, hjoin]⟩
  | case2 b hshort =>
    rw [storedBlocks, dif_neg hshort] at hn ⊢
    exact ⟨_, inflateBlocks_take_storedBlock (Nat.le_of_not_lt hshort) true hn⟩

/-- **Packed data that end too early are damaged**, and a beginning of the content is unpacked. -/
theorem inflate_take_storedBlocks {n : Nat} (hn : n < (storedBlocks b).length) :
    ∃ k, inflate ((storedBlocks b).take n) = ⟨b.take k, true⟩ := by
  have hlength : ((storedBlocks b).take n).length = n := by
    rw [List.length_take]
    omega
  obtain ⟨k, hk⟩ := inflateBlocks_take_storedBlocks hn (by omega : n < 8 * n + 1) #[]
  refine ⟨k, ?_⟩
  rw [inflate, hlength, hk]
  simp

end Archive

end Bitext
