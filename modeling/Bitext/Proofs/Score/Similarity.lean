import Bitext.Proofs.Score.Order
import Bitext.Proofs.Text.Distance
import Mathlib.Data.Nat.Cast.Order.Ring

/-!
# Similarity

In exact fractions similarities lie between zero and one, and it does not matter which text comes
first.  Only texts that are equal without their tags are perfectly similar, so the candidates with
the greatest possible score are those with the plain text of the query.
-/

namespace Bitext

variable {s t : Text}

theorem similarity_rat (s t : Text) : (similarity s t : Rat) =
    if max (Markup.strip s).length (Markup.strip t).length = 0 then 1
    else 1 - (Text.distance (Markup.strip s) (Markup.strip t) : Rat) /
      (max (Markup.strip s).length (Markup.strip t).length : Nat) := by
  rw [similarity]
  simp only [Score.ofNat_rat, beq_iff_eq, Nat.cast_one]

theorem similarity_le_one (s t : Text) : (similarity s t : Rat) ≤ 1 := by
  rw [similarity_rat]
  split
  · exact le_refl 1
  · exact sub_le_self 1 (div_nonneg (Nat.cast_nonneg _) (Nat.cast_nonneg _))

/-- No distance is above the length of the longer text. -/
theorem similarity_nonneg (s t : Text) : 0 ≤ (similarity s t : Rat) := by
  rw [similarity_rat]
  split
  · exact zero_le_one
  · have hle := Text.distance_le_max (Markup.strip s) (Markup.strip t)
    exact sub_nonneg.mpr (div_le_one_of_le₀ (Nat.cast_le.mpr hle) (Nat.cast_nonneg _))

theorem similarity_comm (s t : Text) : (similarity s t : Rat) = similarity t s := by
  rw [similarity_rat, similarity_rat, max_comm, Text.distance_comm]

/-- **Only texts with the same plain text are perfectly similar.** -/
theorem similarity_eq_one_iff : (similarity s t : Rat) = 1 ↔ Markup.strip s = Markup.strip t := by
  rw [similarity_rat]
  split
  · rename_i hempty
    have hs : Markup.strip s = [] := List.eq_nil_of_length_eq_zero (by omega)
    have ht : Markup.strip t = [] := List.eq_nil_of_length_eq_zero (by omega)
    simp [hs, ht]
  · -- The longer text is not empty, so the quotient is zero only if the distance is.
    rename_i hlong
    rw [sub_eq_self, div_eq_zero_iff, Nat.cast_eq_zero, Nat.cast_eq_zero, or_iff_left hlong]
    exact Text.distance_eq_zero_iff

/-- **The laws of similarity.**  It lies between zero and one, it is symmetric, and it is one for
texts with the same plain text only; it rests on a distance for which no detour is a short cut. -/
theorem similarity_laws (s t : Text) :
    (0 ≤ (similarity s t : Rat) ∧ (similarity s t : Rat) ≤ 1) ∧
      (similarity s t : Rat) = similarity t s ∧
      ((similarity s t : Rat) = 1 ↔ Markup.strip s = Markup.strip t) ∧
      ∀ a b c : Text, Text.distance a c ≤ Text.distance a b + Text.distance b c :=
  ⟨⟨similarity_nonneg s t, similarity_le_one s t⟩, similarity_comm s t, similarity_eq_one_iff,
    Text.distance_triangle⟩

end Bitext
