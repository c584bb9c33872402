import Bitext.Text.Order
import Mathlib.Tactic.Common

/-!
# Laws of the order of texts

The order is strict, and texts of which neither comes before the other are the same.

## Main results

* `Text.not_precedes_of_precedes`: the order is asymmetric
* `Text.atMost_iff`: not to come after a text
-/

namespace Bitext.Text

variable {a b c : Text}

theorem precedes_irrefl (a : Text) : precedes a a = false := by
  induction a with
  | nil => rfl
  | cons c a ih => simp [precedes, ih]

theorem not_precedes_of_precedes (h : precedes a b = true) : precedes b a = false := by
  cases hba : precedes b a with
  | false => rfl
  | true =>
    have hself := precedes_trans h hba
    rw [precedes_irrefl] at hself
    cases hself

theorem ne_of_precedes (h : precedes a b = true) : b ≠ a := by
  rintro rfl
  rw [precedes_irrefl] at h
  cases h

/-- What does not come after a text comes before it or is the same. -/
theorem atMost_iff : atMost a b = true ↔ precedes a b = true ∨ a = b := by
  rw [atMost, Bool.not_eq_true']
  constructor
  · intro hba
    rcases eq_or_ne a b with hsame | hdifferent
    · exact .inr hsame
    · exact .inl (precedes_of_not hdifferent.symm (by rw [hba]; exact Bool.false_ne_true))
  · rintro (hab | rfl)
    · exact not_precedes_of_precedes hab
    · exact precedes_irrefl a

theorem atMost_total (a b : Text) : atMost a b = true ∨ atMost b a = true := by
  rw [atMost_iff, atMost_iff]
  rcases eq_or_ne a b with hsame | hdifferent
  · exact .inl (.inr hsame)
  · by_cases hab : precedes a b = true
    · exact .inl (.inl hab)
    · exact .inr (.inl (precedes_of_not hdifferent hab))

theorem atMost_trans (hab : atMost a b = true) (hbc : atMost b c = true) : atMost a c = true := by
  rw [atMost_iff] at *
  rcases hab with hab | rfl
  · rcases hbc with hbc | rfl
    · exact .inl (precedes_trans hab hbc)
    · exact .inl hab
  · exact hbc

end Bitext.Text
