import Bitext.Proofs.List.Stable
import Bitext.Score.Selection
import Mathlib.Algebra.Order.Ring.Rat

/-!
# The order of scores

Rankings compare scores and do nothing else with them, so what is said about a ranking holds for
any numbers whose comparisons obey the laws here.  Doubles obey them although one of them is no
number: it is neither below nor above anything, not even at most itself.  Exact fractions obey
them as well, and there every score is a number.

## Main definitions

* `LawfulScore`: the laws of comparisons.
* `Score.IsNumber`: a score that compares with itself.

## Main results

* `Score.clamp_le_clamp`: clamping keeps the order
* `pairwise_mergeSort_score`: ranking by descending score
* `adjust_le`: no adjusted score is above 100
-/

namespace Bitext

/-- Laws of the comparisons of scores.  Where something is no number, both comparisons fail. -/
class LawfulScore (α : Type) [Score α] : Prop where
  le_trans {x y z : α} : Score.le x y → Score.le y z → Score.le x z
  lt_iff {x y : α} : Score.lt x y ↔ Score.le x y ∧ ¬Score.le y x
  le_left {x y : α} : Score.le x y → Score.le x x
  le_right {x y : α} : Score.le x y → Score.le y y
  le_total {x y : α} : Score.le x x → Score.le y y → Score.le x y ∨ Score.le y x

namespace Score

variable {α : Type} [Score α]

/-- What compares with itself is a number. -/
def IsNumber (x : α) : Prop := Score.le x x

section Laws

variable [LawfulScore α] {x y z : α}

theorem lt_irrefl (x : α) : ¬Score.lt x x := by
  intro h
  obtain ⟨hle, hnot⟩ := LawfulScore.lt_iff.mp h
  exact hnot hle

theorem le_of_lt (h : Score.lt x y) : Score.le x y := (LawfulScore.lt_iff.mp h).1

theorem not_le_of_lt (h : Score.lt x y) : ¬Score.le y x := (LawfulScore.lt_iff.mp h).2

theorem not_lt_of_le (h : Score.le x y) : ¬Score.lt y x := fun hlt => not_le_of_lt hlt h

/-- Of two numbers, one that is not below the other is at least as great. -/
theorem le_of_not_lt (hx : IsNumber x) (hy : IsNumber y) (h : ¬Score.lt x y) : Score.le y x := by
  rcases LawfulScore.le_total hx hy with hle | hle
  · by_contra hnot
    exact h (LawfulScore.lt_iff.mpr ⟨hle, hnot⟩)
  · exact hle

theorem not_lt_iff (hx : IsNumber x) (hy : IsNumber y) : (!Score.lt x y) = true ↔ Score.le y x := by
  rw [Bool.not_eq_true', ← Bool.not_eq_true]
  exact ⟨le_of_not_lt hx hy, not_lt_of_le⟩

end Laws

/-! ## Clamping -/

section Clamping

variable [LawfulScore α] {low high x y : α}

theorem clamp_eq_self (hlow : Score.le low x) (hhigh : Score.le x high) : clamp low high x = x := by
  have hnot : ¬Score.lt x low := not_lt_of_le hlow
  have hnot' : ¬Score.lt high x := not_lt_of_le hhigh
  simp only [clamp, if_neg hnot, if_neg hnot']

/-- What is clamped is not above the upper bound, if both are numbers. -/
theorem clamp_le (hhigh : IsNumber high) (h : IsNumber (clamp low high x)) :
    Score.le (clamp low high x) high := by
  rw [clamp] at h ⊢
  generalize (if lt x low then low else x) = y at h ⊢
  by_cases hlt : lt high y
  · rw [if_pos hlt]
    exact hhigh
  · rw [if_neg hlt] at h ⊢
    exact le_of_not_lt hhigh h hlt

/-- A number that is clamped is not below the lower bound. -/
theorem le_clamp (hbounds : Score.le low high) (hx : IsNumber x) :
    Score.le low (clamp low high x) := by
  rw [clamp]
  by_cases hlow : Score.lt x low
  · have hnot : ¬Score.lt high low := not_lt_of_le hbounds
    simp only [if_pos hlow, if_neg hnot]
    exact LawfulScore.le_left hbounds
  · simp only [if_neg hlow]
    split
    · exact hbounds
    · exact le_of_not_lt hx (LawfulScore.le_left hbounds) hlow

/-- Clamping raises a number to the lower bound at most. -/
theorem clamp_le_of_le (hbounds : Score.le low high) (hlow : Score.le low y) (hx : Score.le x y) :
    Score.le (clamp low high x) y := by
  rw [clamp]
  by_cases hbelow : Score.lt x low
  · have hnot : ¬Score.lt high low := not_lt_of_le hbounds
    simp only [if_pos hbelow, if_neg hnot]
    exact hlow
  · simp only [if_neg hbelow]
    split
    · rename_i habove
      exact LawfulScore.le_trans (le_of_lt habove) hx
    · exact hx

/-- **Clamping keeps the order.** -/
theorem clamp_le_clamp (hbounds : Score.le low high) (h : Score.le x y) :
    Score.le (clamp low high x) (clamp low high y) := by
  have hlow : IsNumber low := LawfulScore.le_left hbounds
  have hhigh : IsNumber high := LawfulScore.le_right hbounds
  have hy : IsNumber y := LawfulScore.le_right h
  by_cases hbelow : Score.lt y low
  -- Below the lower bound both numbers become that bound.
  · have hx : Score.le x low := LawfulScore.le_trans h (le_of_lt hbelow)
    exact LawfulScore.le_trans (clamp_le_of_le hbounds hlow hx) (le_clamp hbounds hy)
  · have hle : Score.le low y := le_of_not_lt hy hlow hbelow
    by_cases habove : Score.lt high y
    · have hclamp : clamp low high y = high := by
        simp only [clamp, if_neg hbelow, if_pos habove]
      have hx := LawfulScore.le_right (le_clamp hbounds (LawfulScore.le_left h))
      rw [hclamp]
      exact clamp_le hhigh hx
    · rw [clamp_eq_self hle (le_of_not_lt hhigh hy habove)]
      exact clamp_le_of_le hbounds hle h

end Clamping

/-! ## Rankings -/

section Rankings

variable [LawfulScore α] {β : Type} {R : β → β → Prop} {l : List β}

/-- **Ranking by descending score**: no score is below a later one, and between equal scores holds
what held before. -/
theorem pairwise_mergeSort_score (score : β → α) (hnumber : ∀ a ∈ l, IsNumber (score a))
    (hl : l.Pairwise R) :
    (l.mergeSort fun a b => !Score.lt (score a) (score b)).Pairwise fun a b =>
      Score.le (score b) (score a) ∧ (Score.le (score a) (score b) → R a b) := by
  have hsorted := List.pairwise_mergeSort_stable (r := fun a b => !Score.lt (score a) (score b))
    (P := fun a => IsNumber (score a)) hnumber
    (by
      intro a b c ha hb hc hab hbc
      rw [not_lt_iff ha hb] at hab
      rw [not_lt_iff hb hc] at hbc
      exact (not_lt_iff ha hc).mpr (LawfulScore.le_trans hbc hab))
    (by
      intro a b ha hb
      rw [Bool.or_eq_true, not_lt_iff ha hb, not_lt_iff hb ha]
      exact LawfulScore.le_total hb ha)
    hl
  refine hsorted.imp_of_mem ?_
  intro a b ha hb h
  have ha := hnumber a (List.mem_mergeSort.mp ha)
  have hb := hnumber b (List.mem_mergeSort.mp hb)
  rw [not_lt_iff ha hb, not_lt_iff hb ha] at h
  exact h

end Rankings

/-! ## Exact fractions -/

section Fractions

variable {x y : Rat}

theorem le_iff_rat : Score.le x y ↔ x ≤ y := decide_eq_true_iff

theorem lt_iff_rat : Score.lt x y ↔ x < y := decide_eq_true_iff

theorem not_lt_rat : (!Score.lt x y) = true ↔ y ≤ x := by
  rw [Bool.not_eq_true', Bool.eq_false_iff, ne_eq, lt_iff_rat, not_lt]

theorem isNumber_rat (x : Rat) : IsNumber x := le_iff_rat.mpr (le_refl x)

theorem ofNat_rat (n : Nat) : (Score.ofNat n : Rat) = n := rfl

theorem clamp_rat (low high x : Rat) : Score.clamp low high x = min high (max low x) := by
  have hlow : (if Score.lt x low then low else x) = max low x := by
    split
    · rename_i h
      exact (max_eq_left (lt_iff_rat.mp h).le).symm
    · rename_i h
      exact (max_eq_right (not_lt.mp (mt lt_iff_rat.mpr h))).symm
  have hhigh (y : Rat) : (if Score.lt high y then high else y) = min high y := by
    split
    · rename_i h
      exact (min_eq_left (lt_iff_rat.mp h).le).symm
    · rename_i h
      exact (min_eq_right (not_lt.mp (mt lt_iff_rat.mpr h))).symm
  rw [Score.clamp, hlow, hhigh]

theorem clamp_le_rat (low high x : Rat) : Score.clamp low high x ≤ high := by
  rw [clamp_rat]
  exact min_le_left _ _

theorem clamp_le_clamp_rat (low high : Rat) {x y : Rat} (h : x ≤ y) :
    Score.clamp low high x ≤ Score.clamp low high y := by
  rw [clamp_rat, clamp_rat]
  exact min_le_min_left high (max_le_max_left low h)

end Fractions

end Score

instance : LawfulScore Rat where
  le_trans hxy hyz := Score.le_iff_rat.mpr
    ((Score.le_iff_rat.mp hxy).trans (Score.le_iff_rat.mp hyz))
  lt_iff := by
    intro x y
    rw [Score.lt_iff_rat, Score.le_iff_rat, Score.le_iff_rat]
    exact lt_iff_le_not_ge
  le_left {x _} _ := Score.le_iff_rat.mpr (le_refl x)
  le_right {_ y} _ := Score.le_iff_rat.mpr (le_refl y)
  le_total {x y} _ _ := by
    rw [Score.le_iff_rat, Score.le_iff_rat]
    exact le_total x y

/-- No adjusted score is above 100. -/
theorem Penalties.adjust_le (p : Penalties Rat) (preferences : Preferences) (fraction : Rat)
    (c : Candidate Rat) : p.adjust preferences fraction c ≤ 100 := by
  unfold Penalties.adjust
  exact Score.clamp_le_rat _ _ _

end Bitext
