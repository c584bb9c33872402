import Bitext.Text.Basic

/-!
# The order of texts

Texts are ordered by their first different scalar value, and the start of a text comes before it.
This is also the order of their UTF-8 forms.

## Main statements

* `Text.precedes_trans`, `Text.precedes_of_not`: the order is transitive and total.
-/
namespace Bitext.Text

/-- The first text comes before the second one. -/
def precedes : Text → Text → Bool
  | _, [] => false
  | [], _ :: _ => true
  | a :: s, b :: t => a.toNat < b.toNat || (a.toNat == b.toNat && precedes s t)

/-- The first text does not come after the second one. -/
def atMost (a b : Text) : Bool := !precedes b a

theorem precedes_trans {a b c : Text} (hab : precedes a b) (hbc : precedes b c) :
    precedes a c := by
  induction a generalizing b c with
  | nil =>
    cases c with
    | nil => cases b <;> simp [precedes] at hbc
    | cons => rfl
  | cons x a ih =>
    cases b with
    | nil => simp [precedes] at hab
    | cons y b =>
      cases c with
      | nil => simp [precedes] at hbc
      | cons z c =>
        simp only [precedes, Bool.or_eq_true, Bool.and_eq_true, decide_eq_true_eq,
          beq_iff_eq] at hab hbc ⊢
        rcases hab with hxy | ⟨hxy, hab⟩
        · exact .inl (by omega)
        · rcases hbc with hyz | ⟨hyz, hbc⟩
          · exact .inl (by omega)
          · exact .inr ⟨hxy.trans hyz, ih hab hbc⟩

theorem precedes_of_not {a b : Text} (different : a ≠ b) (h : ¬precedes a b) : precedes b a := by
  induction a generalizing b with
  | nil =>
    cases b with
    | nil => exact absurd rfl different
    | cons => exact absurd rfl h
  | cons x a ih =>
    cases b with
    | nil => rfl
    | cons y b =>
      simp only [precedes, Bool.or_eq_true, Bool.and_eq_true, decide_eq_true_eq, beq_iff_eq,
        not_or, not_and] at h ⊢
      by_cases hxy : x.toNat = y.toNat
      · refine .inr ⟨hxy.symm, ih ?_ (h.2 hxy)⟩
        intro hab
        exact different (by rw [Char.toNat_inj.1 hxy, hab])
      · exact .inl (by omega)

end Bitext.Text
