import Bitext.Proofs.Score.Order
import Mathlib.Order.WithBot

/-!
# Fractions with infinities

Numbers that can be set may be infinite, or no number at all.  They are modelled as exact fractions,
two infinities, and what is no number; operations and comparisons are those of doubles except that
nothing is rounded and that there is one zero only, so that a quotient by zero has the sign of what
is divided.

## Main definitions

* `Extended`: fractions, infinities, and what is no number.
* `Extended.position?`: the place of a number in the order.

## Main results

* `LawfulScore Extended`: comparisons obey the laws of scores
* `Extended.sub_le`, `Extended.sub_le_sub`: what subtracting a penalty does
-/

namespace Bitext

/-- Fractions, two infinities, and what is no number. -/
inductive Extended where
  | finite (x : Rat)
  | infinite (isNegative : Bool)
  | noNumber
  deriving DecidableEq

namespace Extended

/-- The number with the other sign. -/
def negate : Extended → Extended
  | .finite x => .finite (-x)
  | .infinite isNegative => .infinite !isNegative
  | .noNumber => .noNumber

/-- Infinities of different signs have no sum. -/
def add : Extended → Extended → Extended
  | .finite x, .finite y => .finite (x + y)
  | .finite _, .infinite b => .infinite b
  | .infinite a, .finite _ => .infinite a
  | .infinite a, .infinite b => if a = b then .infinite a else .noNumber
  | .noNumber, _ | _, .noNumber => .noNumber

/-- Zero and an infinity have no product. -/
def mul : Extended → Extended → Extended
  | .finite x, .finite y => .finite (x * y)
  | .finite x, .infinite b => if x = 0 then .noNumber else .infinite (b != decide (x < 0))
  | .infinite a, .finite y => if y = 0 then .noNumber else .infinite (a != decide (y < 0))
  | .infinite a, .infinite b => .infinite (a != b)
  | .noNumber, _ | _, .noNumber => .noNumber

/-- Zero by zero and an infinity by an infinity have no quotient. -/
def div : Extended → Extended → Extended
  | .finite x, .finite y =>
    if y ≠ 0 then .finite (x / y) else if x = 0 then .noNumber else .infinite (decide (x < 0))
  | .finite _, .infinite _ => .finite 0
  | .infinite a, .finite y => .infinite (a != decide (y < 0))
  | .infinite _, .infinite _ => .noNumber
  | .noNumber, _ | _, .noNumber => .noNumber

/-- Where a number stands in the order. -/
def position? : Extended → Option (WithBot (WithTop Rat))
  | .finite x => some ((x : WithTop Rat) : WithBot (WithTop Rat))
  | .infinite true => some ⊥
  | .infinite false => some ((⊤ : WithTop Rat) : WithBot (WithTop Rat))
  | .noNumber => none

/-- At most; never of what is no number. -/
def atMost (x y : Extended) : Bool :=
  match x.position?, y.position? with
  | some a, some b => decide (a ≤ b)
  | _, _ => false

/-- Less than; never of what is no number. -/
def below (x y : Extended) : Bool :=
  match x.position?, y.position? with
  | some a, some b => decide (a < b)
  | _, _ => false

instance : Score Extended where
  add := add
  sub x y := add x y.negate
  mul := mul
  div := div
  ofNat n := .finite n
  lt := below
  le := atMost
  ceil?
    | .finite x => some x.ceil.toNat
    | _ => none

/-! ## The order -/

variable {x y z : Extended}

theorem le_iff : Score.le x y ↔ ∃ a ∈ x.position?, ∃ b ∈ y.position?, a ≤ b := by
  show atMost x y = true ↔ _
  rw [atMost]
  cases x.position? <;> cases y.position? <;> simp

theorem lt_iff : Score.lt x y ↔ ∃ a ∈ x.position?, ∃ b ∈ y.position?, a < b := by
  show below x y = true ↔ _
  rw [below]
  cases x.position? <;> cases y.position? <;> simp

/-- What has a place is a number. -/
theorem isNumber_of_position {a : WithBot (WithTop Rat)} (h : a ∈ x.position?) : Score.le x x :=
  le_iff.mpr ⟨a, h, a, h, le_refl a⟩

end Extended

instance : LawfulScore Extended where
  le_trans := by
    intro x y z hxy hyz
    obtain ⟨a, ha, b, hb, hab⟩ := Extended.le_iff.mp hxy
    obtain ⟨b', hb', c, hc, hbc⟩ := Extended.le_iff.mp hyz
    cases Option.mem_unique hb hb'
    exact Extended.le_iff.mpr ⟨a, ha, c, hc, hab.trans hbc⟩
  lt_iff := by
    intro x y
    rw [Extended.lt_iff, Extended.le_iff, Extended.le_iff]
    constructor
    · rintro ⟨a, ha, b, hb, hab⟩
      refine ⟨⟨a, ha, b, hb, hab.le⟩, ?_⟩
      rintro ⟨b', hb', a', ha', hle⟩
      cases Option.mem_unique ha ha'
      cases Option.mem_unique hb hb'
      exact absurd hab (not_lt_of_ge hle)
    · rintro ⟨⟨a, ha, b, hb, hab⟩, hnot⟩
      exact ⟨a, ha, b, hb, lt_of_le_not_ge hab fun hba => hnot ⟨b, hb, a, ha, hba⟩⟩
  le_left := by
    intro x y h
    obtain ⟨a, ha, -⟩ := Extended.le_iff.mp h
    exact Extended.isNumber_of_position ha
  le_right := by
    intro x y h
    obtain ⟨-, -, b, hb, -⟩ := Extended.le_iff.mp h
    exact Extended.isNumber_of_position hb
  le_total := by
    intro x y hx hy
    obtain ⟨a, ha, -⟩ := Extended.le_iff.mp hx
    obtain ⟨b, hb, -⟩ := Extended.le_iff.mp hy
    rcases le_total a b with h | h
    · exact .inl (Extended.le_iff.mpr ⟨a, ha, b, hb, h⟩)
    · exact .inr (Extended.le_iff.mpr ⟨b, hb, a, ha, h⟩)

namespace Extended

variable {x y z : Extended} {p q r : Rat}

theorem ofNat_eq (n : Nat) : (Score.ofNat n : Extended) = .finite n := rfl

theorem finite_le_finite : Score.le (.finite p) (.finite q : Extended) ↔ p ≤ q := by
  rw [le_iff]
  simp [position?]

theorem not_isNumber : ¬Score.IsNumber (.noNumber : Extended) := by
  rw [Score.IsNumber, le_iff]
  rintro ⟨a, ha, -⟩
  cases ha

theorem isNumber_of_ne (h : x ≠ .noNumber) : Score.IsNumber x := by
  cases x with
  | finite p => exact isNumber_of_position rfl
  | infinite isNegative => cases isNegative <;> exact isNumber_of_position rfl
  | noNumber => exact absurd rfl h

theorem isNumber_finite (p : Rat) : Score.IsNumber (.finite p : Extended) :=
  finite_le_finite.mpr (le_refl p)

/-- What lies between fractions is a fraction. -/
theorem exists_finite_of_between (hp : Score.le (.finite p) x) (hq : Score.le x (.finite q)) :
    ∃ r, x = .finite r ∧ p ≤ r ∧ r ≤ q := by
  cases x with
  | finite r => exact ⟨r, rfl, finite_le_finite.mp hp, finite_le_finite.mp hq⟩
  | infinite isNegative => cases isNegative <;> simp [le_iff, position?] at hp hq
  | noNumber => simp [le_iff, position?] at hp

/-- What is at most a fraction is a fraction or the negative infinity. -/
theorem exists_finite_of_le (h : Score.le x (.finite q)) :
    (∃ r, x = .finite r ∧ r ≤ q) ∨ x = .infinite true := by
  cases x with
  | finite r => exact .inl ⟨r, rfl, finite_le_finite.mp h⟩
  | infinite isNegative =>
    cases isNegative with
    | false => simp [le_iff, position?] at h
    | true => exact .inr rfl
  | noNumber => simp [le_iff, position?] at h

/-- What is at least a fraction is a fraction or the positive infinity. -/
theorem exists_finite_of_ge (h : Score.le (.finite p) x) :
    (∃ r, x = .finite r ∧ p ≤ r) ∨ x = .infinite false := by
  cases x with
  | finite r => exact .inl ⟨r, rfl, finite_le_finite.mp h⟩
  | infinite isNegative =>
    cases isNegative with
    | false => exact .inr rfl
    | true => simp [le_iff, position?] at h
  | noNumber => simp [le_iff, position?] at h

theorem infinite_le (h : Score.IsNumber x) : Score.le (.infinite true) x := by
  obtain ⟨a, ha, -⟩ := le_iff.mp h
  exact le_iff.mpr ⟨⊥, rfl, a, ha, bot_le⟩

/-! ## Subtraction -/

theorem finite_sub_finite (p q : Rat) : (.finite p - .finite q : Extended) = .finite (p - q) := by
  show Extended.finite (p + -q) = _
  rw [sub_eq_add_neg]

theorem finite_mul_finite (p q : Rat) : (.finite p * .finite q : Extended) = .finite (p * q) := rfl

/-- **Subtracting a penalty does not raise a score.** -/
theorem sub_le (hx : Score.le x (.finite q)) (hy : Score.le (.finite 0) y) :
    Score.le (x - y) (.finite q) := by
  rcases exists_finite_of_le hx with ⟨p, rfl, hp⟩ | rfl
  · rcases exists_finite_of_ge hy with ⟨r, rfl, hr⟩ | rfl
    · rw [finite_sub_finite]
      exact finite_le_finite.mpr ((sub_le_self p hr).trans hp)
    · exact infinite_le (isNumber_finite q)
  · rcases exists_finite_of_ge hy with ⟨r, rfl, -⟩ | rfl
    · exact infinite_le (isNumber_finite q)
    · exact infinite_le (isNumber_finite q)

/-- **Subtracting the same penalty keeps the order of scores.** -/
theorem sub_le_sub (hxy : Score.le x y) (hy : Score.le y (.finite q))
    (hz : Score.le (.finite 0) z) : Score.le (x - z) (y - z) := by
  have hnumber : Score.IsNumber (y - z) := LawfulScore.le_left (sub_le hy hz)
  rcases exists_finite_of_ge hz with ⟨r, rfl, -⟩ | rfl
  · rcases exists_finite_of_le (LawfulScore.le_trans hxy hy) with ⟨p, rfl, -⟩ | rfl
    · obtain ⟨p', rfl, hle, -⟩ := exists_finite_of_between hxy hy
      rw [finite_sub_finite, finite_sub_finite]
      exact finite_le_finite.mpr (sub_le_sub_right hle r)
    · exact infinite_le hnumber
  -- Nothing is left of a score from which the positive infinity is subtracted.
  · rcases exists_finite_of_le (LawfulScore.le_trans hxy hy) with ⟨p, rfl, -⟩ | rfl
    · exact infinite_le hnumber
    · exact infinite_le hnumber

/-- Subtracting what is no number leaves none. -/
theorem sub_noNumber (x : Extended) : x - .noNumber = .noNumber := by
  cases x <;> rfl

end Extended

end Bitext
