import Mathlib.Algebra.GroupWithZero.Nat
import Mathlib.Data.List.Basic
import Mathlib.Data.List.Induction

/-!
# The classes of a list

A function cuts a list into classes: the elements with one value, in the order in which they stand.
The classes themselves are ordered by their first elements.  A list is followed class by class: its
first element and all that belong to it make the first class, and the rest is a list again.

## Main definitions

* `List.classes`: the classes of a list.

## Main results

* `classes_cons`, `induction_classes`: the first class and the rest
* `sum_length_classes`: nothing is lost
* `classes_repeated`: leaving out the elements that are alone in their class
* `classes_congr`: functions that agree on what is equal have the same classes
-/

namespace List

variable {α κ κ' : Type*} [BEq κ] [LawfulBEq κ] [BEq κ'] [LawfulBEq κ'] {f : α → κ} {g : α → κ'}
  {p : κ → Bool} {l : List α} {c : List α}

/-! ## Distinct values -/

theorem one_lt_length_of_ne {a b : α} (ha : a ∈ l) (hb : b ∈ l) (hab : a ≠ b) : 1 < l.length := by
  match l, ha, hb with
  | [c], ha, hb => exact absurd ((mem_singleton.mp ha).trans (mem_singleton.mp hb).symm) hab
  | _ :: _ :: _, _, _ => exact Nat.succ_lt_succ (Nat.succ_pos _)

/-- A value at the end is new if it did not occur before. -/
theorem eraseDups_concat (l : List κ) (k : κ) :
    (l ++ [k]).eraseDups = if l.elem k then l.eraseDups else l.eraseDups ++ [k] := by
  rw [eraseDups_append, removeAll]
  by_cases hk : l.elem k
  · rw [if_pos hk, filter_cons_of_neg (by rw [hk]; exact Bool.false_ne_true), filter_nil,
      eraseDups_nil, append_nil]
  · rw [if_neg hk, filter_cons_of_pos (by rw [Bool.eq_false_iff.mpr hk]; rfl)]
    rfl

/-- Values may be left out before or after. -/
theorem eraseDups_filter (p : κ → Bool) (l : List κ) :
    (l.filter p).eraseDups = l.eraseDups.filter p := by
  induction l using reverseRecOn with
  | nil => rfl
  | append_singleton l k ih =>
    rw [filter_append, eraseDups_concat]
    cases hp : p k with
    | false =>
      rw [filter_cons_of_neg (by rw [hp]; exact Bool.false_ne_true), filter_nil, append_nil, ih]
      split
      · rfl
      · rw [filter_append, filter_cons_of_neg (by rw [hp]; exact Bool.false_ne_true), filter_nil,
          append_nil]
    | true =>
      have hmem : (l.filter p).elem k = l.elem k := by
        rw [Bool.eq_iff_iff, elem_iff, elem_iff, mem_filter, and_iff_left hp]
      rw [filter_cons_of_pos hp, filter_nil, eraseDups_concat, hmem, ih]
      split
      · rfl
      · rw [filter_append, filter_cons_of_pos hp, filter_nil]

/-! ## Classes -/

/-- The elements of each value of the function, in the order of the first element of each. -/
def classes (f : α → κ) (l : List α) : List (List α) :=
  (l.map f).eraseDups.map fun k => l.filter (f · == k)

theorem exists_of_mem_classes (h : c ∈ classes f l) : ∃ a ∈ l, c = l.filter (f · == f a) := by
  obtain ⟨k, hk, rfl⟩ := mem_map.mp h
  obtain ⟨a, ha, rfl⟩ := mem_map.mp (mem_eraseDups.mp hk)
  exact ⟨a, ha, rfl⟩

theorem filter_mem_classes {a : α} (h : a ∈ l) : l.filter (f · == f a) ∈ classes f l :=
  mem_map.mpr ⟨f a, mem_eraseDups.mpr (mem_map_of_mem h), rfl⟩

/-- **The first class and the rest.** -/
theorem classes_cons (f : α → κ) (a : α) (l : List α) :
    classes f (a :: l) =
      (a :: l.filter (f · == f a)) :: classes f (l.filter fun b => !(f b == f a)) := by
  have hkeys : ((l.map f).filter fun k => !k == f a) = (l.filter fun b => !(f b == f a)).map f :=
    filter_map
  have hfirst : (a :: l).filter (f · == f a) = a :: l.filter (f · == f a) :=
    filter_cons_of_pos (beq_self_eq_true (f a))
  rw [classes, map_cons, eraseDups_cons, hkeys, map_cons, hfirst]
  refine congrArg (_ :: ·) (map_congr_left fun k hk => ?_)
  -- No value of the rest is that of the first class.
  obtain ⟨b, hb, rfl⟩ := mem_map.mp (mem_eraseDups.mp hk)
  have hne : (f b == f a) = false := by
    rw [← Bool.not_eq_true']
    exact (mem_filter.mp hb).2
  have hother : (a :: l).filter (f · == f b) = l.filter (f · == f b) := by
    refine filter_cons_of_neg ?_
    rw [Bool.not_eq_true, beq_eq_false_iff_ne]
    exact (beq_eq_false_iff_ne.mp hne).symm
  rw [hother, filter_filter]
  refine filter_congr fun x _ => ?_
  by_cases hx : f x = f b
  · rw [hx, hne, beq_self_eq_true]
    rfl
  · rw [beq_false_of_ne hx, Bool.false_and]

omit [LawfulBEq κ] in
/-- A property of lists that the rest behind the first class hands on to the whole list. -/
theorem induction_classes (f : α → κ) {motive : List α → Prop} (nil : motive [])
    (cons : ∀ a l, motive (l.filter fun b => !(f b == f a)) → motive (a :: l)) :
    ∀ l, motive l
  | [] => nil
  | a :: l => cons a l (induction_classes f nil cons (l.filter fun b => !(f b == f a)))
termination_by l => l.length
decreasing_by exact Nat.lt_succ_of_le (length_filter_le _ _)

/-- **Nothing is lost**, and nothing is in two classes. -/
theorem sum_length_classes (f : α → κ) (l : List α) :
    ((classes f l).map length).sum = l.length := by
  induction l using induction_classes f with
  | nil => rfl
  | cons a l ih =>
    have hcut := length_eq_length_filter_add (l := l) fun b => f b == f a
    rw [classes_cons, map_cons, sum_cons, ih, length_cons, length_cons, hcut]
    omega

/-- **Leaving out whole classes** leaves the other ones as they were. -/
theorem classes_filter (p : κ → Bool) (f : α → κ) (l : List α) :
    classes f (l.filter (p ∘ f)) =
      ((l.map f).eraseDups.filter p).map fun k => l.filter (f · == k) := by
  rw [classes, ← filter_map, eraseDups_filter]
  refine map_congr_left fun k hk => ?_
  rw [filter_filter]
  refine filter_congr fun a _ => ?_
  by_cases ha : f a = k
  · rw [Function.comp_apply, ha, (mem_filter.mp hk).2, Bool.and_true]
  · rw [beq_false_of_ne ha, Bool.false_and]

/-- **Leaving out the elements that are alone in their class** leaves the other classes. -/
theorem classes_repeated (f : α → κ) (l : List α) :
    classes f (l.filter fun a => 1 < l.countP (f · == f a)) =
      (classes f l).filter (1 < ·.length) := by
  refine (classes_filter (fun k => 1 < l.countP (f · == k)) f l).trans ?_
  simp only [countP_eq_length_filter]
  rw [classes, filter_map]
  rfl

/-- **Functions that agree on what is equal have the same classes.** -/
theorem classes_congr (h : ∀ a ∈ l, ∀ b ∈ l, f a = f b ↔ g a = g b) :
    classes f l = classes g l := by
  induction l using induction_classes f with
  | nil => rfl
  | cons a l ih =>
    have hsame : ∀ b ∈ l, (f b == f a) = (g b == g a) := by
      intro b hb
      rw [Bool.eq_iff_iff, beq_iff_eq, beq_iff_eq]
      exact h b (mem_cons_of_mem a hb) a mem_cons_self
    have hrest : (l.filter fun b => !(f b == f a)) = l.filter fun b => !(g b == g a) :=
      filter_congr fun b hb => congrArg (!·) (hsame b hb)
    rw [classes_cons, classes_cons, filter_congr hsame, ← hrest]
    refine congrArg (_ :: ·) (ih fun b hb c hc => ?_)
    exact h b (mem_cons_of_mem a (mem_filter.mp hb).1) c (mem_cons_of_mem a (mem_filter.mp hc).1)

end List
