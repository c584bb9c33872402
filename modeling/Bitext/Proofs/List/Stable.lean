import Mathlib.Data.List.Basic

/-!
# Stable sorting

A stable sort orders a list and leaves elements that compare equal in the order in which they stood.
The library says so for a sorted sublist and for one element at the head; here are the forms that
rankings need: what holds between any two elements of the sorted list, at which place an element
comes to stand, and what does not change if only like elements move past each other.

A comparison need only be an order on the elements of the list.  Scores that are no numbers compare
with nothing, so an order on all elements of the type would be too much to ask.

## Main results

* `pairwise_mergeSort_stable`: elements in order, and ties as they stood
* `exists_mergeSort_append_cons`: the place of an element in the sorted list
* `map_filter_mergeSort`: the values of elements that move past none of another value
* `map_filter_append_filter_not`: the same for a list that is cut in two by a property
-/

namespace List

variable {α : Type*} {r : α → α → Bool} {R : α → α → Prop} {P : α → Prop} {l : List α}

section Order

variable (trans : ∀ a b c, r a b → r b c → r a c) (total : ∀ a b, r a b || r b a)
include trans total

theorem pairwise_mergeSort_of_order (hl : l.Pairwise R) :
    (l.mergeSort r).Pairwise fun a b => r a b ∧ (r b a → R a b) := by
  induction l with
  | nil => simp
  | cons a l ih =>
    obtain ⟨l₁, l₂, hcons, htail, hfront⟩ := mergeSort_cons trans total a l
    obtain ⟨ha, hl⟩ := pairwise_cons.mp hl
    have hsorted := pairwise_mergeSort trans total (a :: l)
    have hrest := ih hl
    rw [hcons] at hsorted ⊢
    rw [htail] at hrest
    obtain ⟨-, htop, hcross⟩ := pairwise_append.mp hsorted
    obtain ⟨hrest₁, hrest₂, hrest₁₂⟩ := pairwise_append.mp hrest
    have hmem : ∀ b ∈ l₂, b ∈ l := by
      intro b hb
      have hb' : b ∈ l.mergeSort r := htail ▸ mem_append_right l₁ hb
      exact mem_mergeSort.mp hb'
    refine pairwise_append.mpr ⟨hrest₁, pairwise_cons.mpr ⟨?_, hrest₂⟩, ?_⟩
    · intro b hb
      exact ⟨rel_of_pairwise_cons htop hb, fun _ => ha b (hmem b hb)⟩
    · intro b hb c hc
      rcases mem_cons.mp hc with rfl | hc
      · -- The element that was at the head ties with nothing in front of it now.
        refine ⟨hcross b hb c mem_cons_self, fun hback => ?_⟩
        have hno := hfront b hb
        rw [hback] at hno
        cases hno
      · exact hrest₁₂ b hb c hc

/-- The first element has those in front of it that compare less. -/
theorem exists_mergeSort_cons (x : α) (b : List α) :
    ∃ l₁ l₂, (x :: b).mergeSort r = l₁ ++ x :: l₂ ∧ l₁.length = b.countP (!r x ·) := by
  obtain ⟨l₁, l₂, hcons, htail, hfront⟩ := mergeSort_cons trans total x b
  have hsorted := pairwise_mergeSort trans total (x :: b)
  rw [hcons] at hsorted
  have hback : ∀ c ∈ l₂, r x c := fun c =>
    rel_of_pairwise_cons (pairwise_append.mp hsorted).2.1
  refine ⟨l₁, l₂, hcons, ?_⟩
  have hcount : b.countP (!r x ·) = (l₁ ++ l₂).countP (!r x ·) := by
    rw [← htail]
    exact ((mergeSort_perm b r).countP_eq _).symm
  have hnone : l₂.countP (!r x ·) = 0 := by
    refine countP_eq_zero.mpr fun c hc => ?_
    rw [hback c hc]
    exact Bool.false_ne_true
  rw [hcount, countP_append, countP_eq_length.mpr hfront, hnone, Nat.add_zero]

/-- **The place of an element in the sorted list**: in front of it are those from before it that
compare at most as great, and those from behind it that compare less. -/
theorem exists_mergeSort_append_cons (a : List α) (x : α) (b : List α) :
    ∃ l₁ l₂, (a ++ x :: b).mergeSort r = l₁ ++ x :: l₂ ∧
      l₁.length = a.countP (r · x) + b.countP (!r x ·) := by
  induction a with
  | nil =>
    obtain ⟨l₁, l₂, hcons, hlength⟩ := exists_mergeSort_cons trans total x b
    exact ⟨l₁, l₂, hcons, by rw [hlength, countP_nil, Nat.zero_add]⟩
  | cons c a ih =>
    obtain ⟨k₁, k₂, hrest, hlength⟩ := ih
    obtain ⟨l₁, l₂, hcons, htail, hfront⟩ := mergeSort_cons trans total c (a ++ x :: b)
    have hsorted := pairwise_mergeSort trans total (c :: (a ++ x :: b))
    rw [hcons] at hsorted
    rw [hrest] at htail
    rw [cons_append, hcons, countP_cons]
    have hbefore (m : List α) (hk : k₁ = l₁ ++ m) (hm : l₂ = m ++ x :: k₂) :
        ∃ n₁ n₂, l₁ ++ c :: l₂ = n₁ ++ x :: n₂ ∧
          n₁.length = a.countP (r · x) + (if r c x then 1 else 0) + b.countP (!r x ·) := by
      have hcx : r c x := by
        refine rel_of_pairwise_cons (pairwise_append.mp hsorted).2.1 ?_
        rw [hm]
        exact mem_append_right m mem_cons_self
      refine ⟨l₁ ++ c :: m, k₂, by simp [hm], ?_⟩
      rw [if_pos hcx]
      rw [hk, length_append] at hlength
      rw [length_append, length_cons]
      omega
    -- The element `c` goes in somewhere before or behind `x`.
    rcases append_eq_append_iff.mp htail.symm with ⟨m, hk, hm⟩ | ⟨m, hl, hm⟩
    · exact hbefore m hk hm
    · cases m with
      | nil => exact hbefore [] (by simpa using hl.symm) (by simpa using hm.symm)
      | cons y m =>
        obtain ⟨rfl, rfl⟩ := cons.inj hm
        have hcx := hfront x (hl ▸ mem_append_right k₁ mem_cons_self)
        refine ⟨k₁, m ++ c :: l₂, by simp [hl], ?_⟩
        rw [if_neg (by simpa using hcx), hlength]
        omega

end Order

/-! ## Orders on the elements of the list only -/

section Within

variable (hP : ∀ a ∈ l, P a) (trans : ∀ a b c, P a → P b → P c → r a b → r b c → r a c)
  (total : ∀ a b, P a → P b → r a b || r b a)
include hP trans total

/-- **A stable sort orders a list, and ties keep whatever held between them.** -/
theorem pairwise_mergeSort_stable (hl : l.Pairwise R) :
    (l.mergeSort r).Pairwise fun a b => r a b ∧ (r b a → R a b) := by
  -- Only elements of the list are compared, so it is sorted as a list of those with `P`.
  let r' : {a // P a} → {a // P a} → Bool := fun a b => r a.1 b.1
  let l' : List {a // P a} := l.attachWith P hP
  have hval : l'.map Subtype.val = l := by simp [l']
  have hl' : l'.Pairwise fun a b => R a.1 b.1 := by
    rw [← hval] at hl
    exact pairwise_map.mp hl
  have hsorted := pairwise_mergeSort_of_order (r := r')
    (fun a b c => trans a.1 b.1 c.1 a.2 b.2 c.2) (fun a b => total a.1 b.1 a.2 b.2) hl'
  have hmap : (l'.mergeSort r').map Subtype.val = l.mergeSort r := by
    rw [map_mergeSort (s := r) (fun _ _ _ _ => rfl), hval]
  rw [← hmap, pairwise_map]
  exact hsorted

end Within

/-! ## Moving past like elements -/

section Values

variable {β : Type*} {f : α → β} {p : α → Bool}

/-- An element moves past elements of the same value. -/
theorem map_append_cons_of_eq {l₁ : List α} {a : α} (h : ∀ b ∈ l₁, f b = f a) (l₂ : List α) :
    (l₁ ++ a :: l₂).map f = f a :: (l₁ ++ l₂).map f := by
  have hsame : l₁.map f = replicate l₁.length (f a) := by
    refine eq_replicate_iff.mpr ⟨length_map f, fun x hx => ?_⟩
    obtain ⟨b, hb, rfl⟩ := mem_map.mp hx
    exact h b hb
  rw [map_append, map_append, map_cons, hsame, append_cons, ← replicate_succ', replicate_succ,
    cons_append]

/-- Of elements with a property, those that do not stand in order have the same value; then sorting
does not change the values one after another. -/
theorem map_filter_mergeSort (trans : ∀ a b c, r a b → r b c → r a c)
    (total : ∀ a b, r a b || r b a) (h : (l.filter p).Pairwise fun a b => r a b ∨ f a = f b) :
    ((l.mergeSort r).filter p).map f = (l.filter p).map f := by
  induction l with
  | nil => rw [mergeSort_nil]
  | cons a l ih =>
    obtain ⟨l₁, l₂, hcons, htail, hfront⟩ := mergeSort_cons trans total a l
    rw [hcons, filter_append]
    by_cases hpa : p a
    · rw [filter_cons_of_pos hpa] at h ⊢
      obtain ⟨ha, hl⟩ := pairwise_cons.mp h
      have hpast : ∀ b ∈ l₁.filter p, f b = f a := by
        intro b hb
        obtain ⟨hb, hpb⟩ := mem_filter.mp hb
        have hmem : b ∈ l := mem_mergeSort.mp (htail ▸ mem_append_left l₂ hb)
        rcases ha b (mem_filter.mpr ⟨hmem, hpb⟩) with hle | heq
        · have hno := hfront b hb
          rw [hle] at hno
          cases hno
        · exact heq.symm
      rw [filter_cons_of_pos hpa, map_append_cons_of_eq hpast, ← filter_append, ← htail, ih hl,
        map_cons]
    · rw [filter_cons_of_neg hpa] at h ⊢
      rw [filter_cons_of_neg hpa, ← filter_append, ← htail, ih h]

/-- If a property holds behind an element without it only where the values are the same, the list
has the values of its two parts. -/
theorem map_filter_append_filter_not (h : l.Pairwise fun a b => (p b → p a) ∨ f a = f b) :
    (l.filter p ++ l.filter (!p ·)).map f = l.map f := by
  induction l with
  | nil => rfl
  | cons a l ih =>
    obtain ⟨ha, hl⟩ := pairwise_cons.mp h
    by_cases hpa : p a
    · rw [filter_cons_of_pos hpa, filter_cons_of_neg (by simp [hpa]), cons_append, map_cons, ih hl,
        map_cons]
    · have hpast : ∀ b ∈ l.filter p, f b = f a := by
        intro b hb
        obtain ⟨hb, hpb⟩ := mem_filter.mp hb
        rcases ha b hb with himp | heq
        · exact absurd (himp hpb) hpa
        · exact heq.symm
      rw [filter_cons_of_neg hpa, filter_cons_of_pos (by simp [hpa]), map_append_cons_of_eq hpast,
        ih hl, map_cons]

end Values

end List
