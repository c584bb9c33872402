import Bitext.Score.Basic
import Mathlib.Order.Bounds.Basic
import Mathlib.Order.MinMax

/-!
# The least number of edits

An edit inserts, deletes or replaces one character.  The distance of two texts is the least number
of edits that lead from the one to the other.  A recursion on the first characters of both texts
counts them; edits may as well be looked for from the ends of the texts, and the values of that
recursion for the beginnings of the texts are what the rows hold.

Edits can be undone and be followed by others, so the distance is a metric, and it is never above
the length of the longer text.

## Main definitions

* `Edit`, `Edits`: one edit, and so many of them one after another.
* `leastEdits`: the recursion on the first characters.
* `rowFrom`: its values for a text and the beginnings of another one.

## Main results

* `edits_leastEdits`, `leastEdits_le_of_edits`: the recursion counts the fewest edits
* `foldl_nextRow`: the rows hold the values of the recursion
* `isLeast_distance`: the distance is the least number of edits
* `distance_comm`, `distance_triangle`, `distance_le_max`, `distance_eq_zero_iff`: laws of distance
-/

namespace Bitext.Text

variable {s s' t t' u : Text} {m n : Nat}

/-! ## Edits -/

/-- One character is inserted, deleted or replaced. -/
inductive Edit : Text → Text → Prop where
  | insert (a b : Text) (c : Char) : Edit (a ++ b) (a ++ c :: b)
  | delete (a b : Text) (c : Char) : Edit (a ++ c :: b) (a ++ b)
  | substitute (a b : Text) (c d : Char) : Edit (a ++ c :: b) (a ++ d :: b)

/-- So many edits one after another. -/
inductive Edits : Nat → Text → Text → Prop where
  | none (s : Text) : Edits 0 s s
  | next {n : Nat} {s t u : Text} (first : Edit s t) (rest : Edits n t u) : Edits (n + 1) s u

namespace Edit

theorem symm (h : Edit s t) : Edit t s := by
  cases h with
  | insert a b c => exact .delete a b c
  | delete a b c => exact .insert a b c
  | substitute a b c d => exact .substitute a b d c

theorem cons (h : Edit s t) (c : Char) : Edit (c :: s) (c :: t) := by
  cases h with
  | insert a b d => exact .insert (c :: a) b d
  | delete a b d => exact .delete (c :: a) b d
  | substitute a b d d' => exact .substitute (c :: a) b d d'

theorem reverse (h : Edit s t) : Edit s.reverse t.reverse := by
  have hswap (a b : Text) (c : Char) :
      (a ++ c :: b).reverse = b.reverse ++ c :: a.reverse := by
    rw [List.reverse_append, List.reverse_cons, List.append_assoc, List.singleton_append]
  cases h with
  | insert a b c =>
    rw [List.reverse_append, hswap]
    exact .insert b.reverse a.reverse c
  | delete a b c =>
    rw [hswap, List.reverse_append]
    exact .delete b.reverse a.reverse c
  | substitute a b c d =>
    rw [hswap, hswap]
    exact .substitute b.reverse a.reverse c d

end Edit

namespace Edits

theorem append (h : Edits m s t) (h' : Edits n t u) : Edits (m + n) s u := by
  induction h with
  | none => rwa [Nat.zero_add]
  | next first _ ih =>
    rw [Nat.add_right_comm]
    exact .next first (ih h')

theorem symm (h : Edits n s t) : Edits n t s := by
  induction h with
  | none s => exact .none s
  | next first _ ih => exact ih.append (.next first.symm (.none _))

theorem cons (h : Edits n s t) (c : Char) : Edits n (c :: s) (c :: t) := by
  induction h with
  | none s => exact .none (c :: s)
  | next first _ ih => exact .next (first.cons c) ih

theorem reverse (h : Edits n s t) : Edits n s.reverse t.reverse := by
  induction h with
  | none s => exact .none s.reverse
  | next first _ ih => exact .next first.reverse ih

theorem of_reverse (h : Edits n s.reverse t.reverse) : Edits n s t := by
  have hback := h.reverse
  rwa [List.reverse_reverse, List.reverse_reverse] at hback

/-- A text is written character by character. -/
theorem of_nil (t : Text) : Edits t.length [] t := by
  induction t with
  | nil => exact .none []
  | cons c t ih => exact .next (.insert [] [] c) (ih.cons c)

end Edits

/-! ## The recursion -/

/-- The edit distance by recursion on the first characters: one of them is deleted or inserted, or
both are kept if they are equal, and otherwise one replaces the other. -/
def leastEdits : Text → Text → Nat
  | [], t => t.length
  | s, [] => s.length
  | c :: s, d :: t =>
    min (min (leastEdits s (d :: t) + 1) (leastEdits (c :: s) t + 1))
      (leastEdits s t + if c == d then 0 else 1)
termination_by s t => s.length + t.length

@[simp] theorem leastEdits_nil_left (t : Text) : leastEdits [] t = t.length := by
  rw [leastEdits]

@[simp] theorem leastEdits_nil_right (s : Text) : leastEdits s [] = s.length := by
  cases s with
  | nil => rw [leastEdits]
  | cons c s =>
    rw [leastEdits]
    exact List.cons_ne_nil c s

theorem leastEdits_cons_cons (c d : Char) (s t : Text) :
    leastEdits (c :: s) (d :: t) =
      min (min (leastEdits s (d :: t) + 1) (leastEdits (c :: s) t + 1))
        (leastEdits s t + if c == d then 0 else 1) := by
  rw [leastEdits]

/-- **The recursion counts edits that do it.** -/
theorem edits_leastEdits (s t : Text) : Edits (leastEdits s t) s t := by
  induction s, t using leastEdits.induct with
  | case1 t =>
    rw [leastEdits_nil_left]
    exact .of_nil t
  | case2 s =>
    rw [leastEdits_nil_right]
    exact (Edits.of_nil s).symm
  | case3 c s d t hdelete hinsert hkeep =>
    rw [leastEdits_cons_cons]
    have hdelete' : Edits (leastEdits s (d :: t) + 1) (c :: s) (d :: t) :=
      .next (.delete [] s c) hdelete
    have hinsert' : Edits (leastEdits (c :: s) t + 1) (c :: s) (d :: t) :=
      .next (.insert [] (c :: s) d) (hinsert.cons d)
    have hkeep' : Edits (leastEdits s t + if c == d then 0 else 1) (c :: s) (d :: t) := by
      split
      · rename_i heq
        rw [beq_iff_eq.mp heq]
        exact hkeep.cons d
      · exact .next (.substitute [] s c d) (hkeep.cons d)
    -- Whichever of the three is the least, it can be done.
    rcases min_choice (min (leastEdits s (d :: t) + 1) (leastEdits (c :: s) t + 1))
      (leastEdits s t + if c == d then 0 else 1) with heq | heq
    · rw [heq]
      rcases min_choice (leastEdits s (d :: t) + 1) (leastEdits (c :: s) t + 1) with heq | heq
      · rwa [heq]
      · rwa [heq]
    · rwa [heq]

/-! ### No edit saves more than one -/

theorem leastEdits_cons_left_le (c : Char) (s t : Text) :
    leastEdits (c :: s) t ≤ leastEdits s t + 1 := by
  cases t with
  | nil => simp
  | cons d t =>
    rw [leastEdits_cons_cons]
    omega

theorem leastEdits_cons_right_le (d : Char) (s t : Text) :
    leastEdits s (d :: t) ≤ leastEdits s t + 1 := by
  cases s with
  | nil => simp
  | cons c s =>
    rw [leastEdits_cons_cons]
    omega

/-- The second text is `t` for all `t`, as the recursion may take characters from it alone. -/
theorem leastEdits_cons_congr (hnear : ∀ t, leastEdits s t ≤ leastEdits s' t + 1) (c : Char)
    (t : Text) : leastEdits (c :: s) t ≤ leastEdits (c :: s') t + 1 := by
  induction t with
  | nil =>
    have hlength := hnear []
    simp only [leastEdits_nil_right, List.length_cons] at hlength ⊢
    omega
  | cons d t ih =>
    have hdelete := hnear (d :: t)
    have hkeep := hnear t
    rw [leastEdits_cons_cons, leastEdits_cons_cons]
    omega

theorem leastEdits_le_cons_left (c : Char) (s t : Text) :
    leastEdits s t ≤ leastEdits (c :: s) t + 1 := by
  induction t with
  | nil =>
    simp only [leastEdits_nil_right, List.length_cons]
    omega
  | cons d t ih =>
    have hinsert := leastEdits_cons_right_le d s t
    rw [leastEdits_cons_cons]
    omega

theorem leastEdits_substitute_le (c d : Char) (s t : Text) :
    leastEdits (c :: s) t ≤ leastEdits (d :: s) t + 1 := by
  induction t with
  | nil => simp
  | cons e t ih =>
    rw [leastEdits_cons_cons, leastEdits_cons_cons]
    split <;> split <;> omega

/-- What holds of two texts up to one edit holds behind a common beginning. -/
theorem leastEdits_append_congr (hnear : ∀ t, leastEdits s t ≤ leastEdits s' t + 1) (a : Text) :
    ∀ t, leastEdits (a ++ s) t ≤ leastEdits (a ++ s') t + 1 := by
  induction a with
  | nil => exact hnear
  | cons c a ih => exact leastEdits_cons_congr ih c

/-- **No edit saves more than one.** -/
theorem Edit.leastEdits_le (h : Edit s s') (t : Text) : leastEdits s t ≤ leastEdits s' t + 1 := by
  cases h with
  | insert a b c => exact leastEdits_append_congr (leastEdits_le_cons_left c b) a t
  | delete a b c => exact leastEdits_append_congr (leastEdits_cons_left_le c b) a t
  | substitute a b c d => exact leastEdits_append_congr (leastEdits_substitute_le c d b) a t

theorem leastEdits_self (s : Text) : leastEdits s s = 0 := by
  induction s with
  | nil => simp
  | cons c s ih =>
    rw [leastEdits_cons_cons, ih, beq_self_eq_true, if_pos rfl]
    omega

/-- **Fewer edits than the recursion counts do not do it.** -/
theorem leastEdits_le_of_edits (h : Edits n s t) : leastEdits s t ≤ n := by
  induction h with
  | none s => exact Nat.le_of_eq (leastEdits_self s)
  | next first _ ih => exact (first.leastEdits_le _).trans (Nat.succ_le_succ ih)

/-- Edits may be looked for from the ends of the texts. -/
theorem leastEdits_reverse (s t : Text) : leastEdits s.reverse t.reverse = leastEdits s t :=
  Nat.le_antisymm (leastEdits_le_of_edits (edits_leastEdits s t).reverse)
    (leastEdits_le_of_edits (Edits.of_reverse (edits_leastEdits s.reverse t.reverse)))

theorem leastEdits_concat_concat (s t : Text) (c d : Char) :
    leastEdits (s ++ [c]) (t ++ [d]) =
      min (min (leastEdits s (t ++ [d]) + 1) (leastEdits (s ++ [c]) t + 1))
        (leastEdits s t + if c == d then 0 else 1) := by
  simp only [← leastEdits_reverse s, ← leastEdits_reverse (s ++ [c]), List.reverse_concat,
    leastEdits_cons_cons]

/-! ## Rows -/

/-- The entries of the row for `s` from the one for `before` on, if `t` is what follows `before` in
the second text. -/
def rowFrom (s before : Text) : (t : Text) → List Nat
  | [] => [leastEdits s before]
  | d :: t => leastEdits s before :: rowFrom s (before ++ [d]) t

theorem rowFrom_eq_cons (s before t : Text) :
    rowFrom s before t = leastEdits s before :: (rowFrom s before t).tail := by
  cases t <;> rfl

theorem nextCells_rowFrom (s before t : Text) (c : Char) :
    nextCells c (leastEdits (s ++ [c]) before) t (rowFrom s before t) =
      (rowFrom (s ++ [c]) before t).tail := by
  induction t generalizing before with
  | nil => rfl
  | cons d t ih =>
    -- The entry after `before` has its three neighbours in front of it, above it and between.
    rw [rowFrom, rowFrom_eq_cons s, nextCells, ← rowFrom_eq_cons s, ← leastEdits_concat_concat, ih,
      rowFrom, List.tail_cons, rowFrom_eq_cons (s ++ [c])]
    rfl

/-- One more character of the first text leads to its row. -/
theorem nextRow_rowFrom (s t : Text) (c : Char) :
    nextRow t (rowFrom s [] t) c = rowFrom (s ++ [c]) [] t := by
  have hfirst : (rowFrom s [] t).headD 0 + 1 = leastEdits (s ++ [c]) [] := by
    rw [rowFrom_eq_cons, List.headD_cons, leastEdits_nil_right, leastEdits_nil_right,
      List.length_append, List.length_singleton]
  rw [nextRow, hfirst, nextCells_rowFrom, ← rowFrom_eq_cons]

theorem foldl_nextRow (s t u : Text) :
    u.foldl (nextRow t) (rowFrom s [] t) = rowFrom (s ++ u) [] t := by
  induction u generalizing s with
  | nil => rw [List.foldl_nil, List.append_nil]
  | cons c u ih =>
    rw [List.foldl_cons, nextRow_rowFrom, ih, List.append_assoc, List.singleton_append]

theorem rowFrom_nil (before t : Text) :
    rowFrom [] before t = List.range' before.length (t.length + 1) := by
  induction t generalizing before with
  | nil =>
    rw [rowFrom, leastEdits_nil_left]
    rfl
  | cons d t ih =>
    rw [rowFrom, ih, leastEdits_nil_left, List.length_append]
    rfl

theorem getLastD_rowFrom (s before t : Text) :
    (rowFrom s before t).getLastD 0 = leastEdits s (before ++ t) := by
  induction t generalizing before with
  | nil =>
    rw [rowFrom, List.append_nil]
    rfl
  | cons d t ih =>
    rw [List.append_cons before d t, ← ih, rowFrom, rowFrom_eq_cons, List.getLastD_cons,
      List.getLastD_cons, List.getLastD_cons]

/-- **The rows end with the value of the recursion.** -/
theorem distance_eq_leastEdits (s t : Text) : distance s t = leastEdits s t := by
  have hstart : List.range (t.length + 1) = rowFrom [] [] t := by
    rw [rowFrom_nil, List.range_eq_range']
    rfl
  rw [distance, hstart, foldl_nextRow, getLastD_rowFrom]
  rfl

/-! ## Distance -/

theorem edits_distance (s t : Text) : Edits (distance s t) s t := by
  rw [distance_eq_leastEdits]
  exact edits_leastEdits s t

theorem distance_le_of_edits (h : Edits n s t) : distance s t ≤ n := by
  rw [distance_eq_leastEdits]
  exact leastEdits_le_of_edits h

/-- **The distance of two texts is the least number of edits** that lead from the one to the other,
and the recursion on their first characters yields it. -/
theorem isLeast_distance (s t : Text) :
    IsLeast {n | Edits n s t} (distance s t) ∧ distance s t = leastEdits s t := by
  refine ⟨⟨edits_distance s t, ?_⟩, distance_eq_leastEdits s t⟩
  intro n hedits
  exact distance_le_of_edits hedits

/-- **Only equal texts have distance zero.** -/
theorem distance_eq_zero_iff : distance s t = 0 ↔ s = t := by
  constructor
  · intro hzero
    have hedits := edits_distance s t
    rw [hzero] at hedits
    cases hedits
    rfl
  · rintro rfl
    exact Nat.le_zero.mp (distance_le_of_edits (.none s))

/-- Edits can be undone. -/
theorem distance_comm (s t : Text) : distance s t = distance t s :=
  Nat.le_antisymm (distance_le_of_edits (edits_distance t s).symm)
    (distance_le_of_edits (edits_distance s t).symm)

/-- Edits can be followed by others. -/
theorem distance_triangle (s t u : Text) : distance s u ≤ distance s t + distance t u :=
  distance_le_of_edits ((edits_distance s t).append (edits_distance t u))

/-- Replacing characters and writing what is missing, or deleting the rest, is always enough. -/
theorem distance_le_max (s t : Text) : distance s t ≤ max s.length t.length := by
  rw [distance_eq_leastEdits]
  induction s, t using leastEdits.induct with
  | case1 t => simp
  | case2 s => simp
  | case3 c s d t _ _ hkeep =>
    rw [leastEdits_cons_cons, List.length_cons, List.length_cons]
    split <;> omega

end Bitext.Text
