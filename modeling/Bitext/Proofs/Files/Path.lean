import Bitext.Files.Path
import Bitext.Proofs.Text.Blank

/-!
# Names in paths

A plain component of a path names something in the directory that it is joined to.  The empty path,
dots, and whatever has slashes can lead elsewhere.

## Main definitions

* `Path.IsName`: plain components of paths.

## Main results

* `Path.components_join`, `Path.steps_join`: what a path with a name joined to it consists of
* `Path.eq_dot_or_dots_or_isName`: what steps are taken along a path
-/

namespace Bitext.Path

variable {base name path : Text}

/-- A plain component of a path: the name of something in a directory. -/
structure IsName (name : Text) : Prop where
  ne_nil : name ≠ []
  noSlash : '/' ∉ name
  ne_dot : name ≠ ['.']
  ne_dots : name ≠ "..".toList

instance (name : Text) : Decidable (IsName name) :=
  decidable_of_iff (name ≠ [] ∧ '/' ∉ name ∧ name ≠ ['.'] ∧ name ≠ "..".toList)
    ⟨fun ⟨h₁, h₂, h₃, h₄⟩ => ⟨h₁, h₂, h₃, h₄⟩, fun ⟨h₁, h₂, h₃, h₄⟩ => ⟨h₁, h₂, h₃, h₄⟩⟩

/-- A dot in front keeps a name a name. -/
theorem IsName.dot (h : IsName name) : IsName ('.' :: name) where
  ne_nil := List.cons_ne_nil _ _
  noSlash := List.not_mem_cons_of_ne_of_not_mem (by decide) h.noSlash
  ne_dot := by
    intro hdot
    exact h.ne_nil (List.cons_eq_cons.mp hdot).2
  ne_dots := by
    intro hdots
    exact h.ne_dot (List.cons_eq_cons.mp hdots).2

/-! ## Joining -/

theorem isAbsolute_join (h : IsName name) : isAbsolute (join base name) = isAbsolute base := by
  have hname : isAbsolute name = false := by
    cases name with
    | nil => rfl
    | cons c name =>
      rw [isAbsolute, List.head?_cons, beq_eq_false_iff_ne]
      intro hslash
      cases hslash
      exact h.noSlash List.mem_cons_self
  rw [join, if_neg (by rw [hname]; exact Bool.false_ne_true)]
  cases base with
  | nil => exact hname
  | cons c base => split <;> rfl

theorem join_ne_nil (h : IsName name) : join base name ≠ [] := by
  unfold join
  split
  · exact h.ne_nil
  · split
    · exact List.append_ne_nil_of_right_ne_nil _ h.ne_nil
    · exact List.append_ne_nil_of_right_ne_nil _ (List.cons_ne_nil _ _)

/-- The parts of a path to which a name was joined. -/
theorem exists_splitOnP_join (base : Text) (h : IsName name) :
    ∃ front, (join base name).splitOnP (· == '/') = front ++ [name] ∧
      (front.filter fun c => !c.isEmpty && c ≠ ['.']) = components base := by
  have hsingle : name.splitOnP (· == '/') = [name] := by
    apply List.splitOnP_eq_singleton
    intro c hc
    rw [beq_eq_false_iff_ne]
    rintro rfl
    exact h.noSlash hc
  have hrelative : ¬isAbsolute name = true := by
    intro habsolute
    obtain ⟨rest, hrest⟩ := List.head?_eq_some_iff.mp (beq_iff_eq.mp habsolute)
    exact h.noSlash (hrest ▸ List.mem_cons_self)
  rw [join, if_neg hrelative]
  split
  · rename_i hend
    rw [Bool.or_eq_true, List.isEmpty_iff, beq_iff_eq] at hend
    rcases hend with rfl | hslash
    · exact ⟨[], hsingle, rfl⟩
    -- The slash at the end of the first path is the one before the name.
    · obtain ⟨around, rfl⟩ := List.getLast?_eq_some_iff.mp hslash
      refine ⟨around.splitOnP (· == '/'), ?_, ?_⟩
      · rw [List.append_assoc, List.singleton_append, List.splitOnP_append_cons _ _ rfl, hsingle]
      · rw [components, List.splitOnP_append_cons _ _ rfl, List.filter_append, List.splitOnP_nil]
        exact (List.append_nil _).symm
  · exact ⟨base.splitOnP (· == '/'), by rw [List.splitOnP_append_cons _ _ rfl, hsingle], rfl⟩

theorem components_join (base : Text) (h : IsName name) :
    components (join base name) = components base ++ [name] := by
  obtain ⟨front, hsplit, hfront⟩ := exists_splitOnP_join base h
  have hname : (!name.isEmpty && decide (name ≠ ['.'])) = true := by
    rw [List.isEmpty_eq_false_iff.mpr h.ne_nil, decide_eq_true h.ne_dot]
    rfl
  rw [components, hsplit, List.filter_append, hfront, List.filter_cons, if_pos hname,
    List.filter_nil]

/-- A path that ends with a name is followed through its components. -/
theorem steps_join (base : Text) (h : IsName name) :
    steps (join base name) = components base ++ [name] := by
  obtain ⟨front, hsplit, -⟩ := exists_splitOnP_join base h
  have hlast : (some name == some [] || some name == some ['.']) = false := by
    rw [Bool.or_eq_false_iff, beq_eq_false_iff_ne, beq_eq_false_iff_ne]
    exact ⟨fun hnil => h.ne_nil (Option.some.inj hnil), fun hdot => h.ne_dot (Option.some.inj hdot)⟩
  rw [steps, hsplit, components_join base h, List.getLast?_concat, hlast, if_neg Bool.false_ne_true,
    List.append_nil]

/-! ## Steps -/

theorem eq_dots_or_isName (h : name ∈ components path) : name = "..".toList ∨ IsName name := by
  rcases eq_or_ne name "..".toList with hdots | hdots
  · exact .inl hdots
  · obtain ⟨hsplit, hkept⟩ := List.mem_filter.mp h
    rw [Bool.and_eq_true, Bool.not_eq_true', List.isEmpty_eq_false_iff, decide_eq_true_eq] at hkept
    refine .inr ⟨hkept.1, ?_, hkept.2, hdots⟩
    intro hslash
    exact absurd (Text.mem_of_mem_splitOnP hsplit hslash).2 (by decide)

theorem eq_dot_or_dots_or_isName (h : name ∈ steps path) :
    name = ['.'] ∨ name = "..".toList ∨ IsName name := by
  rcases List.mem_append.mp h with hcomponent | hdot
  · exact .inr (eq_dots_or_isName hcomponent)
  · split at hdot
    · exact .inl (List.mem_singleton.mp hdot)
    · cases hdot

/-- Following a path takes a step at least. -/
theorem steps_ne_nil (path : Text) : steps path ≠ [] := by
  rw [steps]
  split
  · exact List.append_ne_nil_of_right_ne_nil _ (List.cons_ne_nil _ _)
  · rename_i hlast
    obtain ⟨front, last, hsplit⟩ :=
      List.eq_nil_or_concat (path.splitOnP (· == '/')) |>.resolve_left (List.splitOnP_ne_nil _ _)
    rw [List.concat_eq_append] at hsplit
    rw [hsplit, List.getLast?_concat, Bool.or_eq_true, beq_iff_eq, beq_iff_eq, Option.some_inj,
      Option.some_inj, not_or] at hlast
    rw [List.append_nil]
    apply List.ne_nil_of_mem (a := last)
    refine List.mem_filter.mpr ⟨hsplit ▸ List.mem_append_right _ List.mem_cons_self, ?_⟩
    rw [List.isEmpty_eq_false_iff.mpr hlast.1, decide_eq_true hlast.2]
    rfl

end Bitext.Path
