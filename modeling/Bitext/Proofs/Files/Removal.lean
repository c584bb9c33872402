import Bitext.Proofs.Files.Way

/-!
# What is lost when a directory is removed

Removing the directory that a path leads to takes everything with it that is inside, and nothing
else.  The directory itself goes too, unless the path ends in dots or leads to the root.

## Main definitions

* `Path.EndsInDots`: paths that only say to empty a directory.
* `FileTree.Loses`: what is lost when the directory is removed that a path leads to.

## Main results

* `FileTree.node?_of_loses`, `FileTree.node?_of_not_loses`: what there is afterwards
-/

namespace Bitext

/-- The last component of a path is one dot or two. -/
def Path.EndsInDots (path : Text) : Prop :=
  ((path.splitOnP (· == '/')).filter (!·.isEmpty)).getLast? = some ['.'] ∨
    ((path.splitOnP (· == '/')).filter (!·.isEmpty)).getLast? = some "..".toList

namespace FileTree

variable {t : FileTree} {place p q : Place} {path : Text}

/-- A place is lost when the directory is removed that a path leads to. -/
def Loses (t : FileTree) (path : Text) (p : Place) : Prop :=
  ∃ place, t.resolve path = .ok place ∧ t.node? place = some .directory ∧ place <+: p ∧
    (p = place → place ≠ [] ∧ ¬Path.EndsInDots path)

/-- With a place all that is inside is lost. -/
theorem Loses.append (h : t.Loses path p) (q : Place) : t.Loses path (p ++ q) := by
  obtain ⟨place, hresolve, hdirectory, hbelow, hself⟩ := h
  refine ⟨place, hresolve, hdirectory, hbelow.trans (List.prefix_append p q), ?_⟩
  rintro rfl
  exact hself (hbelow.eq_of_length_le (List.prefix_append p q).length_le).symm

/-! ## Steps of a removal -/

theorem isInside_iff : isInside p place = true ↔ place <+: p ∧ p ≠ place := by
  rw [isInside, Bool.and_eq_true, List.isPrefixOf_iff_prefix, decide_eq_true_eq]

theorem node?_clear (t : FileTree) (place p : Place) :
    (t.clear place).node? p = if isInside p place then none else t.node? p := by
  rw [node?, node?]
  split
  · rename_i hroot
    rw [List.isEmpty_iff] at hroot
    subst hroot
    -- The root is inside nothing.
    rw [if_neg]
    intro hinside
    obtain ⟨hbelow, hne⟩ := isInside_iff.mp hinside
    exact hne (List.prefix_nil.mp hbelow).symm
  · rw [clear, lookup_filter fun q => !isInside q place]
    cases isInside p place <;> rfl

theorem node?_remove (t : FileTree) (place p : Place) :
    (t.remove place).node? p = if p = place ∧ place ≠ [] then none else t.node? p := by
  rw [node?, node?]
  split
  · rename_i hroot
    rw [List.isEmpty_iff] at hroot
    rw [if_neg]
    rintro ⟨rfl, hne⟩
    exact hne hroot
  · rename_i hroot
    rw [List.isEmpty_iff] at hroot
    rw [remove, lookup_filter fun q => decide (q ≠ place)]
    by_cases hp : p = place
    · rw [if_neg (by simpa using hp), if_pos ⟨hp, fun hnil => hroot (hp.trans hnil)⟩]
    · rw [if_pos (decide_eq_true hp), if_neg fun hsame => hp hsame.1]

/-- **What a removal does**: only a directory is removed, and only emptied if the path ends in
dots. -/
theorem withoutTree_cases (t : FileTree) (path : Text) :
    (∃ place, t.resolve path = .ok place ∧ t.node? place = some .directory ∧
      (Path.EndsInDots path ∧ (t.withoutTree path).2 = t.clear place ∨
        ¬Path.EndsInDots path ∧ (t.withoutTree path).2 = (t.clear place).remove place)) ∨
      (∀ place, t.resolve path = .ok place → t.node? place ≠ some .directory) ∧
        (t.withoutTree path).2 = t := by
  rw [withoutTree]
  split
  · rename_i hresolve
    rw [hresolve]
    exact .inr ⟨nofun, rfl⟩
  · rename_i place hresolve
    rw [hresolve]
    split
    · rename_i hnode
      refine .inr ⟨?_, rfl⟩
      rintro _ ⟨⟩ hdirectory
      rw [hnode] at hdirectory
      cases hdirectory
    · rename_i hnode
      refine .inr ⟨?_, rfl⟩
      rintro _ ⟨⟩ hdirectory
      rw [hnode] at hdirectory
      cases hdirectory
    · rename_i hdirectory
      refine .inl ⟨place, rfl, hdirectory, ?_⟩
      simp only [Path.EndsInDots]
      split
      · rename_i hdot
        exact .inl ⟨.inl (beq_iff_eq.mp hdot), rfl⟩
      · rename_i hdot
        split
        · rename_i hdots
          exact .inl ⟨.inr (beq_iff_eq.mp hdots), rfl⟩
        · rename_i hdots
          refine .inr ⟨?_, rfl⟩
          rintro (h | h)
          · exact hdot (beq_iff_eq.mpr h)
          · exact hdots (beq_iff_eq.mpr h)

/-! ## The tree afterwards -/

/-- **What is lost** is there no more. -/
theorem node?_of_loses (h : t.Loses path p) : (t.withoutTree path).2.node? p = none := by
  obtain ⟨place, hresolve, hdirectory, hbelow, hself⟩ := h
  have hcleared : p ≠ place → (t.clear place).node? p = none := by
    intro hne
    rw [node?_clear, if_pos (isInside_iff.mpr ⟨hbelow, hne⟩)]
  rcases t.withoutTree_cases path with ⟨place', hresolve', -, hremoved⟩ | ⟨hnone, -⟩
  · rw [hresolve] at hresolve'
    cases hresolve'
    rcases hremoved with ⟨hdots, htree⟩ | ⟨-, htree⟩
    · rw [htree]
      exact hcleared fun hp => (hself hp).2 hdots
    · rw [htree, node?_remove]
      split
      · rfl
      · rename_i hother
        exact hcleared fun hp => hother ⟨hp, (hself hp).1⟩
  · exact absurd hdirectory (hnone place hresolve)

/-- **What is not lost** is there as before. -/
theorem node?_of_not_loses (h : ¬t.Loses path p) :
    (t.withoutTree path).2.node? p = t.node? p := by
  rcases t.withoutTree_cases path with ⟨place, hresolve, hdirectory, hremoved⟩ | ⟨-, htree⟩
  · have hcleared : (t.clear place).node? p = t.node? p := by
      rw [node?_clear, if_neg]
      intro hinside
      obtain ⟨hbelow, hne⟩ := isInside_iff.mp hinside
      exact h ⟨place, hresolve, hdirectory, hbelow, fun hsame => absurd hsame hne⟩
    rcases hremoved with ⟨-, htree⟩ | ⟨hdots, htree⟩
    · rw [htree, hcleared]
    · rw [htree, node?_remove, if_neg, hcleared]
      rintro ⟨rfl, hroot⟩
      exact h ⟨p, hresolve, hdirectory, List.prefix_rfl, fun _ => ⟨hroot, hdots⟩⟩
  · rw [htree]

theorem workingDirectory_withoutTree (t : FileTree) (path : Text) :
    (t.withoutTree path).2.workingDirectory = t.workingDirectory := by
  rcases t.withoutTree_cases path with ⟨place, -, -, ⟨-, htree⟩ | ⟨-, htree⟩⟩ | ⟨-, htree⟩
  · rw [htree]
    rfl
  · rw [htree]
    rfl
  · rw [htree]

/-- A removal adds nothing. -/
theorem nodes_withoutTree_sublist (t : FileTree) (path : Text) :
    List.Sublist (t.withoutTree path).2.nodes t.nodes := by
  rcases t.withoutTree_cases path with ⟨place, -, -, ⟨-, htree⟩ | ⟨-, htree⟩⟩ | ⟨-, htree⟩
  · rw [htree]
    exact List.filter_sublist
  · rw [htree]
    exact List.filter_sublist.trans List.filter_sublist
  · rw [htree]

end FileTree

end Bitext
