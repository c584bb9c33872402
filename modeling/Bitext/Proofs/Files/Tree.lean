import Bitext.Files.Tree
import Mathlib.Tactic.Common

/-!
# Files that were written

A file that was written at a path is found there afterwards: the way to it leads through
directories, and the place itself was none.

## Main results

* `FileTree.contentAt_withFile`: what is read at the path is what was written
-/

namespace Bitext.FileTree

variable {t t' : FileTree} {place here : Place} {path : Text} {content : Bytes}

theorem lookup_filter (keeps : Place → Bool) (nodes : List (Place × Node)) :
    (nodes.filter (keeps ·.1)).lookup here = if keeps here then nodes.lookup here else none := by
  induction nodes with
  | nil => exact (ite_self none).symm
  | cons n nodes ih =>
    rw [List.filter_cons, List.lookup_cons]
    by_cases hhere : here = n.1
    · subst hhere
      rw [beq_self_eq_true]
      split
      · rw [List.lookup_cons, beq_self_eq_true]
      · rename_i hlost
        rw [ih, if_neg hlost]
    · rw [beq_eq_false_iff_ne.mpr hhere]
      split
      · rw [List.lookup_cons, beq_eq_false_iff_ne.mpr hhere, ih]
      · exact ih

/-- What is put at a place changes no other place. -/
theorem node?_put_of_ne (h : here ≠ place) (node : Node) :
    (t.put place node).node? here = t.node? here := by
  rw [node?, node?, put, List.lookup_cons, beq_eq_false_iff_ne.mpr h,
    lookup_filter fun p => decide (p ≠ place), if_pos (decide_eq_true h)]

theorem node?_put (h : place ≠ []) (node : Node) : (t.put place node).node? place = some node := by
  rw [node?, put, List.lookup_cons, beq_self_eq_true, List.isEmpty_eq_false_iff.mpr h]
  rfl

/-- The way to a place that is no directory does not lead through it. -/
theorem resolveFrom_put {steps : List Text} (hplace : t.node? place ≠ some .directory)
    (node : Node) (h : t.resolveFrom here steps = .ok place) :
    (t.put place node).resolveFrom here steps = .ok place := by
  induction steps generalizing here with
  | nil => exact h
  | cons step steps ih =>
    rw [resolveFrom] at h
    split at h
    · cases h
    · cases h
    -- A directory on the way is not the place, where there is none.
    · rename_i hdirectory
      have hne : here ≠ place := fun hsame => hplace (hsame ▸ hdirectory)
      rw [resolveFrom, node?_put_of_ne hne, hdirectory]
      simp only
      split at h
      · rename_i hdot
        rw [if_pos hdot, ih h]
      · rename_i hdot
        rw [if_neg hdot]
        split at h
        · rename_i hdots
          rw [if_pos hdots, ih h]
        · rename_i hdots
          rw [if_neg hdots, ih h]

/-- **A file that was written is read at its path.** -/
theorem contentAt_withFile (h : t.withFile path content = .ok t') :
    t'.contentAt path = .ok content := by
  unfold withFile at h
  cases hplace : t.resolve path with
  | error fault =>
    rw [hplace] at h
    cases h
  | ok place =>
    simp only [hplace, bind, Except.bind] at h
    split at h
    · cases h
    · rename_i hdirectory
      cases h
      have hnode : t.node? place ≠ some .directory := by
        simpa [hasDirectory] using hdirectory
      -- The root is a directory, so nothing is written there.
      have hne : place ≠ [] := by
        rintro rfl
        exact hnode rfl
      have hresolve : (t.put place (.file content)).resolve path = .ok place := by
        unfold resolve at hplace ⊢
        split at hplace
        · cases hplace
        · rename_i hpath
          rw [if_neg hpath]
          exact resolveFrom_put hnode _ hplace
      simp only [contentAt, hresolve, bind, Except.bind, node?_put hne]

end Bitext.FileTree
