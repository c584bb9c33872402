import Bitext.Proofs.Markup.Content
import Bitext.Proofs.Markup.Projection
import Mathlib.Logic.Function.Iterate

/-!
# Trees in reduced form

Every round of reduction but the last one removes an element, so there are no more rounds than
elements, and the last round finds nothing to do.  What is left can be said of each element and its
place: none is a wrapper around a single child, and none has nothing in it or after it in front of a
sibling with nothing in it.  The rounds only take elements away, so the names that are left keep
their order.

## Main definitions

* `Forest.changes`: what a round of reduction reports.
* `Forest.Within`: the places of a forest, each with the siblings from there on.

## Main results

* `Forest.changes_iff`: a round reports a change exactly if it removes an element
* `Forest.exists_rounds`: how many rounds there are
* `Forest.isReduced_iff`: reduced forests, place by place
* `Forest.names_reduce_sublist`: the names that are left
* `Element.reduce_spec`: reduction of any tree
-/

namespace Bitext.Markup

namespace Forest

variable {f g children rest : Forest} {name text tail : Text}

/-! ## What a round reports -/

/-- Some sibling is replaced by its only child. -/
def collapsesSome : Forest → Bool
  | nil => false
  | cons _ text children _ rest => collapses text children || rest.collapsesSome

/-- Some sibling takes in the next one. -/
def absorbsSome : Forest → Bool
  | nil => false
  | cons _ text children tail rest => absorbs text children tail rest || rest.absorbsSome

/-- Something is changed below the siblings. -/
def changesInside : Forest → Bool
  | nil => false
  | cons _ _ children _ rest =>
    (children.changesInside || children.reduceInside.collapsesSome ||
      children.reduceInside.collapse.absorbsSome) || rest.changesInside

/-- What a round of reduction reports: whether it changes anything, below the siblings or among
them. -/
def changes (f : Forest) : Bool :=
  f.changesInside || f.reduceInside.collapsesSome || f.reduceInside.collapse.absorbsSome

theorem collapsesSome_eq_false_iff : f.collapsesSome = false ↔ f.NoneCollapses := by
  induction f with
  | nil => exact iff_of_true rfl trivial
  | cons name text children tail rest _ ih =>
    rw [collapsesSome, Bool.or_eq_false_iff, ih, NoneCollapses]

theorem absorbsSome_eq_false_iff : f.absorbsSome = false ↔ f.NoneAbsorbs := by
  induction f with
  | nil => exact iff_of_true rfl trivial
  | cons name text children tail rest _ ih =>
    rw [absorbsSome, Bool.or_eq_false_iff, ih, NoneAbsorbs]

/-- If there is nothing to do inside, a round does what is to be done among the siblings, and first
it replaces elements. -/
theorem changes_eq_false_iff_of_inside (h : f.changesInside = false ↔ f.InsideReduced) :
    f.changes = false ↔ f.IsReduced := by
  rw [changes, Bool.or_eq_false_iff, Bool.or_eq_false_iff, h, collapsesSome_eq_false_iff,
    absorbsSome_eq_false_iff]
  constructor
  · rintro ⟨⟨hinside, hcollapse⟩, hmerge⟩
    rw [reduceInside_of_insideReduced hinside] at hcollapse hmerge
    rw [collapse_of_noneCollapses hcollapse] at hmerge
    exact ⟨hinside, hcollapse, hmerge⟩
  · rintro ⟨hinside, hcollapse, hmerge⟩
    rw [reduceInside_of_insideReduced hinside, collapse_of_noneCollapses hcollapse]
    exact ⟨⟨hinside, hcollapse⟩, hmerge⟩

theorem changesInside_eq_false_iff : f.changesInside = false ↔ f.InsideReduced := by
  induction f with
  | nil => exact iff_of_true rfl trivial
  | cons name text children tail rest ihc ihr =>
    have hchildren := changes_eq_false_iff_of_inside ihc
    rw [changes] at hchildren
    rw [changesInside, Bool.or_eq_false_iff, hchildren, ihr, InsideReduced]
    exact and_congr_left' ⟨fun h => ⟨h.inside, h.collapse, h.merge⟩, fun h => ⟨h.1, h.2.1, h.2.2⟩⟩

theorem changes_eq_false_iff : f.changes = false ↔ f.IsReduced :=
  changes_eq_false_iff_of_inside changesInside_eq_false_iff

/-- **A round reports a change** exactly if it removes an element. -/
theorem changes_iff : f.changes = true ↔ f.reduceOnce.count < f.count := by
  constructor
  · intro h
    refine (reduceOnce_cases f).resolve_left fun hsame => ?_
    rw [changes_eq_false_iff.mpr hsame.2] at h
    cases h
  · intro hless
    by_contra h
    rw [reduceOnce_of_isReduced (changes_eq_false_iff.mp (Bool.eq_false_iff.mpr h))] at hless
    exact Nat.lt_irrefl _ hless

/-! ## Rounds -/

/-- **The number of rounds**: every round before the last one reports a change and removes an
element. -/
theorem exists_rounds (f : Forest) : ∃ rounds ≤ f.count, f.reduce = reduceOnce^[rounds] f ∧
    ∀ k < rounds, (reduceOnce^[k] f).changes = true ∧
      (reduceOnce^[k + 1] f).count < (reduceOnce^[k] f).count := by
  induction f using reduce.induct with
  | case1 f hless ih =>
    obtain ⟨rounds, hle, hreduce, hrounds⟩ := ih
    refine ⟨rounds + 1, by omega, ?_, fun k hk => ?_⟩
    · rw [reduce, if_pos hless, hreduce, Function.iterate_succ_apply]
    · cases k with
      | zero => exact ⟨changes_iff.mpr hless, hless⟩
      | succ k =>
        rw [Function.iterate_succ_apply, Function.iterate_succ_apply]
        exact hrounds k (by omega)
  | case2 f hless =>
    refine ⟨0, Nat.zero_le _, ?_, fun k hk => absurd hk (Nat.not_lt_zero k)⟩
    -- A round that removes no element has nothing to do.
    rw [reduce, if_neg hless, ((reduceOnce_cases f).resolve_right hless).1]
    rfl

/-! ## Place by place -/

/-- The places of a forest: one of its elements, or one below an element, with what follows it among
its siblings. -/
inductive Within : Forest → Forest → Prop where
  | here (f : Forest) : Within f f
  | inside {g children : Forest} (h : Within g children) (name text tail : Text) (rest : Forest) :
      Within g (cons name text children tail rest)
  | behind {g rest : Forest} (h : Within g rest) (name text : Text) (children : Forest)
      (tail : Text) : Within g (cons name text children tail rest)

theorem isReduced_cons_iff : (cons name text children tail rest).IsReduced ↔
    (collapses text children = false ∧ absorbs text children tail rest = false) ∧
      children.IsReduced ∧ rest.IsReduced := by
  constructor
  · rintro ⟨⟨⟨hinside, hcollapse, hmerge⟩, hrest⟩, ⟨hsole, hcollapses⟩, hnext, hmerges⟩
    exact ⟨⟨hsole, hnext⟩, ⟨hinside, hcollapse, hmerge⟩, hrest, hcollapses, hmerges⟩
  · rintro ⟨⟨hsole, hnext⟩, ⟨hinside, hcollapse, hmerge⟩, hrest, hcollapses, hmerges⟩
    exact ⟨⟨⟨hinside, hcollapse, hmerge⟩, hrest⟩, ⟨hsole, hcollapses⟩, hnext, hmerges⟩

/-- **A forest is reduced** if at each of its places the element is not replaced by a single child
and does not take in the sibling behind it. -/
theorem isReduced_iff : f.IsReduced ↔ ∀ name text children tail rest,
    Within (cons name text children tail rest) f →
      collapses text children = false ∧ absorbs text children tail rest = false := by
  induction f with
  | nil => exact ⟨fun _ _ _ _ _ _ h => (by cases h), fun _ => ⟨trivial, trivial, trivial⟩⟩
  | cons name text children tail rest ihc ihr =>
    rw [isReduced_cons_iff, ihc, ihr]
    constructor
    · rintro ⟨hhere, hinside, hbehind⟩ _ _ _ _ _ h
      cases h with
      | here => exact hhere
      | inside h => exact hinside _ _ _ _ _ h
      | behind h => exact hbehind _ _ _ _ _ h
    · intro h
      exact ⟨h _ _ _ _ _ (.here _), fun _ _ _ _ _ hinside => h _ _ _ _ _ (.inside hinside ..),
        fun _ _ _ _ _ hbehind => h _ _ _ _ _ (.behind hbehind ..)⟩

/-! ## Names -/

theorem names_collapse_sublist (f : Forest) : f.collapse.names.Sublist f.names := by
  induction f with
  | nil => exact .slnil
  | cons name text children tail rest _ ih =>
    -- The children keep their names, so those behind them matter.
    have hsame : (name :: (children.names ++ rest.collapse.names)).Sublist
        (name :: (children.names ++ rest.names)) := (ih.append_left _).cons_cons name
    rw [collapse.eq_def]
    simp only
    split
    · split
      -- The name of the element is gone, and that of its only child comes first.
      · refine .cons name ?_
        simp only [names, List.append_nil, List.cons_append]
        exact (ih.append_left _).cons_cons _
      · exact hsame
    · exact hsame

theorem names_mergeInto_sublist (name text : Text) (children : Forest) (tail : Text)
    (rest : Forest) : (mergeInto name text children tail rest).names.Sublist
      (cons name text children tail rest).names := by
  induction rest generalizing name text children tail with
  | nil => exact .refl _
  | cons name' text' children' tail' rest _ ih =>
    cases habsorbs : absorbs text children tail (cons name' text' children' tail' rest) with
    | false =>
      rw [mergeInto_of_eq_false habsorbs]
      exact ((ih name' text' children' tail').append_left _).cons_cons name
    | true =>
      rw [mergeInto_of_eq_true habsorbs]
      -- The sibling that is taken in is gone with its name.
      refine (ih name text children _).trans (.cons_cons name (List.Sublist.append_left ?_ _))
      exact .cons name' (List.sublist_append_right _ _)

theorem names_merge_sublist (f : Forest) : f.merge.names.Sublist f.names := by
  cases f with
  | nil => exact .slnil
  | cons name text children tail rest =>
    exact names_mergeInto_sublist name text children tail rest

theorem names_reduceInside_sublist (f : Forest) : f.reduceInside.names.Sublist f.names := by
  induction f with
  | nil => exact .slnil
  | cons name text children tail rest ihc ihr =>
    have hchildren :=
      (names_merge_sublist _).trans ((names_collapse_sublist _).trans ihc)
    exact (hchildren.append ihr).cons_cons name

theorem names_reduceOnce_sublist (f : Forest) : f.reduceOnce.names.Sublist f.names :=
  (names_merge_sublist _).trans ((names_collapse_sublist _).trans (names_reduceInside_sublist f))

/-- **The names that are left** keep their order. -/
theorem names_reduce_sublist (f : Forest) : f.reduce.names.Sublist f.names := by
  induction f using reduce.induct with
  | case1 f hless ih =>
    rw [reduce, if_pos hless]
    exact ih.trans (names_reduceOnce_sublist f)
  | case2 f hless =>
    rw [reduce, if_neg hless]
    exact names_reduceOnce_sublist f

theorem count_pos_iff : 0 < f.count ↔ f ≠ nil := by
  cases f with
  | nil => exact iff_of_false (Nat.lt_irrefl 0) fun h => h rfl
  | cons name text children tail rest =>
    have hpos : 0 < (cons name text children tail rest).count := by
      rw [count]
      omega
    exact iff_of_true hpos fun h => by cases h

end Forest

namespace Element

/-- **Reduction of a tree.**  There are no more rounds that report a change than there are elements,
since each of them removes one, and then a round reports none and changes nothing.  By that time no
element below the root has one child only with nothing visible in front of it or behind it, and no
element with nothing in it or after it stands in front of a sibling with nothing in it; reducing
once more changes nothing.  The text of the tree is the same but for blanks, the names that are left
keep their order, and an element is left if there was one. -/
theorem reduce_spec (e : Element) :
    (∃ rounds ≤ e.count, e.reduce.children = Forest.reduceOnce^[rounds] e.children ∧
        (∀ k < rounds, (Forest.reduceOnce^[k] e.children).changes = true ∧
          (Forest.reduceOnce^[k + 1] e.children).count <
            (Forest.reduceOnce^[k] e.children).count) ∧
        e.reduce.children.changes = false ∧
        e.reduce.children.reduceOnce = e.reduce.children) ∧
      (∀ name text children tail rest,
        Forest.Within (.cons name text children tail rest) e.reduce.children →
          Forest.collapses text children = false ∧
            Forest.absorbs text children tail rest = false) ∧
      e.reduce.reduce = e.reduce ∧
      Text.visible (e.reduce.content ++ e.reduce.tail) = Text.visible (e.content ++ e.tail) ∧
      (e.reduce.name :: e.reduce.children.names).Sublist (e.name :: e.children.names) ∧
      (0 < e.count → 0 < e.reduce.count) := by
  have hreduced := Forest.isReduced_reduce e.children
  obtain ⟨rounds, hle, hreduce, hrounds⟩ := Forest.exists_rounds e.children
  refine ⟨⟨rounds, hle, hreduce, hrounds, Forest.changes_eq_false_iff.mpr hreduced,
      Forest.reduceOnce_of_isReduced hreduced⟩, Forest.isReduced_iff.mp hreduced, ?_, ?_,
    (Forest.names_reduce_sublist _).cons_cons _, ?_⟩
  · simp only [reduce, Forest.reduce_reduce]
  · simp only [reduce, content, Text.visible_append, Forest.visible_content_reduce]
  · simp only [count, reduce, Forest.count_pos_iff]
    exact Forest.reduce_ne_nil

end Element

end Bitext.Markup
