import Bitext.Proofs.Markup.Forest

/-!
# What reduction leaves

A round of reduction either changes nothing or removes an element, and it changes nothing exactly
where no element can be replaced by its only child and no two siblings can be merged.  So the rounds
end with a forest of that kind.  Whether a forest is of that kind depends neither on the names of
the elements nor on the last tail.

## Main definitions

* `Forest.IsReduced`: a round of reduction has nothing to do.

## Main results

* `Forest.reduceOnce_cases`: nothing to do, or an element less
* `Forest.isReduced_reduce`, `Forest.reduce_of_isReduced`
-/

namespace Bitext.Markup.Forest

variable {f rest children : Forest} {name text tail stem extra : Text} {n : Nat}

/-- An element with this text and these children would be replaced by its only child. -/
def collapses (text : Text) : Forest → Bool
  | cons _ _ _ tail' nil => Text.isBlank text && Text.isBlank tail'
  | _ => false

/-- An element would take in the first of the given siblings after it. -/
def absorbs (text : Text) (children : Forest) (tail : Text) : Forest → Bool
  | nil => false
  | cons _ text' children' _ _ =>
    Text.isBlank text && Text.isBlank tail && children.isNil && text'.isEmpty && children'.isNil

/-- No sibling would be replaced by its only child. -/
def NoneCollapses : Forest → Prop
  | nil => True
  | cons _ text children _ rest => collapses text children = false ∧ rest.NoneCollapses

/-- No sibling would take in the next one. -/
def NoneAbsorbs : Forest → Prop
  | nil => True
  | cons _ text children tail rest => absorbs text children tail rest = false ∧ rest.NoneAbsorbs

/-- Nothing would be changed below the siblings. -/
def InsideReduced : Forest → Prop
  | nil => True
  | cons _ _ children _ rest =>
    (children.InsideReduced ∧ children.NoneCollapses ∧ children.NoneAbsorbs) ∧ rest.InsideReduced

/-- A round of reduction has nothing to do. -/
structure IsReduced (f : Forest) : Prop where
  inside : f.InsideReduced
  collapse : f.NoneCollapses
  merge : f.NoneAbsorbs

/-! ## One step -/

theorem collapse_cons_of_eq_false (h : collapses text children = false) :
    (cons name text children tail rest).collapse = cons name text children tail rest.collapse := by
  rw [collapse.eq_def]
  simp only
  split
  · rw [collapses] at h
    rw [if_neg (by simp [h])]
  · rfl

theorem collapse_cons_of_eq_true (h : collapses text children = true) :
    ((cons name text children tail rest).collapse).count =
      children.count + rest.collapse.count := by
  unfold collapses at h
  split at h
  · rw [collapse]
    simp only [h, if_true, count]
    omega
  · cases h

theorem mergeInto_of_eq_false (h : absorbs text children tail rest = false) :
    mergeInto name text children tail rest = cons name text children tail rest.merge := by
  cases rest with
  | nil => rfl
  | cons name' text' children' tail' rest' =>
    rw [absorbs] at h
    rw [mergeInto, h]
    rfl

theorem mergeInto_of_eq_true {name' text' tail' : Text} {children' : Forest}
    (h : absorbs text children tail (cons name' text' children' tail' rest) = true) :
    mergeInto name text children tail (cons name' text' children' tail' rest) =
      mergeInto name text children (if tail'.isEmpty then tail else tail') rest := by
  rw [absorbs] at h
  rw [mergeInto, h]
  rfl

/-! ## One round -/

theorem collapse_cases (f : Forest) :
    f.collapse = f ∧ f.NoneCollapses ∨ f.collapse.count < f.count := by
  induction f with
  | nil => exact Or.inl ⟨rfl, trivial⟩
  | cons name text children tail rest _ ih =>
    cases h : collapses text children with
    | false =>
      rw [collapse_cons_of_eq_false h]
      rcases ih with ⟨hsame, hnone⟩ | hless
      · exact Or.inl ⟨by rw [hsame], h, hnone⟩
      · apply Or.inr
        simp only [count]
        omega
    | true =>
      -- The element itself is gone, whatever happens to the siblings after it.
      have hle : rest.collapse.count ≤ rest.count := by
        rcases ih with ⟨hsame, -⟩ | hless
        · exact Nat.le_of_eq (congrArg count hsame)
        · exact Nat.le_of_lt hless
      apply Or.inr
      rw [collapse_cons_of_eq_true h, count]
      omega

theorem mergeInto_cases (name text : Text) (children : Forest) (tail : Text) (rest : Forest) :
    mergeInto name text children tail rest = cons name text children tail rest ∧
        (cons name text children tail rest).NoneAbsorbs ∨
      (mergeInto name text children tail rest).count < 1 + children.count + rest.count := by
  -- The element that takes in siblings changes on the way, so the induction is over all of them.
  induction rest generalizing name text children tail with
  | nil => exact Or.inl ⟨rfl, rfl, trivial⟩
  | cons name' text' children' tail' rest _ ih =>
    cases h : absorbs text children tail (cons name' text' children' tail' rest) with
    | false =>
      rw [mergeInto_of_eq_false h, merge]
      rcases ih name' text' children' tail' with ⟨hsame, hnone⟩ | hless
      · exact Or.inl ⟨by rw [hsame], h, hnone⟩
      · apply Or.inr
        simp only [count]
        omega
    | true =>
      apply Or.inr
      rw [mergeInto_of_eq_true h]
      rcases ih name text children (if tail'.isEmpty then tail else tail') with ⟨hsame, -⟩ | hless
      · rw [hsame]
        simp only [count]
        omega
      · simp only [count]
        omega

theorem merge_cases (f : Forest) : f.merge = f ∧ f.NoneAbsorbs ∨ f.merge.count < f.count := by
  cases f with
  | nil => exact Or.inl ⟨rfl, trivial⟩
  | cons name text children tail rest => exact mergeInto_cases name text children tail rest

/-- Three rounds in a row leave everything as it is if each of them does, and remove an element if
one of them does. -/
theorem round_cases {f₁ f₂ f₃ : Forest} {p₁ p₂ p₃ : Forest → Prop}
    (h₁ : f₁ = f ∧ p₁ f ∨ f₁.count < f.count) (h₂ : f₂ = f₁ ∧ p₂ f₁ ∨ f₂.count < f₁.count)
    (h₃ : f₃ = f₂ ∧ p₃ f₂ ∨ f₃.count < f₂.count) :
    f₃ = f ∧ (p₁ f ∧ p₂ f ∧ p₃ f) ∨ f₃.count < f.count := by
  rcases h₁ with ⟨rfl, h₁⟩ | h₁ <;> rcases h₂ with ⟨rfl, h₂⟩ | h₂ <;>
    rcases h₃ with ⟨rfl, h₃⟩ | h₃
  · exact Or.inl ⟨rfl, h₁, h₂, h₃⟩
  all_goals exact Or.inr (by omega)

theorem reduceInside_cases (f : Forest) :
    f.reduceInside = f ∧ f.InsideReduced ∨ f.reduceInside.count < f.count := by
  induction f with
  | nil => exact Or.inl ⟨rfl, trivial⟩
  | cons name text children tail rest ihc ihr =>
    rw [reduceInside]
    -- Below the first element and in the siblings after it, an element is gone or nothing changed.
    have hround := round_cases ihc (collapse_cases _) (merge_cases _)
    rcases hround with ⟨hsame, hreduced⟩ | hless <;> rcases ihr with ⟨hrest, hinside⟩ | hrest
    · exact Or.inl ⟨by rw [hsame, hrest], hreduced, hinside⟩
    · apply Or.inr
      rw [hsame]
      simp only [count]
      omega
    · apply Or.inr
      rw [hrest]
      simp only [count]
      omega
    · apply Or.inr
      simp only [count]
      omega

/-- **A round of reduction has nothing to do, or it removes an element.** -/
theorem reduceOnce_cases (f : Forest) :
    f.reduceOnce = f ∧ f.IsReduced ∨ f.reduceOnce.count < f.count := by
  have hround := round_cases (reduceInside_cases f) (collapse_cases _) (merge_cases _)
  apply hround.imp_left
  rintro ⟨hsame, hinside, hcollapse, hmerge⟩
  exact ⟨hsame, hinside, hcollapse, hmerge⟩

/-! ## All rounds -/

/-- **The rounds of reduction end with nothing left to do.** -/
theorem isReduced_reduce (f : Forest) : f.reduce.IsReduced := by
  induction f using reduce.induct with
  | case1 f hless ih =>
    rw [reduce, if_pos hless]
    exact ih
  | case2 f hless =>
    rw [reduce, if_neg hless]
    -- The rounds end where none removes an element, and that is where nothing is left to do.
    rcases reduceOnce_cases f with ⟨hsame, hreduced⟩ | h
    · rw [hsame]
      exact hreduced
    · exact absurd h hless

theorem collapse_of_noneCollapses (h : f.NoneCollapses) : f.collapse = f := by
  induction f with
  | nil => rfl
  | cons name text children tail rest _ ih => rw [collapse_cons_of_eq_false h.1, ih h.2]

theorem merge_of_noneAbsorbs (h : f.NoneAbsorbs) : f.merge = f := by
  induction f with
  | nil => rfl
  | cons name text children tail rest _ ih => rw [merge, mergeInto_of_eq_false h.1, ih h.2]

theorem reduceInside_of_insideReduced (h : f.InsideReduced) : f.reduceInside = f := by
  induction f with
  | nil => rfl
  | cons name text children tail rest ihc ihr =>
    obtain ⟨⟨hinside, hcollapse, hmerge⟩, hrest⟩ := h
    rw [reduceInside, ihc hinside, collapse_of_noneCollapses hcollapse,
      merge_of_noneAbsorbs hmerge, ihr hrest]

/-- A round leaves a reduced forest as it is. -/
theorem reduceOnce_of_isReduced (h : f.IsReduced) : f.reduceOnce = f := by
  rw [reduceOnce, reduceInside_of_insideReduced h.inside, collapse_of_noneCollapses h.collapse,
    merge_of_noneAbsorbs h.merge]

/-- Reduction leaves a forest as it is if there is nothing to do. -/
theorem reduce_of_isReduced (h : f.IsReduced) : f.reduce = f := by
  rw [reduce, reduceOnce_of_isReduced h, if_neg (Nat.lt_irrefl _)]

@[simp] theorem reduce_reduce (f : Forest) : f.reduce.reduce = f.reduce :=
  reduce_of_isReduced (isReduced_reduce f)

/-! ## What does not matter -/

theorem isNil_renumber (stem : Text) (n : Nat) (f : Forest) :
    (f.renumber stem n).1.isNil = f.isNil := by
  cases f <;> rfl

theorem renumber_ne_nil (h : f ≠ nil) : (f.renumber stem n).1 ≠ nil := by
  rw [ne_eq, ← isNil_eq_true, isNil_renumber, isNil_eq_true]
  exact h

theorem collapses_renumber (stem text : Text) (n : Nat) (children : Forest) :
    collapses text (children.renumber stem n).1 = collapses text children := by
  cases children with
  | nil => rfl
  | cons _ _ _ _ rest => cases rest <;> rfl

theorem absorbs_renumber (stem text tail : Text) (n m : Nat) (children rest : Forest) :
    absorbs text (children.renumber stem n).1 tail (rest.renumber stem m).1 =
      absorbs text children tail rest := by
  cases rest with
  | nil => rfl
  | cons => simp only [renumber, absorbs, isNil_renumber]

theorem NoneCollapses.renumber (h : f.NoneCollapses) : (f.renumber stem n).1.NoneCollapses := by
  induction f generalizing n with
  | nil => exact h
  | cons name text children tail rest _ ih =>
    exact ⟨(collapses_renumber stem text _ children).trans h.1, ih h.2⟩

theorem NoneAbsorbs.renumber (h : f.NoneAbsorbs) : (f.renumber stem n).1.NoneAbsorbs := by
  induction f generalizing n with
  | nil => exact h
  | cons name text children tail rest _ ih =>
    exact ⟨(absorbs_renumber stem text tail _ _ children rest).trans h.1, ih h.2⟩

theorem InsideReduced.renumber (h : f.InsideReduced) : (f.renumber stem n).1.InsideReduced := by
  induction f generalizing n with
  | nil => exact h
  | cons name text children tail rest ihc ihr =>
    obtain ⟨⟨hinside, hcollapse, hmerge⟩, hrest⟩ := h
    exact ⟨⟨ihc hinside, hcollapse.renumber, hmerge.renumber⟩, ihr hrest⟩

/-- The names of the elements do not matter for reduction. -/
theorem IsReduced.renumber (h : f.IsReduced) (stem : Text) (n : Nat) :
    (f.renumber stem n).1.IsReduced :=
  ⟨h.inside.renumber, h.collapse.renumber, h.merge.renumber⟩

theorem absorbs_extendTail (text tail extra : Text) (children rest : Forest) :
    absorbs text children tail (rest.extendTail extra) = absorbs text children tail rest := by
  cases rest with
  | nil => rfl
  | cons _ _ _ _ rest => cases rest <;> rfl

theorem noneCollapses_extendTail : (f.extendTail extra).NoneCollapses ↔ f.NoneCollapses := by
  induction f with
  | nil => exact Iff.rfl
  | cons name text children tail rest _ ih =>
    by_cases hrest : rest = nil
    · rw [hrest]
      exact Iff.rfl
    · rw [extendTail_cons hrest, NoneCollapses, ih, NoneCollapses]

theorem noneAbsorbs_extendTail : (f.extendTail extra).NoneAbsorbs ↔ f.NoneAbsorbs := by
  induction f with
  | nil => exact Iff.rfl
  | cons name text children tail rest _ ih =>
    by_cases hrest : rest = nil
    · rw [hrest]
      exact Iff.rfl
    · rw [extendTail_cons hrest, NoneAbsorbs, ih, NoneAbsorbs, absorbs_extendTail]

theorem insideReduced_extendTail : (f.extendTail extra).InsideReduced ↔ f.InsideReduced := by
  induction f with
  | nil => exact Iff.rfl
  | cons name text children tail rest _ ih =>
    by_cases hrest : rest = nil
    · rw [hrest]
      exact Iff.rfl
    · rw [extendTail_cons hrest, InsideReduced, ih, InsideReduced]

/-- The last tail does not matter for reduction. -/
theorem isReduced_extendTail : (f.extendTail extra).IsReduced ↔ f.IsReduced := by
  constructor
  · rintro ⟨hinside, hcollapse, hmerge⟩
    exact ⟨insideReduced_extendTail.mp hinside, noneCollapses_extendTail.mp hcollapse,
      noneAbsorbs_extendTail.mp hmerge⟩
  · rintro ⟨hinside, hcollapse, hmerge⟩
    exact ⟨insideReduced_extendTail.mpr hinside, noneCollapses_extendTail.mpr hcollapse,
      noneAbsorbs_extendTail.mpr hmerge⟩

/-! ## What reduction keeps -/

theorem IsReadable.collapse (h : f.IsReadable) : f.collapse.IsReadable := by
  induction f with
  | nil => exact h
  | cons name text children tail rest _ ih =>
    obtain ⟨htext, hchildren, htail, hrest⟩ := h
    rw [Forest.collapse.eq_def]
    simp only
    split
    · split
      · exact ⟨hchildren.1, hchildren.2.1, htail, ih hrest⟩
      · exact ⟨htext, hchildren, htail, ih hrest⟩
    · exact ⟨htext, hchildren, htail, ih hrest⟩

theorem IsReadable.mergeInto (h : (cons name text children tail rest).IsReadable) :
    (Forest.mergeInto name text children tail rest).IsReadable := by
  induction rest generalizing name text children tail with
  | nil => exact h
  | cons name' text' children' tail' rest _ ih =>
    obtain ⟨htext, hchildren, htail, htext', hchildren', htail', hrest⟩ := h
    rw [Forest.mergeInto]
    split
    -- The merged element has the tail of one of the two.
    · refine ih ⟨htext, hchildren, ?_, hrest⟩
      split
      · exact htail
      · exact htail'
    · exact ⟨htext, hchildren, htail, ih ⟨htext', hchildren', htail', hrest⟩⟩

theorem IsReadable.merge (h : f.IsReadable) : f.merge.IsReadable := by
  cases f with
  | nil => exact h
  | cons => exact h.mergeInto

theorem IsReadable.reduceInside (h : f.IsReadable) : f.reduceInside.IsReadable := by
  induction f with
  | nil => exact h
  | cons name text children tail rest ihc ihr =>
    obtain ⟨htext, hchildren, htail, hrest⟩ := h
    exact ⟨htext, (ihc hchildren).collapse.merge, htail, ihr hrest⟩

/-- Reduction brings no opening bracket into a text. -/
theorem IsReadable.reduce (h : f.IsReadable) : f.reduce.IsReadable := by
  induction f using Forest.reduce.induct with
  | case1 f hless ih =>
    rw [Forest.reduce, if_pos hless]
    exact ih h.reduceInside.collapse.merge
  | case2 f hless =>
    rw [Forest.reduce, if_neg hless]
    exact h.reduceInside.collapse.merge

theorem collapse_ne_nil (h : f ≠ nil) : f.collapse ≠ nil := by
  cases f with
  | nil => exact absurd rfl h
  | cons name text children tail rest =>
    rw [collapse.eq_def]
    simp only
    split
    · split <;> exact fun h => by cases h
    · exact fun h => by cases h

theorem mergeInto_ne_nil (name text : Text) (children : Forest) (tail : Text) (rest : Forest) :
    mergeInto name text children tail rest ≠ nil := by
  induction rest generalizing name text children tail with
  | nil => exact fun h => by cases h
  | cons name' text' children' tail' rest _ ih =>
    rw [mergeInto]
    split
    · exact ih _ _ _ _
    · exact fun h => by cases h

theorem merge_ne_nil (h : f ≠ nil) : f.merge ≠ nil := by
  cases f with
  | nil => exact absurd rfl h
  | cons name text children tail rest => exact mergeInto_ne_nil name text children tail rest

theorem reduceOnce_ne_nil (h : f ≠ nil) : f.reduceOnce ≠ nil := by
  refine merge_ne_nil (collapse_ne_nil ?_)
  cases f with
  | nil => exact absurd rfl h
  | cons => exact fun h => by cases h

/-- Reduction leaves an element if there was one. -/
theorem reduce_ne_nil (h : f ≠ nil) : f.reduce ≠ nil := by
  induction f using reduce.induct with
  | case1 f hless ih =>
    rw [reduce, if_pos hless]
    exact ih (reduceOnce_ne_nil h)
  | case2 f hless =>
    rw [reduce, if_neg hless]
    exact reduceOnce_ne_nil h

/-! ## Forests without names -/

/-- The forest with all names taken away. -/
def anonymous : Forest → Forest
  | nil => nil
  | cons _ text children tail rest => cons [] text children.anonymous tail rest.anonymous

@[simp] theorem isNil_anonymous (f : Forest) : f.anonymous.isNil = f.isNil := by
  cases f <;> rfl

@[simp] theorem count_anonymous (f : Forest) : f.anonymous.count = f.count := by
  induction f with
  | nil => rfl
  | cons name text children tail rest ihc ihr => rw [anonymous, count, count, ihc, ihr]

/-- Numbering gives names of its own. -/
theorem renumber_anonymous (stem : Text) (n : Nat) (f : Forest) :
    f.anonymous.renumber stem n = f.renumber stem n := by
  induction f generalizing n with
  | nil => rfl
  | cons name text children tail rest ihc ihr => simp only [anonymous, renumber, ihc, ihr]

theorem anonymous_collapse (f : Forest) : f.anonymous.collapse = f.collapse.anonymous := by
  induction f with
  | nil => rfl
  | cons name text children tail rest _ ih =>
    have hcollapses : collapses text children.anonymous = collapses text children := by
      cases children with
      | nil => rfl
      | cons _ _ _ _ rest => cases rest <;> rfl
    cases h : collapses text children with
    | false =>
      rw [anonymous, collapse_cons_of_eq_false h, collapse_cons_of_eq_false (hcollapses.trans h),
        ih, anonymous]
    | true =>
      -- The only child takes the place of the element on both sides.
      unfold collapses at h
      split at h
      · simp only [anonymous, collapse, h, if_true, ih]
      · cases h

theorem anonymous_mergeInto (name text : Text) (children : Forest) (tail : Text) (rest : Forest) :
    mergeInto [] text children.anonymous tail rest.anonymous =
      (mergeInto name text children tail rest).anonymous := by
  induction rest generalizing name text children tail with
  | nil => rfl
  | cons name' text' children' tail' rest _ ih =>
    rw [anonymous, mergeInto, mergeInto, isNil_anonymous, isNil_anonymous, ih name, ih name']
    split <;> rfl

theorem anonymous_merge (f : Forest) : f.anonymous.merge = f.merge.anonymous := by
  cases f with
  | nil => rfl
  | cons name text children tail rest => exact anonymous_mergeInto name text children tail rest

theorem anonymous_reduceInside (f : Forest) :
    f.anonymous.reduceInside = f.reduceInside.anonymous := by
  induction f with
  | nil => rfl
  | cons name text children tail rest ihc ihr =>
    rw [anonymous, reduceInside, reduceInside, anonymous, ihc, ihr, anonymous_collapse,
      anonymous_merge]

theorem anonymous_reduceOnce (f : Forest) : f.anonymous.reduceOnce = f.reduceOnce.anonymous := by
  rw [reduceOnce, reduceOnce, anonymous_reduceInside, anonymous_collapse, anonymous_merge]

theorem anonymous_reduce (f : Forest) : f.anonymous.reduce = f.reduce.anonymous := by
  induction f using reduce.induct with
  | case1 f hless ih =>
    have hless' : f.anonymous.reduceOnce.count < f.anonymous.count := by
      rwa [anonymous_reduceOnce, count_anonymous, count_anonymous]
    rw [reduce, if_pos hless', anonymous_reduceOnce, ih]
    conv_rhs => rw [reduce, if_pos hless]
  | case2 f hless =>
    have hless' : ¬ f.anonymous.reduceOnce.count < f.anonymous.count := by
      rwa [anonymous_reduceOnce, count_anonymous, count_anonymous]
    rw [reduce, if_neg hless', anonymous_reduceOnce]
    conv_rhs => rw [reduce, if_neg hless]

/-- **Forests that differ in names only** are the same once they are reduced and numbered. -/
theorem renumber_reduce_congr {g : Forest} (h : f.anonymous = g.anonymous) (stem : Text) (n : Nat) :
    f.reduce.renumber stem n = g.reduce.renumber stem n := by
  rw [← renumber_anonymous, ← anonymous_reduce, h, anonymous_reduce, renumber_anonymous]

end Bitext.Markup.Forest
