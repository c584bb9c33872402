import Bitext.Proofs.Markup.Legible
import Bitext.Proofs.Text.Squeeze

/-!
# The texts of a forest one by one

Reduction takes away elements and with them blank texts and tails, but it neither joins two texts
nor changes one.  So the texts that are not blank are the same before and behind it, one by one and
in order.  A function may be applied to all texts of a forest; what reduction looks at is which of
them are blank and which are empty.

## Main definitions

* `Forest.texts`: the texts and tails of a forest.
* `Forest.mapText`: a function applied to all of them.
* `nonblank`: the texts of a list that are not blank.

## Main results

* `Forest.nonblank_texts_reduce`: reduction keeps the texts that are not blank
* `Forest.isReduced_mapText`: what reduction has to do depends on blank and empty texts only
-/

namespace Bitext.Markup

/-- The texts that are not blank, in order. -/
def nonblank (ts : List Text) : List Text := ts.filter (!Text.isBlank ·)

section Nonblank

variable {t : Text} {ts us : List Text}

@[simp] theorem nonblank_nil : nonblank [] = [] := rfl

@[simp] theorem nonblank_append (ts us : List Text) :
    nonblank (ts ++ us) = nonblank ts ++ nonblank us :=
  List.filter_append ..

theorem nonblank_cons_of_isBlank (h : Text.isBlank t = true) (ts : List Text) :
    nonblank (t :: ts) = nonblank ts :=
  List.filter_cons_of_neg (by simp [h])

/-- The rest of a list decides nothing about its first text. -/
theorem nonblank_cons_congr (h : nonblank ts = nonblank us) (t : Text) :
    nonblank (t :: ts) = nonblank (t :: us) := by
  rw [← List.singleton_append, nonblank_append, h, ← nonblank_append]
  rfl

/-- What blank texts do not contribute to comes from the other ones. -/
theorem flatMap_nonblank {β : Type} {g : Text → List β}
    (hg : ∀ t, Text.isBlank t = true → g t = []) (ts : List Text) :
    (nonblank ts).flatMap g = ts.flatMap g := by
  induction ts with
  | nil => rfl
  | cons t ts ih =>
    cases ht : Text.isBlank t with
    | true => rw [nonblank_cons_of_isBlank ht, ih, List.flatMap_cons, hg t ht, List.nil_append]
    | false =>
      have hkept : nonblank (t :: ts) = t :: nonblank ts := List.filter_cons_of_pos (by simp [ht])
      rw [hkept, List.flatMap_cons, List.flatMap_cons, ih]

/-- What holds of blank texts holds of all of them if it holds of the other ones. -/
theorem forall_of_nonblank {p : Text → Prop} (hp : ∀ t, Text.isBlank t = true → p t)
    (h : ∀ t ∈ nonblank ts, p t) : ∀ t ∈ ts, p t := by
  intro t ht
  cases hblank : Text.isBlank t with
  | true => exact hp t hblank
  | false => exact h t (List.mem_filter.mpr ⟨ht, by rw [hblank]; rfl⟩)

theorem mem_of_mem_nonblank (h : t ∈ nonblank ts) : t ∈ ts := (List.mem_filter.mp h).1

end Nonblank

namespace Forest

variable {f g : Forest} {n : Nat}

/-- The texts and tails of a forest, in the order in which they are written. -/
def texts : Forest → List Text
  | nil => []
  | cons _ text children tail rest => text :: (children.texts ++ tail :: rest.texts)

theorem texts_append (f g : Forest) : (f.append g).texts = f.texts ++ g.texts := by
  induction f with
  | nil => rfl
  | cons name text children tail rest _ ih =>
    simp only [append, texts, ih, List.cons_append, List.append_assoc]

/-- The last text of a forest is its last tail. -/
theorem exists_texts_extendTail (h : f ≠ nil) : ∃ before last, f.texts = before ++ [last] ∧
    ∀ extra, (f.extendTail extra).texts = before ++ [last ++ extra] := by
  induction f with
  | nil => exact absurd rfl h
  | cons name text children tail rest _ ih =>
    by_cases hrest : rest = nil
    · subst hrest
      exact ⟨text :: children.texts, tail, rfl, fun _ => rfl⟩
    · obtain ⟨before, last, htexts, hextended⟩ := ih hrest
      refine ⟨text :: (children.texts ++ tail :: before), last, ?_, fun extra => ?_⟩
      · simp [texts, htexts]
      · simp [extendTail_cons hrest, texts, hextended]

theorem texts_renumber (stem : Text) (n : Nat) (f : Forest) :
    (f.renumber stem n).1.texts = f.texts := by
  induction f generalizing n with
  | nil => rfl
  | cons name text children tail rest ihc ihr => simp only [renumber, texts, ihc, ihr]

theorem isReadable_iff : f.IsReadable ↔ ∀ t ∈ f.texts, ∀ c ∈ t, c ≠ '<' := by
  induction f with
  | nil => exact iff_of_true trivial nofun
  | cons name text children tail rest ihc ihr =>
    rw [IsReadable, texts, List.forall_mem_cons, List.forall_mem_append, List.forall_mem_cons, ihc,
      ihr]

/-! ## Reduction -/

theorem nonblank_texts_collapse (f : Forest) :
    nonblank f.collapse.texts = nonblank f.texts := by
  induction f with
  | nil => rfl
  | cons name text children tail rest _ ih =>
    -- What stands behind the first element has the same texts, so only that element matters.
    have hrest (ts : List Text) :
        nonblank (ts ++ tail :: rest.collapse.texts) = nonblank (ts ++ tail :: rest.texts) := by
      rw [nonblank_append, nonblank_append, nonblank_cons_congr ih]
    rw [collapse.eq_def]
    simp only
    split
    · rename_i name' text' children' tail' _
      split
      · rename_i hblank
        obtain ⟨htext, htail⟩ := Bool.and_eq_true_iff.mp hblank
        have hgone : nonblank (text :: (text' :: (children'.texts ++ [tail']) ++
            tail :: rest.texts)) = nonblank (text' :: children'.texts ++ tail :: rest.texts) := by
          rw [nonblank_cons_of_isBlank htext, ← List.cons_append, nonblank_append, nonblank_append,
            nonblank_append, nonblank_cons_of_isBlank htail, nonblank_nil, List.append_nil]
        exact (hrest (text' :: children'.texts)).trans hgone.symm
      · exact hrest (text :: _)
    · exact hrest (text :: _)

theorem nonblank_texts_mergeInto (name text : Text) (children : Forest) (tail : Text)
    (rest : Forest) : nonblank (mergeInto name text children tail rest).texts =
      nonblank (cons name text children tail rest).texts := by
  -- The element in front takes the tail of every sibling that it absorbs, so it is general.
  induction rest generalizing name text children tail with
  | nil => rfl
  | cons name' text' children' tail' rest _ ih =>
    cases habsorbs : absorbs text children tail (cons name' text' children' tail' rest) with
    | false =>
      rw [mergeInto_of_eq_false habsorbs, merge]
      have hrest := nonblank_cons_congr (ih name' text' children' tail') tail
      rw [texts, texts, ← List.cons_append, ← List.cons_append, nonblank_append, nonblank_append,
        hrest]
    | true =>
      rw [mergeInto_of_eq_true habsorbs, ih]
      simp only [absorbs, Bool.and_eq_true, isNil_eq_true, List.isEmpty_iff] at habsorbs
      obtain ⟨⟨⟨⟨htext, htail⟩, rfl⟩, rfl⟩, rfl⟩ := habsorbs
      -- One of the two tails is left; the other one is blank.
      have htails : nonblank ((if tail'.isEmpty then tail else tail') :: rest.texts) =
          nonblank (tail' :: rest.texts) := by
        split
        · rename_i hempty
          rw [List.isEmpty_iff.mp hempty, nonblank_cons_of_isBlank htail,
            nonblank_cons_of_isBlank rfl]
        · rfl
      simp only [texts, List.nil_append, nonblank_cons_of_isBlank htext, htails,
        nonblank_cons_of_isBlank htail]
      rw [nonblank_cons_of_isBlank (t := []) rfl]

theorem nonblank_texts_merge (f : Forest) : nonblank f.merge.texts = nonblank f.texts := by
  cases f with
  | nil => rfl
  | cons name text children tail rest =>
    exact nonblank_texts_mergeInto name text children tail rest

theorem nonblank_texts_reduceInside (f : Forest) :
    nonblank f.reduceInside.texts = nonblank f.texts := by
  induction f with
  | nil => rfl
  | cons name text children tail rest ihc ihr =>
    -- The children are reduced inside first, and then collapsed and merged.
    have hchildren := (nonblank_texts_merge _).trans ((nonblank_texts_collapse _).trans ihc)
    rw [reduceInside, texts, texts]
    refine nonblank_cons_congr ?_ text
    rw [nonblank_append, nonblank_append, hchildren, nonblank_cons_congr ihr]

theorem nonblank_texts_reduceOnce (f : Forest) :
    nonblank f.reduceOnce.texts = nonblank f.texts := by
  rw [reduceOnce, nonblank_texts_merge, nonblank_texts_collapse, nonblank_texts_reduceInside]

/-- **Reduction keeps the texts that are not blank.** -/
theorem nonblank_texts_reduce (f : Forest) : nonblank f.reduce.texts = nonblank f.texts := by
  induction f using reduce.induct with
  | case1 f hless ih => rw [reduce, if_pos hless, ih, nonblank_texts_reduceOnce]
  | case2 f hless => rw [reduce, if_neg hless, nonblank_texts_reduceOnce]

/-! ## A function applied to all texts -/

/-- The forest with a function applied to its texts and tails. -/
def mapText (h : Text → Text) : Forest → Forest
  | nil => nil
  | cons name text children tail rest =>
    cons name (h text) (children.mapText h) (h tail) (rest.mapText h)

variable {h : Text → Text}

theorem texts_mapText (h : Text → Text) (f : Forest) : (f.mapText h).texts = f.texts.map h := by
  induction f with
  | nil => rfl
  | cons name text children tail rest ihc ihr =>
    simp only [mapText, texts, ihc, ihr, List.map_cons, List.map_append]

@[simp] theorem isNil_mapText (h : Text → Text) (f : Forest) : (f.mapText h).isNil = f.isNil := by
  cases f <;> rfl

@[simp] theorem mapText_eq_nil_iff : f.mapText h = nil ↔ f = nil := by
  rw [← isNil_eq_true, isNil_mapText, isNil_eq_true]

theorem renumber_mapText (h : Text → Text) (stem : Text) (n : Nat) (f : Forest) :
    (f.mapText h).renumber stem n =
      ((f.renumber stem n).1.mapText h, (f.renumber stem n).2) := by
  induction f generalizing n with
  | nil => rfl
  | cons name text children tail rest ihc ihr => simp only [mapText, renumber, ihc, ihr]

theorem IsNumbered.mapText (hf : f.IsNumbered n) (h : Text → Text) :
    (f.mapText h).IsNumbered n := by
  unfold IsNumbered at hf ⊢
  rw [renumber_mapText, hf]

/-- The same texts of the forest are blank and the same are empty when the function is applied. -/
def KeepsBlank (h : Text → Text) (f : Forest) : Prop :=
  ∀ t ∈ f.texts, Text.isBlank (h t) = Text.isBlank t ∧ (h t).isEmpty = t.isEmpty

theorem keepsBlank_cons_iff {name text tail : Text} {children rest : Forest} :
    KeepsBlank h (cons name text children tail rest) ↔
      (Text.isBlank (h text) = Text.isBlank text ∧ (h text).isEmpty = text.isEmpty) ∧
        children.KeepsBlank h ∧
        (Text.isBlank (h tail) = Text.isBlank tail ∧ (h tail).isEmpty = tail.isEmpty) ∧
        rest.KeepsBlank h := by
  rw [KeepsBlank, texts, List.forall_mem_cons, List.forall_mem_append, List.forall_mem_cons]
  rfl

namespace KeepsBlank

theorem collapses_eq {text : Text} {children : Forest} (hchildren : children.KeepsBlank h)
    (htext : Text.isBlank (h text) = Text.isBlank text) :
    collapses (h text) (children.mapText h) = collapses text children := by
  cases children with
  | nil => rfl
  | cons name' text' children' tail' rest' =>
    cases rest' with
    | nil =>
      obtain ⟨-, -, ⟨htail, -⟩, -⟩ := keepsBlank_cons_iff.mp hchildren
      simp only [mapText, collapses, htext, htail]
    | cons => rfl

theorem absorbs_eq {text tail : Text} {rest : Forest} (hrest : rest.KeepsBlank h)
    (htext : Text.isBlank (h text) = Text.isBlank text)
    (htail : Text.isBlank (h tail) = Text.isBlank tail) (children : Forest) :
    absorbs (h text) (children.mapText h) (h tail) (rest.mapText h) =
      absorbs text children tail rest := by
  cases rest with
  | nil => rfl
  | cons name' text' children' tail' rest' =>
    obtain ⟨⟨-, hempty⟩, -⟩ := keepsBlank_cons_iff.mp hrest
    simp only [mapText, absorbs, isNil_mapText, htext, htail, hempty]

theorem noneCollapses_iff (hf : f.KeepsBlank h) :
    (f.mapText h).NoneCollapses ↔ f.NoneCollapses := by
  induction f with
  | nil => exact Iff.rfl
  | cons name text children tail rest _ ih =>
    obtain ⟨⟨htext, -⟩, hchildren, -, hrest⟩ := keepsBlank_cons_iff.mp hf
    rw [mapText, NoneCollapses, NoneCollapses, ih hrest, hchildren.collapses_eq htext]

theorem noneAbsorbs_iff (hf : f.KeepsBlank h) : (f.mapText h).NoneAbsorbs ↔ f.NoneAbsorbs := by
  induction f with
  | nil => exact Iff.rfl
  | cons name text children tail rest _ ih =>
    obtain ⟨⟨htext, -⟩, -, ⟨htail, -⟩, hrest⟩ := keepsBlank_cons_iff.mp hf
    rw [mapText, NoneAbsorbs, NoneAbsorbs, ih hrest, hrest.absorbs_eq htext htail]

theorem insideReduced_iff (hf : f.KeepsBlank h) :
    (f.mapText h).InsideReduced ↔ f.InsideReduced := by
  induction f with
  | nil => exact Iff.rfl
  | cons name text children tail rest ihc ihr =>
    obtain ⟨-, hchildren, -, hrest⟩ := keepsBlank_cons_iff.mp hf
    rw [mapText, InsideReduced, InsideReduced, ihc hchildren, ihr hrest,
      hchildren.noneCollapses_iff, hchildren.noneAbsorbs_iff]

end KeepsBlank

/-- **What reduction has to do** depends only on which texts are blank and which are empty. -/
theorem isReduced_mapText (hf : f.KeepsBlank h) : (f.mapText h).IsReduced ↔ f.IsReduced := by
  constructor
  · rintro ⟨hinside, hcollapse, hmerge⟩
    exact ⟨hf.insideReduced_iff.mp hinside, hf.noneCollapses_iff.mp hcollapse,
      hf.noneAbsorbs_iff.mp hmerge⟩
  · rintro ⟨hinside, hcollapse, hmerge⟩
    exact ⟨hf.insideReduced_iff.mpr hinside, hf.noneCollapses_iff.mpr hcollapse,
      hf.noneAbsorbs_iff.mpr hmerge⟩

end Forest

/-- A form can still be read back if a function puts no opening bracket into its texts. -/
theorem IsLegible.mapText {t : Text} {f : Forest} {h : Text → Text} (hf : IsLegible t f)
    (hopen : ∀ u ∈ t :: f.texts, '<' ∉ h u) : IsLegible (h t) (f.mapText h) := by
  obtain ⟨htext, htexts⟩ := List.forall_mem_cons.mp hopen
  refine ⟨List.forall_mem_ne'.mpr htext, ?_, hf.isNumbered.mapText h⟩
  rw [Forest.isReadable_iff, Forest.texts_mapText]
  intro u hu
  obtain ⟨v, hv, rfl⟩ := List.mem_map.mp hu
  exact List.forall_mem_ne'.mpr (htexts v hv)

end Bitext.Markup
