import Bitext.Proofs.Markup.Outline
import Bitext.Proofs.Markup.Reading
import Bitext.Proofs.Markup.Texts

/-!
# The text that normalization keeps

The content of a tree is its texts and tails in the order in which they are written: the characters
of its outline.  Reading a piece adds the character outside tags to it, if the piece is one;
reduction drops blanks only, and numbering drops nothing.  So normalization keeps every visible
character outside tags as long as the reader and the cut into pieces agree on what a tag is.

They disagree where an opening bracket stands outside tags: the reader takes it for the start of a
tag, and what follows it is lost.  A byte order mark at the start is lost as well.

## Main definitions

* `Forest.content`, `Element.content`: the texts and tails of a tree.

## Main results

* `outline_of_treeOf?_canonical`, `content_of_treeOf?`: a tree that was read from canonical names
* `Forest.visible_content_reduce`: reduction drops blanks only
* `visible_outside_normalize_iff`: the texts that lose nothing
-/

namespace Bitext.Markup

open Bitext.Unicode (Glyph)

variable {name text tail t a : Text} {reading : Reading} {ps : List Piece}

/-! ## Content -/

namespace Forest

variable {f g children rest : Forest}

/-- The texts and tails of a forest, in the order in which they are written. -/
def content : Forest → Text
  | nil => []
  | cons _ text children tail rest => text ++ (children.content ++ (tail ++ rest.content))

theorem content_eq_flatten (f : Forest) : f.content = f.texts.flatten := by
  induction f with
  | nil => rfl
  | cons name text children tail rest ihc ihr =>
    rw [content, texts, List.flatten_cons, List.flatten_append, List.flatten_cons, ihc, ihr]

theorem content_renumber (stem : Text) (n : Nat) (f : Forest) :
    (f.renumber stem n).1.content = f.content := by
  rw [content_eq_flatten, content_eq_flatten, texts_renumber]

/-- The characters of the outline are the content. -/
theorem filterMap_char?_outline (f : Forest) : f.outline.filterMap Piece.char? = f.content := by
  induction f with
  | nil => rfl
  | cons name text children tail rest ihc ihr =>
    rw [outline, filterMap_char?_tag]
    simp only [List.filterMap_append, filterMap_char?_map_char, ihc, ihr, content]

/-- The characters outside the tags of the written form are the content. -/
theorem filterMap_char?_pieces (f : Forest) : f.pieces.filterMap Piece.char? = f.content := by
  induction f with
  | nil => rfl
  | cons name text children tail rest ihc ihr =>
    rw [pieces, List.filterMap_append, List.filterMap_append, filterMap_char?_map_char, ihr,
      content]
    split
    · rename_i hempty
      obtain ⟨htext, hchildren⟩ := Bool.and_eq_true_iff.mp hempty
      rw [List.isEmpty_iff.mp htext, isNil_eq_true.mp hchildren]
      rfl
    · rw [filterMap_char?_tag, List.filterMap_append, List.filterMap_append,
        filterMap_char?_map_char, ihc, filterMap_char?_tag, List.filterMap_nil,
        List.append_nil, List.append_assoc]

/-- **Reduction drops blanks only.** -/
theorem visible_content_reduce (f : Forest) :
    Text.visible f.reduce.content = Text.visible f.content := by
  -- What is visible comes from the texts that are not blank, and reduction keeps those.
  have hvisible (f : Forest) :
      Text.visible f.content = (nonblank f.texts).flatMap Text.visible := by
    rw [content_eq_flatten, Text.visible_flatten,
      flatMap_nonblank fun _ ht => Text.visible_eq_nil_iff.mpr ht]
  rw [hvisible, hvisible, nonblank_texts_reduce]

end Forest

/-- The text of an element, and its inside. -/
def Element.content (e : Element) : Text := e.text ++ e.children.content

theorem Element.filterMap_char?_outline (e : Element) :
    e.outline.filterMap Piece.char? = e.content := by
  rw [outline, filterMap_char?_tag, List.filterMap_append, filterMap_char?_map_char,
    Forest.filterMap_char?_outline, content]

/-! ## Reading -/

/-- The characters that pieces add to the outline are those outside tags. -/
theorem filterMap_char?_flatMap_outline (ps : List Piece) :
    (ps.flatMap Piece.outline).filterMap Piece.char? = ps.filterMap Piece.char? := by
  induction ps with
  | nil => rfl
  | cons p ps ih =>
    rw [List.flatMap_cons, List.filterMap_append, ih]
    cases p with
    | char c => rfl
    | tag body =>
      rw [Piece.outline, Xml.Event.filterMap_char?_outline, Xml.Event.characters_tagEvent]
      rfl

/-- The outline of a tree that was read from a text with canonical names. -/
theorem outline_of_treeOf?_canonical {root : Element} (h : '<' ∉ outside t)
    (htree : treeOf? reading (Xml.items (Glyph.ofText (canonical t))) = some root) :
    root.outline = .tag [] :: (renamed (dropMark (pieces t))).flatMap Piece.outline := by
  rw [treeOf?_canonical h] at htree
  obtain ⟨b, hread, hfinish⟩ := Option.bind_eq_some_iff.mp htree
  rw [TreeBuilder.outline_finish hfinish, TreeBuilder.outline_readPieces hread]
  rfl

/-- **The content of a tree** is what stands outside the tags, but for a byte order mark. -/
theorem content_of_treeOf? {root : Element} (h : '<' ∉ outside t)
    (htree : treeOf? reading (Xml.items (Glyph.ofText (canonical t))) = some root) :
    root.content = (dropMark (pieces t)).filterMap Piece.char? := by
  rw [← Element.filterMap_char?_outline, outline_of_treeOf?_canonical h htree,
    filterMap_char?_tag, filterMap_char?_flatMap_outline, filterMap_char?_renamed]

/-! ## What the normal form of a text keeps -/

theorem IsLegible.outside_eq {f : Forest} (h : IsLegible t f) :
    outside (t ++ f.print) = t ++ f.content := by
  rw [outside, h.pieces_eq, List.filterMap_append, filterMap_char?_map_char,
    Forest.filterMap_char?_pieces]

theorem NormalForm.outside_markup (m : NormalForm) :
    outside m.markup = m.text ++ m.forest.content :=
  m.isLegible.outside_eq

theorem NormalForm.visible_outside_ofTree {root : Element}
    (htree : treeOf? reading (Xml.items (Glyph.ofText t)) = some root) :
    Text.visible (outside (NormalForm.ofTree htree).markup) = Text.visible root.content := by
  have houtside := (NormalForm.ofTree htree).outside_markup
  rw [houtside, Element.content, Text.visible_append, Text.visible_append]
  refine congrArg _ ?_
  exact (congrArg _ (Forest.content_renumber ..)).trans (Forest.visible_content_reduce _)

/-- No opening bracket stands outside the tags of a normal form. -/
theorem NormalForm.open_not_mem_outside (m : NormalForm) : '<' ∉ outside m.markup := by
  have hforest {f : Forest} (h : f.IsReadable) : '<' ∉ f.content := by
    induction f with
    | nil => exact List.not_mem_nil
    | cons name text children tail rest ihc ihr =>
      obtain ⟨htext, hchildren, htail, hrest⟩ := h
      simp only [Forest.content, List.mem_append, not_or]
      exact ⟨fun hc => htext _ hc rfl, ihc hchildren, fun hc => htail _ hc rfl, ihr hrest⟩
  rw [m.outside_markup, List.mem_append, not_or]
  exact ⟨fun hc => m.no_open _ hc rfl, hforest m.isReadable⟩

/-- A byte order mark at the start is visible, so dropping it shows. -/
theorem visible_dropMark_iff (t : Text) :
    Text.visible ((dropMark (pieces t)).filterMap Piece.char?) = Text.visible (outside t) ↔
      t.head? ≠ some '\uFEFF' := by
  cases t with
  | nil => exact ⟨fun _ => by decide, fun _ => rfl⟩
  | cons c t =>
    by_cases hmark : c = '\uFEFF'
    · subst hmark
      have hpieces : pieces ('\uFEFF' :: t) = .char '\uFEFF' :: pieces t :=
        pieces_cons_of_ne_open (by decide) t
      have hkept : outside ('\uFEFF' :: t) = '\uFEFF' :: outside t := by
        rw [outside, hpieces]
        rfl
      rw [hkept, hpieces, Text.visible_cons_of_not_isSpace (by decide)]
      refine iff_of_false ?_ (by simp)
      exact fun heq => List.cons_ne_self _ _ heq.symm
    · have hhead : (c :: t).head? ≠ some '\uFEFF' := by simpa using hmark
      rw [dropMark_pieces hhead]
      exact iff_of_true rfl hhead

theorem visible_unmarked (h : hasTags t = true) :
    Text.visible (unmarked t) = Text.visible (outside t) := by
  rw [unmarked, if_pos h, Text.visible_collapse]
  refine visible_replaceTags (fun body => ?_) t
  split <;> rfl

/-- The brackets of a tag are visible. -/
theorem length_visible_chars_le (ps : List Piece) :
    (Text.visible (ps.filterMap Piece.char?)).length + (ps.filterMap Piece.body?).length ≤
      (Text.visible (unparse ps)).length := by
  induction ps with
  | nil => exact Nat.le_refl _
  | cons p ps ih =>
    cases p with
    | char c =>
      have hchars : (Piece.char c :: ps).filterMap Piece.char? =
          [c] ++ ps.filterMap Piece.char? := rfl
      rw [hchars, filterMap_body?_char, unparse_cons, Piece.text, Text.visible_append,
        Text.visible_append, List.length_append, List.length_append]
      omega
    | tag body =>
      rw [filterMap_char?_tag, filterMap_body?_tag, unparse_cons, Piece.text, tagText,
        List.cons_append, Text.visible_cons_of_not_isSpace rfl, Text.visible_append,
        List.length_cons, List.length_cons, List.length_append]
      omega

/-- A text with tags shows more than what is outside them. -/
theorem visible_outside_eq_iff (t : Text) :
    Text.visible (outside t) = Text.visible t ↔ hasTags t = false := by
  constructor
  · intro heq
    have hbound := length_visible_chars_le (pieces t)
    rw [unparse_pieces, ← heq, outside, ← tagBodies_eq] at hbound
    have hnone : tagBodies t = [] := List.eq_nil_of_length_eq_zero (by omega)
    rw [hasTags, hnone]
    rfl
  · intro h
    rw [outside_of_tags_eq_nil (tags_eq_nil_iff.mpr h)]

/-- **Normalization loses no text** exactly if the text has no tags, or if it becomes a tree and
neither an opening bracket stands outside its tags nor a byte order mark at its start, or if it
becomes none and no tag is left when its tags are taken out. -/
theorem visible_outside_normalize_iff (t : Text) :
    Text.visible (outside (normalize t)) = Text.visible (outside t) ↔
      hasTags t = false ∨
        if (treeOf? .strict (Xml.items (Glyph.ofText (canonical t)))).isSome then
          '<' ∉ outside t ∧ t.head? ≠ some '\uFEFF'
        else hasTags (unmarked t) = false := by
  cases htags : hasTags t with
  | false =>
    rw [normalize, htags]
    exact iff_of_true rfl (.inl rfl)
  | true =>
    simp only [Bool.true_eq_false, false_or]
    cases htree : treeOf? .strict (Xml.items (Glyph.ofText (canonical t))) with
    -- The tags are taken out, and what is left may hold a tag that was none before.
    | none =>
      rw [normalize_of_no_tree htags htree, ← visible_unmarked htags]
      exact visible_outside_eq_iff (unmarked t)
    | some root =>
      rw [normalize_of_tree htags htree]
      by_cases hopen : '<' ∈ outside t
      -- The bracket is visible outside the tags of the text, but nowhere in the normal form.
      · refine iff_of_false (fun heq => ?_) (fun h => h.1 hopen)
        have hvisible : '<' ∈ Text.visible (outside t) := List.mem_filter.mpr ⟨hopen, rfl⟩
        rw [← heq] at hvisible
        exact NormalForm.open_not_mem_outside _ (List.mem_filter.mp hvisible).1
      · rw [NormalForm.visible_outside_ofTree, content_of_treeOf? hopen htree, visible_dropMark_iff]
        exact ⟨fun h => ⟨hopen, h⟩, fun h => h.2⟩

/-- An opening bracket in front of a tag takes along what stands between them. -/
theorem visible_outside_normalize_bracket :
    Text.visible (outside (normalize "a < b <br/>".toList)) = "a".toList ∧
      Text.visible (outside "a < b <br/>".toList) = "a<b".toList := by
  decide +kernel

end Bitext.Markup
