import Bitext.Proofs.Markup.Fragment
import Bitext.Proofs.Markup.Reduction

/-!
# Written forms that can be read back

A text and a forest behind it are told by their written form if no opening bracket stands in a text
of them and the elements are numbered.  Trimming such a form leaves one of the same kind.

## Main definitions

* `IsLegible`: a text and a forest that can be read back.

## Main results

* `IsLegible.pieces_eq`: the pieces of the written form
* `IsLegible.eq_and_eq`: different texts and forests are written differently
* `IsLegible.exists_trim`: trimming touches the first text and the last tail only
-/

namespace Bitext.Markup

open Bitext.Unicode (Glyph)

variable {t u : Text} {f g : Forest}

/-- A text and a forest behind it that can be read back from their written form. -/
structure IsLegible (t : Text) (f : Forest) : Prop where
  no_open : ∀ c ∈ t, c ≠ '<'
  isReadable : f.IsReadable
  isNumbered : f.IsNumbered 0

namespace IsLegible

theorem pieces_eq (h : IsLegible t f) : pieces (t ++ f.print) = t.map Piece.char ++ f.pieces := by
  have hforest := f.pieces_print_append h.isReadable h.isNumbered.isNamed []
  rw [List.append_nil] at hforest
  rw [pieces_append_of_no_open h.no_open, hforest]
  exact congrArg _ (List.append_nil _)

/-- There are tags if there are elements. -/
theorem hasTags_iff_ne_nil (h : IsLegible t f) : hasTags (t ++ f.print) = true ↔ f ≠ .nil := by
  constructor
  · rintro htags rfl
    rw [Forest.print, List.append_nil, hasTags_eq_false_of_no_open h.no_open] at htags
    cases htags
  · intro hf
    rw [hasTags_iff, h.pieces_eq]
    cases f with
    | nil => exact absurd rfl hf
    | cons name text children tail rest =>
      rw [Forest.pieces]
      split
      · exact ⟨name ++ ['/'], by simp⟩
      · exact ⟨name, by simp⟩

/-- **Different texts and forests are written differently.** -/
theorem eq_and_eq (h : IsLegible t f) (h' : IsLegible u g)
    (hsame : t ++ f.print = u ++ g.print) : t = u ∧ f = g := by
  -- What is read back from the written form is the one and the other.
  have hread : treeOf? .strict (Xml.itemsFrom (Glyph.ofText (t ++ f.print))) =
      some ⟨[], t, f, []⟩ := treeOf?_markup h.no_open h.isReadable h.isNumbered.isNamed
  rw [hsame, treeOf?_markup h'.no_open h'.isReadable h'.isNumbered.isNamed] at hread
  cases hread
  exact ⟨rfl, rfl⟩

/-- **Trimming takes away blanks** of the first text and of the last tail, which neither numbering
nor reduction looks at. -/
theorem exists_trim (h : IsLegible t f) (hf : f ≠ .nil) : ∃ u g, IsLegible u g ∧
    Text.trim (t ++ f.print) = u ++ g.print ∧ g ≠ .nil ∧ (g.IsReduced ↔ f.IsReduced) := by
  obtain ⟨f, tail, rfl, hnil, hlast⟩ := Forest.exists_eq_extendTail hf
  obtain ⟨hreadable, htail⟩ := (Forest.isReadable_extendTail hnil).mp h.isReadable
  have hsub : ∀ c ∈ Text.trimEnd tail, c ∈ tail := by
    intro c hc
    obtain ⟨b, -, heq⟩ := Text.exists_eq_trimEnd tail
    rw [heq]
    exact List.mem_append_left b hc
  have htrim := Text.trim_around (a := t) (b := tail)
    ⟨'<', Forest.head?_print hnil, by decide⟩ ⟨'>', hlast, by decide⟩
  refine ⟨Text.trimStart t, f.extendTail (Text.trimEnd tail), ⟨?_, ?_, ?_⟩, ?_, ?_, ?_⟩
  · exact fun c hc => h.no_open c ((List.dropWhile_suffix _).subset hc)
  · exact (Forest.isReadable_extendTail hnil).mpr
      ⟨hreadable, fun c hc => htail c (hsub c hc)⟩
  · exact (Forest.IsNumbered.of_extendTail h.isNumbered).extendTail _
  · rw [Forest.print_extendTail hnil, Forest.print_extendTail hnil, ← List.append_assoc,
      ← List.append_assoc, htrim]
  · exact fun hextended => hnil (Forest.extendTail_eq_nil.mp hextended)
  · rw [Forest.isReduced_extendTail, Forest.isReduced_extendTail]

end IsLegible

end Bitext.Markup
