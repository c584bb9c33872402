import Bitext.Proofs.Tmx.Cleaning

/-!
# Tags that survive being read and written

The writer keeps the tags of a text if normalization leaves the segment alone, and escapes the whole
text otherwise.  The reader normalizes a segment before it resolves the entities between its tags.
So the text that was read is in normal form but for what the entities have changed: a text may have
become blank, and then normalization would take away an element that it has left in place before.

## Main results

* `tags_escapeSegment_iff`: when the tags of a text are written as tags
* `tags_escapeSegment_written_iff`: the same for the written form of a forest
* `tags_escapeSegment_cleanSegment`: the tags of texts that were read
-/

namespace Bitext.Tmx

open Bitext.Markup

variable {t raw : Text} {f : Forest}

/-! ## Tags that are written -/

/-- Escaping around tags keeps every tag. -/
theorem tags_escapeAround (t : Text) : tags (escapeAround t) = tags t := by
  have hbodies (ps : List Piece) :
      (ps.flatMap escapedPieces).filterMap Piece.body? = ps.filterMap Piece.body? := by
    induction ps with
    | nil => rfl
    | cons p ps ih =>
      rw [List.flatMap_cons, List.filterMap_append, ih]
      cases p with
      | char c => rw [escapedPieces, filterMap_body?_map_char]; rfl
      | tag body => rfl
  rw [tags, tags, tagBodies_eq, tagBodies_eq, pieces_escapeAround, hbodies]

/-- **The tags of a text are written as tags** if there are none, or if normalization leaves the
segment alone. -/
theorem tags_escapeSegment_iff (t : Text) :
    tags (escapeSegment t) = tags t ↔
      hasTags t = false ∨ normalize (escapeAround t) = escapeAround t := by
  have hescape : tags (Xml.escape t) = [] := tags_eq_nil_iff.mpr (hasTags_escape t)
  cases htags : hasTags t with
  | false =>
    refine iff_of_true ?_ (.inl rfl)
    rw [escapeSegment_of_no_tags htags, hescape, tags_eq_nil_iff.mpr htags]
  | true =>
    simp only [Bool.true_eq_false, false_or]
    by_cases hfixed : normalize (escapeAround t) = escapeAround t
    · refine iff_of_true ?_ hfixed
      rw [escapeSegment_of_fixed hfixed, tags_escapeAround]
    · refine iff_of_false (fun hsame => ?_) hfixed
      rw [escapeSegment_of_not_fixed htags hfixed, hescape] at hsame
      have hnone := tags_eq_nil_iff.mp hsame.symm
      rw [htags] at hnone
      cases hnone

theorem isBlank_escape (t : Text) : Text.isBlank (Xml.escape t) = Text.isBlank t := by
  rw [Bool.eq_iff_iff]
  constructor
  -- A blank text has no entities, so it is what it was before it was escaped.
  · intro h
    have hsame := Xml.unescape_of_isBlank h
    rw [Xml.unescape_escape] at hsame
    rwa [← hsame] at h
  · intro h
    rwa [Xml.escape_of_isBlank h]

/-- Escaping changes nothing that reduction looks at. -/
theorem keepsBlank_escape (f : Forest) : f.KeepsBlank Xml.escape := by
  refine fun t _ => ⟨isBlank_escape t, ?_⟩
  rw [Bool.eq_iff_iff, List.isEmpty_iff, List.isEmpty_iff, Xml.escape_eq_nil_iff]

theorem head?_escape_ne_iff (t : Text) :
    (Xml.escape t).head? ≠ some '\uFEFF' ↔ t.head? ≠ some '\uFEFF' := by
  cases t with
  | nil => exact Iff.rfl
  | cons c t =>
    rw [Xml.escape_cons, List.head?_append, List.head?_cons]
    by_cases hc : c = '\uFEFF'
    · rw [hc]
      exact Iff.rfl
    · rcases Xml.head?_escapeChar c with hhead | hhead
      · rw [hhead, Option.some_or]
      · rw [hhead, Option.some_or]
        exact iff_of_true (by decide) (by simpa using hc)

/-- **The tags of a written forest are written as tags** if the text before it does not begin with a
byte order mark and the forest is reduced. -/
theorem tags_escapeSegment_written_iff (h : IsLegible t f) (hf : f ≠ .nil) :
    tags (escapeSegment (t ++ f.print)) = tags (t ++ f.print) ↔
      t.head? ≠ some '\uFEFF' ∧ f.IsReduced := by
  have hescaped : IsLegible (Xml.escape t) (f.mapText Xml.escape) :=
    h.mapText fun _ _ hopen => (Xml.isPlain_of_mem_escape hopen).1 rfl
  rw [tags_escapeSegment_iff, h.hasTags_iff_ne_nil.mpr hf, escapeAround_written h,
    hescaped.normalize_eq_iff (mt Forest.mapText_eq_nil_iff.mp hf), head?_escape_ne_iff,
    Forest.isReduced_mapText (keepsBlank_escape f)]
  exact or_iff_right (by decide)

/-! ## Tags that were read -/

/-- A written form begins with a byte order mark if its text does. -/
theorem head?_written_ne_iff (t : Text) {f : Forest} (hf : f ≠ .nil) :
    (t ++ f.print).head? ≠ some '\uFEFF' ↔ t.head? ≠ some '\uFEFF' := by
  cases t with
  | nil =>
    rw [List.nil_append, Forest.head?_print hf]
    exact iff_of_true (by decide) (by decide)
  | cons c t => exact Iff.rfl

/-- Where tags are kept by the reader, the writer keeps them if resolving entities has left the
normal form without redundant structure. -/
theorem tags_escapeSegment_of_hasTags (h : ∀ run ∈ runs (pieces raw), IsHarmless run)
    (htags : hasTags (normalize (Text.trim raw)) = true) :
    ∃ m : NormalForm, m.markup = normalize (Text.trim raw) ∧
      nonblank (m.text :: m.forest.texts) =
        nonblank (runs (dropMark (pieces (Text.trim raw)))) ∧
      (tags (escapeSegment (cleanSegment raw)) = tags (cleanSegment raw) ↔
        (cleanSegment raw).head? ≠ some '\uFEFF' ∧ (m.forest.mapText Xml.unescape).IsReduced) := by
  obtain ⟨m, hm, hforest, htexts, hlegible, hclean⟩ := cleanSegment_of_hasTags h htags
  refine ⟨m, hm, htexts, ?_⟩
  obtain ⟨t, f, htrimmed, htrim, hf, hreduced⟩ :=
    hlegible.exists_trim (mt Forest.mapText_eq_nil_iff.mp hforest)
  rw [hclean, htrim, tags_escapeSegment_written_iff htrimmed hf, head?_written_ne_iff t hf,
    hreduced]

/-- The run does not become blank when its entities are resolved. -/
def StaysVisible (run : Text) : Prop := Text.isBlank (Xml.unescape run) → Text.isBlank run

instance (run : Text) : Decidable (StaysVisible run) :=
  inferInstanceAs (Decidable (Text.isBlank (Xml.unescape run) → Text.isBlank run))

theorem staysVisible_runs_trim (h : ∀ run ∈ runs (pieces raw), StaysVisible run) :
    ∀ run ∈ runs (pieces (Text.trim raw)), StaysVisible run := by
  refine forall_runs_trim (fun run trimmed hpadded hrun hblank => ?_) h
  have hsame {u v : Text} (huv : IsPadded u v) : Text.isBlank u = Text.isBlank v := by
    obtain ⟨a, b, ha, hb, rfl⟩ := huv
    rw [Text.isBlank, List.all_append, List.all_append]
    change (Text.isBlank a && _ && Text.isBlank b) = _
    rw [ha, hb, Bool.true_and, Bool.and_true, Text.isBlank]
  rw [← hsame hpadded]
  exact hrun (by rwa [hsame (unescape_of_isPadded hpadded)])

/-- Resolving entities changes nothing that reduction looks at, if no text becomes blank. -/
theorem keepsBlank_unescape (h : ∀ t ∈ nonblank f.texts, StaysVisible t) :
    f.KeepsBlank Xml.unescape := by
  have hall : ∀ t ∈ f.texts, StaysVisible t := forall_of_nonblank (fun _ ht _ => ht) h
  refine fun t ht => ⟨?_, ?_⟩
  · rw [Bool.eq_iff_iff]
    refine ⟨hall t ht, fun hblank => ?_⟩
    rwa [Xml.unescape_of_isBlank hblank]
  · rw [Bool.eq_iff_iff, List.isEmpty_iff, List.isEmpty_iff, Xml.unescape_eq_nil_iff]

/-- **The tags of a text that was read.**  In a segment in which no opening bracket comes up between
tags, tags that the reader keeps are written as tags exactly if the text does not begin with a byte
order mark and resolving the entities has left the normal form without redundant structure.  So they
are if every entity is one, no run has become blank, and neither the segment nor the text begins
with a byte order mark. -/
theorem tags_escapeSegment_cleanSegment (h : ∀ run ∈ runs (pieces raw), IsHarmless run) :
    (tags (escapeSegment (cleanSegment raw)) = tags (cleanSegment raw) ↔
      if hasTags (normalize (Text.trim raw)) then
        (cleanSegment raw).head? ≠ some '\uFEFF' ∧ ∃ m : NormalForm,
          m.markup = normalize (Text.trim raw) ∧ (m.forest.mapText Xml.unescape).IsReduced
      else hasTags (cleanSegment raw) = false ∨
        normalize (escapeAround (cleanSegment raw)) = escapeAround (cleanSegment raw)) ∧
      ((∀ run ∈ runs (pieces raw), (Xml.unescape? run).isSome ∧ StaysVisible run) →
        (Text.trim raw).head? ≠ some '\uFEFF' → (cleanSegment raw).head? ≠ some '\uFEFF' →
        tags (escapeSegment (cleanSegment raw)) = tags (cleanSegment raw)) := by
  cases htags : hasTags (normalize (Text.trim raw)) with
  | false =>
    rw [if_neg Bool.false_ne_true]
    refine ⟨tags_escapeSegment_iff _, fun hruns _ _ => (tags_escapeSegment_iff _).mpr (.inl ?_)⟩
    -- Where every entity is one, no bracket comes up when the runs are put together.
    have hopen := (visible_cleanSegment_of_no_tags h (fun run hrun => (hruns run hrun).1) htags).1
    exact hasTags_eq_false_of_no_open (List.forall_mem_ne'.mpr hopen)
  | true =>
    rw [if_pos rfl]
    obtain ⟨m, hm, htexts, hiff⟩ := tags_escapeSegment_of_hasTags h htags
    constructor
    · rw [hiff]
      refine and_congr_right fun _ => ⟨fun hreduced => ⟨m, hm, hreduced⟩, ?_⟩
      rintro ⟨m', hm', hreduced⟩
      -- There is only one normal form that is written like that.
      rwa [← (m'.isLegible.eq_and_eq m.isLegible (hm'.trans hm.symm)).2]
    · intro hruns hmark hhead
      have hkept := staysVisible_runs_trim fun run hrun => (hruns run hrun).2
      refine hiff.mpr ⟨hhead, (Forest.isReduced_mapText (keepsBlank_unescape ?_)).mpr m.isReduced⟩
      intro t ht
      rw [dropMark_pieces hmark] at htexts
      refine hkept t (mem_of_mem_nonblank ?_)
      rw [← htexts, ← List.singleton_append, nonblank_append]
      exact List.mem_append_right _ ht

/-- Tags are kept around an entity that does not resolve to a blank. -/
theorem tags_escapeSegment_cleanSegment_ampersand :
    (∀ run ∈ runs (pieces "<b>a &amp; <i>b</i></b>".toList), IsHarmless run) ∧
      tags (escapeSegment (cleanSegment "<b>a &amp; <i>b</i></b>".toList)) =
        tags (cleanSegment "<b>a &amp; <i>b</i></b>".toList) := by
  have hharmless : ∀ run ∈ runs (pieces "<b>a &amp; <i>b</i></b>".toList), IsHarmless run := by
    decide
  exact ⟨hharmless, (tags_escapeSegment_cleanSegment hharmless).2 (by decide) (by decide)
    (by decide +kernel)⟩

/-- A blank that was written as a character reference keeps an element from being collapsed when the
segment is read, but not when the text is written again. -/
theorem tags_escapeSegment_cleanSegment_blank :
    (outside "<b>&#32;<i>x</i></b>".toList).any isAngle = false ∧
      (∀ run ∈ runs (pieces "<b>&#32;<i>x</i></b>".toList),
        (Xml.unescape run).any isAngle = false) ∧
      cleanSegment "<b>&#32;<i>x</i></b>".toList = "<T1> <T2>x</T2></T1>".toList ∧
      tags "<T1> <T2>x</T2></T1>".toList ≠ [] ∧
      tags (escapeSegment (cleanSegment "<b>&#32;<i>x</i></b>".toList)) = [] := by
  decide +kernel

end Bitext.Tmx
