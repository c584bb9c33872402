import Bitext.Proofs.Markup.Quoted
import Bitext.Proofs.Tmx.Cleaning
import Bitext.Proofs.Tmx.Output

/-!
# Segments with attributes

The reader of documents knows quotation marks, so it takes a segment as it was written, whatever
stands in the attributes of its inline elements.  What is stored is the segment after cleaning, and
cleaning cuts it at its tags without regard to quotation marks: a closing bracket in the value of an
attribute ends the tag there, and what is left of the tag becomes text.

## Main results

* `reads_quotedSegment`: a written segment is the content of its variant
* `visible_outside_quotedSegment_iff`: which segments show their character data and nothing else
* `visible_outside_quotedSegment_closing`: a closing bracket in an attribute
-/

namespace Bitext.Tmx

open Bitext.Unicode (Glyph)
open Bitext.Markup

variable {reading : Reading} {s : DocumentState} {raw u : Text} {depth : Nat} {f : Quoted}

/-! ## Reading -/

section Tags

variable (reading) (s) (name : XmlName) (attributes : List QuotedAttribute)

theorem reads_quotedStart :
    Reads reading (withSegment s raw depth) (tagText (quotedContent name attributes))
      (withSegment s (raw ++ tagText (quotedContent name attributes)) (depth + 1)) [] := by
  have hevent : Xml.tagEvent (Glyph.ofText (quotedContent name attributes)) =
      .start (Glyph.ofText (quotedContent name attributes)) :=
    Xml.tagEvent_start (XmlName.first_ne (by decide)) (getLast?_quotedContent name attributes)
  have htag := reads_tag reading (beginsTag_quotedContent name attributes)
    (isStretch_quotedContent name attributes) (withSegment s raw depth)
  rw [hevent] at htag
  simp only [DocumentState.step, withSegment, DocumentState.inlineOpening, Glyph.shown_ofText,
    Bool.false_eq_true, if_false] at htag
  exact htag

theorem reads_quotedEmpty :
    Reads reading (withSegment s raw depth) (tagText (quotedContent name attributes ++ ['/']))
      (withSegment s (raw ++ tagText (quotedContent name attributes ++ ['/'])) depth) [] := by
  have hevent : Xml.tagEvent (Glyph.ofText (quotedContent name attributes ++ ['/'])) =
      .empty (Glyph.ofText (quotedContent name attributes)) :=
    Xml.tagEvent_empty (XmlName.first_ne (by decide)) _
  have htag := reads_tag reading ((beginsTag_quotedContent name attributes).append ['/'])
    ((isStretch_quotedContent name attributes).append Xml.isStretch_slash) (withSegment s raw depth)
  rw [hevent] at htag
  simp only [DocumentState.step, withSegment, DocumentState.inlineOpening, Glyph.shown_ofText,
    if_true] at htag
  exact htag

theorem reads_quotedStop :
    Reads reading (withSegment s raw (depth + 1)) (tagText ('/' :: name.text))
      (withSegment s (raw ++ tagText ('/' :: name.text)) depth) [] := by
  have hstretch : Xml.IsStretch ('/' :: name.text) :=
    Xml.isStretch_slash.append name.isTagName.isStretch
  have htag := reads_tag reading (Xml.beginsTag_slash name.text) hstretch
    (withSegment s raw (depth + 1))
  rw [Xml.tagEvent_stop name.isTagName.isTagSpace] at htag
  simp only [DocumentState.step, withSegment, DocumentState.closeInSegment, Nat.zero_lt_succ,
    if_true, Glyph.shown_ofText, Nat.add_sub_cancel] at htag
  exact htag

end Tags

theorem startsMarkup_written (hu : Xml.StartsMarkup (Glyph.ofText u)) :
    Xml.StartsMarkup (Glyph.ofText (f.written ++ u)) := by
  cases f with
  | nil => exact hu
  | empty => exact Xml.startsMarkup_open _
  | pair => exact Xml.startsMarkup_open _

/-- **Written elements are content of the segment**, as they were written. -/
theorem readOn_written (f : Quoted) (hu : Xml.StartsMarkup (Glyph.ofText u)) :
    readOn reading (withSegment s raw depth) (f.written ++ u) =
      readOn reading (withSegment s (raw ++ f.written) depth) u := by
  induction f generalizing raw depth u with
  | nil => rw [Quoted.written, List.append_nil]; rfl
  | empty name attributes tail rest ih =>
    simp only [Quoted.written, List.append_assoc]
    rw [reads_quotedEmpty, withUnits_nil,
      readOn_text_inSegment tail.ne_open (startsMarkup_written hu), ih hu]
    simp only [List.append_assoc]
  | pair name attributes text children tail rest ihc ihr =>
    have hstop (x : Text) :
        Xml.StartsMarkup (Glyph.ofText (tagText ('/' :: name.text) ++ x)) :=
      Xml.startsMarkup_open _
    simp only [Quoted.written, List.append_assoc]
    rw [reads_quotedStart, withUnits_nil,
      readOn_text_inSegment text.ne_open (startsMarkup_written (hstop _)), ihc (hstop _),
      reads_quotedStop, withUnits_nil,
      readOn_text_inSegment tail.ne_open (startsMarkup_written hu), ihr hu]
    simp only [List.append_assoc]

/-- The content of a segment: a text and the elements behind it. -/
def segmentContent (t : CharacterData) (f : Quoted) : Text := t.raw ++ f.written

/-- **A written segment is the content of its variant**, character by character. -/
theorem reads_quotedSegment (h : IsQuiet s) {v : Variant} (hv : s.variant? = some v)
    (t : CharacterData) (f : Quoted) :
    Reads reading s (tagText "seg".toList ++ (segmentContent t f ++ tagText "/seg".toList))
      { s with variant? := some { v with segment? := some (segmentContent t f) } } [] := by
  have hnone : ∀ c ∈ ([] : Text), c ≠ '<' := fun _ hc => absurd hc List.not_mem_nil
  refine reads_segment_of_content reading h hv hnone fun u hu => ?_
  rw [segmentContent, List.append_assoc,
    readOn_text_inSegment t.ne_open (startsMarkup_written hu), readOn_written f hu]
  rfl

/-! ## What is shown -/

theorem resolves_segmentContent (t : CharacterData) (f : Quoted) :
    Resolves (pieces (segmentContent t f)) (t.text ++ f.exposed) := by
  have hforest := f.resolves_written (t := []) (u := []) .nil
  rw [List.append_nil, List.append_nil] at hforest
  exact Quoted.resolves_data t hforest

/-- The runs of a segment show its character data and what is left of its tags. -/
theorem flatMap_shown_segmentContent (t : CharacterData) (f : Quoted) :
    (runs (pieces (segmentContent t f))).flatMap shown = Text.visible (t.text ++ f.exposed) := by
  rw [flatMap_shown, (resolves_segmentContent t f).flatMap_eq]

theorem isHarmless_segmentContent (t : CharacterData)
    (hopen : ∀ attributes ∈ f.attributes, (∃ a ∈ attributes, '>' ∈ a.value) →
      ∀ a ∈ attributes, '<' ∉ Xml.unescape a.value) :
    ∀ run ∈ runs (pieces (segmentContent t f)), IsHarmless run := by
  intro run hrun hbracket
  have hmem : '<' ∈ t.text ++ f.exposed := by
    rw [← (resolves_segmentContent t f).flatMap_eq]
    exact List.mem_flatMap.mpr ⟨run, hrun, hbracket⟩
  rcases List.mem_append.mp hmem with hmem | hmem
  · exact t.open_not_mem hmem
  · exact Quoted.open_not_mem_exposed hopen hmem

/-- Where nothing is left of tags, the segment keeps tags if it has elements. -/
theorem hasTags_normalize_segmentContent (t : CharacterData)
    (h : ∀ attributes ∈ f.attributes, ∀ a ∈ attributes, '>' ∉ a.value) :
    hasTags (normalize (Text.trim (segmentContent t f))) = true ↔ f ≠ .nil := by
  have hbrackets : ∀ attributes ∈ f.attributes, (∃ a ∈ attributes, '>' ∈ a.value) →
      ∀ a ∈ attributes, '<' ∉ Xml.unescape a.value := by
    rintro attributes hmem ⟨a, ha, hclose⟩
    exact absurd hclose (h attributes hmem a ha)
  have hopen := open_not_mem_outside (isHarmless_runs_trim (isHarmless_segmentContent t hbrackets))
  constructor
  · rintro htags rfl
    have hnone : hasTags (Text.trim (segmentContent t .nil)) = false := by
      apply hasTags_eq_false_of_no_open
      intro c hc
      refine t.ne_open c ?_
      have hmem := Text.mem_of_mem_trim hc
      rwa [segmentContent, Quoted.written, List.append_nil] at hmem
    rw [Markup.normalize, hnone, if_neg Bool.false_ne_true, hnone] at htags
    cases htags
  · intro hf
    have htags : hasTags (Text.trim (segmentContent t f)) = true := by
      rw [← Bool.not_eq_false, ← tags_eq_nil_iff, tags_trim]
      exact Quoted.tags_written_ne_nil h hf t
    refine hasTags_normalize htags hopen (isNested_canonical ?_)
    rw [tags_trim]
    exact Quoted.isNested_written h t

/-- **Which segments show their character data and nothing else.**  A written segment is the content
of its variant, whatever its attributes are.  If no opening bracket comes up in a tag that is cut,
then what the cleaned segment shows outside its tags is its character data exactly if no attribute
holds a closing bracket and, where there are elements, no byte order mark stands at the start. -/
theorem visible_outside_quotedSegment_iff (reading : Reading) (h : IsQuiet s) {v : Variant}
    (hv : s.variant? = some v) (t : CharacterData) (f : Quoted)
    (hopen : ∀ attributes ∈ f.attributes, (∃ a ∈ attributes, '>' ∈ a.value) →
      ∀ a ∈ attributes, '<' ∉ Xml.unescape a.value) :
    Reads reading s (tagText "seg".toList ++ (segmentContent t f ++ tagText "/seg".toList))
        { s with variant? := some { v with segment? := some (segmentContent t f) } } [] ∧
      (Text.visible (outside (cleanSegment (segmentContent t f))) =
          Text.visible (t.text ++ f.data) ↔
        (∀ attributes ∈ f.attributes, ∀ a ∈ attributes, '>' ∉ a.value) ∧
          (f = .nil ∨ (Text.trim (segmentContent t f)).head? ≠ some '\uFEFF')) := by
  refine ⟨reads_quotedSegment h hv t f, ?_⟩
  -- In both cases it is compared what the runs of the segment show, before cleaning.
  have hshown := visible_outside_cleanSegment (isHarmless_segmentContent t hopen)
    (resolves_segmentContent t f).isSome
  by_cases hclosed : ∀ attributes ∈ f.attributes, ∀ a ∈ attributes, '>' ∉ a.value
  · have hkept := hasTags_normalize_segmentContent t hclosed
    rw [hshown, ← Quoted.exposed_eq_data hclosed, ← flatMap_shown_segmentContent,
      and_iff_right hclosed]
    split
    -- The mark is shown by the segment, but not after cleaning.
    · rename_i hmark
      refine iff_of_false (fun hsame => ?_) (fun h => h.elim (hkept.mp hmark.1) (· hmark.2))
      rw [flatMap_shown_of_mark hmark.2, List.tail_cons] at hsame
      exact List.cons_ne_self _ _ hsame.symm
    · rename_i hmark
      refine iff_of_true rfl ?_
      by_cases hf : f = .nil
      · exact .inl hf
      · exact .inr fun hhead => hmark ⟨hkept.mpr hf, hhead⟩
  -- The bracket that closes a tag that is cut is shown, and character data hold none.
  · refine iff_of_false (fun hsame => ?_) (fun h => hclosed h.1)
    push Not at hclosed
    obtain ⟨attributes, hmem, a, ha, hclose⟩ := hclosed
    have hall : '>' ∈ (runs (pieces (segmentContent t f))).flatMap shown := by
      rw [flatMap_shown_segmentContent]
      exact List.mem_filter.mpr
        ⟨List.mem_append_right _ (Quoted.close_mem_exposed hmem ⟨a, ha, hclose⟩), rfl⟩
    have hleft : '>' ∈ Text.visible (outside (cleanSegment (segmentContent t f))) := by
      rw [hshown]
      split
      · rename_i hmark
        rw [flatMap_shown_of_mark hmark.2] at hall ⊢
        exact (List.mem_cons.mp hall).resolve_left (by decide)
      · exact hall
    rw [hsame] at hleft
    rcases List.mem_append.mp (List.mem_filter.mp hleft).1 with hdata | hdata
    · exact t.close_not_mem hdata
    · exact f.close_not_mem_data hdata

/-- No character data. -/
def noData : CharacterData := ⟨[], by decide, by decide, by decide⟩

/-- A word that is emphasized in some way. -/
def emphasis (type : QuotedAttribute) : Quoted :=
  .pair ⟨'h', ['i'], rfl, List.all_eq_true.mp rfl⟩ [type]
    ⟨"t".toList, by decide, by decide, by decide⟩ .nil noData .nil

/-- The name of its attribute. -/
def typeName : XmlName := ⟨'t', "ype".toList, rfl, List.all_eq_true.mp rfl⟩

/-- A type with an opening bracket in it. -/
def openingType : QuotedAttribute :=
  ⟨typeName, "a &lt; b".toList, by decide, by decide, by decide⟩

/-- A type with a closing bracket in it. -/
def closingType : QuotedAttribute :=
  ⟨typeName, "a>b".toList, by decide, by decide, by decide⟩

/-- An opening bracket in an attribute stays inside the tag, and so it shows nowhere. -/
theorem visible_outside_quotedSegment_opening :
    IsQuiet (inside {} {} (some { language := [] })) ∧
      (∀ attributes ∈ (emphasis openingType).attributes,
        (∃ a ∈ attributes, '>' ∈ a.value) → ∀ a ∈ attributes, '<' ∉ Xml.unescape a.value) ∧
      Text.visible (outside (cleanSegment "<hi type=\"a &lt; b\">t</hi>".toList)) = "t".toList := by
  have hquiet : IsQuiet (inside {} {} (some { language := [] })) := ⟨rfl, rfl⟩
  have hopen : ∀ attributes ∈ (emphasis openingType).attributes,
      (∃ a ∈ attributes, '>' ∈ a.value) → ∀ a ∈ attributes, '<' ∉ Xml.unescape a.value := by
    decide
  refine ⟨hquiet, hopen, ?_⟩
  exact (visible_outside_quotedSegment_iff ⟨{}, []⟩ hquiet rfl noData (emphasis openingType)
    hopen).2.mpr ⟨by decide, .inr (by decide)⟩

/-- A closing bracket in an attribute ends the tag, and the rest of the tag becomes text. -/
theorem visible_outside_quotedSegment_closing :
    (emphasis closingType).written = "<hi type=\"a>b\">t</hi>".toList ∧
      (emphasis closingType).data = "t".toList ∧
      cleanSegment "<hi type=\"a>b\">t</hi>".toList = "<T1>b\">t</T1>".toList ∧
      Text.visible (outside (cleanSegment "<hi type=\"a>b\">t</hi>".toList)) ≠ "t".toList := by
  decide +kernel

end Bitext.Tmx
