import Bitext.Proofs.Markup.Normal
import Bitext.Tmx.Segment

/-!
# Segments read back

The reader of a segment takes back what the writer of segments does, up to the blanks at the ends.
The one exception is a byte order mark.  A text with tags is written as it is if normalization
leaves it alone; where blanks stand before a byte order mark in it, normalization does not see the
mark at the start, but the reader, which trims first, does and drops it.

## Main definitions

* `escapedText`, `escapedPieces`: a piece with everything but tags escaped, as text and as pieces.

## Main results

* `cleanSegment_escape`: an escaped text comes back as it was
* `cleanSegment_escapeAround`: so does one whose tags were kept, without a byte order mark
* `cleanSegment_escapeSegment_iff`: exactly when a text comes back
-/

namespace Bitext.Tmx

open Bitext.Markup

variable {t : Text} {ps : List Piece}

/-! ## Escaping piece by piece -/

/-- A piece as it is written where tags are kept. -/
def escapedText : Piece → Text
  | .char c => Xml.escapeChar c
  | .tag body => tagText body

/-- The pieces of a piece as it is written where tags are kept. -/
def escapedPieces : Piece → List Piece
  | .char c => (Xml.escapeChar c).map .char
  | .tag body => [.tag body]

theorem escapeAround_eq (t : Text) : escapeAround t = (pieces t).flatMap escapedText := by
  rw [escapeAround]
  congr 1

theorem flatMap_escapedText_map_char (t : Text) :
    (t.map Piece.char).flatMap escapedText = Xml.escape t := by
  induction t with
  | nil => rfl
  | cons c t ih => rw [List.map_cons, List.flatMap_cons, ih]; rfl

/-- Escaped pieces are cut where they were put together. -/
theorem pieces_flatMap_escapedText (h : ∀ body, .tag body ∈ ps → IsTagBody body) :
    pieces (ps.flatMap escapedText) = ps.flatMap escapedPieces := by
  induction ps with
  | nil => rfl
  | cons p rest ih =>
    have hrest := ih fun body hbody => h body (List.mem_cons_of_mem p hbody)
    rw [List.flatMap_cons, List.flatMap_cons]
    cases p with
    | char c =>
      have hopen : ∀ d ∈ Xml.escapeChar c, d ≠ '<' := fun d hd =>
        (Xml.isPlain_of_mem_escapeChar c d hd).1
      rw [escapedText, pieces_append_of_no_open hopen, hrest, escapedPieces]
    | tag body =>
      rw [escapedText, pieces_tagText_append (h body List.mem_cons_self), hrest, escapedPieces,
        List.singleton_append]

theorem pieces_escapeAround (t : Text) :
    pieces (escapeAround t) = (pieces t).flatMap escapedPieces := by
  rw [escapeAround_eq, pieces_flatMap_escapedText fun _ => isTagBody_of_mem_pieces]

theorem pieces_escape (t : Text) :
    pieces (Xml.escape t) = (t.map Piece.char).flatMap escapedPieces := by
  rw [← flatMap_escapedText_map_char, pieces_flatMap_escapedText]
  intro body hbody
  obtain ⟨c, -, hc⟩ := List.mem_map.mp hbody
  cases hc

/-- Every tag of the escaped pieces is a tag of the pieces. -/
theorem tag_mem_flatMap_escapedPieces {body : Text} :
    .tag body ∈ ps.flatMap escapedPieces ↔ .tag body ∈ ps := by
  rw [List.mem_flatMap]
  constructor
  · rintro ⟨p, hp, hbody⟩
    cases p with
    | char c =>
      obtain ⟨d, -, hd⟩ := List.mem_map.mp hbody
      cases hd
    | tag b => rwa [List.mem_singleton.mp hbody]
  · intro hbody
    exact ⟨_, hbody, List.mem_singleton_self _⟩

theorem open_not_mem_flatMap_escapedPieces : .char '<' ∉ ps.flatMap escapedPieces := by
  intro h
  obtain ⟨p, -, hp⟩ := List.mem_flatMap.mp h
  cases p with
  | char c =>
    obtain ⟨d, hd, heq⟩ := List.mem_map.mp hp
    cases heq
    exact (Xml.isPlain_of_mem_escapeChar c '<' hd).1 rfl
  | tag body => cases List.mem_singleton.mp hp

theorem hasTags_escapeAround (t : Text) : hasTags (escapeAround t) = hasTags t := by
  rw [Bool.eq_iff_iff, hasTags_iff, hasTags_iff, pieces_escapeAround]
  simp only [tag_mem_flatMap_escapedPieces]

theorem hasTags_escape (t : Text) : hasTags (Xml.escape t) = false :=
  hasTags_eq_false_of_no_open fun _ hc => (Xml.isPlain_of_mem_escape hc).1

theorem escapeAround_of_no_tags (h : hasTags t = false) : escapeAround t = Xml.escape t := by
  have hchars : ∀ p ∈ pieces t, ∃ c, p = .char c := by
    intro p hp
    cases p with
    | char c => exact ⟨c, rfl⟩
    | tag body =>
      have := hasTags_iff.mpr ⟨body, hp⟩
      rw [h] at this
      cases this
  -- Pieces that are characters are told by the text they were cut from.
  have hmap : ∀ ps : List Piece, (∀ p ∈ ps, ∃ c, p = .char c) → ps = (unparse ps).map .char := by
    intro ps hps
    induction ps with
    | nil => rfl
    | cons p rest ih =>
      obtain ⟨c, rfl⟩ := hps p List.mem_cons_self
      rw [unparse_cons, Piece.text, List.singleton_append, List.map_cons,
        ← ih fun p hp => hps p (List.mem_cons_of_mem _ hp)]
  rw [escapeAround_eq, hmap _ hchars, unparse_pieces, flatMap_escapedText_map_char]

/-! ## Resolving entities between tags -/

/-- Characters in front of pieces belong to the run that is being read. -/
theorem mapRuns_map_char_append (g : Text → Text) (run t : Text) (ps : List Piece) :
    mapRuns g run (t.map Piece.char ++ ps) = mapRuns g (t.reverse ++ run) ps := by
  induction t generalizing run with
  | nil => rfl
  | cons c t ih => rw [List.map_cons, List.cons_append, mapRuns, ih]; simp

/-- **Resolving the entities between tags takes back the escaping piece by piece.** -/
theorem mapRuns_flatMap_escapedPieces (run : Text) (ps : List Piece) :
    mapRuns Xml.unescape (Xml.escape run).reverse (ps.flatMap escapedPieces) =
      run ++ unparse ps := by
  -- The run in front of the pieces grows until a tag comes, so the induction is over all runs.
  induction ps generalizing run with
  | nil => rw [List.flatMap_nil, mapRuns, List.reverse_reverse, Xml.unescape_escape]; simp
  | cons p rest ih =>
    rw [List.flatMap_cons, unparse_cons]
    cases p with
    | char c =>
      have hrun : (Xml.escapeChar c).reverse ++ (Xml.escape run).reverse =
          (Xml.escape (run ++ [c])).reverse := by
        simp
      rw [escapedPieces, mapRuns_map_char_append, hrun, ih, List.append_assoc]
      rfl
    | tag body =>
      have hrest := ih []
      rw [Xml.escape_nil, List.reverse_nil, List.nil_append] at hrest
      rw [escapedPieces, List.singleton_append, mapRuns, List.reverse_reverse,
        Xml.unescape_escape, hrest]
      rfl

/-- Resolving the entities between the tags of an escaped text. -/
theorem mapRuns_escapeAround (t : Text) :
    mapRuns Xml.unescape [] (pieces (escapeAround t)) = t := by
  have hruns := mapRuns_flatMap_escapedPieces [] (pieces t)
  rw [Xml.escape_nil, List.reverse_nil, List.nil_append, unparse_pieces] at hruns
  rw [pieces_escapeAround, hruns]

theorem mapRuns_escape (t : Text) : mapRuns Xml.unescape [] (pieces (Xml.escape t)) = t := by
  have hruns := mapRuns_flatMap_escapedPieces [] (t.map .char)
  rw [Xml.escape_nil, List.reverse_nil, List.nil_append, unparse_map_char] at hruns
  rw [pieces_escape, hruns]

/-! ## Blanks at the ends -/

/-- Escaping hides no blank at the ends. -/
theorem isTrimmed_flatMap_escapedText (h : Text.IsTrimmed (unparse ps)) :
    Text.IsTrimmed (ps.flatMap escapedText) := by
  constructor
  -- A tag and an entity begin with visible characters, and so does the text by assumption.
  · intro c hc
    cases ps with
    | nil => cases hc
    | cons p rest =>
      rw [List.flatMap_cons, List.head?_append] at hc
      cases p with
      | char d =>
        have hd := h.1 d rfl
        rcases Xml.head?_escapeChar d with hhead | hhead <;>
          (rw [escapedText, hhead] at hc; cases hc)
        · exact hd
        · rfl
      | tag body =>
        cases hc
        rfl
  -- They end with visible characters as well.
  · intro c hc
    rcases List.eq_nil_or_concat ps with rfl | ⟨front, p, rfl⟩
    · cases hc
    · rw [List.concat_eq_append] at h hc
      rw [List.flatMap_append, List.getLast?_append, List.flatMap_singleton] at hc
      cases p with
      | char d =>
        have hd := h.2 d (by simp [Piece.text])
        rcases Xml.getLast?_escapeChar d with hlast | hlast <;>
          (rw [escapedText, hlast] at hc; cases hc)
        · exact hd
        · rfl
      | tag body =>
        have hlast : (tagText body).getLast? = some '>' := by
          rw [tagText, List.getLast?_cons, List.getLast?_concat, Option.getD_some]
        rw [escapedText, hlast] at hc
        cases hc
        rfl

theorem trim_escape (t : Text) : Text.trim (Xml.escape t) = Xml.escape (Text.trim t) := by
  obtain ⟨a, b, ha, hb, ht⟩ := Text.exists_eq_trim t
  have htrimmed : Text.IsTrimmed (Xml.escape (Text.trim t)) := by
    rw [← flatMap_escapedText_map_char]
    apply isTrimmed_flatMap_escapedText
    rw [unparse_map_char]
    exact Text.isTrimmed_trim t
  have hsplit : Xml.escape t = a ++ Xml.escape (Text.trim t) ++ b := by
    conv_lhs => rw [ht]
    rw [Xml.escape_append, Xml.escape_append, Xml.escape_of_isBlank ha, Xml.escape_of_isBlank hb]
  rw [hsplit, Text.trim_eq_of_between ha hb htrimmed]

theorem trim_escapeAround (t : Text) :
    Text.trim (escapeAround t) = escapeAround (Text.trim t) := by
  obtain ⟨a, b, ha, hb, ht⟩ := Text.exists_eq_trim t
  have htrimmed : Text.IsTrimmed (escapeAround (Text.trim t)) := by
    rw [escapeAround_eq]
    apply isTrimmed_flatMap_escapedText
    rw [unparse_pieces]
    exact Text.isTrimmed_trim t
  have hopen : ∀ c ∈ a, c ≠ '<' := ne_open_of_no_angle (isAngle_of_isBlank ha)
  -- No bracket stands in the blanks, so the pieces between them are those of the trimmed text.
  have hsplit : escapeAround t = a ++ escapeAround (Text.trim t) ++ b := by
    conv_lhs => rw [ht]
    rw [escapeAround_eq, pieces_append_of_no_angle (isAngle_of_isBlank hb),
      pieces_append_of_no_open hopen, List.flatMap_append, List.flatMap_append,
      flatMap_escapedText_map_char, flatMap_escapedText_map_char, Xml.escape_of_isBlank ha,
      Xml.escape_of_isBlank hb, ← escapeAround_eq]
  rw [hsplit, Text.trim_eq_of_between ha hb htrimmed]

theorem withoutMark_escapeAround (t : Text) :
    withoutMark (escapeAround t) = escapeAround (withoutMark t) := by
  cases t with
  | nil => rfl
  | cons c t =>
    by_cases hc : c = '\uFEFF'
    · have hescape : escapeAround (c :: t) = c :: escapeAround t := by
        rw [escapeAround_eq, pieces_cons_of_ne_open (by rw [hc]; decide), List.flatMap_cons,
          ← escapeAround_eq, escapedText, hc]
        rfl
      rw [hescape, withoutMark, withoutMark, if_pos hc, if_pos hc]
    · rw [withoutMark, if_neg hc]
      refine withoutMark_of_head?_ne ?_
      -- The first character is the first one of a tag, of an entity, or `c` itself.
      rw [escapeAround_eq]
      have htext := unparse_pieces (c :: t)
      cases hps : pieces (c :: t) with
      | nil => simp
      | cons p rest =>
        rw [hps, unparse_cons] at htext
        rw [List.flatMap_cons, List.head?_append]
        cases p with
        | char d =>
          cases htext
          rcases Xml.head?_escapeChar c with hhead | hhead <;>
            rw [escapedText, hhead, Option.some_or]
          · simpa using hc
          · decide
        | tag body =>
          simp [escapedText, tagText]

/-! ## The round trip -/

/-- **A text that was escaped as a whole comes back.** -/
theorem cleanSegment_escape (t : Text) : cleanSegment (Xml.escape t) = Text.trim t := by
  rw [cleanSegment, trim_escape, Markup.normalize, hasTags_escape, if_neg Bool.false_ne_true,
    mapRuns_escape, Text.trim_trim]

/-- The normal form of a text whose tags are kept. -/
theorem exists_normalForm_escapeAround (htags : hasTags t = true)
    (hfixed : normalize (escapeAround t) = escapeAround t) :
    ∃ m : NormalForm, m.markup = escapeAround t ∧ m.forest ≠ .nil := by
  refine exists_normalForm ?_ ?_ hfixed
  · rw [pieces_escapeAround]
    exact open_not_mem_flatMap_escapedPieces
  · rw [hasTags_escapeAround, htags]

/-- **A text whose tags were kept comes back**, except for a byte order mark that trimming brings to
its start. -/
theorem cleanSegment_escapeAround (htags : hasTags t = true)
    (hfixed : normalize (escapeAround t) = escapeAround t) :
    cleanSegment (escapeAround t) = Text.trim (withoutMark (Text.trim t)) := by
  obtain ⟨m, hm, hforest⟩ := exists_normalForm_escapeAround htags hfixed
  -- The reader trims first, and the mark may come to the start only then.
  obtain ⟨m', hm', hforest'⟩ := m.exists_trim hforest
  rw [hm, trim_escapeAround] at hm'
  have hnormal : normalize (escapeAround (Text.trim t)) =
      escapeAround (withoutMark (Text.trim t)) := by
    rw [← withoutMark_escapeAround, ← hm', m'.normalize_markup hforest', m'.withoutMark_markup]
  rw [cleanSegment, trim_escapeAround, hnormal, mapRuns_escapeAround]

theorem escapeSegment_of_no_tags (htags : hasTags t = false) : escapeSegment t = Xml.escape t := by
  rw [escapeSegment, htags, Bool.false_and, if_neg Bool.false_ne_true,
    escapeAround_of_no_tags htags]

theorem escapeSegment_of_fixed (hfixed : normalize (escapeAround t) = escapeAround t) :
    escapeSegment t = escapeAround t := by
  simp only [escapeSegment, hfixed, ne_eq, not_true_eq_false, decide_false, Bool.and_false,
    Bool.false_eq_true, if_false]

theorem escapeSegment_of_not_fixed (htags : hasTags t = true)
    (hfixed : normalize (escapeAround t) ≠ escapeAround t) : escapeSegment t = Xml.escape t := by
  simp only [escapeSegment, htags, hfixed, ne_eq, not_false_eq_true, decide_true, Bool.and_true,
    if_true]

/-- The content of a segment keeps the tags of a text or escapes them all. -/
theorem escapeSegment_cases (t : Text) :
    hasTags (escapeSegment t) = false ∧ escapeSegment t = Xml.escape t ∨
      hasTags t = true ∧ escapeSegment t = escapeAround t ∧
        normalize (escapeAround t) = escapeAround t := by
  have hescape (h : escapeSegment t = Xml.escape t) :
      hasTags (escapeSegment t) = false ∧ escapeSegment t = Xml.escape t :=
    ⟨by rw [h, hasTags_escape], h⟩
  cases htags : hasTags t with
  | false => exact .inl (hescape (escapeSegment_of_no_tags htags))
  | true =>
    by_cases hfixed : normalize (escapeAround t) = escapeAround t
    · exact .inr ⟨rfl, escapeSegment_of_fixed hfixed, hfixed⟩
    · exact .inl (hescape (escapeSegment_of_not_fixed htags hfixed))

theorem trim_withoutMark_ne (h : (Text.trim t).head? = some '\uFEFF') :
    Text.trim (withoutMark (Text.trim t)) ≠ Text.trim t := by
  intro hsame
  cases ht : Text.trim t with
  | nil =>
    rw [ht] at h
    cases h
  | cons c rest =>
    rw [ht] at h hsame
    cases h
    -- What is left without the mark is shorter, and trimming makes nothing longer.
    have hshort := Text.length_trim_le rest
    rw [withoutMark, if_pos rfl] at hsame
    rw [hsame, List.length_cons] at hshort
    omega

/-- **Exactly when a text comes back from a segment, up to the blanks at its ends**: unless its tags
are kept and its first visible character is a byte order mark. -/
theorem cleanSegment_escapeSegment_iff (t : Text) :
    cleanSegment (escapeSegment t) = Text.trim t ↔
      ¬(hasTags (escapeSegment t) = true ∧ (Text.trim t).head? = some '\uFEFF') := by
  rcases escapeSegment_cases t with ⟨hno, hescape⟩ | ⟨htags, hkept, hfixed⟩
  · rw [hno, hescape]
    simp [cleanSegment_escape]
  · rw [hkept, cleanSegment_escapeAround htags hfixed, hasTags_escapeAround, htags]
    simp only [true_and]
    constructor
    · intro hsame hmark
      exact trim_withoutMark_ne hmark hsame
    · intro hmark
      rw [withoutMark_of_head?_ne hmark, Text.trim_trim]

/-- A byte order mark behind a blank, before an element. -/
def markedForm : NormalForm where
  text := " \uFEFF".toList
  forest := .cons "T1".toList "x".toList .nil [] .nil
  no_open := by simp
  isReadable := by simp [Forest.IsReadable]
  isNumbered := rfl
  isReduced := ⟨⟨⟨trivial, trivial, trivial⟩, trivial⟩, ⟨rfl, trivial⟩, ⟨rfl, trivial⟩⟩

/-- The mark behind a blank is lost, although it is no blank itself. -/
theorem cleanSegment_escapeSegment_mark :
    cleanSegment (escapeSegment " \uFEFF<T1>x</T1>".toList) = "<T1>x</T1>".toList ∧
      Text.trim " \uFEFF<T1>x</T1>".toList = "\uFEFF<T1>x</T1>".toList := by
  have hkept : escapeAround " \uFEFF<T1>x</T1>".toList = markedForm.markup := rfl
  have hfixed : normalize markedForm.markup = markedForm.markup :=
    markedForm.normalize_markup (by decide)
  have htags : hasTags " \uFEFF<T1>x</T1>".toList = true := rfl
  have hsegment : escapeSegment " \uFEFF<T1>x</T1>".toList =
      escapeAround " \uFEFF<T1>x</T1>".toList := by
    simp only [escapeSegment, htags, hkept, hfixed, ne_eq, not_true_eq_false, decide_false,
      Bool.and_false, Bool.false_eq_true, if_false]
  refine ⟨?_, by decide⟩
  rw [hsegment, cleanSegment_escapeAround htags (by rw [hkept, hfixed])]
  rfl

/-- A trimmed text comes back from a segment: where it begins with a byte order mark, its tags are
not kept. -/
theorem cleanSegment_escapeSegment_of_isTrimmed (h : Text.IsTrimmed t) :
    cleanSegment (escapeSegment t) = t := by
  have htrim := Text.trim_of_isTrimmed h
  rcases escapeSegment_cases t with ⟨-, hescape⟩ | ⟨htags, hkept, hfixed⟩
  · rw [hescape, cleanSegment_escape, htrim]
  · obtain ⟨m, hm, hforest⟩ := exists_normalForm_escapeAround htags hfixed
    -- Normalization would have dropped a mark at the start, so there is none.
    have hmark : escapeAround (withoutMark t) = escapeAround t := by
      rw [← withoutMark_escapeAround, ← hm, m.withoutMark_markup, ← m.normalize_markup hforest, hm,
        hfixed]
    have hsame : withoutMark t = t := by
      rw [← mapRuns_escapeAround (withoutMark t), hmark, mapRuns_escapeAround]
    rw [hkept, cleanSegment_escapeAround htags hfixed, htrim, hsame, htrim]

end Bitext.Tmx
