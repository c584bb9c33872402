import Bitext.Proofs.Markup.Content
import Bitext.Proofs.Markup.Runs
import Bitext.Proofs.Markup.Strict
import Bitext.Proofs.Tmx.Segment
import Bitext.Proofs.Xml.Decoding

/-!
# What cleaning makes of a segment

Cleaning normalizes the markup of a segment and then resolves the entities between its tags.  The
runs of characters between the tags of the segment are the texts of its normal form, so what was a
run before is resolved on its own, as long as tags are left; if no tag is left, all runs have become
one text.

## Main definitions

* `IsHarmless`: no opening bracket comes up in a run when its entities are resolved.
* `shown`: what is visible of a run then.

## Main results

* `mapRuns_pieces`, `escapeAround_written`: the two functions on a form that can be read back
* `cleanSegment_of_hasTags`: a segment that keeps tags is its normal form with entities resolved
* `cleanSegment_of_no_tags`: any other segment is a text
* `visible_outside_cleanSegment`: what a cleaned segment shows
-/

namespace Bitext.Tmx

open Bitext.Markup
open Bitext.Unicode (Glyph)

variable {g : Text → Text} {t raw run : Text} {f : Forest} {ps : List Piece}

/-! ## Functions of runs on written forms -/

/-- The runs of a written forest are its texts; the first run of what follows it is one of its own
if that begins with a tag. -/
theorem mapRuns_forest_append (hg : g [] = []) (hne : ∀ t, g t = [] → t = [])
    (hps : ∀ run, mapRuns g run ps = g run.reverse ++ mapRuns g [] ps) (f : Forest) (run : Text) :
    mapRuns g run (f.pieces ++ ps) = g run.reverse ++ ((f.mapText g).print ++ mapRuns g [] ps) := by
  -- A run of characters ends at the next tag, so the run in front is general, and so is what
  -- follows, because an end tag follows the children of an element.
  have htag (run body : Text) (qs : List Piece) :
      mapRuns g run (.tag body :: qs) = g run.reverse ++ mapRuns g [] (.tag body :: qs) := by
    rw [mapRuns, mapRuns, List.reverse_nil, hg, List.nil_append]
  induction f generalizing run ps with
  | nil => exact hps run
  | cons name text children tail rest ihc ihr =>
    have htail : mapRuns g [] (tail.map Piece.char ++ (rest.pieces ++ ps)) =
        g tail ++ ((rest.mapText g).print ++ mapRuns g [] ps) := by
      rw [mapRuns_map_char_append, ihr hps, List.append_nil, List.reverse_reverse]
    have hempty : ((g text).isEmpty && (children.mapText g).isNil) =
        (text.isEmpty && children.isNil) := by
      rw [Forest.isNil_mapText]
      congr 1
      rw [Bool.eq_iff_iff, List.isEmpty_iff, List.isEmpty_iff]
      refine ⟨hne text, ?_⟩
      rintro rfl
      exact hg
    rw [Forest.pieces, Forest.mapText, Forest.print, hempty]
    split
    · simp only [List.cons_append, List.nil_append, List.append_assoc]
      rw [mapRuns, htail]
    · simp only [List.cons_append, List.nil_append, List.append_assoc]
      rw [mapRuns, mapRuns_map_char_append, ihc (htag · _ _), mapRuns, htail, List.append_nil,
        List.reverse_reverse, List.reverse_nil, hg, List.nil_append]

/-- **A function of runs** is applied to the texts of a form that can be read back. -/
theorem mapRuns_pieces (hg : g [] = []) (hne : ∀ t, g t = [] → t = []) (h : IsLegible t f) :
    mapRuns g [] (pieces (t ++ f.print)) = g t ++ (f.mapText g).print := by
  have hends (run : Text) : mapRuns g run [] = g run.reverse ++ mapRuns g [] [] := by
    rw [mapRuns, mapRuns, List.reverse_nil, hg, List.append_nil]
  have hforest := mapRuns_forest_append hg hne hends f t.reverse
  rw [List.append_nil, mapRuns, List.reverse_nil, hg, List.append_nil, List.reverse_reverse]
    at hforest
  rw [h.pieces_eq, mapRuns_map_char_append, List.append_nil, hforest]

/-- Escaping around tags escapes run by run. -/
theorem mapRuns_escape_eq (run : Text) (ps : List Piece) :
    mapRuns Xml.escape run ps = Xml.escape run.reverse ++ ps.flatMap escapedText := by
  induction ps generalizing run with
  | nil => rw [mapRuns, List.flatMap_nil, List.append_nil]
  | cons p ps ih =>
    rw [List.flatMap_cons]
    cases p with
    | char c =>
      rw [mapRuns, ih, List.reverse_cons, Xml.escape_append, escapedText, Xml.escape_cons,
        Xml.escape_nil, List.append_nil, List.append_assoc]
    | tag body =>
      rw [mapRuns, ih, List.reverse_nil, Xml.escape_nil, List.nil_append, escapedText]

theorem escapeAround_written (h : IsLegible t f) :
    escapeAround (t ++ f.print) = Xml.escape t ++ (f.mapText Xml.escape).print := by
  have hruns := mapRuns_escape_eq [] (pieces (t ++ f.print))
  rw [List.reverse_nil, Xml.escape_nil, List.nil_append, ← escapeAround_eq] at hruns
  rw [← hruns, mapRuns_pieces Xml.escape_nil (fun _ => Xml.escape_eq_nil_iff.mp) h]

/-! ## Harmless runs -/

/-- No opening bracket comes up when the entities of the run are resolved. -/
def IsHarmless (run : Text) : Prop := '<' ∉ Xml.unescape run

instance (run : Text) : Decidable (IsHarmless run) :=
  inferInstanceAs (Decidable ('<' ∉ Xml.unescape run))

/-- Nor was there one before. -/
theorem IsHarmless.open_not_mem (h : IsHarmless run) : '<' ∉ run := by
  intro hopen
  apply h
  cases hrun : Xml.unescape? run with
  | none => rwa [Xml.unescape, hrun, Option.getD_none]
  | some u =>
    rw [Xml.unescape, hrun, Option.getD_some]
    exact (Xml.unescape?_eq_some_iff.mp hrun).mem (by decide) hopen

theorem isHarmless_of_isBlank (h : Text.isBlank run = true) : IsHarmless run := by
  rw [IsHarmless, Xml.unescape_of_isBlank h]
  exact fun hopen => absurd (isAngle_of_isBlank h '<' hopen) (by decide)

/-- The first run may hold a byte order mark. -/
theorem isHarmless_cons_iff {c : Char} (hc : c ≠ '&') (hopen : c ≠ '<') :
    IsHarmless (c :: run) ↔ IsHarmless run := by
  rw [IsHarmless, Xml.unescape_cons_of_ne hc, List.mem_cons, not_or]
  exact and_iff_right hopen.symm

/-- Blanks at its ends matter to no run. -/
theorem unescape_of_isPadded {trimmed : Text} (h : IsPadded run trimmed) :
    IsPadded (Xml.unescape run) (Xml.unescape trimmed) := by
  obtain ⟨a, b, ha, hb, rfl⟩ := h
  refine ⟨a, b, ha, hb, ?_⟩
  rw [List.append_assoc, Xml.unescape_blank_append ha, Xml.unescape_append_blank hb,
    List.append_assoc]

theorem isHarmless_runs_trim (h : ∀ run ∈ runs (pieces raw), IsHarmless run) :
    ∀ run ∈ runs (pieces (Text.trim raw)), IsHarmless run := by
  refine forall_runs_trim (fun run trimmed hpadded hharmless => ?_) h
  obtain ⟨a, b, -, -, hrun⟩ := unescape_of_isPadded hpadded
  rw [IsHarmless, hrun] at hharmless
  exact fun hopen => hharmless (List.mem_append_left b (List.mem_append_right a hopen))

/-- Without a byte order mark at the start the runs are as harmless as with it. -/
theorem isHarmless_runs_dropMark (h : ∀ run ∈ runs ps, IsHarmless run) :
    ∀ run ∈ runs (dropMark ps), IsHarmless run := by
  unfold dropMark
  split
  · rename_i c ps
    split
    · rename_i hmark
      obtain ⟨first, others, hruns⟩ := exists_runs_eq_cons ps
      rw [runs, hruns, List.modifyHead_cons, List.forall_mem_cons] at h
      rw [hruns, List.forall_mem_cons]
      exact ⟨(isHarmless_cons_iff (by rw [hmark]; decide) (by rw [hmark]; decide)).mp h.1, h.2⟩
    · exact h
  · exact h

theorem open_not_mem_outside (h : ∀ run ∈ runs (pieces t), IsHarmless run) : '<' ∉ outside t := by
  rw [outside, ← flatten_runs, List.mem_flatten]
  rintro ⟨run, hrun, hopen⟩
  exact (h run hrun).open_not_mem hopen

/-! ## Cleaned segments -/

/-- **A segment that keeps tags** is its normal form with the entities in each text resolved, and
these texts are its runs. -/
theorem cleanSegment_of_hasTags (h : ∀ run ∈ runs (pieces raw), IsHarmless run)
    (htags : hasTags (normalize (Text.trim raw)) = true) :
    ∃ m : NormalForm, m.markup = normalize (Text.trim raw) ∧ m.forest ≠ .nil ∧
      nonblank (m.text :: m.forest.texts) =
        nonblank (runs (dropMark (pieces (Text.trim raw)))) ∧
      IsLegible (Xml.unescape m.text) (m.forest.mapText Xml.unescape) ∧
      cleanSegment raw =
        Text.trim (Xml.unescape m.text ++ (m.forest.mapText Xml.unescape).print) := by
  have hharmless := isHarmless_runs_trim h
  have hopen := open_not_mem_outside hharmless
  have hbefore : hasTags (Text.trim raw) = true := by
    by_contra hno
    rw [Markup.normalize, if_neg hno] at htags
    exact hno htags
  cases htree : treeOf? .strict (Xml.items (Glyph.ofText (canonical (Text.trim raw)))) with
  | none =>
    rw [normalize_of_no_tree hbefore htree, hasTags_unmarked hbefore hopen] at htags
    cases htags
  | some root =>
    have hnormal := normalize_of_tree hbefore htree
    have htexts := NormalForm.nonblank_texts_ofTree hopen htree
    have hforest := NormalForm.forest_ofTree_ne_nil hbefore hopen htree
    generalize NormalForm.ofTree htree = m at hnormal htexts hforest
    have hkept : ∀ u ∈ m.text :: m.forest.texts, IsHarmless u := by
      -- A text that is not blank is one of the runs.
      refine forall_of_nonblank (fun u => isHarmless_of_isBlank) fun u hu => ?_
      rw [htexts] at hu
      exact isHarmless_runs_dropMark hharmless u (mem_of_mem_nonblank hu)
    refine ⟨m, hnormal.symm, hforest, htexts, m.isLegible.mapText hkept, ?_⟩
    rw [cleanSegment, hnormal, NormalForm.markup,
      mapRuns_pieces rfl (fun _ => Xml.unescape_eq_nil_iff.mp) m.isLegible]

/-- A segment that keeps no tags is a text with its entities resolved. -/
theorem cleanSegment_of_no_tags (h : hasTags (normalize (Text.trim raw)) = false) :
    cleanSegment raw = Text.trim (Xml.unescape (normalize (Text.trim raw))) := by
  have hruns (ps : List Piece) (hps : ∀ body, .tag body ∉ ps) (run : Text) :
      mapRuns Xml.unescape run ps = Xml.unescape (run.reverse ++ unparse ps) := by
    induction ps generalizing run with
    | nil => rw [mapRuns, unparse_nil, List.append_nil]
    | cons p ps ih =>
      cases p with
      | tag body => exact absurd List.mem_cons_self (hps body)
      | char c =>
        rw [mapRuns, ih fun body hbody => hps body (List.mem_cons_of_mem _ hbody), unparse_cons,
          List.reverse_cons, List.append_assoc]
        rfl
  have hnone : ∀ body, .tag body ∉ pieces (normalize (Text.trim raw)) := by
    intro body hbody
    rw [hasTags_iff.mpr ⟨body, hbody⟩] at h
    cases h
  rw [cleanSegment, hruns _ hnone, List.reverse_nil, List.nil_append, unparse_pieces]

/-! ## What a cleaned segment shows -/

/-- What is visible of a run once its entities are resolved. -/
def shown (run : Text) : Text := Text.visible (Xml.unescape run)

theorem shown_of_isBlank (h : Text.isBlank run = true) : shown run = [] := by
  rw [shown, Xml.unescape_of_isBlank h, Text.visible_eq_nil_iff.mpr h]

theorem shown_of_isPadded {trimmed : Text} (h : IsPadded run trimmed) :
    shown run = shown trimmed := by
  obtain ⟨a, b, ha, hb, hrun⟩ := unescape_of_isPadded h
  rw [shown, hrun, Text.visible_append, Text.visible_append, Text.visible_eq_nil_iff.mpr ha,
    Text.visible_eq_nil_iff.mpr hb, List.append_nil, List.nil_append, shown]

theorem isSome_unescape?_of_isPadded {trimmed : Text} (h : IsPadded run trimmed)
    (hrun : (Xml.unescape? run).isSome) : (Xml.unescape? trimmed).isSome := by
  obtain ⟨a, b, ha, hb, rfl⟩ := h
  obtain ⟨v, hv, -⟩ := (Xml.isDecoded_of_isSome hrun).of_append_blank hb
  have hfront := hv.unescape?_eq
  rw [Xml.unescape?_append_of_plain (Xml.ne_ampersand_of_isBlank ha)] at hfront
  cases htrimmed : Xml.unescape? trimmed with
  | none =>
    rw [htrimmed] at hfront
    cases hfront
  | some u => rfl

/-- If blanks take the place of tags, the text that is left resolves to what the runs resolve to,
but for blanks. -/
theorem exists_isDecoded_flatMap {text : Piece → Text} (hchar : ∀ c, text (.char c) = [c])
    (hblank : ∀ body, Text.isBlank (text (.tag body)) = true)
    (hdecoded : ∀ run ∈ runs ps, (Xml.unescape? run).isSome) :
    ∃ u, Xml.IsDecoded (ps.flatMap text) u ∧ Text.visible u = (runs ps).flatMap shown := by
  -- An entity never reaches beyond a tag, but it may begin anywhere in the first run, so that run
  -- is kept apart.
  have hothers (ps : List Piece) : ∃ first others rest, runs ps = first :: others ∧
      ps.flatMap text = first ++ rest ∧
      ((∀ run ∈ others, (Xml.unescape? run).isSome) →
        ∃ u, Xml.IsDecoded rest u ∧ Text.visible u = others.flatMap shown) := by
    induction ps with
    | nil => exact ⟨[], [], [], rfl, rfl, fun _ => ⟨[], .nil, rfl⟩⟩
    | cons p ps ih =>
      obtain ⟨first, others, rest, hruns, htext, hrest⟩ := ih
      rw [List.flatMap_cons, htext]
      cases p with
      | char c =>
        refine ⟨c :: first, others, rest, by rw [runs, hruns, List.modifyHead_cons], ?_, hrest⟩
        rw [hchar, List.singleton_append, List.cons_append]
      | tag body =>
        refine ⟨[], first :: others, text (.tag body) ++ (first ++ rest), by rw [runs, hruns],
          rfl, fun hdecoded => ?_⟩
        obtain ⟨hfirst, hdecoded⟩ := List.forall_mem_cons.mp hdecoded
        obtain ⟨u, hu, hvisible⟩ := hrest hdecoded
        have hplain := Xml.IsDecoded.of_plain (Xml.ne_ampersand_of_isBlank (hblank body))
        refine ⟨_, hplain.append ((Xml.isDecoded_of_isSome hfirst).append hu), ?_⟩
        rw [Text.visible_append, Text.visible_append, Text.visible_eq_nil_iff.mpr (hblank body),
          hvisible, List.flatMap_cons, shown, List.nil_append]
  obtain ⟨first, others, rest, hruns, htext, hrest⟩ := hothers ps
  rw [hruns, List.forall_mem_cons] at hdecoded
  obtain ⟨u, hu, hvisible⟩ := hrest hdecoded.2
  rw [htext, hruns]
  refine ⟨_, (Xml.isDecoded_of_isSome hdecoded.1).append hu, ?_⟩
  rw [Text.visible_append, hvisible, List.flatMap_cons, shown]

/-- Without its tags a text shows what its runs show. -/
theorem shown_unmarked (htags : hasTags t = true)
    (hdecoded : ∀ run ∈ runs (pieces t), (Xml.unescape? run).isSome) :
    shown (unmarked t) = (runs (pieces t)).flatMap shown := by
  rw [unmarked, if_pos htags]
  generalize hreplacement : (fun body => if TagKind.of body = .selfClosing then [] else [' ']) =
    replacement
  have hblank (body : Text) : Text.isBlank (replacement body) = true := by
    rw [← hreplacement]
    dsimp only
    split <;> rfl
  have hreplaced : ∃ u, Xml.IsDecoded (replaceTags replacement t) u ∧
      Text.visible u = (runs (pieces t)).flatMap shown :=
    exists_isDecoded_flatMap (fun _ => rfl) hblank hdecoded
  obtain ⟨u, hu, hvisible⟩ := hreplaced
  obtain ⟨v, hv, hsame⟩ := hu.exists_collapse
  rw [shown, hv.unescape_eq, hsame, hvisible]

/-- No run shows an opening bracket if all are harmless. -/
theorem open_not_mem_shown {rs : List Text} (h : ∀ run ∈ rs, IsHarmless run) :
    '<' ∉ rs.flatMap shown := by
  rw [List.mem_flatMap]
  rintro ⟨run, hrun, hopen⟩
  exact h run hrun (List.mem_filter.mp hopen).1

theorem open_not_mem_of_visible (h : '<' ∉ Text.visible t) : '<' ∉ t :=
  fun hopen => h (List.mem_filter.mpr ⟨hopen, rfl⟩)

theorem outside_of_open_not_mem (h : '<' ∉ t) : outside t = t :=
  outside_of_tags_eq_nil
    (tags_eq_nil_iff.mpr (hasTags_eq_false_of_no_open (List.forall_mem_ne'.mpr h)))

/-- Where no tags are kept, the segment shows what its runs show, and nothing in it is a tag. -/
theorem visible_cleanSegment_of_no_tags (hharmless : ∀ run ∈ runs (pieces raw), IsHarmless run)
    (hdecoded : ∀ run ∈ runs (pieces raw), (Xml.unescape? run).isSome)
    (h : hasTags (normalize (Text.trim raw)) = false) :
    '<' ∉ cleanSegment raw ∧
      Text.visible (cleanSegment raw) = (runs (pieces (Text.trim raw))).flatMap shown := by
  have hharmless := isHarmless_runs_trim hharmless
  have hdecoded := forall_runs_trim (fun _ _ => isSome_unescape?_of_isPadded) hdecoded
  have hvisible : Text.visible (cleanSegment raw) =
      (runs (pieces (Text.trim raw))).flatMap shown := by
    rw [cleanSegment_of_no_tags h, Text.visible_trim]
    cases htags : hasTags (Text.trim raw) with
    | false =>
      rw [Markup.normalize, htags, if_neg Bool.false_ne_true, runs_pieces_of_no_tags htags,
        List.flatMap_singleton, shown]
    | true =>
      cases htree : treeOf? .strict (Xml.items (Glyph.ofText (canonical (Text.trim raw)))) with
      | none => rw [normalize_of_no_tree htags htree, ← shown_unmarked htags hdecoded, shown]
      | some root =>
        have hopen := open_not_mem_outside hharmless
        rw [hasTags_normalize htags hopen] at h
        · cases h
        · rw [← isSome_treeOf?_canonical hopen, htree]
          rfl
  refine ⟨open_not_mem_of_visible ?_, hvisible⟩
  rw [hvisible]
  exact open_not_mem_shown hharmless

theorem flatMap_shown (rs : List Text) :
    rs.flatMap shown = Text.visible (rs.flatMap Xml.unescape) := by
  induction rs with
  | nil => rfl
  | cons run rs ih => rw [List.flatMap_cons, List.flatMap_cons, Text.visible_append, ih, shown]

/-- A byte order mark at the start of a segment is the first character that it shows. -/
theorem flatMap_shown_of_mark (h : (Text.trim raw).head? = some '\uFEFF') :
    (runs (pieces raw)).flatMap shown =
      '\uFEFF' :: (runs (dropMark (pieces (Text.trim raw)))).flatMap shown := by
  obtain ⟨rest, hrest⟩ := List.head?_eq_some_iff.mp h
  have hpieces : pieces (Text.trim raw) = .char '\uFEFF' :: pieces rest := by
    rw [hrest, pieces_cons_of_ne_open (by decide)]
  obtain ⟨first, others, hruns⟩ := exists_runs_eq_cons (pieces rest)
  have hfirst : shown ('\uFEFF' :: first) = '\uFEFF' :: shown first := by
    rw [shown, Xml.unescape_cons_of_ne (by decide), Text.visible_cons_of_not_isSpace (by decide),
      shown]
  rw [← flatMap_runs_trim (fun _ _ => shown_of_isPadded) raw, hpieces, dropMark, if_pos rfl, runs,
    hruns, List.modifyHead_cons, List.flatMap_cons, List.flatMap_cons, hfirst, List.cons_append]

/-- **A cleaned segment shows what the runs between its tags resolve to**, in order; only a byte
order mark at the start of a segment that keeps tags is lost. -/
theorem visible_outside_cleanSegment (hharmless : ∀ run ∈ runs (pieces raw), IsHarmless run)
    (hdecoded : ∀ run ∈ runs (pieces raw), (Xml.unescape? run).isSome) :
    Text.visible (outside (cleanSegment raw)) =
      if hasTags (normalize (Text.trim raw)) = true ∧ (Text.trim raw).head? = some '\uFEFF' then
        ((runs (pieces raw)).flatMap shown).tail
      else (runs (pieces raw)).flatMap shown := by
  cases htags : hasTags (normalize (Text.trim raw)) with
  | false =>
    obtain ⟨hopen, hvisible⟩ := visible_cleanSegment_of_no_tags hharmless hdecoded htags
    rw [if_neg fun h => Bool.false_ne_true h.1, outside_of_open_not_mem hopen, hvisible,
      flatMap_runs_trim fun _ _ => shown_of_isPadded]
  | true =>
    obtain ⟨m, -, -, htexts, hlegible, hclean⟩ := cleanSegment_of_hasTags hharmless htags
    have hkept : Text.visible (outside (cleanSegment raw)) =
        (runs (dropMark (pieces (Text.trim raw)))).flatMap shown := by
      rw [hclean, visible_outside_trim, hlegible.outside_eq, Forest.content_eq_flatten,
        ← List.flatten_cons, Text.visible_flatten, Forest.texts_mapText, ← List.map_cons,
        List.flatMap_map, ← flatMap_nonblank (fun _ => shown_of_isBlank), ← htexts,
        flatMap_nonblank (fun _ => shown_of_isBlank)]
      rfl
    rw [hkept]
    split
    · rename_i hmark
      rw [flatMap_shown_of_mark hmark.2, List.tail_cons]
    · rename_i hmark
      rw [dropMark_pieces fun hhead => hmark ⟨rfl, hhead⟩,
        flatMap_runs_trim fun _ _ => shown_of_isPadded]

end Bitext.Tmx
