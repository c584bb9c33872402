import Bitext.Proofs.Markup.Reading
import Bitext.Proofs.Markup.Texts
import Mathlib.Data.List.Forall2

/-!
# The runs of characters between tags

A text is a run of characters, a tag, a run of characters, and so on.  A strict reading of it puts
every run into a text or a tail of its own, in order, so the texts of the tree are the runs, but for
empty ones.

## Main definitions

* `runs`: the characters between the tags of a sequence of pieces, run by run.
* `TreeBuilder.texts`: all texts and tails that were read.

## Main results

* `forall₂_runs_trim`: trimming takes blanks away from the first run and the last one
* `nonblank_texts_of_treeOf?`: the texts of a tree that was read strictly
* `NormalForm.nonblank_texts_ofTree`: the texts of a normal form
-/

namespace Bitext.Markup

open Bitext.Unicode (Glyph)

variable {a b t : Text} {ps qs : List Piece}

/-! ## Runs -/

/-- The runs of characters between tags: one more than there are tags. -/
def runs : List Piece → List Text
  | [] => [[]]
  | .char c :: ps => (runs ps).modifyHead (c :: ·)
  | .tag _ :: ps => [] :: runs ps

theorem runs_ne_nil (ps : List Piece) : runs ps ≠ [] := by
  induction ps with
  | nil => exact List.cons_ne_nil _ _
  | cons p ps ih =>
    cases p with
    | char c => rwa [runs, ne_eq, List.modifyHead_eq_nil_iff]
    | tag body => exact List.cons_ne_nil _ _

theorem exists_runs_eq_cons (ps : List Piece) : ∃ first others, runs ps = first :: others :=
  List.exists_cons_of_ne_nil (runs_ne_nil ps)

theorem runs_map_char_append (t : Text) (ps : List Piece) :
    runs (t.map Piece.char ++ ps) = (runs ps).modifyHead (t ++ ·) := by
  induction t with
  | nil => exact (congrFun List.modifyHead_id _).symm
  | cons c t ih =>
    rw [List.map_cons, List.cons_append, runs, ih, List.modifyHead_modifyHead]
    rfl

/-- Characters at the end belong to the last run. -/
theorem exists_runs_append_map_char (ps : List Piece) : ∃ before last, runs ps = before ++ [last] ∧
    ∀ b : Text, runs (ps ++ b.map Piece.char) = before ++ [last ++ b] := by
  induction ps with
  | nil =>
    refine ⟨[], [], rfl, fun b => ?_⟩
    have hruns := runs_map_char_append b []
    rw [List.append_nil] at hruns
    rw [List.nil_append, hruns, runs, List.modifyHead_cons, List.append_nil]
    rfl
  | cons p ps ih =>
    obtain ⟨before, last, hruns, hmore⟩ := ih
    cases p with
    | tag body =>
      exact ⟨[] :: before, last, by rw [runs, hruns, List.cons_append],
        fun b => by rw [List.cons_append, runs, hmore, List.cons_append]⟩
    | char c =>
      cases before with
      | nil =>
        exact ⟨[], c :: last, by rw [runs, hruns]; rfl,
          fun b => by rw [List.cons_append, runs, hmore]; rfl⟩
      | cons first before =>
        exact ⟨(c :: first) :: before, last, by rw [runs, hruns]; rfl,
          fun b => by rw [List.cons_append, runs, hmore]; rfl⟩

/-- Runs do not depend on what stands in the tags. -/
theorem runs_congr (h : ps.map Piece.char? = qs.map Piece.char?) : runs ps = runs qs := by
  induction ps generalizing qs with
  | nil =>
    cases qs with
    | nil => rfl
    | cons q qs => cases h
  | cons p ps ih =>
    cases qs with
    | nil => cases h
    | cons q qs =>
      obtain ⟨hpq, hrest⟩ := List.cons.inj h
      cases p <;> cases q <;> cases hpq <;> rw [runs, runs, ih hrest]

theorem flatten_runs (ps : List Piece) : (runs ps).flatten = ps.filterMap Piece.char? := by
  induction ps with
  | nil => rfl
  | cons p ps ih =>
    cases p with
    | tag body => exact ih
    | char c =>
      obtain ⟨first, others, hruns⟩ := exists_runs_eq_cons ps
      have hchars : (Piece.char c :: ps).filterMap Piece.char? =
          c :: ps.filterMap Piece.char? := rfl
      rw [runs, hruns, List.modifyHead_cons, hchars, ← ih, hruns]
      rfl

/-- A text without tags is one run. -/
theorem runs_pieces_of_no_tags (h : hasTags t = false) : runs (pieces t) = [t] := by
  have hnone : ∀ ps : List Piece, (∀ body, .tag body ∉ ps) → runs ps = [unparse ps] := by
    intro ps hps
    induction ps with
    | nil => rfl
    | cons p ps ih =>
      have hrest := ih fun body hbody => hps body (List.mem_cons_of_mem p hbody)
      cases p with
      | tag body => exact absurd List.mem_cons_self (hps body)
      | char c => rw [runs, hrest]; rfl
  rw [hnone, unparse_pieces]
  intro body hbody
  have htags := hasTags_iff.mpr ⟨body, hbody⟩
  rw [h] at htags
  cases htags

/-! ## Trimming -/

/-- A run between blanks. -/
def IsPadded (run trimmed : Text) : Prop :=
  ∃ a b, Text.isBlank a = true ∧ Text.isBlank b = true ∧ run = a ++ trimmed ++ b

theorem isPadded_refl (run : Text) : IsPadded run run :=
  ⟨[], [], rfl, rfl, (List.append_nil run).symm⟩

/-- **Trimming takes blanks away from the runs**, and nothing else. -/
theorem forall₂_runs_trim (t : Text) :
    List.Forall₂ IsPadded (runs (pieces t)) (runs (pieces (Text.trim t))) := by
  obtain ⟨a, b, ha, hb, hpieces⟩ := exists_pieces_eq_trim t
  have hrefl (rs : List Text) : List.Forall₂ IsPadded rs rs :=
    List.forall₂_same.mpr fun r _ => isPadded_refl r
  -- The blanks at the end belong to the last run, those at the start to the first one, and if there
  -- is one run only, both belong to it.
  obtain ⟨before, last, hruns, hmore⟩ := exists_runs_append_map_char (pieces (Text.trim t))
  rw [hpieces, runs_map_char_append, hruns, hmore]
  cases before with
  | nil => exact .cons ⟨a, b, ha, hb, (List.append_assoc ..).symm⟩ .nil
  | cons first before =>
    refine .cons ⟨a, [], ha, rfl, (List.append_nil _).symm⟩ ?_
    exact List.rel_append (hrefl before) (.cons ⟨[], b, rfl, hb, rfl⟩ .nil)

/-- What no blank at the ends of a run contributes to is the same without these. -/
theorem flatMap_runs_trim {β : Type} {g : Text → List β}
    (hg : ∀ run trimmed, IsPadded run trimmed → g run = g trimmed) (t : Text) :
    (runs (pieces (Text.trim t))).flatMap g = (runs (pieces t)).flatMap g := by
  have hsame {rs rs' : List Text} (h : List.Forall₂ IsPadded rs rs') :
      rs'.flatMap g = rs.flatMap g := by
    induction h with
    | nil => rfl
    | cons hr _ ih => rw [List.flatMap_cons, List.flatMap_cons, ih, hg _ _ hr]
  exact hsame (forall₂_runs_trim t)

/-- What holds of every run holds of the runs of the trimmed text, if it does not depend on blanks
at the ends. -/
theorem forall_runs_trim {p : Text → Prop}
    (hp : ∀ run trimmed, IsPadded run trimmed → p run → p trimmed)
    (h : ∀ run ∈ runs (pieces t), p run) : ∀ run ∈ runs (pieces (Text.trim t)), p run := by
  have hall {rs rs' : List Text} (hr : List.Forall₂ IsPadded rs rs') (h : ∀ run ∈ rs, p run) :
      ∀ run ∈ rs', p run := by
    induction hr with
    | nil => nofun
    | cons hr _ ih =>
      obtain ⟨hfirst, hrest⟩ := List.forall_mem_cons.mp h
      exact List.forall_mem_cons.mpr ⟨hp _ _ hr hfirst, ih hrest⟩
  exact hall (forall₂_runs_trim t) h

/-! ## The texts of a tree -/

namespace Unclosed

/-- What was read inside an element, text by text. -/
def texts (e : Unclosed) : List Text := e.text :: e.children.texts

theorem texts_addChild (e child : Unclosed) :
    (e.addChild child).texts = e.texts ++ child.texts ++ [[]] := by
  simp only [addChild, texts, Forest.snoc_eq_append, Forest.texts_append, Forest.texts,
    List.cons_append, List.append_assoc]

/-- What is added belongs to the last text. -/
theorem exists_texts_addText (e : Unclosed) : ∃ before last, e.texts = before ++ [last] ∧
    ∀ a, (e.addText a).texts = before ++ [last ++ a] := by
  by_cases hnil : e.children = .nil
  · refine ⟨[], e.text, by rw [texts, hnil]; rfl, fun a => ?_⟩
    rw [addText, if_pos (Forest.isNil_eq_true.mpr hnil), texts, hnil]
    rfl
  · obtain ⟨before, last, htexts, hextended⟩ := Forest.exists_texts_extendTail hnil
    refine ⟨e.text :: before, last, by rw [texts, htexts, List.cons_append], fun a => ?_⟩
    rw [addText, if_neg (mt Forest.isNil_eq_true.mp hnil), texts, hextended, List.cons_append]

end Unclosed

namespace TreeBuilder

variable {b b' : TreeBuilder} {before : List Text} {last : Text}

/-- Everything that was read, text by text. -/
def texts (b : TreeBuilder) : List Text :=
  b.around.reverse.flatMap Unclosed.texts ++ b.top.texts

theorem exists_texts_addText (b : TreeBuilder) : ∃ before last, b.texts = before ++ [last] ∧
    ∀ a, ({ b with top := b.top.addText a } : TreeBuilder).texts = before ++ [last ++ a] := by
  obtain ⟨before, last, htexts, hadded⟩ := b.top.exists_texts_addText
  refine ⟨b.around.reverse.flatMap Unclosed.texts ++ before, last, ?_, fun a => ?_⟩
  · rw [texts, htexts, List.append_assoc]
  · rw [texts, hadded, List.append_assoc]

theorem texts_closeTop (h : b.around ≠ []) : b.closeTop.texts = b.texts ++ [[]] := by
  unfold closeTop
  split
  · rename_i haround
    exact absurd haround h
  · rename_i parent outer haround
    simp only [texts, haround, Unclosed.texts_addChild, List.reverse_cons, List.flatMap_append,
      List.flatMap_singleton, List.append_assoc]

/-- Strictly a closing tag closes the innermost element. -/
theorem texts_close {name : Text} (h : b.close .strict name = some b') :
    b'.texts = b.texts ++ [[]] := by
  unfold TreeBuilder.close at h
  split at h
  · rename_i hfound
    cases h
    refine texts_closeTop fun haround => ?_
    rw [openNames, haround] at hfound
    cases hfound
  · cases h
  · contradiction
  · contradiction

/-- **A tag begins a new text**, or two of them with nothing in the first one. -/
theorem exists_texts_step_tagEvent {body : List Glyph}
    (h : b.step .strict (Xml.tagEvent body) = some b') :
    ∃ n, b'.texts = b.texts ++ List.replicate n [] ++ [[]] := by
  have hstart (content : List Glyph) (h : b.step .strict (.start content) = some b') :
      ∃ n, b'.texts = b.texts ++ List.replicate n [] ++ [[]] := by
    cases h
    refine ⟨0, ?_⟩
    simp [TreeBuilder.texts, Unclosed.texts, Unclosed.named, Forest.texts]
  unfold Xml.tagEvent at h
  split at h
  · exact hstart _ h
  · split at h
    · exact ⟨0, by rw [texts_close h, List.replicate_zero, List.append_nil]⟩
    · split at h
      · cases h
        refine ⟨1, ?_⟩
        simp only [TreeBuilder.texts, Unclosed.texts_addChild, List.append_assoc]
        rfl
      · exact hstart _ h

/-- **Reading pieces strictly** puts every run into a text of its own; the first run goes on with
the last text. -/
theorem nonblank_texts_readPieces (h : b.readPieces .strict ps = some b')
    (htexts : b.texts = before ++ [last]) :
    nonblank b'.texts = nonblank (before ++ (runs ps).modifyHead (last ++ ·)) := by
  -- The texts read so far are split before the last one, which the next characters extend.
  induction ps generalizing b before last with
  | nil =>
    cases h
    rw [htexts, runs, List.modifyHead_cons, List.append_nil]
  | cons p ps ih =>
    obtain ⟨next, hnext, hrest⟩ := Option.bind_eq_some_iff.mp h
    obtain ⟨first, others, hruns⟩ := exists_runs_eq_cons ps
    cases p with
    | char c =>
      cases hnext
      obtain ⟨before', last', htexts', hadded⟩ := b.exists_texts_addText
      rw [htexts] at htexts'
      obtain ⟨rfl, hlast⟩ := List.append_inj' htexts' rfl
      cases hlast
      rw [ih hrest (hadded [c]), runs, hruns]
      simp only [List.modifyHead_cons, List.append_assoc, List.singleton_append]
    | tag body =>
      obtain ⟨n, hstep⟩ := exists_texts_step_tagEvent hnext
      have hempty : nonblank (List.replicate n []) = [] :=
        List.filter_eq_nil_iff.mpr fun t ht => by rw [List.eq_of_mem_replicate ht]; decide
      have hkept : nonblank (before ++ [last] ++ List.replicate n [] ++ first :: others) =
          nonblank (before ++ last :: first :: others) := by
        rw [nonblank_append, nonblank_append (before ++ [last]), hempty, List.append_nil,
          ← nonblank_append, ← List.append_cons]
      rw [ih hrest hstep, htexts, runs, hruns, List.modifyHead_cons, List.modifyHead_cons,
        List.append_nil]
      exact hkept

end TreeBuilder

/-- What is inside the element, text by text. -/
def Element.texts (e : Element) : List Text := e.text :: e.children.texts

theorem TreeBuilder.texts_finish {b : TreeBuilder} {root : Element}
    (h : b.finish .strict = some root) : root.texts = b.texts := by
  unfold TreeBuilder.finish at h
  split at h
  · cases h
  · rename_i hopen
    cases h
    have haround : b.around = [] := by
      simpa using hopen
    rw [texts, haround]
    rfl

/-- **The texts of a tree that was read strictly** are the runs between the tags, but for blank ones
and for a byte order mark. -/
theorem nonblank_texts_of_treeOf? {root : Element} (h : '<' ∉ outside t)
    (htree : treeOf? .strict (Xml.items (Glyph.ofText (canonical t))) = some root) :
    nonblank root.texts = nonblank (runs (dropMark (pieces t))) := by
  rw [treeOf?_canonical h] at htree
  obtain ⟨b, hread, hfinish⟩ := Option.bind_eq_some_iff.mp htree
  have hinitial : TreeBuilder.initial.texts = [] ++ [[]] := rfl
  have hsame : runs (renamed (dropMark (pieces t))) = runs (dropMark (pieces t)) :=
    runs_congr (Renaming.map_char?_run _ _)
  obtain ⟨first, others, hruns⟩ := exists_runs_eq_cons (dropMark (pieces t))
  rw [TreeBuilder.texts_finish hfinish, TreeBuilder.nonblank_texts_readPieces hread hinitial, hsame,
    hruns]
  rfl

/-- **The texts of a normal form** are the runs of the text it was made of, but for blank ones and
for a byte order mark. -/
theorem NormalForm.nonblank_texts_ofTree {root : Element} (h : '<' ∉ outside t)
    (htree : treeOf? .strict (Xml.items (Glyph.ofText (canonical t))) = some root) :
    nonblank ((ofTree htree).text :: (ofTree htree).forest.texts) =
      nonblank (runs (dropMark (pieces t))) := by
  rw [← nonblank_texts_of_treeOf? h htree]
  refine nonblank_cons_congr ?_ root.text
  exact (congrArg nonblank (Forest.texts_renumber ..)).trans
    (Forest.nonblank_texts_reduce root.children)

end Bitext.Markup
