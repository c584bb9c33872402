import Bitext.Markup.Normal
import Bitext.Proofs.Markup.Legible

/-!
# Fixed points of normalization

A text with tags in which brackets stand only around tags is left alone by normalization exactly if
it is the written form of a reduced, numbered forest behind a text.  On such a form normalization
takes away nothing but a byte order mark at its start.

## Main definitions

* `withoutMark`: a text without the byte order mark at its start.
* `NormalForm`: a text and the reduced, numbered forest behind it.

## Main results

* `parse_append_print`: what is read from a written form
* `IsLegible.canonical_eq`: canonical names are kept
* `NormalForm.normalize_markup`: normalization of a written normal form
* `exists_normalForm`: every fixed point is one
* `IsLegible.normalize_eq_iff`: which written forms are fixed points
-/

namespace Bitext.Markup

open Bitext.Unicode (Glyph)
open Bitext.Xml (IsName)

variable {name t : Text} {f : Forest} {n : Nat} {reading : Reading}

/-! ## Tags with canonical names -/

theorem kind_opening (h : IsName name) : TagKind.of name = .opening := by
  obtain ⟨c, rest, rfl, hslash, -⟩ := h.isTagName.exists_cons
  have hlast := h.isTagName.getLast?_ne
  rw [TagKind.of, if_neg, if_neg]
  · simpa using hslash
  · simpa using fun _ => hlast

theorem kind_empty (h : IsName name) : TagKind.of (name ++ ['/']) = .selfClosing := by
  obtain ⟨c, rest, rfl, -⟩ := h.isTagName.exists_cons
  rw [TagKind.of, if_pos]
  simp [List.getLast?_cons]

theorem kind_closing (h : IsName name) : TagKind.of ('/' :: name) = .closing := by
  have hlast := h.isTagName.getLast?_ne
  obtain ⟨c, rest, rfl, -⟩ := h.isTagName.exists_cons
  rw [TagKind.of, if_neg, if_pos]
  · rfl
  · simpa [List.getLast?_cons_cons] using hlast

theorem takeWhile_name (h : IsName name) {x : Text} (hx : ∀ c, x.head? = some c → c = '/') :
    (name ++ x).takeWhile (fun c => !(Text.isSpace c || c == '/' || c == '>')) = name := by
  have hname : ∀ c ∈ name, (!(Text.isSpace c || c == '/' || c == '>')) = true := by
    intro c hc
    have hslash : c ≠ '/' := by
      rintro rfl
      exact h.not_mem rfl hc
    have hclose : c ≠ '>' := by
      rintro rfl
      exact h.not_mem rfl hc
    simp [h.isSpace c hc, hslash, hclose]
  rw [List.takeWhile_append_of_pos hname]
  cases x with
  | nil => rw [List.takeWhile_nil, List.append_nil]
  | cons c x =>
    rw [hx c rfl]
    simp

theorem tagName_opening (h : IsName name) : tagName name = name := by
  have hname := takeWhile_name h (x := []) (by simp)
  obtain ⟨c, rest, rfl, hslash, -⟩ := h.isTagName.exists_cons
  rw [List.append_nil] at hname
  rw [tagName, List.dropWhile_cons_of_neg (by simpa using hslash), hname]

theorem tagName_empty (h : IsName name) : tagName (name ++ ['/']) = name := by
  have hname := takeWhile_name h (x := ['/']) (by simp)
  obtain ⟨c, rest, rfl, hslash, -⟩ := h.isTagName.exists_cons
  rw [tagName, List.cons_append, List.dropWhile_cons_of_neg (by simpa using hslash)]
  exact hname

theorem tagName_closing (h : IsName name) : tagName ('/' :: name) = name := by
  rw [tagName, List.dropWhile_cons_of_pos (by simp)]
  exact tagName_opening h

theorem isIdentifier_numberedName (n : Nat) : isIdentifier (numberedName n) = true := by
  have hdigits : (Text.ofNat n).all isNamePart = true := by
    rw [List.all_eq_true]
    intro c hc
    simp [isNamePart, isDigit_of_mem_ofNat hc]
  rw [numberedName, tagLetter, List.singleton_append, isIdentifier, hdigits]
  rfl

theorem canonicalName_numberedName (m n : Nat) :
    Renaming.canonicalName (numberedName m) n = numberedName n := by
  rw [Renaming.canonicalName, isIdentifier_numberedName, if_pos rfl, numberedName]

/-! ## Canonical names -/

theorem Renaming.run_chars (state : Renaming) (t : Text) (ps : List Piece) :
    state.run (t.map Piece.char ++ ps) = t.map Piece.char ++ state.run ps := by
  induction t with
  | nil => rfl
  | cons c t ih => rw [List.map_cons, List.cons_append, run, ih, List.cons_append]

theorem Renaming.run_tag {state next : Renaming} {body renamed : Text}
    (h : state.step body = (renamed, next)) (ps : List Piece) :
    state.run (.tag body :: ps) = .tag renamed :: next.run ps := by
  simp only [run, h]

theorem Renaming.step_of_opening {body : Text} (h : TagKind.of body = .opening) (state : Renaming) :
    state.step body =
      (canonicalName (tagName body) (state.given + 1),
        ⟨⟨tagName body, canonicalName (tagName body) (state.given + 1)⟩ :: state.opened,
          state.given + 1⟩) := by
  simp only [step, h]

theorem Renaming.step_of_selfClosing {body : Text} (h : TagKind.of body = .selfClosing)
    (state : Renaming) :
    state.step body =
      (canonicalName (tagName body) (state.given + 1) ++ ['/'],
        ⟨state.opened, state.given + 1⟩) := by
  simp only [step, h]

theorem Renaming.step_of_closing {body : Text} (h : TagKind.of body = .closing) (state : Renaming) :
    state.step body =
      ('/' :: (close (tagName body) state.opened).1,
        ⟨(close (tagName body) state.opened).2, state.given⟩) := by
  simp only [step, h]

/-- The closing tag of the innermost open tag gets its canonical name, and takes it off the
stack. -/
theorem Renaming.close_cons_of_eq {top : OpenedTag} (h : top.name = name) (below : List OpenedTag) :
    close name (top :: below) = (top.canonical, below) := by
  rw [close, h, beq_self_eq_true, if_pos rfl]

/-- Any other closing tag gets a name from further out, if there is one, and changes nothing. -/
theorem Renaming.close_cons_of_ne {top : OpenedTag} (h : top.name ≠ name) (below : List OpenedTag) :
    (close name (top :: below)).2 = top :: below ∧
      ((close name (top :: below)).1 = tagLetter ∨
        ∃ tag ∈ below, (close name (top :: below)).1 = tag.canonical) := by
  rw [close, beq_eq_false_iff_ne.mpr h, if_neg Bool.false_ne_true]
  split
  · rename_i tag hfound
    exact ⟨rfl, .inr ⟨tag, List.mem_of_find?_eq_some hfound, rfl⟩⟩
  · exact ⟨rfl, .inl rfl⟩

/-- **The tags of a pair get the same name**, and the tags that are open are as before. -/
theorem Renaming.run_pair {start stop text : Text} {inner inner' : List Piece} {m : Nat}
    (hstart : TagKind.of start = .opening) (hstop : TagKind.of stop = .closing)
    (hname : tagName stop = tagName start)
    (hinner : ∀ opened ps, Renaming.run ⟨opened, n + 1⟩ (inner ++ ps) =
      inner' ++ Renaming.run ⟨opened, m⟩ ps)
    (opened : List OpenedTag) (ps : List Piece) :
    Renaming.run ⟨opened, n⟩
        (.tag start :: (text.map Piece.char ++ (inner ++ .tag stop :: ps))) =
      .tag (canonicalName (tagName start) (n + 1)) :: (text.map Piece.char ++ (inner' ++
        .tag ('/' :: canonicalName (tagName start) (n + 1)) :: Renaming.run ⟨opened, m⟩ ps)) := by
  -- The stack is as it was when the closing tag comes, so that tag takes the name from its top.
  have htop : close (tagName stop)
      (⟨tagName start, canonicalName (tagName start) (n + 1)⟩ :: opened) = _ :=
    close_cons_of_eq hname.symm opened
  rw [run_tag (step_of_opening hstart _), run_chars, hinner, run_tag (step_of_closing hstop _),
    htop]

/-- **Renaming keeps the names of a numbered forest**, and it has given one name for each of the
elements when it comes to the pieces behind them. -/
theorem Renaming.run_forest (hn : f.IsNumbered n) (opened : List OpenedTag) (ps : List Piece) :
    Renaming.run ⟨opened, n⟩ (f.pieces ++ ps) =
      f.pieces ++ Renaming.run ⟨opened, (f.renumber tagLetter n).2⟩ ps := by
  induction f generalizing n opened ps with
  | nil => rfl
  | cons name text children tail rest ihc ihr =>
    obtain ⟨rfl, hnc, hnr⟩ := Forest.IsNumbered.cons_iff.mp hn
    have hname := isName_numberedName (n + 1)
    rw [Forest.pieces]
    split
    · rename_i hempty
      obtain ⟨-, hchildren⟩ := Bool.and_eq_true_iff.mp hempty
      rw [Forest.isNil_eq_true] at hchildren
      subst hchildren
      simp only [List.cons_append, List.append_assoc, List.nil_append]
      have hrest := ihr hnr opened ps
      rw [Forest.renumber] at hrest
      rw [run_tag (step_of_selfClosing (kind_empty hname) _), tagName_empty hname,
        canonicalName_numberedName, run_chars, hrest]
      rfl
    · simp only [List.cons_append, List.append_assoc, List.nil_append]
      rw [run_pair (kind_opening hname) (kind_closing hname)
        ((tagName_closing hname).trans (tagName_opening hname).symm) (ihc hnc),
        tagName_opening hname, canonicalName_numberedName, run_chars, ihr hnr]
      rfl

/-! ## Written forms -/

/-- A text without the byte order mark at its start. -/
def withoutMark : Text → Text
  | [] => []
  | c :: t => if c = '\uFEFF' then t else c :: t

theorem items_ofText (t : Text) :
    Xml.items (Glyph.ofText t) = Xml.itemsFrom (Glyph.ofText (withoutMark t)) := by
  cases t with
  | nil => rw [withoutMark, Glyph.ofText_nil, Xml.items, Xml.itemsFrom_nil]
  | cons c t =>
    rw [Glyph.ofText_cons, Xml.items, withoutMark, Glyph.is_char]
    by_cases hc : c = '\uFEFF' <;> simp [hc]

theorem withoutMark_of_head?_ne (h : t.head? ≠ some '\uFEFF') : withoutMark t = t := by
  cases t with
  | nil => rfl
  | cons c t =>
    rw [withoutMark, if_neg]
    rintro rfl
    exact h rfl

theorem withoutMark_eq_self_iff : withoutMark t = t ↔ t.head? ≠ some '\uFEFF' := by
  refine ⟨?_, withoutMark_of_head?_ne⟩
  intro hsame hmark
  cases t with
  | nil => cases hmark
  | cons c t =>
    cases hmark
    exact List.cons_ne_self _ _ hsame.symm

theorem mem_of_mem_withoutMark {c : Char} (h : c ∈ withoutMark t) : c ∈ t := by
  cases t with
  | nil => exact h
  | cons d t =>
    rw [withoutMark] at h
    split at h
    · exact List.mem_cons_of_mem d h
    · exact h

/-- A forest begins with a bracket, so a byte order mark can only stand in the text before it. -/
theorem withoutMark_append_print (t : Text) (f : Forest) :
    withoutMark (t ++ f.print) = withoutMark t ++ f.print := by
  cases t with
  | nil =>
    refine withoutMark_of_head?_ne ?_
    by_cases hf : f = .nil
    · rw [hf]
      simp [Forest.print]
    · rw [List.nil_append, Forest.head?_print hf]
      decide
  | cons c t =>
    rw [List.cons_append, withoutMark, withoutMark]
    split <;> rfl

/-- No byte order mark is lost exactly if the written form does not begin with one. -/
theorem withoutMark_eq_self_iff_append_print (t : Text) (f : Forest) :
    withoutMark t = t ↔ (t ++ f.print).head? ≠ some '\uFEFF' := by
  rw [← withoutMark_eq_self_iff, withoutMark_append_print, List.append_left_inj]

/-- **A written form is read as the text and the forest**, but for a byte order mark. -/
theorem parse_append_print (ht : ∀ c ∈ t, c ≠ '<') (hr : f.IsReadable) (hn : f.IsNamed) :
    parse reading (t ++ f.print) = .tree ⟨[], withoutMark t, f, []⟩ := by
  rw [parse, items_ofText, withoutMark_append_print,
    treeOf?_markup (fun c hc => ht c (mem_of_mem_withoutMark hc)) hr hn]

namespace IsLegible

theorem parse_eq (h : IsLegible t f) (reading : Reading) :
    parse reading (t ++ f.print) = .tree ⟨[], withoutMark t, f, []⟩ :=
  parse_append_print h.no_open h.isReadable h.isNumbered.isNamed

/-- Canonical names are kept. -/
theorem canonical_eq (h : IsLegible t f) : canonical (t ++ f.print) = t ++ f.print := by
  have hforest := Renaming.run_forest h.isNumbered [] []
  rw [List.append_nil, Renaming.run, List.append_nil] at hforest
  rw [canonical, h.pieces_eq, Renaming.run_chars, hforest, unparse_append, unparse_map_char,
    Forest.unparse_pieces]

end IsLegible

/-- Numbering a tree that was read makes it one that can be read back. -/
theorem isLegible_of_treeOf? {root : Element}
    (h : treeOf? reading (Xml.items (Glyph.ofText t)) = some root) :
    IsLegible root.text (root.children.renumber tagLetter 0).1 := by
  rw [items_ofText] at h
  obtain ⟨htext, hchildren⟩ := isReadable_of_treeOf? h
  exact ⟨htext, (Forest.isReadable_renumber tagLetter).mpr hchildren,
    Forest.isNumbered_renumber 0 _⟩

/-! ## Normal forms -/

/-- A text and a forest behind it that normalization has nothing to do with. -/
structure NormalForm where
  text : Text
  forest : Forest
  no_open : ∀ c ∈ text, c ≠ '<'
  isReadable : forest.IsReadable
  isNumbered : forest.IsNumbered 0
  isReduced : forest.IsReduced

namespace NormalForm

/-- The written form. -/
def markup (m : NormalForm) : Text := m.text ++ m.forest.print

/-- A normal form can be read back. -/
theorem isLegible (m : NormalForm) : IsLegible m.text m.forest :=
  ⟨m.no_open, m.isReadable, m.isNumbered⟩

/-- There are tags if there are elements. -/
theorem hasTags_markup (m : NormalForm) (h : m.forest ≠ .nil) : hasTags m.markup = true :=
  m.isLegible.hasTags_iff_ne_nil.mpr h

theorem forest_ne_nil (m : NormalForm) (h : hasTags m.markup = true) : m.forest ≠ .nil :=
  m.isLegible.hasTags_iff_ne_nil.mp h

theorem withoutMark_markup (m : NormalForm) :
    withoutMark m.markup = withoutMark m.text ++ m.forest.print :=
  withoutMark_append_print m.text m.forest

/-- **Normalization takes away at most the byte order mark at the start of a normal form.** -/
theorem normalize_markup (m : NormalForm) (h : m.forest ≠ .nil) :
    normalize m.markup = withoutMark m.text ++ m.forest.print := by
  have hparse : parse .strict m.markup = .tree ⟨[], withoutMark m.text, m.forest, []⟩ :=
    m.isLegible.parse_eq .strict
  have hcanonical : canonical m.markup = m.markup := m.isLegible.canonical_eq
  rw [normalize, if_pos (m.hasTags_markup h), hcanonical, hparse]
  simp only [Element.markup, Element.renumber, Element.reduce]
  rw [Forest.reduce_of_isReduced m.isReduced, m.isNumbered]

/-- The normal form of a tree that was read. -/
def ofTree {root : Element}
    (h : treeOf? reading (Xml.items (Glyph.ofText t)) = some root) : NormalForm :=
  have hreadable := isReadable_of_treeOf? (items_ofText t ▸ h)
  { text := root.text
    forest := (root.children.reduce.renumber tagLetter 0).1
    no_open := hreadable.1
    isReadable := (Forest.isReadable_renumber tagLetter).mpr hreadable.2.reduce
    isNumbered := Forest.isNumbered_renumber 0 _
    isReduced := (Forest.isReduced_reduce _).renumber tagLetter 0 }

/-- Trimming a normal form that has elements leaves a normal form that has elements. -/
theorem exists_trim (m : NormalForm) (h : m.forest ≠ .nil) :
    ∃ m' : NormalForm, m'.markup = Text.trim m.markup ∧ m'.forest ≠ .nil := by
  obtain ⟨t, f, hlegible, htrim, hf, hreduced⟩ := m.isLegible.exists_trim h
  exact ⟨⟨t, f, hlegible.no_open, hlegible.isReadable, hlegible.isNumbered,
    hreduced.mpr m.isReduced⟩, htrim.symm, hf⟩

end NormalForm

/-! ## Fixed points -/

theorem open_mem_of_hasTags (h : hasTags t = true) : '<' ∈ t := by
  by_contra hno
  rw [hasTags_eq_false_of_no_open] at h
  · cases h
  · rintro c hc rfl
    exact hno hc

/-- What is left of a text without its tags holds a bracket only if a character outside the tags
is one. -/
theorem char_mem_of_open_mem_unmarked (htags : hasTags t = true) (h : '<' ∈ unmarked t) :
    .char '<' ∈ pieces t := by
  rw [unmarked, if_pos htags] at h
  rcases Text.mem_of_mem_collapse h with hspace | hmem
  · cases hspace
  · obtain ⟨p, hp, hc⟩ := List.mem_flatMap.mp hmem
    cases p with
    | char c =>
      rw [List.mem_singleton.mp hc]
      exact hp
    -- A tag leaves at most a blank.
    | tag body =>
      exfalso
      dsimp only at hc
      split at hc <;> simp at hc

/-- **Fixed points of normalization are normal forms**, if no bracket stands outside the tags. -/
theorem exists_normalForm (hchars : .char '<' ∉ pieces t) (htags : hasTags t = true)
    (hfixed : normalize t = t) : ∃ m : NormalForm, m.markup = t ∧ m.forest ≠ .nil := by
  rw [normalize, if_pos htags, parse] at hfixed
  cases htree : treeOf? .strict (Xml.items (Glyph.ofText (canonical t))) with
  -- Without a tree the tags are taken out, so a fixed point would have no tags.
  | none =>
    rw [htree] at hfixed
    have hopen : '<' ∈ unmarked t := by
      rw [show unmarked t = t from hfixed]
      exact open_mem_of_hasTags htags
    exact absurd (char_mem_of_open_mem_unmarked htags hopen) hchars
  -- Otherwise the text is what was written of the tree, after reduction and numbering.
  | some root =>
    rw [htree] at hfixed
    have hm : (NormalForm.ofTree htree).markup = t := hfixed
    refine ⟨NormalForm.ofTree htree, hm, NormalForm.forest_ne_nil _ ?_⟩
    rw [hm]
    exact htags

/-- **Normalization leaves a written form alone** exactly if it does not begin with a byte order
mark and the forest is reduced. -/
theorem IsLegible.normalize_eq_iff (h : IsLegible t f) (hf : f ≠ .nil) :
    normalize (t ++ f.print) = t ++ f.print ↔ t.head? ≠ some '\uFEFF' ∧ f.IsReduced := by
  have hnormal (hreduced : f.IsReduced) :
      normalize (t ++ f.print) = withoutMark t ++ f.print :=
    NormalForm.normalize_markup ⟨t, f, h.no_open, h.isReadable, h.isNumbered, hreduced⟩ hf
  rw [← withoutMark_eq_self_iff]
  constructor
  · intro hfixed
    have hopen : .char '<' ∉ pieces (t ++ f.print) := by
      rw [h.pieces_eq, List.mem_append, not_or]
      refine ⟨fun hmem => ?_, fun hmem => ?_⟩
      · obtain ⟨c, hc, heq⟩ := List.mem_map.mp hmem
        cases heq
        exact h.no_open _ hc rfl
      · exact Forest.isSimple_of_mem_pieces h.isReadable h.isNumbered.isNamed _ hmem rfl
    -- A fixed point is a normal form, and only one forest is written like that.
    obtain ⟨m, hm, -⟩ := exists_normalForm hopen (h.hasTags_iff_ne_nil.mpr hf) hfixed
    obtain ⟨-, rfl⟩ := m.isLegible.eq_and_eq h hm
    rw [hnormal m.isReduced] at hfixed
    exact ⟨List.append_cancel_right hfixed, m.isReduced⟩
  · rintro ⟨hmark, hreduced⟩
    rw [hnormal hreduced, hmark]

end Bitext.Markup
