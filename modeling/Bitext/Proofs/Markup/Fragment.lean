import Bitext.Markup.Fragment
import Bitext.Proofs.Markup.Forest
import Bitext.Proofs.Xml.Entity

/-!
# Fragments read from their written form

The reader has its own notion of a tag: what stands between an opening bracket and the next closing
one outside quotes.  Where every piece of a text is simple for it (no opening bracket outside tags,
and no quotation mark left open inside one) it reads the text as it is cut into pieces.

A fragment that is written out is made of simple pieces, and it is read back as the same tree, in
both readings.  The reader keeps a stack of open elements; what the written form of a forest does to
it is to add the forest to the children of the innermost one.  Conversely no reading puts an opening
bracket into a text, so a tree that was read can be written out again.

## Main definitions

* `Piece.IsSimple`: a piece that the reader takes as one.
* `TreeBuilder.readPieces`: reading pieces.
* `Unclosed.addForest`: adding siblings at the end of an open element.
* `TreeBuilder.IsReadable`: no text read so far holds an opening bracket.

## Main results

* `TreeBuilder.run_unparse`: simple pieces are read one by one
* `treeOf?_markup`: the tree of a written fragment
* `isReadable_of_treeOf?`: texts of trees that were read
-/

namespace Bitext.Markup

open Bitext.Unicode (Glyph)
open Bitext.Xml (IsTagName)

variable {name a body : Text} {reading : Reading} {rest : List Glyph} {p : Piece}
  {ps : List Piece}

/-! ## Tags of elements -/

/-- The name by which an element of the tree is called. -/
theorem shown_contentName (h : IsTagName name) :
    Glyph.shown (Xml.contentName (Glyph.ofText name)) = name := by
  rw [Xml.contentName_of_no_space h.isTagSpace, Glyph.shown_ofText]

theorem startsMarkup_tagText (body : Text) (rest : List Glyph) :
    Xml.StartsMarkup (Glyph.ofText (tagText body) ++ rest) :=
  Xml.startsMarkup_open _

theorem Forest.startsMarkup_print {f : Forest} (hrest : Xml.StartsMarkup rest) :
    Xml.StartsMarkup (Glyph.ofText f.print ++ rest) := by
  by_cases hf : f = .nil
  · rw [hf]
    exact hrest
  · have hhead := f.head?_print hf
    cases hp : f.print with
    | nil =>
      rw [hp] at hhead
      cases hhead
    | cons c tail =>
      rw [hp] at hhead
      cases hhead
      exact Xml.startsMarkup_open _

/-! ## Adding to an open element -/

namespace Unclosed

/-- Adds siblings after the last child. -/
def addForest (e : Unclosed) (f : Forest) : Unclosed :=
  { e with children := e.children.append f }

@[simp] theorem addText_nil (e : Unclosed) : e.addText [] = e := by
  unfold addText
  split
  · rw [List.append_nil]
  · rw [Forest.extendTail_nil]

theorem addText_addText (e : Unclosed) (a b : Text) :
    (e.addText a).addText b = e.addText (a ++ b) := by
  unfold addText
  cases hnil : e.children.isNil with
  | true => simp [hnil]
  | false =>
    have hextended : (e.children.extendTail a).isNil = false := by
      rw [Bool.eq_false_iff, ne_eq, Forest.isNil_eq_true, Forest.extendTail_eq_nil,
        ← Forest.isNil_eq_true, hnil]
      decide
    simp [hextended, Forest.extendTail_extendTail]

@[simp] theorem addForest_nil (e : Unclosed) : e.addForest .nil = e := by
  rw [addForest, Forest.append_nil]

theorem addForest_cons (e : Unclosed) (name text tail : Text) (children rest : Forest) :
    ((e.addChild ⟨name, text, children⟩).addText tail).addForest rest =
      e.addForest (.cons name text children tail rest) := by
  have hchildren : (e.children.snoc name text children).extendTail tail =
      e.children.append (.cons name text children tail .nil) := by
    rw [Forest.snoc_eq_append, Forest.extendTail_append_sole, List.nil_append]
  simp only [addChild, addText, addForest, Forest.isNil_snoc, Bool.false_eq_true, if_false,
    hchildren, Forest.append_assoc]
  rfl

end Unclosed

/-! ## Simple pieces -/

/-- The reader takes the piece for what it is. -/
def Piece.IsSimple : Piece → Prop
  | .char c => c ≠ '<'
  | .tag body => Xml.BeginsTag body ∧ Xml.IsStretch body

theorem isSimple_name (h : IsTagName name) : (Piece.tag name).IsSimple := ⟨h.beginsTag, h.isStretch⟩

theorem isSimple_name_slash (h : IsTagName name) : (Piece.tag (name ++ ['/'])).IsSimple :=
  ⟨h.beginsTag.append _, h.isStretch.append Xml.isStretch_slash⟩

theorem isSimple_slash_name (h : IsTagName name) : (Piece.tag ('/' :: name)).IsSimple :=
  ⟨Xml.beginsTag_slash name, Xml.isStretch_slash.append h.isStretch⟩

/-! ## Reading pieces -/

namespace TreeBuilder

theorem run_text (h : ∀ c ∈ a, c ≠ '<') (hrest : Xml.StartsMarkup rest) (b : TreeBuilder) :
    b.run reading (Xml.itemsFrom (Glyph.ofText a ++ rest)) =
      ({ b with top := b.top.addText a } : TreeBuilder).run reading (Xml.itemsFrom rest) := by
  rw [Xml.itemsFrom_text_append h hrest]
  cases a with
  | nil => simp [Xml.textItem]
  | cons c a =>
    have hitem : Xml.textItem (Glyph.ofText (c :: a)) =
        [.event (.text (Glyph.ofText (c :: a)))] := rfl
    rw [hitem, List.singleton_append, run, step, Glyph.shown_ofText, Option.bind_some]

/-- Reads one piece. -/
def readPiece (reading : Reading) (b : TreeBuilder) : Piece → Option TreeBuilder
  | .char c => some { b with top := b.top.addText [c] }
  | .tag body => b.step reading (Xml.tagEvent (Glyph.ofText body))

/-- Reads pieces one by one. -/
def readPieces (reading : Reading) (b : TreeBuilder) (ps : List Piece) : Option TreeBuilder :=
  ps.foldlM (readPiece reading) b

@[simp] theorem readPieces_nil (b : TreeBuilder) : b.readPieces reading [] = some b := rfl

theorem readPieces_cons (b : TreeBuilder) (p : Piece) (ps : List Piece) :
    b.readPieces reading (p :: ps) =
      (b.readPiece reading p).bind fun b => b.readPieces reading ps := rfl

theorem readPieces_char (b : TreeBuilder) (c : Char) (ps : List Piece) :
    b.readPieces reading (.char c :: ps) =
      ({ b with top := b.top.addText [c] } : TreeBuilder).readPieces reading ps := rfl

/-- Characters that follow each other are read as the text they make. -/
theorem readPieces_chars (b : TreeBuilder) (a : Text) (ps : List Piece) :
    b.readPieces reading (a.map Piece.char ++ ps) =
      ({ b with top := b.top.addText a } : TreeBuilder).readPieces reading ps := by
  induction a generalizing b with
  | nil => rw [Unclosed.addText_nil]; rfl
  | cons c a ih =>
    rw [List.map_cons, List.cons_append, readPieces_char, ih, Unclosed.addText_addText,
      List.singleton_append]

theorem run_text_unparse (ha : ∀ c ∈ a, c ≠ '<') (h : ∀ p ∈ ps, p.IsSimple) (b : TreeBuilder) :
    b.run reading (Xml.itemsFrom (Glyph.ofText (a ++ unparse ps))) =
      ({ b with top := b.top.addText a } : TreeBuilder).readPieces reading ps := by
  -- The reader takes characters up to the next bracket at once, so the induction carries those that
  -- were not read yet.
  induction ps generalizing a b with
  | nil =>
    rw [unparse_nil, Glyph.ofText_append, Glyph.ofText_nil, run_text ha Xml.startsMarkup_nil,
      Xml.itemsFrom_nil]
    rfl
  | cons p ps ih =>
    have hlater : ∀ p ∈ ps, p.IsSimple := fun q hq => h q (List.mem_cons_of_mem p hq)
    have hp := h p List.mem_cons_self
    cases p with
    | char c =>
      have hac : ∀ d ∈ a ++ [c], d ≠ '<' := by
        intro d hd
        rcases List.mem_append.mp hd with hd | hd
        · exact ha d hd
        · rw [List.mem_singleton.mp hd]
          exact hp
      rw [unparse_cons, Piece.text, ← List.append_assoc, ih hac hlater, readPieces_char,
        Unclosed.addText_addText]
    | tag body =>
      have hnone : ∀ c ∈ ([] : Text), c ≠ '<' := fun c hc => absurd hc List.not_mem_nil
      have hrest := fun b => ih hnone hlater b
      simp only [List.nil_append, Unclosed.addText_nil] at hrest
      rw [unparse_cons, Glyph.ofText_append, Glyph.ofText_append, Piece.text,
        run_text ha (startsMarkup_tagText body _), tagText, Xml.itemsFrom_tag hp.1 hp.2, run,
        readPieces_cons, readPiece]
      exact congrArg _ (funext hrest)

/-- **Simple pieces are read one by one.** -/
theorem run_unparse (h : ∀ p ∈ ps, p.IsSimple) (b : TreeBuilder) :
    b.run reading (Xml.itemsFrom (Glyph.ofText (unparse ps))) = b.readPieces reading ps := by
  have hnone : ∀ c ∈ ([] : Text), c ≠ '<' := fun c hc => absurd hc List.not_mem_nil
  have hrun : b.run reading (Xml.itemsFrom (Glyph.ofText ([] ++ unparse ps))) = _ :=
    run_text_unparse hnone h b
  rwa [List.nil_append, Unclosed.addText_nil] at hrun

/-! ## Reading a written forest -/

theorem readPiece_name (h : IsTagName name) (b : TreeBuilder) :
    b.readPiece reading (.tag name) = some ⟨.named name, b.top :: b.around⟩ := by
  rw [readPiece, h.tagEvent_sole, step, shown_contentName h]

theorem readPiece_name_slash (h : IsTagName name) (b : TreeBuilder) :
    b.readPiece reading (.tag (name ++ ['/'])) =
      some { b with top := b.top.addChild (.named name) } := by
  rw [readPiece, h.tagEvent_sole_empty, step, shown_contentName h]

theorem readPiece_slash_name (h : IsTagName name) (b : TreeBuilder) :
    b.readPiece reading (.tag ('/' :: name)) = b.close reading name := by
  rw [readPiece, Xml.tagEvent_stop h.isTagSpace, step, Glyph.shown_ofText]

theorem close_top (b : TreeBuilder) (e : Unclosed) :
    TreeBuilder.close reading e.name ⟨e, b.top :: b.around⟩ =
      some { b with top := b.top.addChild e } := by
  have hdepth : openNames ⟨e, b.top :: b.around⟩ =
      e.name :: ((b.top :: b.around).dropLast).map Unclosed.name := rfl
  have hfound : (openNames ⟨e, b.top :: b.around⟩).idxOf? e.name = some 0 := by
    rw [hdepth]
    simp [List.idxOf?, List.findIdx?_cons]
  unfold TreeBuilder.close
  rw [hfound]
  cases reading <;> rfl

/-- **An element between two tags** is added to the element around it. -/
theorem readPieces_pair {start stop text : Text} {inner : List Piece} {children : Forest}
    (hstart : ∀ b : TreeBuilder,
      b.readPiece reading (.tag start) = some ⟨.named name, b.top :: b.around⟩)
    (hstop : ∀ b : TreeBuilder, b.readPiece reading (.tag stop) = b.close reading name)
    (hinner : ∀ (b : TreeBuilder) ps, b.readPieces reading (inner ++ ps) =
      ({ b with top := b.top.addForest children } : TreeBuilder).readPieces reading ps)
    (b : TreeBuilder) (ps : List Piece) :
    b.readPieces reading (.tag start :: (text.map Piece.char ++ (inner ++ .tag stop :: ps))) =
      ({ b with top := b.top.addChild ⟨name, text, children⟩ } : TreeBuilder).readPieces
        reading ps := by
  -- The start tag puts an element on the stack, what is inside is read there, and the end tag takes
  -- it off again.
  have hinside : ((Unclosed.named name).addText text).addForest children =
      ⟨name, text, children⟩ := rfl
  have hclose : TreeBuilder.close reading name ⟨⟨name, text, children⟩, b.top :: b.around⟩ = _ :=
    close_top b ⟨name, text, children⟩
  rw [readPieces_cons, hstart, Option.bind_some, readPieces_chars, hinner, hinside,
    readPieces_cons, hstop, hclose, Option.bind_some]

/-- **The written form of a forest adds the forest to the innermost open element.** -/
theorem readPieces_forest {f : Forest} (hn : f.IsNamed) (b : TreeBuilder) (ps : List Piece) :
    b.readPieces reading (f.pieces ++ ps) =
      ({ b with top := b.top.addForest f } : TreeBuilder).readPieces reading ps := by
  induction f generalizing b ps with
  | nil => rw [Unclosed.addForest_nil]; rfl
  | cons name text children tail siblings ihc ihr =>
    obtain ⟨hname, hnc, hnr⟩ := hn
    rw [Forest.pieces, ← Unclosed.addForest_cons]
    split
    · rename_i hempty
      obtain ⟨htext, hchildren⟩ := Bool.and_eq_true_iff.mp hempty
      rw [List.isEmpty_iff] at htext
      rw [Forest.isNil_eq_true] at hchildren
      subst htext hchildren
      simp only [List.cons_append, List.nil_append, List.append_assoc]
      rw [readPieces_cons, readPiece_name_slash hname, Option.bind_some, readPieces_chars, ihr hnr]
      rfl
    · simp only [List.cons_append, List.nil_append, List.append_assoc]
      rw [readPieces_pair (readPiece_name hname) (readPiece_slash_name hname) (ihc hnc),
        readPieces_chars, ihr hnr]

end TreeBuilder

theorem isSimple_of_mem_map_char {t : Text} (ht : ∀ c ∈ t, c ≠ '<') :
    ∀ p ∈ t.map Piece.char, p.IsSimple := by
  intro p hp
  obtain ⟨c, hc, rfl⟩ := List.mem_map.mp hp
  exact ht c hc

/-- The tags of elements are simple, and so is the text between them. -/
theorem Forest.isSimple_of_mem_pieces {f : Forest} (hr : f.IsReadable) (hn : f.IsNamed) :
    ∀ p ∈ f.pieces, p.IsSimple := by
  induction f with
  | nil => exact fun p hp => absurd hp List.not_mem_nil
  | cons name text children tail rest ihc ihr =>
    obtain ⟨htext, hrc, htail, hrr⟩ := hr
    obtain ⟨hname, hnc, hnr⟩ := hn
    rw [Forest.pieces, List.forall_mem_append, List.forall_mem_append]
    refine ⟨?_, isSimple_of_mem_map_char htail, ihr hrr hnr⟩
    split
    · rw [List.forall_mem_singleton]
      exact isSimple_name_slash hname
    · rw [List.forall_mem_cons, List.forall_mem_append, List.forall_mem_append,
        List.forall_mem_singleton]
      exact ⟨isSimple_name hname, isSimple_of_mem_map_char htext, ihc hrc hnc,
        isSimple_slash_name hname⟩

/-- A text and simple pieces that add a forest make a tree. -/
theorem treeOf?_unparse {t : Text} {f : Forest} (ht : ∀ c ∈ t, c ≠ '<') (hps : ∀ p ∈ ps, p.IsSimple)
    (hread : ∀ b : TreeBuilder, b.readPieces reading (ps ++ []) =
      ({ b with top := b.top.addForest f } : TreeBuilder).readPieces reading []) :
    treeOf? reading (Xml.itemsFrom (Glyph.ofText (t ++ unparse ps))) = some ⟨[], t, f, []⟩ := by
  have hsimple : ∀ p ∈ t.map Piece.char ++ ps, p.IsSimple :=
    List.forall_mem_append.mpr ⟨isSimple_of_mem_map_char ht, hps⟩
  have htext : t ++ unparse ps = unparse (t.map Piece.char ++ ps) := by
    rw [unparse_append, unparse_map_char]
  rw [List.append_nil] at hread
  rw [treeOf?, htext, TreeBuilder.run_unparse hsimple, TreeBuilder.initial,
    TreeBuilder.readPieces_chars, hread]
  cases reading <;> rfl

/-- **A written fragment is read as the tree it was written from.** -/
theorem treeOf?_markup {t : Text} {f : Forest} (ht : ∀ c ∈ t, c ≠ '<') (hr : f.IsReadable)
    (hn : f.IsNamed) :
    treeOf? reading (Xml.itemsFrom (Glyph.ofText (t ++ f.print))) = some ⟨[], t, f, []⟩ := by
  rw [← Forest.unparse_pieces]
  exact treeOf?_unparse ht (Forest.isSimple_of_mem_pieces hr hn) fun b =>
    TreeBuilder.readPieces_forest hn b []

/-- A fragment is read as a tree if its items make one. -/
theorem parse_eq_tree_iff {t : Text} {root : Element} :
    parse reading t = .tree root ↔ treeOf? reading (Xml.items (Glyph.ofText t)) = some root := by
  rw [parse]
  cases treeOf? reading (Xml.items (Glyph.ofText t)) with
  | none => simp
  | some other => simp

/-! ## What a reading can put into texts -/

/-- No text of the open element holds an opening bracket. -/
structure Unclosed.IsReadable (e : Unclosed) : Prop where
  text : ∀ c ∈ e.text, c ≠ '<'
  children : e.children.IsReadable

/-- No text read so far holds an opening bracket. -/
structure TreeBuilder.IsReadable (b : TreeBuilder) : Prop where
  top : b.top.IsReadable
  around : ∀ e ∈ b.around, e.IsReadable

namespace Unclosed.IsReadable

variable {e child : Unclosed}

theorem named (name : Text) : (Unclosed.named name).IsReadable :=
  ⟨fun _ hc => absurd hc List.not_mem_nil, trivial⟩

theorem addText (h : e.IsReadable) (ha : ∀ c ∈ a, c ≠ '<') : (e.addText a).IsReadable := by
  unfold Unclosed.addText
  split
  · refine ⟨?_, h.children⟩
    intro c hc
    exact (List.mem_append.mp hc).elim (h.text c) (ha c)
  · rename_i hnil
    refine ⟨h.text, (Forest.isReadable_extendTail ?_).mpr ⟨h.children, ha⟩⟩
    rintro hchildren
    exact hnil (Forest.isNil_eq_true.mpr hchildren)

theorem addChild (h : e.IsReadable) (hchild : child.IsReadable) :
    (e.addChild child).IsReadable := by
  refine ⟨h.text, ?_⟩
  rw [Unclosed.addChild, Forest.snoc_eq_append, Forest.isReadable_append]
  exact ⟨h.children, hchild.text, hchild.children, fun _ hc => absurd hc List.not_mem_nil, trivial⟩

end Unclosed.IsReadable

namespace TreeBuilder.IsReadable

variable {b b' : TreeBuilder} {e : Xml.Event} {items : List Xml.Item}

theorem closeTop (h : b.IsReadable) : b.closeTop.IsReadable := by
  unfold TreeBuilder.closeTop
  split
  · exact h
  · rename_i parent outer haround
    have hparent := h.around parent (haround ▸ List.mem_cons_self)
    refine ⟨hparent.addChild h.top, ?_⟩
    intro e he
    exact h.around e (haround ▸ List.mem_cons_of_mem parent he)

theorem closeMany (h : b.IsReadable) (n : Nat) : (b.closeMany n).IsReadable := by
  induction n generalizing b with
  | zero => exact h
  | succ n ih => exact ih h.closeTop

theorem close (h : b.IsReadable) (hb : b.close reading name = some b') : b'.IsReadable := by
  unfold TreeBuilder.close at hb
  split at hb
  · cases hb
    exact h.closeTop
  · cases hb
  · cases hb
    exact h.closeMany _
  · cases hb
    exact h

theorem step (h : b.IsReadable) (he : ∀ raw, e = .text raw → ∀ g ∈ raw, g.is '<' = false)
    (hb : b.step reading e = some b') : b'.IsReadable := by
  cases e with
  | start content =>
    cases hb
    refine ⟨.named _, ?_⟩
    intro e he
    rcases List.mem_cons.mp he with rfl | he
    · exact h.top
    · exact h.around e he
  | empty content =>
    cases hb
    exact ⟨h.top.addChild (.named _), h.around⟩
  | stop name => exact h.close hb
  | text raw =>
    cases hb
    refine ⟨h.top.addText ?_, h.around⟩
    intro c hc
    obtain ⟨g, hg, rfl⟩ := List.mem_map.mp hc
    have hopen := he raw rfl g hg
    cases g with
    | char c => simpa [Glyph.toChar] using hopen
    -- What cannot be decoded is shown by a character that is no bracket.
    | malformed => decide
  | data raw =>
    cases hb
    exact ⟨h.top.addText fun c hc => (Xml.isPlain_of_mem_escape hc).1, h.around⟩
  | other =>
    cases hb
    exact h

theorem run (h : b.IsReadable)
    (hitems : ∀ raw, .event (.text raw) ∈ items → ∀ g ∈ raw, g.is '<' = false)
    (hb : b.run reading items = some b') : b'.IsReadable := by
  induction items generalizing b with
  | nil =>
    cases hb
    exact h
  | cons item rest ih =>
    cases item with
    | illFormed => cases hb
    | syntaxError => cases hb
    | event e =>
      rw [TreeBuilder.run, Option.bind_eq_some_iff] at hb
      obtain ⟨next, hstep, hrest⟩ := hb
      refine ih (h.step ?_ hstep) ?_ hrest
      · rintro raw rfl
        exact hitems raw List.mem_cons_self
      · intro raw hraw
        exact hitems raw (List.mem_cons_of_mem _ hraw)

end TreeBuilder.IsReadable

/-- **No text of a tree that was read holds an opening bracket.** -/
theorem isReadable_of_treeOf? {input : List Glyph} {root : Element}
    (h : treeOf? reading (Xml.itemsFrom input) = some root) :
    (∀ c ∈ root.text, c ≠ '<') ∧ root.children.IsReadable := by
  rw [treeOf?, Option.bind_eq_some_iff] at h
  obtain ⟨b, hrun, hfinish⟩ := h
  have hinitial : TreeBuilder.initial.IsReadable :=
    ⟨.named [], fun e he => absurd he List.not_mem_nil⟩
  have hb := hinitial.run (fun raw hraw => Xml.no_open_of_text_mem hraw) hrun
  -- Elements that are still open at the end are closed, or nothing was read.
  unfold TreeBuilder.finish at hfinish
  split at hfinish
  · cases hfinish
  · cases hfinish
    have htop := (hb.closeMany b.around.length).top
    exact ⟨htop.text, htop.children⟩

end Bitext.Markup
