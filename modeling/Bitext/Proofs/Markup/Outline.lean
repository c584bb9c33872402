import Bitext.Proofs.Markup.Fragment
import Bitext.Proofs.Markup.Outside

/-!
# What a tree says in order

The outline of a tree lists the names of its elements and the characters of its texts in the order
in which they are written, and forgets where elements end.  Reading an event appends to it: a tag
that begins an element its name, a text its characters, and a closing tag nothing, whichever
elements it closes.  So the outline of a tree can be told from the events that it was read from, in
both readings.

## Main definitions

* `Forest.outline`, `Element.outline`: names and characters in the order in which they are written.
* `Forest.names`: the names of elements in document order.
* `Xml.Event.outline`: what an event adds to it.

## Main results

* `TreeBuilder.outline_step`, `TreeBuilder.outline_run`: reading events
* `TreeBuilder.outline_readPieces`: reading pieces
* `outline_of_treeOf?`: the outline of a tree that was read
-/

namespace Bitext.Xml.Event

open Bitext.Unicode (Glyph)
open Bitext.Markup (Piece)

/-- The name of the element that an event begins. -/
def name? : Event → Option Text
  | .start content | .empty content => some (Glyph.shown (contentName content))
  | .stop _ | .text _ | .data _ | .other => none

/-- The characters that an event stands for; those of character data are escaped. -/
def characters : Event → Text
  | .text raw => Glyph.shown raw
  | .data raw => escape (Glyph.shown raw)
  | .start _ | .empty _ | .stop _ | .other => []

/-- What an event adds to the outline: the name or the characters. -/
def outline (e : Event) : List Piece := e.name?.toList.map .tag ++ e.characters.map .char

theorem filterMap_char?_outline (e : Event) : e.outline.filterMap Piece.char? = e.characters := by
  rw [outline, List.filterMap_append, Markup.filterMap_char?_map_char]
  cases e.name? <;> rfl

theorem filterMap_body?_outline (e : Event) :
    e.outline.filterMap Piece.body? = e.name?.toList := by
  rw [outline, List.filterMap_append, Markup.filterMap_body?_map_char, List.append_nil]
  cases e.name? <;> rfl

theorem filterMap_body?_flatMap_outline (events : List Event) :
    (events.flatMap outline).filterMap Piece.body? = events.filterMap name? := by
  induction events with
  | nil => rfl
  | cons e events ih =>
    rw [List.flatMap_cons, List.filterMap_append, ih, filterMap_body?_outline,
      List.filterMap_cons]
    cases e.name? <;> rfl

theorem filterMap_char?_flatMap_outline (events : List Event) :
    (events.flatMap outline).filterMap Piece.char? = events.flatMap characters := by
  rw [List.filterMap_flatMap]
  exact congrArg (List.flatMap · events) (funext filterMap_char?_outline)

theorem characters_tagEvent (content : List Glyph) : (tagEvent content).characters = [] := by
  unfold tagEvent
  split
  · rfl
  · split
    · rfl
    · split <;> rfl

end Bitext.Xml.Event

namespace Bitext.Markup

open Bitext.Unicode (Glyph)

variable {name a : Text} {reading : Reading}

/-! ## Outlines -/

namespace Forest

variable {f g : Forest}

/-- The names of the elements and the characters of the texts, in the order in which they are
written. -/
def outline : Forest → List Piece
  | nil => []
  | cons name text children tail rest =>
    .tag name :: (text.map .char ++ (children.outline ++ (tail.map .char ++ rest.outline)))

/-- The names of the elements, in document order. -/
def names : Forest → List Text
  | nil => []
  | cons name _ children _ rest => name :: (children.names ++ rest.names)

theorem length_names (f : Forest) : f.names.length = f.count := by
  induction f with
  | nil => rfl
  | cons name text children tail rest ihc ihr =>
    rw [names, List.length_cons, List.length_append, ihc, ihr, count]
    omega

/-- The names in the outline are the names of the elements. -/
theorem filterMap_body?_outline (f : Forest) : f.outline.filterMap Piece.body? = f.names := by
  induction f with
  | nil => rfl
  | cons name text children tail rest ihc ihr =>
    simp only [outline, filterMap_body?_tag, List.filterMap_append, filterMap_body?_map_char, ihc,
      ihr, List.nil_append, names]

theorem outline_append (f g : Forest) : (f.append g).outline = f.outline ++ g.outline := by
  induction f with
  | nil => rfl
  | cons name text children tail rest _ ih =>
    simp only [append, outline, ih, List.cons_append, List.append_assoc]

theorem outline_extendTail (h : f ≠ nil) (extra : Text) :
    (f.extendTail extra).outline = f.outline ++ extra.map .char := by
  induction f with
  | nil => exact absurd rfl h
  | cons name text children tail rest _ ih =>
    by_cases hrest : rest = nil
    · simp only [hrest, extendTail_sole, outline, List.map_append, List.append_nil,
        List.cons_append, List.append_assoc]
    · simp only [extendTail_cons hrest, outline, ih hrest, List.cons_append, List.append_assoc]

end Forest

/-- The name of an element, and what is inside it. -/
def Element.outline (e : Element) : List Piece :=
  .tag e.name :: (e.text.map .char ++ e.children.outline)

theorem Element.filterMap_body?_outline (e : Element) :
    e.outline.filterMap Piece.body? = e.name :: e.children.names := by
  rw [outline, filterMap_body?_tag, List.filterMap_append, filterMap_body?_map_char,
    Forest.filterMap_body?_outline, List.nil_append]

namespace Unclosed

/-- The name of an open element, and what was read inside it. -/
def outline (e : Unclosed) : List Piece := .tag e.name :: (e.text.map .char ++ e.children.outline)

@[simp] theorem outline_named (name : Text) : (named name).outline = [.tag name] := rfl

theorem outline_addText (e : Unclosed) (a : Text) :
    (e.addText a).outline = e.outline ++ a.map .char := by
  unfold addText
  split
  · rename_i hnil
    simp only [outline, Forest.isNil_eq_true.mp hnil, Forest.outline, List.map_append,
      List.append_nil, List.cons_append]
  · rename_i hnil
    have hchildren : e.children ≠ .nil := mt Forest.isNil_eq_true.mpr hnil
    simp only [outline, Forest.outline_extendTail hchildren, List.cons_append, List.append_assoc]

theorem outline_addChild (e child : Unclosed) :
    (e.addChild child).outline = e.outline ++ child.outline := by
  simp only [addChild, outline, Forest.snoc_eq_append, Forest.outline_append, Forest.outline,
    List.map_nil, List.append_nil, List.cons_append, List.append_assoc]

end Unclosed

/-! ## Reading -/

namespace TreeBuilder

variable {b b' : TreeBuilder} {e : Xml.Event} {events : List Xml.Event} {ps : List Piece}

/-- Everything that was read: the elements that are open come from the outside in. -/
def outline (b : TreeBuilder) : List Piece :=
  b.around.reverse.flatMap Unclosed.outline ++ b.top.outline

theorem outline_addText (b : TreeBuilder) (a : Text) :
    ({ b with top := b.top.addText a } : TreeBuilder).outline = b.outline ++ a.map .char := by
  simp only [outline, Unclosed.outline_addText, List.append_assoc]

/-! Closing an element moves it to the end of the one around it, where it stands in the outline
anyway. -/

theorem outline_closeTop (b : TreeBuilder) : b.closeTop.outline = b.outline := by
  unfold closeTop
  split
  · rfl
  · rename_i parent outer haround
    simp only [outline, haround, Unclosed.outline_addChild, List.reverse_cons, List.flatMap_append,
      List.flatMap_singleton, List.append_assoc]

theorem outline_closeMany (n : Nat) (b : TreeBuilder) : (b.closeMany n).outline = b.outline := by
  induction n generalizing b with
  | zero => rfl
  | succ n ih => rw [closeMany, ih, outline_closeTop]

theorem outline_close (h : b.close reading name = some b') : b'.outline = b.outline := by
  unfold TreeBuilder.close at h
  split at h
  · cases h
    exact outline_closeTop b
  · cases h
  · cases h
    exact outline_closeMany _ b
  · cases h
    rfl

/-- **Reading an event appends to the outline.** -/
theorem outline_step (h : b.step reading e = some b') : b'.outline = b.outline ++ e.outline := by
  cases e with
  | start content =>
    cases h
    simp [outline, Xml.Event.outline, Xml.Event.name?, Xml.Event.characters]
  | empty content =>
    cases h
    simp [outline, Unclosed.outline_addChild, Xml.Event.outline, Xml.Event.name?,
      Xml.Event.characters]
  | stop name => exact (outline_close h).trans (List.append_nil _).symm
  | text raw | data raw =>
    cases h
    exact outline_addText b _
  | other =>
    cases h
    exact (List.append_nil _).symm

theorem outline_run (h : b.run reading (events.map .event) = some b') :
    b'.outline = b.outline ++ events.flatMap Xml.Event.outline := by
  induction events generalizing b with
  | nil =>
    cases h
    exact (List.append_nil _).symm
  | cons e events ih =>
    obtain ⟨next, hnext, hrest⟩ := Option.bind_eq_some_iff.mp h
    rw [ih hrest, outline_step hnext, List.flatMap_cons, List.append_assoc]

end TreeBuilder

/-- What a piece adds to the outline. -/
def Piece.outline : Piece → List Piece
  | .char c => [.char c]
  | .tag body => (Xml.tagEvent (Glyph.ofText body)).outline

namespace TreeBuilder

variable {b b' : TreeBuilder} {ps : List Piece}

theorem outline_readPieces (h : b.readPieces reading ps = some b') :
    b'.outline = b.outline ++ ps.flatMap Piece.outline := by
  induction ps generalizing b with
  | nil =>
    cases h
    exact (List.append_nil _).symm
  | cons p ps ih =>
    obtain ⟨next, hnext, hrest⟩ := Option.bind_eq_some_iff.mp h
    have hpiece : next.outline = b.outline ++ p.outline := by
      cases p with
      | char c =>
        cases hnext
        exact outline_addText b [c]
      | tag body => exact outline_step hnext
    rw [ih hrest, hpiece, List.flatMap_cons, List.append_assoc]

/-- Closing as many elements as are open leaves the root. -/
theorem around_closeMany {n : Nat} (h : b.around.length ≤ n) : (b.closeMany n).around = [] := by
  induction n generalizing b with
  | zero => exact List.eq_nil_of_length_eq_zero (Nat.le_zero.mp h)
  | succ n ih =>
    refine ih ?_
    unfold closeTop
    split
    · rename_i haround
      rw [haround]
      exact Nat.zero_le n
    · rename_i parent outer haround
      rw [haround, List.length_cons] at h
      exact Nat.le_of_succ_le_succ h

theorem outline_finish {root : Element} (h : b.finish reading = some root) :
    root.outline = b.outline := by
  unfold finish at h
  split at h
  · cases h
  · cases h
    -- Behind the last event every open element is closed, and the root holds everything.
    have houtline := outline_closeMany b.around.length b
    rw [outline, around_closeMany (Nat.le_refl _)] at houtline
    exact houtline

end TreeBuilder

/-- **The outline of a tree** is that of the events it was read from, behind the name of the
root. -/
theorem outline_of_treeOf? {events : List Xml.Event} {root : Element}
    (h : treeOf? reading (events.map .event) = some root) :
    root.outline = .tag [] :: events.flatMap Xml.Event.outline := by
  obtain ⟨b, hrun, hfinish⟩ := Option.bind_eq_some_iff.mp h
  rw [TreeBuilder.outline_finish hfinish, TreeBuilder.outline_run hrun]
  rfl

end Bitext.Markup
