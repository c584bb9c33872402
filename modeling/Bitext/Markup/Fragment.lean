import Bitext.Markup.Forest
import Bitext.Xml.Event

/-!
# Reading fragments as trees

Builds the element tree of a marked-up text.  The strict reading accepts only proper nesting; the
recovering one lets a closing tag close everything up to its opener, ignores closing tags without an
opener, and closes what is open at the end.  Text that cannot be cut into events at all degrades to
its plain form in both readings.
-/
namespace Bitext.Markup

open Bitext.Unicode (Glyph)

/-- What to do about broken nesting. -/
inductive Reading where
  | strict
  | recovering
  deriving DecidableEq, Repr

/-- The result of reading a fragment. -/
inductive Parsed where
  | tree (root : Element)
  /-- The plain text of a fragment that could not be read. -/
  | degraded (plain : Text)
  deriving DecidableEq, Repr

/-- An element whose end has not been seen. -/
structure Unclosed where
  name : Text
  text : Text
  children : Forest
  deriving DecidableEq, Repr

namespace Unclosed

/-- A new element. -/
def named (name : Text) : Unclosed := ⟨name, [], .nil⟩

/-- Adds text at the end: to the tail of the last child if there is one. -/
def addText (e : Unclosed) (t : Text) : Unclosed :=
  if e.children.isNil then { e with text := e.text ++ t }
  else { e with children := e.children.extendTail t }

/-- Adds a child at the end. -/
def addChild (e : Unclosed) (child : Unclosed) : Unclosed :=
  { e with children := e.children.snoc child.name child.text child.children }

end Unclosed

/-- A fragment being read: the innermost open element, and those around it from the inside out; the
last of all is the root. -/
structure TreeBuilder where
  top : Unclosed
  around : List Unclosed
  deriving DecidableEq, Repr

namespace TreeBuilder

/-- Nothing read yet. -/
def initial : TreeBuilder := ⟨.named [], []⟩

/-- Closes the innermost element; the root stays open. -/
def closeTop (b : TreeBuilder) : TreeBuilder :=
  match b.around with
  | [] => b
  | parent :: outer => ⟨parent.addChild b.top, outer⟩

/-- Closes the innermost `n` elements. -/
def closeMany : Nat → TreeBuilder → TreeBuilder
  | 0, b => b
  | n + 1, b => closeMany n b.closeTop

/-- The open elements other than the root, from the inside out. -/
def openNames (b : TreeBuilder) : List Text :=
  ((b.top :: b.around).dropLast).map Unclosed.name

/-- Reads a closing tag.  Strictly it has to name the innermost element. -/
def close (reading : Reading) (name : Text) (b : TreeBuilder) : Option TreeBuilder :=
  match reading, b.openNames.idxOf? name with
  | .strict, some 0 => some b.closeTop
  | .strict, _ => none
  | .recovering, some depth => some (b.closeMany (depth + 1))
  | .recovering, none => some b

/-- Reads one event; nothing if it breaks the nesting of a strict reading. -/
def step (reading : Reading) (b : TreeBuilder) : Xml.Event → Option TreeBuilder
  | .start content => some ⟨.named (Glyph.shown (Xml.contentName content)), b.top :: b.around⟩
  | .empty content =>
    some { b with top := b.top.addChild (.named (Glyph.shown (Xml.contentName content))) }
  | .stop name => b.close reading (Glyph.shown name)
  | .text raw => some { b with top := b.top.addText (Glyph.shown raw) }
  | .data raw => some { b with top := b.top.addText (Xml.escape (Glyph.shown raw)) }
  | .other => some b

/-- Reads a sequence of items; nothing if one is a fault or breaks a strict reading. -/
def run (reading : Reading) (b : TreeBuilder) : List Xml.Item → Option TreeBuilder
  | [] => some b
  | .event e :: rest => (b.step reading e).bind fun b => run reading b rest
  | _ :: _ => none

/-- The root, once everything is closed.  A strict reading has nothing left to close. -/
def finish (reading : Reading) (b : TreeBuilder) : Option Element :=
  if reading = .strict && !b.around.isEmpty then none
  else
    let root := (b.closeMany b.around.length).top
    some ⟨root.name, root.text, root.children, []⟩

end TreeBuilder

/-- The tree of a sequence of items. -/
def treeOf? (reading : Reading) (items : List Xml.Item) : Option Element :=
  (TreeBuilder.initial.run reading items).bind (TreeBuilder.finish reading)

/-- Reads a fragment. -/
def parse (reading : Reading) (t : Text) : Parsed :=
  match treeOf? reading (Xml.items (Glyph.ofText t)) with
  | some root => .tree root
  | none => .degraded (strip t)

end Bitext.Markup
