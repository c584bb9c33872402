import Bitext.Markup.Piece

/-!
# Trees of inline elements

A marked-up text is a text followed by elements; an element has a name, a text before its first
child, children, and a tail: the text between its end and its next sibling.  A forest lists siblings,
each with its tail.

## Main definitions

* `Forest`, `Element`: siblings, and one element with what is inside it and after it.
* `Forest.print`, `Element.markup`: the written form.
* `Forest.renumber`: names in document order.
* `Element.reduce`: removal of redundant structure, repeated until nothing changes.
-/
namespace Bitext.Markup

/-- Sibling elements in order, each with its tail. -/
inductive Forest where
  | nil
  | cons (name text : Text) (children : Forest) (tail : Text) (rest : Forest)
  deriving DecidableEq, Repr, Inhabited

/-- One element.  The root of a fragment has neither name nor tail. -/
structure Element where
  name : Text
  text : Text
  children : Forest
  tail : Text
  deriving DecidableEq, Repr

namespace Forest

/-- No siblings. -/
def isNil : Forest → Bool
  | nil => true
  | cons .. => false

/-- The number of elements, at all depths. -/
def count : Forest → Nat
  | nil => 0
  | cons _ _ children _ rest => 1 + children.count + rest.count

/-- Adds an element after the last one. -/
def snoc (f : Forest) (name text : Text) (children : Forest) : Forest :=
  match f with
  | nil => cons name text children [] nil
  | cons n t k tail rest => cons n t k tail (rest.snoc name text children)

/-- Adds to the tail of the last element. -/
def extendTail (extra : Text) : Forest → Forest
  | nil => nil
  | cons n t k tail nil => cons n t k (tail ++ extra) nil
  | cons n t k tail (cons n' t' k' tail' rest) =>
    cons n t k tail (extendTail extra (cons n' t' k' tail' rest))

/-- The written form.  An element with nothing inside is written as a self-closing tag. -/
def print : Forest → Text
  | nil => []
  | cons name text children tail rest =>
    (if text.isEmpty && children.isNil then tagText (name ++ ['/'])
      else tagText name ++ text ++ children.print ++ tagText ('/' :: name)) ++
    tail ++ rest.print

/-- Names the elements `stem ++ (n + 1)`, `stem ++ (n + 2)`, … in document order; the second
component is the last number given. -/
def renumber (stem : Text) (n : Nat) : Forest → Forest × Nat
  | nil => (nil, n)
  | cons _ text children tail rest =>
    let (children', m) := children.renumber stem (n + 1)
    let (rest', last) := rest.renumber stem m
    (cons (stem ++ Text.ofNat (n + 1)) text children' tail rest', last)

/-! ## Reduction -/

/-- Replaces every sibling that has one child, no visible text of its own and no visible tail on
the child by that child, which inherits the tail. -/
def collapse : Forest → Forest
  | nil => nil
  | cons name text children tail rest =>
    match children with
    | cons name' text' children' tail' nil =>
      if Text.isBlank text && Text.isBlank tail' then cons name' text' children' tail rest.collapse
      else cons name text children tail rest.collapse
    | _ => cons name text children tail rest.collapse

/-- Merges siblings into the given element before them as long as that one has nothing visible in
it or after it and the next one has nothing in it; a tail that is not empty replaces the earlier
one. -/
def mergeInto (name text : Text) (children : Forest) (tail : Text) : Forest → Forest
  | nil => cons name text children tail nil
  | cons name' text' children' tail' rest =>
    if Text.isBlank text && Text.isBlank tail && children.isNil &&
        text'.isEmpty && children'.isNil then
      mergeInto name text children (if tail'.isEmpty then tail else tail') rest
    else cons name text children tail (mergeInto name' text' children' tail' rest)

/-- Merges adjacent siblings without content. -/
def merge : Forest → Forest
  | nil => nil
  | cons name text children tail rest => mergeInto name text children tail rest

/-- One round of reduction below each sibling. -/
def reduceInside : Forest → Forest
  | nil => nil
  | cons name text children tail rest =>
    cons name text children.reduceInside.collapse.merge tail rest.reduceInside

/-- One round of reduction, from the leaves to the siblings themselves. -/
def reduceOnce (f : Forest) : Forest := f.reduceInside.collapse.merge

/-- Rounds of reduction until a round removes no element. -/
def reduce (f : Forest) : Forest :=
  if f.reduceOnce.count < f.count then reduce f.reduceOnce else f.reduceOnce
termination_by f.count

end Forest

namespace Element

/-- Nothing visible in the element or after it, and no children. -/
def isEmpty (e : Element) : Bool :=
  Text.isBlank e.text && Text.isBlank e.tail && e.children.isNil

/-- The written form of what is inside the element. -/
def markup (e : Element) : Text := e.text ++ e.children.print

/-- The number of elements inside. -/
def count (e : Element) : Nat := e.children.count

/-- Names the elements inside in document order. -/
def renumber (stem : Text) (e : Element) : Element :=
  { e with children := (e.children.renumber stem 0).1 }

/-- Removes redundant structure inside. -/
def reduce (e : Element) : Element := { e with children := e.children.reduce }

end Element

end Bitext.Markup
