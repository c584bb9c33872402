import Bitext.Markup.Canonical
import Bitext.Markup.Fragment

/-!
# Normal forms of markup

Three ways to bring the tags of a text into a normal form in which the elements are called `T1`,
`T2`, … in document order.  `simplify` and `rename` repair broken nesting, the latter also removes
redundant structure.  `normalize` is what segments go through on their way into the memory: it keeps
markup only if its nesting is proper, and drops all tags otherwise.  Texts without tags stay as they
are.
-/
namespace Bitext.Markup

/-- Canonical names, repaired nesting, elements numbered in document order. -/
def simplify (t : Text) : Text :=
  if hasTags t then
    match parse .recovering (canonical t) with
    | .tree root => (root.renumber tagLetter).markup
    | .degraded plain => plain
  else t

/-- Repaired nesting, redundant structure removed, elements numbered in document order. -/
def rename (t : Text) : Text :=
  if hasTags t then
    match parse .recovering t with
    | .tree root => (root.reduce.renumber tagLetter).markup
    | .degraded plain => plain
  else t

/-- Proper nesting with redundant structure removed and elements numbered, or no tags at all. -/
def normalize (t : Text) : Text :=
  if hasTags t then
    match parse .strict (canonical t) with
    | .tree root => (root.reduce.renumber tagLetter).markup
    | .degraded _ => unmarked t
  else t

end Bitext.Markup
