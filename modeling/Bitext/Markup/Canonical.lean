import Bitext.Markup.Piece

/-!
# Canonical tag names

Renames the tags of a text without touching anything else: attributes go, and the `k`-th opening or
self-closing tag is named by the letter `T` and the number `k`, or by the letter alone when its name
is no identifier.  A closing tag takes the canonical name of the innermost open tag of its name; if
another tag is open further inside, that one stays open, so that a later parse still sees the broken
nesting.
-/
namespace Bitext.Markup

/-- An opened tag: the name it had and the name it was given. -/
structure OpenedTag where
  name : Text
  canonical : Text

/-- What renaming remembers: the open tags, innermost first, and how many names it has given. -/
structure Renaming where
  opened : List OpenedTag
  given : Nat

namespace Renaming

/-- The canonical name number `n` of a tag called `name`. -/
def canonicalName (name : Text) (n : Nat) : Text :=
  if isIdentifier name then tagLetter ++ Text.ofNat n else tagLetter

/-- The canonical name of a closing tag, and the tags that are open after it. -/
def close (name : Text) : List OpenedTag → Text × List OpenedTag
  | [] => (tagLetter, [])
  | top :: below =>
    if top.name == name then (top.canonical, below)
    else
      match below.find? (·.name == name) with
      | some tag => (tag.canonical, top :: below)
      | none => (tagLetter, top :: below)

/-- Renames one tag. -/
def step (state : Renaming) (body : Text) : Text × Renaming :=
  let name := tagName body
  match TagKind.of body with
  | .selfClosing =>
    (canonicalName name (state.given + 1) ++ ['/'], { state with given := state.given + 1 })
  | .closing =>
    let (canonical, opened) := close name state.opened
    ('/' :: canonical, { state with opened })
  | .opening =>
    let canonical := canonicalName name (state.given + 1)
    (canonical, ⟨⟨name, canonical⟩ :: state.opened, state.given + 1⟩)

/-- Renames the tags of a sequence of pieces. -/
def run (state : Renaming) : List Piece → List Piece
  | [] => []
  | .char c :: rest => .char c :: state.run rest
  | .tag body :: rest =>
    let (renamed, state) := state.step body
    .tag renamed :: state.run rest

end Renaming

/-- The text with canonical tags. -/
def canonical (t : Text) : Text := unparse (Renaming.run ⟨[], 0⟩ (pieces t))

/-- What remains of a text whose self-closing tags are deleted and whose other tags become
spaces.  A text without tags stays as it is. -/
def unmarked (t : Text) : Text :=
  if hasTags t then
    Text.collapse (replaceTags (fun body => if TagKind.of body = .selfClosing then [] else [' ']) t)
  else t

end Bitext.Markup
