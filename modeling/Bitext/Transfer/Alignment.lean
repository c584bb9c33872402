import Bitext.Markup.Placeholder

/-!
# Places for tags

Finds the place in a target text for each tag of a source text.  The `n`-th word of the source
corresponds to the `n`-th token of the target; a tag goes to the side of the word it was glued to.
Places are counted in characters.
-/
namespace Bitext

/-- A part of a text, by its first character and the character after its last one. -/
structure Span where
  start : Nat
  stop : Nat
  deriving DecidableEq, Repr

/-- Locates tokens one after another, from `cursor` on in what is left of a text.  A token that is
not found has an empty span at the cursor. -/
def tokenSpansFrom (cursor : Nat) (rest : Text) : List Text → List Span
  | [] => []
  | token :: tokens =>
    match Text.indexOf? token rest with
    | some ahead =>
      let stop := cursor + ahead + token.length
      ⟨cursor + ahead, stop⟩ :: tokenSpansFrom stop (rest.drop (ahead + token.length)) tokens
    | none => ⟨cursor, cursor⟩ :: tokenSpansFrom cursor rest tokens

/-- The spans of tokens in a text. -/
def tokenSpans (t : Text) (tokens : List Text) : List Span := tokenSpansFrom 0 t tokens

/-- The word that a tag stays with. -/
inductive Anchor where
  | next
  | previous
  deriving DecidableEq, Repr

/-- The anchor of a tag between two tokens: the one it touches, if it touches only one, and
otherwise the next one for opening tags and the previous one for all others. -/
def Anchor.of (previous? next? : Option Text) (tag : Text) : Anchor :=
  let touchesPrevious := previous?.any (· ≠ Markup.spaceWord)
  let touchesNext := next?.any (· ≠ Markup.spaceWord)
  match touchesPrevious, touchesNext with
  | false, true => .next
  | true, false => .previous
  | _, _ => if Markup.isOpeningTag tag then .next else .previous

/-- The place of a tag with a given anchor after `words` words; nothing behind the last token. -/
def Anchor.place? (spans : List Span) (words : Nat) : Anchor → Option Nat
  | .next => (spans[words]?).map (·.start)
  | .previous => if words = 0 then some 0 else (spans[words - 1]?).map (·.stop)

/-- A tag and its place in the target; nothing puts it at the end. -/
structure PlacedTag where
  place? : Option Nat
  tag : Text
  deriving DecidableEq, Repr

/-- Walks along the marked tokens of the source with the tags that are left.  Tags without a
placeholder go to the end. -/
def placeTags (spans : List Span) (previous? : Option Text) (words : Nat) (left : List Text) :
    List Text → List PlacedTag
  | [] => left.map fun tag => ⟨none, tag⟩
  | token :: rest =>
    if token = Markup.spaceWord then placeTags spans (some token) words left rest
    else if token = Markup.tagWord then
      match left with
      | [] => []
      | tag :: left =>
        ⟨(Anchor.of previous? rest.head? tag).place? spans words, tag⟩ ::
          placeTags spans (some token) words left rest
    else placeTags spans (some token) (words + 1) left rest

/-- Puts tags into the rest of a text that begins at place `cursor`; their places increase. -/
def weave (cursor : Nat) (rest : Text) : List (Nat × Text) → Text
  | [] => rest
  | (place, tag) :: tags =>
    rest.take (place - cursor) ++ tag ++ weave place (rest.drop (place - cursor)) tags

/-- Puts tags into a text: those with a place in the order of their places, the others behind a
space at the end. -/
def insertTags (t : Text) (tags : List PlacedTag) : Text :=
  let placed := tags.filterMap fun p => p.place?.map (·, p.tag)
  let trailing := (tags.filter (·.place?.isNone)).flatMap (·.tag)
  weave 0 t (placed.mergeSort fun a b => a.1 ≤ b.1) ++
    if trailing.isEmpty then [] else ' ' :: trailing

end Bitext
