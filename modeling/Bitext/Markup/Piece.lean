import Bitext.Text.Basic

/-!
# Texts cut at their tags

A tag is an opening angle bracket, at least one character that is no angle bracket, and a closing
angle bracket.  Tags never overlap, so a text is in one way a sequence of tags and of characters
outside tags; all of the markup functions work on that sequence.  Angle brackets that belong to no
tag are ordinary characters.

## Main definitions

* `Piece`: a character outside tags, or a tag given by what stands between its brackets.
* `pieces`, `unparse`: cutting a text, and putting the pieces together again (`unparse_pieces`).
* `TagKind`: self-closing, closing or opening.
* `tagName`: the name of a tag.
* `strip`, `skeleton`: views of a text that ignore what its tags say.
-/
namespace Bitext.Markup

/-- A part of a marked-up text. -/
inductive Piece where
  /-- A character outside tags. -/
  | char (c : Char)
  /-- A tag, by the characters between its angle brackets. -/
  | tag (body : Text)
  deriving DecidableEq, Repr

/-- The two angle brackets. -/
def isAngle (c : Char) : Bool := c == '<' || c == '>'

/-- The tag with a given body. -/
def tagText (body : Text) : Text := '<' :: (body ++ ['>'])

/-- A piece as it is written. -/
def Piece.text : Piece → Text
  | .char c => [c]
  | .tag body => tagText body

/-- Reads on after an opening bracket: if characters other than brackets lead to a closing one,
these characters and the pieces after the closing bracket. -/
def closeTag : List Piece → Option (Text × List Piece)
  | .char c :: rest =>
    if c == '>' then some ([], rest)
    else if c == '<' then none
    else (closeTag rest).map fun (body, after) => (c :: body, after)
  | _ => none

/-- Cuts a text at its tags. -/
def pieces : Text → List Piece
  | [] => []
  | c :: rest =>
    let further := pieces rest
    if c == '<' then
      -- A tag needs a body, so two brackets with nothing between them stay characters.
      match closeTag further with
      | some (b :: body, after) => .tag (b :: body) :: after
      | _ => .char c :: further
    else .char c :: further

/-- The text that consists of the given pieces. -/
def unparse (ps : List Piece) : Text := ps.flatMap Piece.text

theorem unparse_of_closeTag {ps after : List Piece} {body : Text}
    (h : closeTag ps = some (body, after)) : unparse ps = body ++ '>' :: unparse after := by
  induction ps generalizing body with
  | nil => simp [closeTag] at h
  | cons p rest ih =>
    cases p with
    | tag b => simp [closeTag] at h
    | char c =>
      by_cases close : c = '>'
      · simp only [closeTag, close, beq_self_eq_true, if_true, Option.some.injEq,
          Prod.mk.injEq] at h
        simp [unparse, Piece.text, ← h.1, h.2, close]
      · by_cases opening : c = '<'
        · simp [closeTag, opening] at h
        · simp only [closeTag, beq_iff_eq, close, opening, if_false, Option.map_eq_some_iff] at h
          obtain ⟨⟨b, a⟩, found, eq⟩ := h
          simp only [Prod.mk.injEq] at eq
          obtain ⟨rfl, rfl⟩ := eq
          have := ih found
          simp_all [unparse, Piece.text]

/-- Cutting a text loses nothing. -/
theorem unparse_pieces (t : Text) : unparse (pieces t) = t := by
  induction t with
  | nil => rfl
  | cons c rest ih =>
    simp only [pieces]
    split
    · rename_i opening
      split
      · rename_i found
        have := unparse_of_closeTag found
        simp_all [unparse, Piece.text, tagText]
      · simpa [unparse, Piece.text] using ih
    · simpa [unparse, Piece.text] using ih

/-- The bodies of the tags of a text, in order. -/
def tagBodies (t : Text) : List Text :=
  (pieces t).filterMap fun
    | .char _ => none
    | .tag body => some body

/-- The tags of a text, in order. -/
def tags (t : Text) : List Text := (tagBodies t).map tagText

/-- A text holds at least one tag. -/
def hasTags (t : Text) : Bool := !(tagBodies t).isEmpty

/-! ## Kinds and names of tags -/

/-- The three kinds of tags. -/
inductive TagKind where
  | selfClosing
  | closing
  | opening
  deriving DecidableEq, Repr

/-- The kind of the tag with a given body.  A slash at the end, after something else, makes it
self-closing whatever it starts with; otherwise a slash at the start makes it closing. -/
def TagKind.of (body : Text) : TagKind :=
  if 2 ≤ body.length && body.getLast? == some '/' then .selfClosing
  else if body.head? == some '/' then .closing
  else .opening

/-- The name of the tag with a given body: what follows the slashes at its start, up to a blank or
a slash. -/
def tagName (body : Text) : Text :=
  (body.dropWhile (· == '/')).takeWhile fun c => !(Text.isSpace c || c == '/' || c == '>')

/-- The body of a text that is one tag and nothing else. -/
def soleTag? (t : Text) : Option Text :=
  match pieces t with
  | [.tag body] => some body
  | _ => none

/-- A text is one self-closing tag. -/
def isSelfClosingTag (t : Text) : Bool := (soleTag? t).map TagKind.of == some .selfClosing

/-- A text is one tag that neither starts nor ends with a slash. -/
def isOpeningTag (t : Text) : Bool := (soleTag? t).map TagKind.of == some .opening

/-- An ASCII letter or an underscore. -/
def isNameStart (c : Char) : Bool := c.isAlpha || c == '_'

/-- An ASCII letter or digit, an underscore, a full stop or a hyphen. -/
def isNamePart (c : Char) : Bool := isNameStart c || c.isDigit || c == '.' || c == '-'

/-- Names that survive as identifiers. -/
def isIdentifier : Text → Bool
  | [] => false
  | c :: rest => isNameStart c && rest.all isNamePart

/-! ## Markup made plain -/

/-- Replaces every tag. -/
def replaceTags (replacement : Text → Text) (t : Text) : Text :=
  (pieces t).flatMap fun
    | .char c => [c]
    | .tag body => replacement body

/-- The plain text: tags become spaces, runs of blanks one space, and the ends are trimmed. -/
def strip (t : Text) : Text := Text.collapse (replaceTags (fun _ => [' ']) t)

/-- The general name of a tag, and the first letter of canonical names. -/
def tagLetter : Text := ['T']

/-- The skeleton: every tag becomes a separate letter. -/
def skeleton (t : Text) : Text :=
  Text.collapse (replaceTags (fun _ => ' ' :: (tagLetter ++ [' '])) t)

/-- The number of words of the plain text. -/
def wordCount (t : Text) : Nat := (Text.words (strip t)).length

end Bitext.Markup
