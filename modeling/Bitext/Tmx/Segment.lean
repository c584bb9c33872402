import Bitext.Markup.Normal
import Bitext.Xml.Entity

/-!
# Segments

How the text of a unit is written inside a segment of a TMX document, and how it is read back.
Inline tags are written as tags only if reading would build exactly the same markup again; otherwise
the whole text is escaped and comes back character by character.

## Main definitions

* `escapeSegment`: the content of a segment for a text.
* `cleanSegment`: the text for the content of a segment.
-/
namespace Bitext.Tmx

open Bitext.Markup

/-- The text with its tags as they are and everything else escaped. -/
def escapeAround (t : Text) : Text :=
  (pieces t).flatMap fun
    | .char c => Xml.escapeChar c
    | .tag body => tagText body

/-- The content of a segment for a text. -/
def escapeSegment (t : Text) : Text :=
  let kept := escapeAround t
  if hasTags t && normalize kept ≠ kept then Xml.escape t else kept

/-- Applies a function to every run of characters between tags; `run` are the characters read since
the last tag, last character first. -/
def mapRuns (f : Text → Text) (run : Text) : List Piece → Text
  | [] => f run.reverse
  | .char c :: rest => mapRuns f (c :: run) rest
  | .tag body :: rest => f run.reverse ++ (tagText body ++ mapRuns f [] rest)

/-- The text for the content of a segment: markup in normal form, entities between tags resolved,
ends trimmed.  A run of characters in which an ampersand begins no entity is kept as it is. -/
def cleanSegment (raw : Text) : Text :=
  Text.trim (mapRuns Xml.unescape [] (pieces (normalize (Text.trim raw))))

end Bitext.Tmx
