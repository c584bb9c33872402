import Bitext.Markup.Normal
import Bitext.Markup.Spacing
import Bitext.Transfer.Alignment
import Bitext.Transfer.Tokenizer

/-!
# Transfer of tags

Gives a target text the tags of its source.  If both have equally many, the tags of the target are
replaced one by one.  Otherwise the target is stripped and the tags of the source are put where the
words around them are; no tag is dropped.
-/
namespace Bitext.Transfer

/-- Replaces the tags of a text by the given ones, one by one, as long as there are any. -/
def replaceInOrder (tags : List Text) : List Markup.Piece → Text
  | [] => []
  | .char c :: rest => c :: replaceInOrder tags rest
  | .tag body :: rest =>
    match tags with
    | [] => Markup.tagText body ++ replaceInOrder [] rest
    | tag :: tags => tag ++ replaceInOrder tags rest

/-- The plain target with the tags of the source at the places of the words around them. -/
def align (sourceTokenizer targetTokenizer : Tokenizer) (source target : Text) : Text :=
  let marked := sourceTokenizer (Markup.replaceByWords (some Markup.spaceWord) source)
  let plain := Markup.strip target
  let spans := tokenSpans plain (Text.words (targetTokenizer plain))
  let placed := placeTags spans none 0 (Markup.tags source) (Text.words marked)
  Markup.tighten (Text.collapse (insertTags plain placed))

/-- The target with the tags of the source.  Fails only for want of a tokenizer. -/
def transfer (tokenizers : Tokenizers) (pair : LanguagePair) (source target : Text) :
    Except Error Text :=
  let tags := Markup.tags source
  if tags.isEmpty then .ok target
  else if tags.length = (Markup.tags target).length then
    .ok (replaceInOrder tags (Markup.pieces target))
  else do
    let sourceTokenizer ← tokenizers.get pair.source
    let targetTokenizer ← tokenizers.get pair.target
    return align sourceTokenizer targetTokenizer source target

end Bitext.Transfer
