import Bitext.Error
import Bitext.Markup.Piece

/-!
# Placeholders for tags

Before a text is given to a tokenizer its tags are replaced by a word that no tokenizer takes apart.
On request the blanks that touch a tag are replaced by another such word, so that tokenizing cannot
lose whether a tag stood apart from its neighbours.  `restoreTags` puts tags back into a sequence of
labelled tokens.
-/
namespace Bitext.Markup

/-- Stands for a tag. -/
def tagWord : Text := "ELASTICTMTAG".toList

/-- Stands for blanks that touch a tag. -/
def spaceWord : Text := "ELASTICTMSPACE".toList

/-- A piece that is a blank outside tags. -/
def Piece.isSpace : Piece → Bool
  | .char c => Text.isSpace c
  | .tag _ => false

/-- What takes the place of the blanks on one side of a tag. -/
def sideText (space : Text) (touched : Bool) : Text :=
  if touched then ' ' :: (space ++ [' ']) else [' ']

/-- The text with marked tags and marked blanks around them.  `run` are the blanks read since the
last tag or other character; `fresh` tells that a tag stands directly before them, which then has
claimed them. -/
def markTouching (space : Text) (fresh : Bool) (run : Text) : List Piece → Text
  | [] => if fresh then sideText space (!run.isEmpty) else run
  | .tag _ :: rest =>
    (if fresh then sideText space (!run.isEmpty) ++ [' '] else sideText space (!run.isEmpty)) ++
      tagWord ++ markTouching space true [] rest
  | .char c :: rest =>
    if Text.isSpace c then markTouching space fresh (run ++ [c]) rest
    else
      (if fresh then sideText space (!run.isEmpty) else run) ++ c :: markTouching space false [] rest

/-- Replaces every tag by the tag word and, if a word for blanks is given, the blanks that touch a
tag by that word.  Blanks between two tags count once.  Text without tags stays as it is. -/
def replaceByWords (space? : Option Text) (t : Text) : Text :=
  if hasTags t then
    Text.collapse <|
      match space? with
      | none => replaceTags (fun _ => ' ' :: (tagWord ++ [' '])) t
      | some space => markTouching space false [] (pieces t)
  else t

/-- A token with its label, if it has one. -/
structure LabelledToken where
  token : Text
  label? : Option Text
  deriving DecidableEq, Repr

/-- The labels of a token sequence with and without tags. -/
structure LabelSequence where
  withTags : List Text
  labelsOnly : List Text
  deriving DecidableEq, Repr

/-- Walks along labelled tokens with the tags that are left to place; `used` of the `supplied` tags
are placed already. -/
def restoreFrom (supplied used : Nat) : List Text → List LabelledToken → Except Error LabelSequence
  | _, [] => .ok ⟨[], []⟩
  | left, ⟨token, label?⟩ :: rest =>
    if token == tagWord then
      match left with
      | [] => .error (.tagsExhausted (used + 1) supplied)
      | tag :: left => do
        let done ← restoreFrom supplied (used + 1) left rest
        return { done with withTags := tag :: done.withTags }
    else do
      let done ← restoreFrom supplied used left rest
      return ⟨label?.toList ++ done.withTags, label?.toList ++ done.labelsOnly⟩

/-- Puts tags back into a sequence of labels: each tag word takes the next tag, every other token
contributes its label if it has one. -/
def restoreTags (tokens : List LabelledToken) (tags : List Text) : Except Error LabelSequence :=
  restoreFrom tags.length 0 tags tokens

end Bitext.Markup
