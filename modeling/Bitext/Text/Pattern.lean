import Bitext.Unicode.Letter
import Bitext.Text.Basic

/-!
# Patterns

Sequences of simple elements that a part of a text can match.  A text is searched with all starting
places at once: a mark at each place between characters says whether the elements so far can end
there.
-/
namespace Bitext.Text

/-- An element of a pattern. -/
inductive Element where
  /-- One character of a class. -/
  | one (class_ : Char → Bool)
  /-- One character of a class, or nothing. -/
  | optional (class_ : Char → Bool)
  /-- Any number of characters of a class. -/
  | many (class_ : Char → Bool)
  /-- A place between a word character and something else. -/
  | boundary

/-- Elements in order. -/
abbrev Pattern := List Element

/-- Moves marks over one character of a class. -/
def shift (p : Char → Bool) (t : Text) (marks : List Bool) : List Bool :=
  false :: t.zipWith (fun c mark => mark && p c) marks

/-- Spreads marks over any number of characters of a class; `active` tells that a mark reaches the
present place. -/
def spread (p : Char → Bool) (active : Bool) : Text → List Bool → List Bool
  | c :: t, mark :: marks =>
    let here := mark || active
    here :: spread p (here && p c) t marks
  | [], mark :: _ => [mark || active]
  | _, [] => []

/-- The places between characters at which a word begins or ends; `inWord` tells whether the
character before is a word character. -/
def boundaries (inWord : Bool) : Text → List Bool
  | [] => [inWord]
  | c :: t => (inWord != Unicode.isWordChar c) :: boundaries (Unicode.isWordChar c) t

/-- The marks behind an element. -/
def Element.advance (t : Text) (marks : List Bool) : Element → List Bool
  | .one p => shift p t marks
  | .optional p => marks.zipWith (· || ·) (shift p t marks)
  | .many p => spread p false t marks
  | .boundary => marks.zipWith (· && ·) (boundaries false t)

/-- Some part of the text matches the pattern. -/
def Pattern.occursIn (p : Pattern) (t : Text) : Bool :=
  (p.foldl (Element.advance t) (List.replicate (t.length + 1) true)).any id

end Bitext.Text
