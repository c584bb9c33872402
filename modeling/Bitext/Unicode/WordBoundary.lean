import Bitext.Text.Basic
import Bitext.Unicode.WordClass

/-!
# Word boundaries

Cuts a text at its default word boundaries (Unicode Standard Annex 29).  The decision between two
characters looks back at the last characters that are neither marks nor formatting characters, at
the number of regional indicators before the place, and ahead to the next such character.

`segments` never loses a character: its pieces, put together, are the text (`flatten_segments`).
-/
namespace Bitext.Unicode

namespace WordClass

/-- Ends a line. -/
def isLineEnd : WordClass → Bool
  | .carriageReturn | .lineFeed | .newline => true
  | _ => false

/-- Belongs to the character before it. -/
def isAttached : WordClass → Bool
  | .extend | .format | .joiner => true
  | _ => false

/-- A letter of a script that puts spaces between words. -/
def isLetter : WordClass → Bool
  | .alphabetic | .hebrewLetter => true
  | _ => false

/-- Punctuation that does not end a word when letters stand on both sides. -/
def isMidWord : WordClass → Bool
  | .midLetter | .midNumLet | .singleQuote => true
  | _ => false

/-- Punctuation that does not end a number when digits stand on both sides. -/
def isMidNumber : WordClass → Bool
  | .midNum | .midNumLet | .singleQuote => true
  | _ => false

/-- What a connector such as the underscore binds. -/
def isConnectable : WordClass → Bool
  | .alphabetic | .hebrewLetter | .numeric | .katakana => true
  | _ => false

end WordClass

/-- What the rules remember of the text before a place. -/
structure WordContext where
  /-- The class of the character just before. -/
  last : WordClass
  /-- The class of the last character that is not attached to another one. -/
  base : WordClass
  /-- The class of the unattached character before that one. -/
  earlier : Option WordClass
  /-- An odd number of regional indicators ends at the base. -/
  oddIndicators : Bool

namespace WordContext

/-- After the first character of a text. -/
def first (c : Char) : WordContext :=
  let k := WordClass.of c
  ⟨k, k, none, k == .regionalIndicator⟩

/-- After one more character. -/
def push (ctx : WordContext) (c : Char) : WordContext :=
  let k := WordClass.of c
  if k.isAttached && !ctx.base.isLineEnd then { ctx with last := k }
  else
    ⟨k, k, some ctx.base,
      k == .regionalIndicator && !(ctx.base == .regionalIndicator && ctx.oddIndicators)⟩

/-- The class of the first character of `rest` that is not attached to another one. -/
def upcoming (rest : Text) : Option WordClass :=
  (List.find? (fun c => !(WordClass.of c).isAttached) rest).map WordClass.of

/-- No boundary before `c`, which `rest` follows. -/
def joins (ctx : WordContext) (c : Char) (rest : Text) : Bool :=
  let k := WordClass.of c
  let next : WordClass → Bool := fun wanted => upcoming rest == some wanted
  let nextLetter := next .alphabetic || next .hebrewLetter
  let afterLetter := ctx.earlier == some .alphabetic || ctx.earlier == some .hebrewLetter
  -- Line ends stand apart from everything, but the two characters of one line end stay together.
  if ctx.last == .carriageReturn && k == .lineFeed then true
  else if ctx.last.isLineEnd || k.isLineEnd then false
  else if ctx.last == .joiner && WordClass.isPictograph c then true
  else if ctx.last == .space && k == .space then true
  else if k.isAttached then true
  else
    -- Words, with a single mark between two letters.
    (ctx.base.isLetter && k.isLetter) ||
    (ctx.base.isLetter && k.isMidWord && nextLetter) ||
    (ctx.base.isMidWord && afterLetter && k.isLetter) ||
    (ctx.base == .hebrewLetter && k == .singleQuote) ||
    (ctx.base == .hebrewLetter && k == .doubleQuote && next .hebrewLetter) ||
    (ctx.base == .doubleQuote && ctx.earlier == some .hebrewLetter && k == .hebrewLetter) ||
    -- Numbers, with letters around them and a single mark between two digits.
    (ctx.base == .numeric && k == .numeric) ||
    (ctx.base.isLetter && k == .numeric) ||
    (ctx.base == .numeric && k.isLetter) ||
    (ctx.base.isMidNumber && ctx.earlier == some .numeric && k == .numeric) ||
    (ctx.base == .numeric && k.isMidNumber && next .numeric) ||
    -- Syllables, connectors, and regional indicators two by two.
    (ctx.base == .katakana && k == .katakana) ||
    ((ctx.base.isConnectable || ctx.base == .connector) && k == .connector) ||
    (ctx.base == .connector && k.isConnectable) ||
    (ctx.base == .regionalIndicator && ctx.oddIndicators && k == .regionalIndicator)

end WordContext

/-- The pieces of `rest` after a place: the first one continues the piece that is open there. -/
def segmentsAfter (ctx : WordContext) : Text → List Text
  | [] => [[]]
  | c :: rest =>
    let pieces := (segmentsAfter (ctx.push c) rest).modifyHead (c :: ·)
    if ctx.joins c rest then pieces else [] :: pieces

/-- The pieces of a text between its word boundaries. -/
def segments : Text → List Text
  | [] => []
  | c :: rest => (segmentsAfter (.first c) rest).modifyHead (c :: ·)

theorem flatten_segmentsAfter (ctx : WordContext) (t : Text) :
    (segmentsAfter ctx t).flatten = t ∧ segmentsAfter ctx t ≠ [] := by
  induction t generalizing ctx with
  | nil => simp [segmentsAfter]
  | cons c rest ih =>
    obtain ⟨flat, nonempty⟩ := ih (ctx.push c)
    obtain ⟨p, ps, h⟩ := List.exists_cons_of_ne_nil nonempty
    rw [h] at flat
    by_cases joined : ctx.joins c rest <;> simp_all [segmentsAfter]

/-- Cutting a text loses nothing. -/
theorem flatten_segments (t : Text) : (segments t).flatten = t := by
  cases t with
  | nil => rfl
  | cons c rest =>
    obtain ⟨flat, nonempty⟩ := flatten_segmentsAfter (.first c) rest
    obtain ⟨p, ps, h⟩ := List.exists_cons_of_ne_nil nonempty
    rw [h] at flat
    simp_all [segments]

end Bitext.Unicode
