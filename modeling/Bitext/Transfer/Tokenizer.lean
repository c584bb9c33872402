import Bitext.Error
import Bitext.Language
import Bitext.Text.Order
import Bitext.Unicode.WordBoundary

/-!
# Tokenizers

A tokenizer turns a text into tokens with single spaces between them.  Tokenizers are looked up by
the primary subtag of a language code; a fallback may serve all other languages.
-/
namespace Bitext

/-- Turns a text into tokens with spaces between them. -/
abbrev Tokenizer := Text → Text

namespace Tokenizer

/-- Cuts at word boundaries, so that punctuation becomes a token of its own. -/
def wordBoundaries : Tokenizer := fun t =>
  Text.unwords ((Unicode.segments t).filter (!Text.isBlank ·))

/-- Cuts at blanks only. -/
def blanks : Tokenizer := Text.collapse

end Tokenizer

/-- Tokenizers by language. -/
structure Tokenizers where
  entries : List (Text × Tokenizer) := []
  fallback? : Option Tokenizer := none

namespace Tokenizers

/-- No tokenizer for any language. -/
def none : Tokenizers := {}

/-- Cutting at word boundaries for every language. -/
def standard : Tokenizers := { fallback? := some .wordBoundaries }

/-- Sets the tokenizer of a language. -/
def register (ts : Tokenizers) (code : Text) (t : Tokenizer) : Tokenizers :=
  let key := primarySubtag code
  { ts with entries := (key, t) :: ts.entries.filter (·.1 ≠ key) }

/-- The tokenizer of a language, or else the fallback. -/
def get (ts : Tokenizers) (code : Text) : Except Error Tokenizer :=
  let key := primarySubtag code
  match ts.entries.lookup key <|> ts.fallback? with
  | some t => .ok t
  | .none => .error (.noTokenizer key)

/-- A character inside a quoted language. -/
def quoteChar (c : Char) : Text :=
  if c == '"' || c == '\\' then ['\\', c]
  else if c == '\n' then ['\\', 'n']
  else if c == '\r' then ['\\', 'r']
  else if c == '\t' then ['\\', 't']
  else if c.toNat == 0 then ['\\', '0']
  else if c.toNat < 0x20 || (0x7F ≤ c.toNat && c.toNat < 0xA0) then
    "\\u\x7b".toList ++ Nat.toDigits 16 c.toNat ++ ['\x7d']
  else [c]

/-- The languages in order, and whether there is a fallback. -/
def describe (ts : Tokenizers) : Text :=
  let languages := (ts.entries.map (·.1)).mergeSort Text.atMost
  let quoted := languages.map fun l => '"' :: (l.flatMap quoteChar ++ ['"'])
  "TokenizerRegistry \x7b languages: [".toList ++ Text.join ", ".toList quoted ++
    "], fallback: ".toList ++ (if ts.fallback?.isSome then "true" else "false").toList ++
    " \x7d".toList

end Tokenizers

end Bitext
