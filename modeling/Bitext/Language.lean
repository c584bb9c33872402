import Bitext.Unicode.Casing

/-!
# Languages and language pairs

Languages are compared by the primary subtag of their code, in lower case: `en-GB` and `EN` are both
`en`.  A pair has a direction, from source to target.
-/
namespace Bitext

/-- The primary subtag of a language code: what stands before the first hyphen or underscore, in
lower case. -/
def primarySubtag (code : Text) : Text :=
  Unicode.lower ((Text.trim code).takeWhile fun c => !(c == '-' || c == '_'))

/-- A source and a target language. -/
structure LanguagePair where
  source : Text
  target : Text
  deriving DecidableEq, Repr

namespace LanguagePair

/-- The pair of two language codes. -/
def ofCodes (source target : Text) : LanguagePair := ⟨primarySubtag source, primarySubtag target⟩

/-- The opposite direction. -/
def reversed (p : LanguagePair) : LanguagePair := ⟨p.target, p.source⟩

/-- The pair as it is shown. -/
def text (p : LanguagePair) : Text := p.source ++ '-' :: p.target

/-- Reads a pair: two codes that are not blank with a hyphen, an underscore or a colon between them,
and no other of these characters. -/
def parse? (t : Text) : Option LanguagePair :=
  match t.splitOnP fun c => c == '-' || c == '_' || c == ':' with
  | [source, target] =>
    let source := Text.trim source
    let target := Text.trim target
    if source.isEmpty || target.isEmpty then none else some (ofCodes source target)
  | _ => none

end LanguagePair

end Bitext
