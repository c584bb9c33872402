import Bitext.Text.Basic
import Bitext.Unicode.CaseTable

/-!
# Case conversion

Full case conversion of texts.  It is done character by character, except for the capital sigma:
its lower-case form has another shape at the end of a word.
-/
namespace Bitext.Unicode

/-- The mapping of one character: an expansion if there is one, else the offset of its run. -/
def mapCase (expansions : List (Nat × List Nat)) (runs : List CaseRun) (c : Char) : Text :=
  match expansions.lookup c.toNat with
  | some codes => codes.map Char.ofNat
  | none =>
    match runs.find? (·.holds c.toNat) with
    | some run => [Char.ofNat (Int.toNat (c.toNat + run.offset))]
    | none => [c]

/-- The first character that case conversion does not look through is a cased one. -/
def startsCased (t : Text) : Bool :=
  match t.dropWhile caseIgnorable.contains with
  | c :: _ => casedCharacters.contains c
  | [] => false

/-- Lower case of `rest`, where `before` is the text before it, last character first. -/
def lowerAfter (before : Text) : Text → Text
  | [] => []
  | c :: rest =>
    let lowered :=
      if c == 'Σ' then
        if startsCased before && !startsCased rest then ['ς'] else ['σ']
      else mapCase lowerExpansions lowerRuns c
    lowered ++ lowerAfter (c :: before) rest

/-- The lower-case form of a text. -/
def lower (t : Text) : Text := lowerAfter [] t

/-- The upper-case form of a text. -/
def upper (t : Text) : Text := t.flatMap (mapCase upperExpansions upperRuns)

end Bitext.Unicode
