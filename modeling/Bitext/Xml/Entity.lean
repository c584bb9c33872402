import Bitext.Text.Basic

/-!
# Entities

Writes and reads the characters that have a meaning in XML.  `unescape?` fails on the whole text as
soon as one ampersand does not begin a known entity; it takes back what `escape` does
(`unescape?_escape`).
-/
namespace Bitext.Xml

/-- The entity for a character with a meaning in XML; other characters stand for themselves. -/
def escapeChar (c : Char) : Text :=
  match c with
  | '<' => "&lt;".toList
  | '>' => "&gt;".toList
  | '&' => "&amp;".toList
  | '\'' => "&apos;".toList
  | '"' => "&quot;".toList
  | c => [c]

/-- A text without characters that have a meaning in XML. -/
def escape (t : Text) : Text := t.flatMap escapeChar

/-- The character with a given scalar value; zero is not accepted. -/
def reference? (n : Nat) : Option Char :=
  if n ≠ 0 && n.isValidChar then some (Char.ofNat n) else none

/-- The character that an entity stands for, by its name between ampersand and semicolon. -/
def entity? (name : Text) : Option Char :=
  match name with
  | ['l', 't'] => some '<'
  | ['g', 't'] => some '>'
  | ['a', 'm', 'p'] => some '&'
  | ['a', 'p', 'o', 's'] => some '\''
  | ['q', 'u', 'o', 't'] => some '"'
  | '#' :: 'x' :: digits => (Text.number? 16 digits).bind reference?
  | '#' :: digits => (Text.number? 10 digits).bind reference?
  | _ => none

/-- Resolves entities; `name?` is the name read so far, last character first, while inside one. -/
def unescapeFrom : (name? : Option Text) → Text → Option Text
  | none, [] => some []
  | some _, [] => none
  | none, c :: rest =>
    if c == '&' then unescapeFrom (some []) rest else (unescapeFrom none rest).map (c :: ·)
  | some name, c :: rest =>
    if c == ';' then
      (entity? name.reverse).bind fun e => (unescapeFrom none rest).map (e :: ·)
    else if c == '&' then none
    else unescapeFrom (some (c :: name)) rest

/-- The text with all entities resolved, if every ampersand begins one. -/
def unescape? (t : Text) : Option Text := unescapeFrom none t

/-- The text with all entities resolved, or as it stands if an ampersand begins none. -/
def unescape (t : Text) : Text := (unescape? t).getD t

theorem unescape?_escapeChar_append (c : Char) (t : Text) :
    unescape? (escapeChar c ++ t) = (unescape? t).map (c :: ·) := by
  unfold escapeChar
  split <;> first
    | rfl
    | (simp_all [unescape?, unescapeFrom])

/-- Escaping is taken back by resolving entities. -/
theorem unescape?_escape (t : Text) : unescape? (escape t) = some t := by
  induction t with
  | nil => rfl
  | cons c rest ih =>
    simp only [escape, List.flatMap_cons] at ih ⊢
    rw [unescape?_escapeChar_append, ih]
    rfl

end Bitext.Xml
