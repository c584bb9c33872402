import Bitext.Decimal.Notation
import Bitext.Text.Order

/-!
# Structured output

Values of the output format JSON and their two written forms: compact, and indented by two blanks a
level.  Objects keep the order of their members.  Only quotation marks, backslashes and control
characters are escaped in strings.
-/
namespace Bitext

/-- A value of structured output. -/
inductive Json where
  | null
  | bool (b : Bool)
  /-- A number, as it is written. -/
  | number (written : Text)
  | string (t : Text)
  | array (elements : List Json)
  | object (members : List (Text × Json))

namespace Json

/-- A natural number. -/
def ofNat (n : Nat) : Json := .number (Text.ofNat n)

/-- A double. -/
def ofFloat (x : Float) : Json := .number (Decimal.structured.write x)

/-- An optional text. -/
def ofText? : Option Text → Json
  | some t => .string t
  | none => .null

/-- A list of texts. -/
def ofTexts (ts : List Text) : Json := .array (ts.map .string)

/-- An object with members of text. -/
def ofMap (m : List (Text × Text)) : Json := .object (m.map fun (k, v) => (k, .string v))

/-- One member of an object. -/
def member (key : String) (value : Json) : Text × Json := (key.toList, value)

/-- The members of an object in the order of their keys. -/
def sorted (members : List (Text × Json)) : Json :=
  .object (members.mergeSort fun a b => Text.atMost a.1 b.1)

/-- A hexadecimal digit. -/
def hexDigit (n : Nat) : Char := if n < 10 then Char.ofNat (0x30 + n) else Char.ofNat (0x57 + n)

/-- A character inside a string. -/
def quoteChar (c : Char) : Text :=
  if c == '"' then ['\\', '"']
  else if c == '\\' then ['\\', '\\']
  else if c == '\n' then ['\\', 'n']
  else if c == '\r' then ['\\', 'r']
  else if c == '\t' then ['\\', 't']
  else if c.toNat == 0x08 then ['\\', 'b']
  else if c.toNat == 0x0C then ['\\', 'f']
  else if c.toNat < 0x20 then
    ['\\', 'u', '0', '0', hexDigit (c.toNat / 16), hexDigit (c.toNat % 16)]
  else [c]

/-- A string in quotation marks. -/
def quote (t : Text) : Text := '"' :: (t.flatMap quoteChar ++ ['"'])

mutual

/-- The compact form. -/
def compact : Json → Text
  | .null => "null".toList
  | .bool b => if b then "true".toList else "false".toList
  | .number written => written
  | .string t => quote t
  | .array elements => '[' :: (compactElements elements ++ [']'])
  | .object members => '\x7b' :: (compactMembers members ++ ['\x7d'])

/-- Elements with commas between them. -/
def compactElements : List Json → Text
  | [] => []
  | [e] => e.compact
  | e :: rest => e.compact ++ ',' :: compactElements rest

/-- Members with commas between them. -/
def compactMembers : List (Text × Json) → Text
  | [] => []
  | [(k, v)] => quote k ++ ':' :: v.compact
  | (k, v) :: rest => quote k ++ ':' :: (v.compact ++ ',' :: compactMembers rest)

end

/-- A line break and the indentation of a level. -/
def breakLine (level : Nat) : Text := '\n' :: List.replicate (2 * level) ' '

mutual

/-- The indented form of a value that stands at the given level. -/
def indented (level : Nat) : Json → Text
  | .array [] => ['[', ']']
  | .array (e :: rest) =>
    '[' :: (breakLine (level + 1) ++ e.indented (level + 1) ++
      (indentedElements (level + 1) rest ++ (breakLine level ++ [']'])))
  | .object [] => ['\x7b', '\x7d']
  | .object ((k, v) :: rest) =>
    '\x7b' :: (breakLine (level + 1) ++ quote k ++ ':' :: ' ' :: (v.indented (level + 1) ++
      (indentedMembers (level + 1) rest ++ (breakLine level ++ ['\x7d']))))
  | .null => "null".toList
  | .bool b => if b then "true".toList else "false".toList
  | .number written => written
  | .string t => quote t

/-- The elements after the first one. -/
def indentedElements (level : Nat) : List Json → Text
  | [] => []
  | e :: rest => ',' :: (breakLine level ++ e.indented level ++ indentedElements level rest)

/-- The members after the first one. -/
def indentedMembers (level : Nat) : List (Text × Json) → Text
  | [] => []
  | (k, v) :: rest =>
    ',' :: (breakLine level ++ quote k ++ ':' :: ' ' ::
      (v.indented level ++ indentedMembers level rest))

end

/-- The indented form. -/
def pretty (v : Json) : Text := v.indented 0

end Json

end Bitext
