import Bitext.Toml.Scalar

/-!
# TOML documents

Reads a document line by line into one table.  Any fault makes the whole document unreadable.

## Main definitions

* `Toml.value?`: a value, which may hold others down to a certain depth.
* `Toml.keyPath?`: a key, dotted or not.
* `Toml.parse?`: the table of a document.
-/
namespace Bitext.Toml

/-- How many components a key may have, and how deep values may be nested. -/
def maxDepth : Nat := 79

/-! ## Keys -/

/-- Characters of keys without quotation marks. -/
def isBare (c : Char) : Bool := c.isAlphanum || c == '_' || c == '-'

/-- Reads one component of a key. -/
def simpleKey? (t : Text) : Option (Text × Text) :=
  match t with
  | '"' :: _ | '\'' :: _ => lineString? t
  | _ =>
    let key := t.takeWhile isBare
    if key.isEmpty then none else some (key, t.drop key.length)

/-- Reads the components of a key with points between them; blanks may stand around each. -/
def keyParts? : (fuel : Nat) → Text → Option (List Text × Text)
  | 0, _ => none
  | fuel + 1, t => do
    let (key, rest) ← simpleKey? (skipBlanks t)
    match skipBlanks rest with
    | '.' :: rest =>
      let (keys, after) ← keyParts? fuel rest
      return (key :: keys, after)
    | after => return ([key], after)

/-- Reads a key, as the path to its table and the last component. -/
def keyPath? (t : Text) : Option (List Text × Text × Text) := do
  let (keys, after) ← keyParts? maxDepth t
  return (keys.dropLast, ← keys.getLast?, after)

/-! ## Values -/

/-- Drops blanks, line breaks and comments. -/
def skipFiller (inComment : Bool) : Text → Option Text
  | [] => some []
  | '\r' :: '\n' :: rest => skipFiller false rest
  | '\n' :: rest => skipFiller false rest
  | c :: rest =>
    if inComment then (if isPlain c then skipFiller true rest else none)
    else if isBlank c then skipFiller false rest
    else if c == '#' then skipFiller true rest
    else some (c :: rest)

/-- Reads the elements of an array up to its end; a comma may follow the last one. -/
def elements? (value? : Text → Option (Toml × Text)) : (fuel : Nat) → Text → Option (List Toml × Text)
  | 0, _ => none
  | fuel + 1, t => do
    match ← skipFiller false t with
    | ']' :: after => return ([], after)
    | t =>
      let (v, rest) ← value? t
      match ← skipFiller false rest with
      | ',' :: rest =>
        let (vs, after) ← elements? value? fuel rest
        return (v :: vs, after)
      | ']' :: after => return ([v], after)
      | _ => none

/-- Reads the entries of an inline table behind its opening brace or a comma, and adds them to a
table. -/
def entries? (value? : Text → Option (Toml × Text)) : (fuel : Nat) → Toml → Text → Option (Toml × Text)
  | 0, _, _ => none
  | fuel + 1, built, t => do
    let (path, key, rest) ← keyPath? t
    let (v, rest) ← value? (skipBlanks (← after? '=' rest))
    let built ← built.assign path key v
    match skipBlanks rest with
    | ',' :: rest => entries? value? fuel built rest
    | '\x7d' :: after => return (built, after)
    | _ => none

/-- Reads a value; arrays and inline tables may be nested in it `depth` times. -/
def value? : (depth : Nat) → Text → Option (Toml × Text)
  | 0, t => scalar? t
  | depth + 1, t =>
    match t with
    | '[' :: rest =>
      (elements? (value? depth) (rest.length + 1) rest).map fun (vs, after) => (.array vs, after)
    | '\x7b' :: rest =>
      match skipBlanks rest with
      | '\x7d' :: after => some (.table .inline [], after)
      | rest => entries? (value? depth) (rest.length + 1) (.table .inline []) rest
    | _ => scalar? t

/-! ## Lines -/

/-- Behind the end of a line with nothing but blanks and a comment in it. -/
def lineEnd? (t : Text) : Option Text :=
  let t := skipBlanks t
  let t := match t with
    | '#' :: comment => comment.dropWhile isPlain
    | t => t
  if t.isEmpty then some [] else newline? t

/-- A document that is being read: the whole table, and the path of the last header. -/
structure Draft where
  root : Toml
  header : List Text

/-- Reads a header or a key with its value, up to the end of the line. -/
def line? (p : Draft) (t : Text) : Option (Draft × Text) :=
  match t with
  | '[' :: '[' :: rest => do
    let (path, key, rest) ← keyPath? rest
    let rest ← lineEnd? (← after? ']' (← after? ']' rest))
    return (⟨← p.root.openElement path key, path ++ [key]⟩, rest)
  | '[' :: rest => do
    let (path, key, rest) ← keyPath? rest
    let rest ← lineEnd? (← after? ']' rest)
    return (⟨← p.root.openTable path key, path ++ [key]⟩, rest)
  | t => do
    let (path, key, rest) ← keyPath? t
    let (v, rest) ← value? maxDepth (skipBlanks (← after? '=' rest))
    let rest ← lineEnd? rest
    return ({ p with root := ← p.root.changeAt false (assign path key v) p.header }, rest)

/-- Reads the remaining lines. -/
def lines? : (fuel : Nat) → Draft → Text → Option Toml
  | 0, _, _ => none
  | fuel + 1, p, t =>
    match skipFiller false t with
    | none => none
    | some [] => some p.root
    | some t => (line? p t).bind fun (p, rest) => lines? fuel p rest

/-- The table of a document.  A byte order mark at the very start is dropped. -/
def parse? (t : Text) : Option Toml :=
  let t := match t with
    | '\uFEFF' :: rest => rest
    | t => t
  lines? (t.length + 1) ⟨.table .header [], []⟩ t

end Bitext.Toml
