import Bitext.Decimal.Notation
import Bitext.Language
import Bitext.Text.Basic

/-!
# Command lines

The words of a command line are read one after another.  Words that start with a hyphen name
options; the others are values of options, the name of a command, or its operands, in this order of
precedence.  After a word of two hyphens everything is an operand.  What a command may be given is
told by tables, and a word that does not fit is refused at once.

## Main definitions

* `ValueKind`, `Option`s and operands of a `Verb`: the tables.
* `Line`: what has been read.
* `Line.read`: reads all words.
-/
namespace Bitext.Command

/-- What a value must look like. -/
inductive ValueKind where
  | text
  /-- A path, which must not be empty. -/
  | path
  /-- A language pair. -/
  | pair
  /-- A number with or without a fraction. -/
  | number
  /-- A natural number. -/
  | count
  | oneOf (words : List String)
  deriving DecidableEq, Repr

/-- A natural number with an optional plus sign, below `2 ^ 64`. -/
def count? (t : Text) : Option Nat :=
  (Text.number? 10 (match t with
    | '+' :: digits => digits
    | digits => digits)).filter (· < UInt64.size)

/-- The value is of the kind. -/
def ValueKind.admits : ValueKind → Text → Bool
  | .text, _ => true
  | .path, t => !t.isEmpty
  | .pair, t => (LanguagePair.parse? t).isSome
  | .number, t => (Decimal.read? t).isSome
  | .count, t => (count? t).isSome
  | .oneOf words, t => words.any (·.toList == t)

/-- How an option is given. -/
inductive OptionKind where
  /-- At most once, without a value. -/
  | flag
  /-- At most once, with a value. -/
  | single (kind : ValueKind)
  /-- Any number of times, each time with a value. -/
  | repeated (kind : ValueKind)
  deriving DecidableEq, Repr

/-- The words that choose a command. -/
inductive Verb where
  | parse
  | pairs
  | query
  | exportUnits
  | dedup
  | check
  | tags
  deriving DecidableEq, Repr

/-- The commands by their names. -/
def verbs : List (Text × Verb) :=
  [("parse".toList, .parse), ("pairs".toList, .pairs), ("query".toList, .query),
    ("export".toList, .exportUnits), ("dedup".toList, .dedup), ("check".toList, .check),
    ("tags".toList, .tags)]

/-- The options that may stand everywhere. -/
def commonOptions : List (String × OptionKind) :=
  [("config", .single .path), ("progress", .single (.oneOf ["off", "human", "json"]))]

namespace Verb

/-- The operands of a command. -/
def operands : Verb → List ValueKind
  | .query => [.path, .text]
  | .tags => [.text]
  | _ => [.path]

/-- The options of a command. -/
def options : Verb → List (String × OptionKind)
  | .parse =>
    [("domain", .single .text), ("pair", .repeated .pair), ("username", .single .text)]
  | .pairs | .tags => []
  | .query =>
    [("pair", .single .pair), ("load-domain", .single .text), ("domain", .repeated .text),
      ("preferred-domain", .single .text), ("min-match", .single .number), ("concordance", .flag),
      ("limit", .single .count), ("format", .single (.oneOf ["json", "moses"]))]
  | .exportUnits =>
    [("pair", .single .pair), ("load-domain", .single .text), ("domain", .repeated .text),
      ("out", .single .path), ("duplicates-only", .flag), ("limit", .single .count),
      ("username", .single .text)]
  | .dedup => [("pair", .single .pair)]
  | .check => [("pair", .single .pair), ("domain", .single .text)]

end Verb

/-- Why a command line asks for no command. -/
inductive Refusal where
  /-- Help is asked for. -/
  | help
  /-- The version is asked for. -/
  | version
  /-- A word does not fit, or one is missing. -/
  | misuse
  deriving DecidableEq, Repr

/-- What has been read of a command line. -/
structure Line where
  verb? : Option Verb := none
  /-- The options in front of the command. -/
  outerOptions : List (Text × Text) := []
  /-- The options since then; flags have an empty value. -/
  options : List (Text × Text) := []
  operands : List Text := []
  /-- The option whose value comes next. -/
  waiting? : Option Text := none
  /-- All further words are operands. -/
  isLiteral : Bool := false
  deriving DecidableEq, Repr

namespace Line

/-- The kind of an option where the line has come to. -/
def optionKind? (l : Line) (name : Text) : Option OptionKind :=
  let own := (l.verb?.map Verb.options).getD []
  ((commonOptions ++ own).map fun (n, kind) => (n.toList, kind)).lookup name

/-- The line with one more option. -/
def withOption (l : Line) (name value : Text) : Except Refusal Line :=
  let l' := { l with options := l.options ++ [(name, value)], waiting? := none }
  let isNew := (l.options.lookup name).isNone
  match l.optionKind? name with
  | some .flag => if isNew then .ok l' else .error .misuse
  | some (.single kind) => if isNew && kind.admits value then .ok l' else .error .misuse
  | some (.repeated kind) => if kind.admits value then .ok l' else .error .misuse
  | none => .error .misuse

/-- Takes an option in long form, without its hyphens. -/
def long (l : Line) (t : Text) : Except Refusal Line :=
  let (name, rest) := Text.splitFirst (· == '=') t
  match rest with
  | _ :: value =>
    match l.optionKind? name with
    | some (.single _) | some (.repeated _) => l.withOption name value
    | _ => .error .misuse
  | [] =>
    match l.optionKind? name with
    | some .flag => l.withOption name []
    | some _ => .ok { l with waiting? := some name }
    | none =>
      if name = "help".toList then .error .help
      else if name = "version".toList && l.verb?.isNone then .error .version
      else .error .misuse

/-- Takes an option of a single letter. -/
def short (l : Line) (letter : Char) : Except Refusal Line :=
  if letter = 'h' then .error .help
  else if letter = 'V' && l.verb?.isNone then .error .version
  else .error .misuse

/-- Takes the name of a command or an operand. -/
def plain (l : Line) (word : Text) : Except Refusal Line :=
  match l.verb? with
  | none =>
    if l.isLiteral then .error .misuse
    else if word = "help".toList then .error .help
    else
      match verbs.lookup word with
      | some verb => .ok { l with verb? := some verb, outerOptions := l.options, options := [] }
      | none => .error .misuse
  | some verb =>
    match verb.operands[l.operands.length]? with
    | some kind =>
      if kind.admits word then .ok { l with operands := l.operands ++ [word] } else .error .misuse
    | none => .error .misuse

/-- Takes the next word. -/
def step (l : Line) (word : Text) : Except Refusal Line :=
  if l.isLiteral then l.plain word
  else
    match l.waiting?, word with
    -- A single hyphen is a value like any other.
    | none, ['-', '-'] => .ok { l with isLiteral := true }
    | none, '-' :: '-' :: t => l.long t
    | none, '-' :: letter :: _ => l.short letter
    | none, _ => l.plain word
    | some _, '-' :: _ :: _ => .error .misuse
    | some name, value => l.withOption name value

/-- Reads all words of a command line. -/
def read (words : List Text) : Except Refusal Line := do
  let l ← words.foldlM step {}
  if l.waiting?.isSome then .error .misuse else .ok l

/-- The value of an option of the command. -/
def value? (l : Line) (name : String) : Option Text := l.options.lookup name.toList

/-- All values of an option of the command. -/
def values (l : Line) (name : String) : List Text :=
  (l.options.filter (·.1 == name.toList)).map (·.2)

/-- The value of an option that may stand everywhere; the one behind the command wins. -/
def commonValue? (l : Line) (name : String) : Option Text :=
  l.value? name <|> l.outerOptions.lookup name.toList

end Line

end Bitext.Command
