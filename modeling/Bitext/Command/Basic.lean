import Bitext.Command.Line
import Bitext.Job.Progress
import Bitext.Query.Basic
import Bitext.Tmx.Document

/-!
# Commands

What a command line asks for.  `Invocation.ofWords` reads a command line; it is refused if a word
does not fit or if an operand or the pair of a command is missing.
-/
namespace Bitext

/-- The best matches of a text, or its concordance. -/
structure Command.QueryArguments where
  file : Text
  text : Text
  pair : LanguagePair
  /-- The domain of the units of the file. -/
  loadDomain? : Option Text
  domains : List Text
  preferredDomain? : Option Text
  minMatch? : Option Float
  concordance : Bool
  limit? : Option Nat
  format : OutputFormat

/-- An export of the units of a file. -/
structure Command.ExportArguments where
  file : Text
  pair : LanguagePair
  /-- The domain of the units of the file. -/
  loadDomain? : Option Text
  domains : List Text
  /-- Where exports are kept. -/
  root? : Option Text
  duplicatesOnly : Bool
  limit? : Option Nat
  userName : Text

/-- What can be asked for. -/
inductive Command where
  /-- The units of a file, one a line. -/
  | parse (file : Text) (request : Tmx.Import)
  /-- The language pairs of a file. -/
  | pairs (file : Text)
  | query (c : Command.QueryArguments)
  | exportUnits (c : Command.ExportArguments)
  /-- The duplicates in a file. -/
  | dedup (file : Text) (pair : LanguagePair)
  /-- The units of a file that may hold personal data. -/
  | check (file : Text) (pair : LanguagePair) (domain : Text)
  /-- The forms that the tags of a text are brought into. -/
  | tags (text : Text)

namespace Command

/-- A command and what holds for all commands. -/
structure Invocation where
  command : Command
  /-- The path of the settings. -/
  settings : Text
  /-- How progress is told, if the command line says so. -/
  progress? : Option ProgressMode

namespace Line

/-- The format that results are written in. -/
def format (l : Line) : OutputFormat :=
  if l.value? "format" == some "moses".toList then .moses else .json

/-- The command of a line; nothing if something is missing. -/
def command? (l : Line) : Option Command :=
  let pair? := (l.value? "pair").bind LanguagePair.parse?
  let limit? := (l.value? "limit").bind count?
  match l.verb?, l.operands with
  | some .parse, [file] =>
    some (.parse file
      ⟨l.value? "domain", l.value? "username", (l.values "pair").filterMap LanguagePair.parse?⟩)
  | some .pairs, [file] => some (.pairs file)
  | some .query, [file, text] => pair?.map fun pair => .query {
      file, text, pair, limit?
      loadDomain? := l.value? "load-domain"
      domains := l.values "domain"
      preferredDomain? := l.value? "preferred-domain"
      minMatch? := (l.value? "min-match").bind Decimal.read?
      concordance := (l.value? "concordance").isSome
      format := l.format }
  | some .exportUnits, [file] => pair?.map fun pair => .exportUnits {
      file, pair, limit?
      loadDomain? := l.value? "load-domain"
      domains := l.values "domain"
      root? := l.value? "out"
      duplicatesOnly := (l.value? "duplicates-only").isSome
      userName := (l.value? "username").getD "cli".toList }
  | some .dedup, [file] => pair?.map (.dedup file)
  | some .check, [file] => do return .check file (← pair?) (← l.value? "domain")
  | some .tags, [text] => some (.tags text)
  | _, _ => none

/-- How progress is told, if the line says so. -/
def progress? (l : Line) : Option ProgressMode :=
  (l.commonValue? "progress").map fun word =>
    if word == "human".toList then .human else if word == "json".toList then .json else .off

end Line

/-- What a command line asks for. -/
def Invocation.ofWords (words : List Text) : Except Refusal Invocation := do
  let l ← Line.read words
  match l.command? with
  | some command =>
    return ⟨command, (l.commonValue? "config").getD "./config/tm.toml".toList, l.progress?⟩
  | none => .error .misuse

end Command

end Bitext
