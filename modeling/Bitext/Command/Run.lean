import Bitext.Command.Basic
import Bitext.Job.Import
import Bitext.Job.PersonalData
import Bitext.Job.Structured
import Bitext.Query.Report
import Bitext.Settings.File

/-!
# Running commands

Carries out command lines in any monad with access to files.  Results and diagnostics are texts, so
that a run is a value that can be looked at.

## Main definitions

* `Spoken`: what a command says and how it ends.
* `Command.run`: one command with given settings.
* `runLine`: a command line from its words to an exit code.
-/
namespace Bitext.Command

/-- What a run depends on besides its words and the files. -/
structure Surroundings where
  /-- Where files for passing use are kept. -/
  temporaryDirectory : Text
  /-- The identifier of the next export. -/
  nextId : Text
  now : Timestamp
  /-- Diagnostics are read by people, unless the command line says otherwise. -/
  isInteractive : Bool

/-- What a command says and how it ends. -/
structure Spoken where
  /-- The results. -/
  output : Text
  /-- What is said about the work. -/
  remarks : Text
  result : Except Failure Unit

/-- How a run ends. -/
structure Ending where
  code : Nat
  output : Text
  diagnostics : Text
  deriving DecidableEq, Repr

namespace Spoken

/-- A command that only has a result. -/
def text (output : Text) : Spoken := ⟨output, [], .ok ()⟩

/-- A command that fails at once. -/
def failure (f : Failure) : Spoken := ⟨[], [], .error f⟩

/-- A job whose result is a text. -/
def ofFinished (mode : ProgressMode) (f : Finished Text) : Spoken :=
  let remarks := mode.write f.progress
  match f.result with
  | .ok output => ⟨output, remarks, .ok ()⟩
  | .error failure => ⟨[], remarks, .error failure⟩

/-- The end of a run: the code 1 and a report if the command failed. -/
def ending (s : Spoken) : Ending :=
  match s.result with
  | .ok () => ⟨0, s.output, s.remarks⟩
  | .error f => ⟨1, s.output, s.remarks ++ f.report ++ ['\n']⟩

end Spoken

/-- Structured output as the result of a command. -/
def shown (v : Json) : Text := v.pretty ++ ['\n']

/-! ## Commands -/

/-- The forms of a text with tags. -/
def tagForms (text : Text) : Json :=
  Json.sorted [
    Json.member "text" (.string text),
    Json.member "stripped" (.string (Markup.strip text)),
    Json.member "fixed" (.string (Markup.canonical text)),
    Json.member "fixed_stripped" (.string (Markup.unmarked text)),
    Json.member "simplified" (.string (Markup.simplify text)),
    Json.member "renamed" (.string (Markup.rename text)),
    Json.member "normalized" (.string (Markup.normalize text))]

/-- The failure of a command whose file cannot be opened. -/
def unopened (file : Text) (e : Error) : Failure :=
  ⟨["Failed to open TMX input: ".toList ++ file], some (.engine e)⟩

/-- The units of an input, one a line, and what was counted. -/
def parsed (units : List TranslationUnit) (report : Tmx.Report) : Spoken where
  output := units.flatMap fun u => u.json.compact ++ ['\n']
  remarks :=
    "parsed ".toList ++ Text.ofNat report.units ++ " units from ".toList ++
      Text.ofNat report.documents ++ " document(s), skipped ".toList ++
      Text.ofNat report.skippedRecords ++ " records\n".toList
  result :=
    if report.isClean then .ok ()
    else .error ⟨["could not read: ".toList ++ Text.join ", ".toList report.failedDocuments], none⟩

namespace QueryArguments

/-- The query with what the settings say where the command line does not. -/
def query (c : QueryArguments) (s : Settings Float) : Query Float where
  texts := [c.text]
  pair := c.pair
  output := c.format
  limit := c.limit?.getD s.concordanceLimit
  domains := c.domains
  preferredDomain? := c.preferredDomain?
  minMatch := c.minMatch?.getD s.minMatch
  concordance := c.concordance
  automaticTranslation := false
  exactLength := false
  sourceProperties := .empty
  targetProperties := .empty
  penalizeDirty := false

/-- The written answer from a memory. -/
def answer (c : QueryArguments) (s : Settings Float) (m : Memory) : Except Failure Text :=
  let engine : Engine Float :=
    { backend := m.backend
      penalties := s.penalties
      settings := s.engineSettings
      tokenizers? := some .standard }
  let q := c.query s
  match engine.run q with
  | .ok results => .ok (Query.render q.output q.texts results ++ ['\n'])
  | .error e => .error ⟨[], some (.engine e)⟩

end QueryArguments

/-- What an export command exports. -/
def ExportArguments.request (c : ExportArguments) : Job.ExportRequest where
  pair := c.pair
  userName := c.userName
  domains := c.domains
  duplicatesOnly := c.duplicatesOnly
  limit? := c.limit?

/-- Where exports are kept if nothing else is said. -/
def Surroundings.exportRoot (w : Surroundings) : Text :=
  Path.join w.temporaryDirectory "tm-export".toList

section

variable {m : Type → Type} [Monad m] [FileAccess m]

/-- Stores the units of a file in a new memory and goes on with it. -/
def withMemory (s : Settings Float) (mode : ProgressMode) (file : Text) (domain? : Option Text)
    (next : Memory → m (Finished Text)) : m Spoken := do
  let opened ← Tmx.openInput ⟨domain?, none, []⟩ file
  let (stored, memory) := Job.importDocuments .memory s.batchSize file opened {}
  match stored.result with
  | .error f => return .ofFinished mode ⟨stored.progress, .error f⟩
  | .ok _ =>
    let finished ← next memory
    return .ofFinished mode { finished with progress := stored.progress ++ finished.progress }

/-- Carries out a command. -/
def run (w : Surroundings) (s : Settings Float) (mode : ProgressMode) :
    Command → m Spoken
  | .parse file request => do
    match ← Tmx.openInput request file with
    | .error e => return .failure (unopened file e)
    | .ok documents =>
      let (units, report) := Tmx.readAll documents
      return parsed units report
  | .pairs file => do
    match ← Tmx.openInput ⟨none, none, []⟩ file with
    | .error e => return .failure (unopened file e)
    | .ok documents =>
      return .text ((Tmx.pairsOf (Tmx.readAll documents).1).flatMap fun p => p.text ++ ['\n'])
  | .query c =>
    withMemory s mode c.file c.loadDomain? fun memory => return ⟨[], c.answer s memory⟩
  | .exportUnits c =>
    withMemory s mode c.file c.loadDomain? fun memory => do
      let root := c.root?.getD (s.exportRoot?.getD w.exportRoot)
      let backend : Backend Float := memory.backend
      let finished ← (Job.Exports.mk root s.stamp).run backend c.request w.nextId w.now
      return finished.map fun r => shown r.json
  | .dedup file pair =>
    withMemory s mode file none fun memory =>
      let backend : Backend Float := memory.backend
      let groups := Job.findDuplicates backend pair {}
      return groups.map fun gs => shown (.array (gs.map (·.json)))
  | .check file pair domain =>
    withMemory s mode file (some domain) fun memory =>
      let backend : Backend Float := memory.backend
      let checker := Job.personalDataChecker []
      let summary := Job.checkContent backend pair domain checker s.batchSize
      return summary.map fun r => shown r.json
  | .tags text => return .text (shown (tagForms text))

/-- Carries out what a command line asks for. -/
def Invocation.run (w : Surroundings) (i : Invocation) : m Spoken := do
  match ← Settings.loadOrStandard i.settings with
  | .error f => return .failure f
  | .ok s => i.command.run w s (i.progress?.getD (if w.isInteractive then .human else .off))

end

/-! ## Command lines -/

/-- The name and the version of the program. -/
def versionLine : Text := "tm 0.5.1\n".toList

/-- How the program is used, line by line. -/
def usageLines : List String := [
  "Translation-memory matching, import/export and maintenance over TMX files",
  "",
  "Usage: tm [--config <CONFIG>] [--progress off|human|json] <COMMAND>",
  "",
  "Commands:",
  "  parse <FILE> [--domain <DOMAIN>] [--pair <PAIR>]... [--username <USERNAME>]",
  "  pairs <FILE>",
  "  query <FILE> <TEXT> --pair <PAIR> [--load-domain <DOMAIN>] [--domain <DOMAIN>]...",
  "        [--preferred-domain <DOMAIN>] [--min-match <SCORE>] [--concordance]",
  "        [--limit <LIMIT>] [--format json|moses]",
  "  export <FILE> --pair <PAIR> [--load-domain <DOMAIN>] [--domain <DOMAIN>]...",
  "        [--out <OUT>] [--duplicates-only] [--limit <LIMIT>] [--username <USERNAME>]",
  "  dedup <FILE> --pair <PAIR>",
  "  check <FILE> --pair <PAIR> --domain <DOMAIN>",
  "  tags <TEXT>"]

/-- How the program is used. -/
def usage : Text := usageLines.flatMap fun line => line.toList ++ ['\n']

/-- How a run ends whose command line asks for no command. -/
def Refusal.ending : Refusal → Ending
  | .help => ⟨0, usage, []⟩
  | .version => ⟨0, versionLine, []⟩
  | .misuse => ⟨2, [], usage⟩

/-- Runs a command line. -/
def runLine {m : Type → Type} [Monad m] [FileAccess m] (w : Surroundings) (words : List Text) :
    m Ending := do
  match Invocation.ofWords words with
  | .error refusal => return refusal.ending
  | .ok i => return (← i.run w).ending

end Bitext.Command
