import Bitext.Settings.Basic
import Bitext.Toml.Document

/-!
# Settings files

Reads settings from a TOML document.  Every section and every key may be missing; a section may also
be a list of its values in order.
-/
namespace Bitext.Settings

/-- The values of a section, by their position and key. -/
abbrev Section := Nat → String → Option Toml

/-- The section that a value gives; a missing one is empty. -/
def section? : Option Toml → Option Section
  | none => some fun _ _ => none
  | some (.table _ entries) => some fun _ key => entries.lookup key.toList
  | some (.array elements) | some (.tables elements) => some fun i _ => elements[i]?
  | _ => none

/-- A value of a given kind, or the standard one if it is missing. -/
def valueOr {β : Type} (read? : Toml → Option β) (standard : β) : Option Toml → Option β
  | none => some standard
  | some v => read? v

/-- A number, with or without a fraction. -/
def number? : Toml → Option Float
  | .float x => some x
  | .integer n => some (Float.ofInt n)
  | _ => none

/-- A natural number below a bound. -/
def naturalBelow? (bound : Nat) : Toml → Option Nat
  | .integer n => if 0 ≤ n && n.toNat < bound then some n.toNat else none
  | _ => none

/-- A text. -/
def text? : Toml → Option Text
  | .text t => some t
  | _ => none

/-- The settings that a table gives, before they are checked. -/
def ofTable? (entries : List (Text × Toml)) : Option (Settings Float) := do
  let standard : Settings Float := .standard
  let query ← section? (entries.lookup "query".toList)
  let maintenance ← section? (entries.lookup "maintenance".toList)
  let tmx ← section? (entries.lookup "tmx".toList)
  let exports ← section? (entries.lookup "export".toList)
  let count := valueOr (naturalBelow? UInt64.size)
  return {
    domainPenalty := ← valueOr number? standard.domainPenalty (query 0 "p_domain")
    dirtyPenalty := ← valueOr number? standard.dirtyPenalty (query 1 "p_dirty")
    mismatchPenalty := ← valueOr number? standard.mismatchPenalty (query 2 "mismatch_penalty")
    minMatch := ← valueOr number? standard.minMatch (query 3 "min_match")
    candidateLimit := ← count standard.candidateLimit (query 4 "candidate_limit")
    concordanceLimit := ← count standard.concordanceLimit (query 5 "concordance_limit")
    dirtyThreshold :=
      ← valueOr (naturalBelow? UInt32.size) standard.dirtyThreshold (maintenance 0 "dirty_threshold")
    batchSize := ← count standard.batchSize (maintenance 1 "chunk_size")
    stamp := {
      tool := ← valueOr text? standard.stamp.tool (tmx 0 "creation_tool")
      toolVersion := ← valueOr text? standard.stamp.toolVersion (tmx 1 "creation_tool_version")
      defaultMember := ← valueOr text? standard.stamp.defaultMember (tmx 2 "default_member") }
    exportRoot? := ← valueOr (fun v => (text? v).map some) none (exports 0 "path") }

/-- The settings of a document. -/
def parse (document : Text) : Except Failure (Settings Float) :=
  match Toml.parse? document with
  | some (.table _ entries) =>
    match ofTable? entries with
    | some settings =>
      match settings.flaw? with
      | some flaw => .error ⟨[flaw.message], none⟩
      | none => .ok settings
    | none => .error ⟨["Failed to parse config file".toList], none⟩
  | _ => .error ⟨["Failed to parse config file".toList], none⟩

section

variable {m : Type → Type} [Monad m] [FileAccess m]

/-- Reads the settings in a file. -/
def load (path : Text) : m (Except Failure (Settings Float)) := do
  let unreadable (fault : FileFault) : Failure :=
    ⟨["Failed to read config file: ".toList ++ path], some (.file fault)⟩
  match ← FileAccess.read path with
  | .error fault => return .error (unreadable fault)
  | .ok bytes =>
    match Unicode.Glyph.wellFormed? (Unicode.Utf8.decode bytes) with
    | some document => return parse document
    | none => return .error (unreadable .invalidText)

/-- Reads the settings in a file, or takes the standard ones if there is none. -/
def loadOrStandard (path : Text) : m (Except Failure (Settings Float)) := do
  if ← FileAccess.isPresent path then load path else return .ok .standard

end

end Bitext.Settings
