import Bitext.Job.Progress
import Bitext.Memory.Basic

/-!
# Duplicates

Groups the units of a pair by their content.  Groups with more than one member are reported in the
order of their first members.
-/
namespace Bitext.Job

/-- Units with one content. -/
structure DuplicateGroup where
  /-- The content key that the members share. -/
  key : Text
  sourceText : Text
  targetText : Text
  count : Nat
  /-- The domains of all members, each once. -/
  domains : List Text
  /-- The file names of all members, each once. -/
  fileNames : List Text
  deriving DecidableEq, Repr

/-- Adds the texts that are not in a list yet. -/
def addNew (known new : List Text) : List Text :=
  new.foldl (fun known t => if known.contains t then known else known ++ [t]) known

namespace DuplicateGroup

/-- A group without members. -/
def start (key : Text) (u : TranslationUnit) : DuplicateGroup :=
  ⟨key, u.sourceText, u.targetText, 0, [], []⟩

/-- Adds a member. -/
def add (g : DuplicateGroup) (u : TranslationUnit) : DuplicateGroup :=
  { g with
    count := g.count + 1
    domains := addNew g.domains u.domains
    fileNames := addNew g.fileNames u.fileName?.toList }

end DuplicateGroup

/-- Adds a unit to the group of its key, or to a new group at the end. -/
def addToGroup (key : Text) (u : TranslationUnit) : List DuplicateGroup → List DuplicateGroup
  | [] => [(DuplicateGroup.start key u).add u]
  | g :: rest => if g.key = key then g.add u :: rest else g :: addToGroup key u rest

/-- All groups of units. -/
def groupsOf (units : List TranslationUnit) : List DuplicateGroup :=
  units.foldl (fun groups u => addToGroup u.contentKey u groups) []

/-- The groups of a pair with more than one member. -/
def findDuplicates {α : Type} (backend : Backend α) (pair : LanguagePair)
    (filters : SearchFilters) : Finished (List DuplicateGroup) :=
  let job := "dedup ".toList ++ pair.text
  match backend.scan pair filters with
  | .error e =>
    ⟨[.scanning job],
      .error ⟨["Failed to scan units for deduplication".toList], some (.engine e)⟩⟩
  | .ok units =>
    ⟨[.scanning job, .processing job units.length (some units.length)],
      .ok ((groupsOf units).filter (1 < ·.count))⟩

end Bitext.Job
