import Bitext.Batch
import Bitext.Job.Progress
import Bitext.Memory.Basic

/-!
# Content checks

Checks the texts of all units of a domain in batches, and collects the units with a text that did
not pass, marked with the number of such texts.
-/
namespace Bitext.Job

/-- Gives one verdict for each of its texts, in order; a text with the verdict `true` has passed. -/
abbrev Checker := List Text → List Bool

/-- What a content check has found. -/
structure CheckSummary where
  checked : Nat := 0
  passed : Nat := 0
  failed : Nat := 0
  /-- The units that failed, with their number of failed texts. -/
  flagged : List TranslationUnit := []
  deriving DecidableEq, Repr

namespace CheckSummary

/-- Adds a unit and the verdicts on its two texts. -/
def add (s : CheckSummary) (u : TranslationUnit) (source target : Bool) : CheckSummary :=
  let failures := [source, target].count false
  if failures = 0 then { s with checked := s.checked + 1, passed := s.passed + 1 }
  else
    { s with
      checked := s.checked + 1
      failed := s.failed + 1
      flagged := s.flagged ++ [{ u with failedChecks? := some failures }] }

/-- Adds a batch of units and the verdicts on their texts. -/
def addBatch (s : CheckSummary) : List TranslationUnit → List Bool → CheckSummary
  | u :: units, source :: target :: verdicts => (s.add u source target).addBatch units verdicts
  | _, _ => s

end CheckSummary

/-- The texts of a batch, in order. -/
def textsOf (batch : List TranslationUnit) : List Text :=
  batch.flatMap fun u => [u.sourceText, u.targetText]

/-- The failure of a check with a wrong number of verdicts. -/
def wrongVerdicts (verdicts texts : Nat) : Failure :=
  ⟨["content checker returned ".toList ++ Text.ofNat verdicts ++ " verdicts for ".toList ++
    Text.ofNat texts ++ " texts".toList], none⟩

/-- Checks batches one after another, and tells about each. -/
def checkBatches (checker : Checker) (job : Text) (done : CheckSummary) :
    List (List TranslationUnit) → Finished CheckSummary
  | [] => ⟨[], .ok done⟩
  | batch :: rest =>
    let texts := textsOf batch
    let verdicts := checker texts
    if verdicts.length ≠ texts.length then
      ⟨[], .error (wrongVerdicts verdicts.length texts.length)⟩
    else
      let done := done.addBatch batch verdicts
      let finished := checkBatches checker job done rest
      { finished with progress := .processing job done.checked none :: finished.progress }

/-- Checks every unit of a domain for a pair. -/
def checkContent {α : Type} (backend : Backend α) (pair : LanguagePair) (domain : Text)
    (checker : Checker) (batchSize : Nat) : Finished CheckSummary :=
  let job := "content-check ".toList ++ pair.text ++ ' ' :: domain
  match backend.scan pair { domains := [domain] } with
  | .error e =>
    ⟨[.scanning job],
      .error ⟨["Failed to scan units for content check".toList], some (.engine e)⟩⟩
  | .ok units =>
    let finished :=
      checkBatches checker job {} (Batch.all (fun u => !u.isUsable) batchSize units)
    { finished with progress := .scanning job :: finished.progress }

end Bitext.Job
