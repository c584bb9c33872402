import Bitext.Batch
import Bitext.Job.Progress
import Bitext.Memory.Basic
import Bitext.Tmx.Input

/-!
# Importing

Reads an input and stores its units in batches.  An input in which a document failed is reported as
broken, but only after everything else has been stored.
-/
namespace Bitext.Job

/-- A place where batches of units are stored; it tells how many of them it took. -/
structure Storage (σ : Type) where
  insert : List TranslationUnit → σ → Except Error (Nat × σ)

/-- A memory stores the usable units of a batch. -/
def Storage.memory : Storage Memory where
  insert batch m := .ok (Memory.accepted batch, m.insert batch)

/-- What an import has done. -/
structure ImportSummary where
  unitsRead : Nat := 0
  unitsStored : Nat := 0
  batches : Nat := 0
  report : Tmx.Report := {}
  deriving DecidableEq, Repr

variable {σ : Type}

/-- Stores batches one after another, and tells about each; it stops when one is refused. -/
def storeBatches (storage : Storage σ) (job : Text) (done : ImportSummary) (s : σ) :
    List (List TranslationUnit) → Finished ImportSummary × σ
  | [] => (⟨[], .ok done⟩, s)
  | batch :: rest =>
    match storage.insert batch s with
    | .error e => (⟨[], .error ⟨["Failed to store imported units".toList], some (.engine e)⟩⟩, s)
    | .ok (stored, s) =>
      let done : ImportSummary :=
        { done with
          unitsRead := done.unitsRead + batch.length
          unitsStored := done.unitsStored + stored
          batches := done.batches + 1 }
      let (finished, s) := storeBatches storage job done s rest
      ({ finished with progress := .processing job done.unitsRead none :: finished.progress }, s)

/-- The failure of an import whose input is broken. -/
def brokenInput (path : Text) (summary : ImportSummary) : Failure :=
  ⟨["TMX input ".toList ++ path ++ " is broken: could not read ".toList ++
    Text.join ", ".toList summary.report.failedDocuments ++ " (stored ".toList ++
    Text.ofNat summary.unitsStored ++ " units before failing)".toList], none⟩

/-- Imports the documents that were opened at a path. -/
def importDocuments (storage : Storage σ) (batchSize : Nat) (path : Text)
    (opened : Except Error (List Tmx.Opened)) (s : σ) : Finished ImportSummary × σ :=
  let job := "import ".toList ++ path
  match opened with
  | .error e =>
    (⟨[.scanning job],
      .error ⟨["Failed to open TMX input: ".toList ++ path], some (.engine e)⟩⟩, s)
  | .ok documents =>
    let (units, report) := Tmx.readAll documents
    let (finished, s) :=
      storeBatches storage job { report } s (Batch.all (fun u => !u.isUsable) batchSize units)
    let result :=
      finished.result.bind fun summary =>
        if report.isClean then .ok summary else .error (brokenInput path summary)
    (⟨.scanning job :: finished.progress, result⟩, s)

end Bitext.Job
