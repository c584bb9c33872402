import Bitext.Archive.Layout
import Bitext.Error
import Bitext.Files.Access
import Bitext.Tmx.Document

/-!
# Inputs

An input is a TMX document or an archive of them.  Its documents are read one after another, and a
report counts what has been read; the counters of a document are added once it is left behind.  An
archive with a member that is packed or encrypted in a way that is not supported is refused before
anything is read; of a member with damaged data everything in front of the damage is read.

## Main definitions

* `documentsOf`: the documents of an input, from its bytes.
* `Report`: what is counted.
* `readAll`, `readFirst`: all units of an input, or the first so many, with the report.
-/
namespace Bitext.Tmx

/-- What came of a document of an input. -/
inductive Opened where
  /-- It was read. -/
  | document (d : Document)
  /-- It could not be opened any more when its turn came; it is shown by the given name. -/
  | unreadable (shown : Text)
  deriving DecidableEq, Repr

/-- What is counted while an input is read. -/
structure Report where
  /-- Documents begun. -/
  documents : Nat := 0
  units : Nat := 0
  /-- Records without units. -/
  skippedRecords : Nat := 0
  /-- Faults that were worked around. -/
  recoveredErrors : Nat := 0
  /-- Documents that could not be opened, are none, or were given up. -/
  failedDocuments : List Text := []
  deriving DecidableEq, Repr

/-- Every document could be read. -/
def Report.isClean (r : Report) : Bool := r.failedDocuments.isEmpty

namespace Report

/-- The report on a document that has been left behind, before the report on those after it. -/
def afterDocument (d : Document) (rest : Report) : Report where
  documents := rest.documents + 1
  units := d.units.length + rest.units
  skippedRecords := d.skipped + rest.skippedRecords
  recoveredErrors := d.recovered + rest.recoveredErrors
  failedDocuments := if d.failed then d.fileName :: rest.failedDocuments else rest.failedDocuments

/-- The report on a document that could not be opened, before the report on those after it. -/
def afterUnreadable (shown : Text) (rest : Report) : Report :=
  { rest with
    documents := rest.documents + 1
    failedDocuments := shown :: rest.failedDocuments }

end Report

/-- All units, and the report at the end. -/
def readAll : List Opened → List TranslationUnit × Report
  | [] => ([], {})
  | .document d :: rest =>
    let (units, report) := readAll rest
    (d.units ++ units, report.afterDocument d)
  | .unreadable shown :: rest =>
    let (units, report) := readAll rest
    (units, report.afterUnreadable shown)

/-- The first `n` units, or as many as there are, and the report at that point. -/
def readFirst : (n : Nat) → List Opened → List TranslationUnit × Report
  | 0, _ => ([], {})
  | _ + 1, [] => ([], {})
  | n + 1, .document d :: rest =>
    if n + 1 ≤ d.units.length then (d.units.take (n + 1), { documents := 1, units := n + 1 })
    else
      let (units, report) := readFirst (n + 1 - d.units.length) rest
      (d.units ++ units, report.afterDocument d)
  | n + 1, .unreadable shown :: rest =>
    let (units, report) := readFirst (n + 1) rest
    (units, report.afterUnreadable shown)

/-- The distinct pairs of units, in the order of their first unit. -/
def pairsOf (units : List TranslationUnit) : List LanguagePair := (units.map (·.pair)).eraseDups

/-! ## Opening -/

/-- What stands behind the last slash of a name. -/
def baseName (name : Text) : Text := (name.reverse.takeWhile (· ≠ '/')).reverse

/-- The document in an entry of an archive. -/
def openEntry (request : Import) (e : Archive.Entry) : Opened :=
  .document (Document.read ⟨request, baseName e.name⟩ e.unpacked)

/-- The fault for which an archive with the entry is refused, if there is one. -/
def entryFault? (path : Text) (e : Archive.Entry) : Option Error :=
  if e.isEncrypted then some (.memberEncrypted path e.name)
  else if !e.isReadable then some (.memberCompression path e.name e.methodName)
  else none

/-- The documents of an input with the given path and bytes. -/
def documentsOf (request : Import) (path : Text) (bytes : Bytes) : Except Error (List Opened) :=
  if Archive.isArchive bytes then
    match Archive.entries? bytes with
    | none => .error (.archiveDamaged path)
    | some entries =>
      let members := entries.filter (!·.isDirectory)
      match members.findSome? (entryFault? path) with
      | some fault => .error fault
      | none => .ok (members.map (openEntry request))
  else
    .ok [.document (Document.read ⟨request, (Path.fileName? path).getD []⟩ bytes)]

/-- Opens the input at a path. -/
def openInput {m : Type → Type} [Monad m] [FileAccess m] (request : Import) (path : Text) :
    m (Except Error (List Opened)) := do
  match ← FileAccess.read path with
  | .ok bytes => return documentsOf request path bytes
  | .error fault => return .error (.file fault)

end Bitext.Tmx
