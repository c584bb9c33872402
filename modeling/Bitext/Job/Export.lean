import Bitext.Archive.Layout
import Bitext.Files.Access
import Bitext.Job.Progress
import Bitext.Memory.Basic
import Bitext.Tmx.Output

/-!
# Exports

Writes units of a pair as an archive with one TMX document.  Every export has an identifier of its
own.  The archive is written in a staging directory, whose name starts with a point, and the
directory gets its final name only when the archive is complete; so an export that is listed is never
half-written.

## Main definitions

* `ExportRequest`: what is exported.
* `Exports`: where exports are kept, and what their documents say about their making.
* `Exports.run`, `Exports.list`, `Exports.delete`.
-/
namespace Bitext.Job

/-- What is exported, and for whom. -/
structure ExportRequest where
  pair : LanguagePair
  userName : Text
  /-- Units of at least one of these domains; an empty list means all. -/
  domains : List Text := []
  fileNames : List Text := []
  duplicatesOnly : Bool := false
  /-- The greatest number of units. -/
  limit? : Option Nat := none
  deriving DecidableEq, Repr

namespace ExportRequest

/-- The units that are asked for. -/
def filters (r : ExportRequest) : SearchFilters :=
  { domains := r.domains, fileNames := r.fileNames, duplicatesOnly := r.duplicatesOnly }

/-- The name of the archive: the two languages in capitals. -/
def archiveName (r : ExportRequest) : Text :=
  Unicode.upper r.pair.source ++ '_' :: (Unicode.upper r.pair.target ++ ".zip".toList)

/-- The name of the member: that of the only domain with slashes replaced, a common one for several
domains, or else the default. -/
def memberName (r : ExportRequest) (default : Text) : Text :=
  match r.domains with
  | [] => default
  | [domain] => domain.map (fun c => if c == '/' || c == '\\' then '_' else c) ++ ".tmx".toList
  | _ => "combined.tmx".toList

end ExportRequest

/-- A finished export. -/
structure ExportRecord where
  id : Text
  /-- The path of the archive. -/
  path : Text
  /-- The name of the only member. -/
  member : Text
  /-- The number of units. -/
  units : Nat
  deriving DecidableEq, Repr

/-- A file of a finished export. -/
structure ExportFile where
  name : Text
  path : Text
  id : Text
  size : Nat
  deriving DecidableEq, Repr

/-- What the documents of exports say about their making. -/
structure ExportStamp where
  tool : Text
  toolVersion : Text
  defaultMember : Text
  deriving DecidableEq, Repr

/-- Where exports are kept: every user has a directory below the root. -/
structure Exports where
  root : Text
  stamp : ExportStamp
  deriving DecidableEq, Repr

/-- How many units are written between two signs of progress. -/
def progressStep : Nat := 1000

/-- The progress of writing a number of units. -/
def writingProgress (job : Text) (count : Nat) : List Progress :=
  (List.range (count / progressStep)).map (fun n => .processing job ((n + 1) * progressStep) none) ++
    [.processing job count (some count)]

namespace Exports

/-- The directory of a user. -/
def userDirectory (e : Exports) (userName : Text) : Text := Path.join e.root userName

/-- The staging directory of an export. -/
def staging (e : Exports) (userName id : Text) : Text :=
  Path.join (e.userDirectory userName) ('.' :: id)

/-- The final directory of an export. -/
def finished (e : Exports) (userName id : Text) : Text := Path.join (e.userDirectory userName) id

/-- The archive of an export with the given units. -/
def archiveOf (e : Exports) (r : ExportRequest) (created : Timestamp)
    (units : List TranslationUnit) : Except Error (List Archive.Member) :=
  let stamp : Tmx.Stamp :=
    { sourceLanguage := r.pair.source
      tool := e.stamp.tool
      toolVersion := e.stamp.toolVersion
      created := created
      defaultMember := e.stamp.defaultMember }
  let session : Tmx.Session := { stamp }
  (session.write units (some (r.memberName e.stamp.defaultMember))).map fun s => s.close.archive

section

variable {m : Type → Type} [Monad m] [FileAccess m]

/-- Writes the archive of an export at a path; yields the number of units. -/
def writeArchive {α : Type} (e : Exports) (backend : Backend α) (r : ExportRequest)
    (created : Timestamp) (path : Text) : m (Except Failure Nat) := do
  match ← FileAccess.write path [] with
  | .error fault =>
    return .error ⟨["Failed to create archive: ".toList ++ path], some (.file fault)⟩
  | .ok () =>
    match backend.scan r.pair r.filters with
    | .error error =>
      return .error ⟨["Failed to scan units for export".toList], some (.engine error)⟩
    | .ok units =>
      let units := match r.limit? with
        | some limit => units.take limit
        | none => units
      match e.archiveOf r created units with
      | .error error => return .error ⟨[], some (.engine error)⟩
      | .ok members =>
        match ← FileAccess.write path (Archive.encode members) with
        | .error fault => return .error ⟨[], some (.file fault)⟩
        | .ok () => return .ok units.length

/-- Exports units under a new identifier. -/
def run {α : Type} (e : Exports) (backend : Backend α) (r : ExportRequest) (id : Text)
    (created : Timestamp) : m (Finished ExportRecord) := do
  let staging := e.staging r.userName id
  let final := e.finished r.userName id
  let job := "export ".toList ++ r.pair.text ++ ' ' :: id
  match ← FileAccess.makeDirectories staging with
  | .error fault =>
    return ⟨[], .error ⟨["Failed to create export dir: ".toList ++ staging], some (.file fault)⟩⟩
  | .ok () =>
    match ← e.writeArchive backend r created (Path.join staging r.archiveName) with
    | .error failure =>
      let _ ← FileAccess.removeTree staging
      return ⟨[.scanning job], .error failure⟩
    | .ok count =>
      let progress := .scanning job :: writingProgress job count
      match ← FileAccess.move staging final with
      | .error fault =>
        return ⟨progress,
          .error ⟨["Failed to finalize export dir: ".toList ++ final], some (.file fault)⟩⟩
      | .ok () =>
        return ⟨progress,
          .ok ⟨id, Path.join final r.archiveName, r.memberName e.stamp.defaultMember, count⟩⟩

/-- Removes a finished export.  It is no failure if there is none. -/
def delete (e : Exports) (userName id : Text) : m (Except Failure Unit) := do
  let directory := e.finished userName id
  match ← FileAccess.removeTree directory with
  | .ok () | .error .notFound => return .ok ()
  | .error fault =>
    return .error ⟨["Failed to delete export: ".toList ++ directory], some (.file fault)⟩

end

section

variable {m : Type → Type} [Monad m] [DirectoryListing m]

/-- The files in a directory of an export. -/
def filesIn (directory id : Text) : List Text → m (List ExportFile)
  | [] => return []
  | name :: rest => do
    let path := Path.join directory name
    let files ← filesIn directory id rest
    match ← DirectoryListing.size? path with
    | some size => return ⟨name, path, id, size⟩ :: files
    | none => return files

/-- The files of the exports among the entries of a user's directory; those in staging are left
out. -/
def filesOf (directory : Text) (id? : Option Text) : List Text → m (Except FileFault (List ExportFile))
  | [] => return .ok []
  | id :: rest => do
    let path := Path.join directory id
    if id.head? == some '.' || id?.any (· ≠ id) then filesOf directory id? rest
    else if ← FileAccess.isDirectory path then
      match ← DirectoryListing.names path with
      | .error fault => return .error fault
      | .ok names =>
        let files ← filesIn path id names
        match ← filesOf directory id? rest with
        | .error fault => return .error fault
        | .ok more => return .ok (files ++ more)
    else filesOf directory id? rest

/-- The files of the finished exports of a user, or of one of them, by identifier and name. -/
def list (e : Exports) (userName : Text) (id? : Option Text) :
    m (Except Failure (List ExportFile)) := do
  let directory := e.userDirectory userName
  if ← FileAccess.isDirectory directory then
    match ← DirectoryListing.names directory with
    | .error fault =>
      return .error ⟨["Failed to read export dir: ".toList ++ directory], some (.file fault)⟩
    | .ok ids =>
      match ← filesOf directory id? ids with
      | .error fault => return .error ⟨[], some (.file fault)⟩
      | .ok files =>
        return .ok (files.mergeSort fun a b =>
          Text.precedes a.id b.id || (a.id == b.id && Text.atMost a.name b.name))
  else return .ok []

end

end Exports

end Bitext.Job
