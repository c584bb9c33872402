import Bitext.Job.Export
import Bitext.Proofs.Files.Tree
import Bitext.Proofs.Job.Import
import Bitext.Proofs.Tmx.RoundTrip

/-!
# Exports read back

A memory that imports have filled holds only what can be read of inputs, and that can be written
and read again without loss.  An export takes the units of a scan, seen from its pair; so the
archive of an export has exactly these units, in the languages of the pair, whichever way round they
were stored.

## Main definitions

* `Filled`: memories that only imports have filled.
* `ExportRequest.limited`: the units that an export takes of a scan.
* `Returns`: what is read back of a unit.

## Main results

* `Filled.isImported`: what every unit of such a memory has
* `Filled.mem_scan`: what every unit of a scan has
* `Exports.readAll_exported`: the archive of an export is read back without loss
* `Exports.documentsOf_exported_of_not_isFileName`: nothing is read of an export under the name of a
  directory
-/

namespace Bitext.Job

open Tmx (IsImported IsWritable IsFileName)
open Archive (Stores Fits)

variable {m : Memory} {u v : TranslationUnit} {pair : LanguagePair} {filters : SearchFilters}

/-! ## Memories -/

/-- The memories that are filled by imports only: of any paths in any file trees, with any wishes,
in batches of any size, one after another. -/
inductive Filled : Memory → Prop where
  | empty : Filled {}
  | importing {m : Memory} (h : Filled m) (tree : FileTree) (request : Tmx.Import) (batchSize : Nat)
      (path : Text) :
      Filled (importDocuments .memory batchSize path
        ((Tmx.openInput request path : StateM FileTree _).run tree).1 m).2

/-- **Every unit of a memory that imports have filled** is one as inputs have them. -/
theorem Filled.isImported (h : Filled m) (hu : u ∈ m.units) : IsImported u := by
  induction h with
  | empty => cases hu
  | importing h tree request batchSize path ih =>
    cases hopened : ((Tmx.openInput request path : StateM FileTree _).run tree).1 with
    | error e =>
      rw [hopened] at hu
      exact ih hu
    | ok documents =>
      have hread := isRead_of_openInput hopened
      obtain ⟨_, -, -, himport⟩ := importDocuments_of_isRead hread batchSize path _
      rw [hopened, himport] at hu
      rcases List.mem_append.mp hu with hu | hu
      · exact ih hu
      · exact Tmx.isImported_of_mem_readAll hread hu

theorem oriented?_eq_some (h : u.oriented? pair = some v) :
    v.pair = pair ∧ (v = u ∨ v = u.reversed) := by
  unfold TranslationUnit.oriented? at h
  split at h
  · rename_i hpair
    cases h
    exact ⟨hpair, .inl rfl⟩
  · split at h
    · rename_i hpair
      cases h
      exact ⟨hpair, .inr rfl⟩
    · cases h

/-- **Every unit of a scan** is one as inputs have them, seen from the pair. -/
theorem Filled.mem_scan (h : Filled m) (hv : v ∈ m.scan pair filters) :
    IsImported v ∧ v.pair = pair := by
  obtain ⟨u, hu, hyield⟩ := List.mem_filterMap.mp hv
  obtain ⟨horiented, -⟩ := Option.filter_eq_some_iff.mp hyield
  obtain ⟨hpair, rfl | rfl⟩ := oriented?_eq_some horiented
  · exact ⟨h.isImported hu, hpair⟩
  · exact ⟨(h.isImported hu).reversed, hpair⟩

/-! ## Units -/

/-- What is read back of a unit: the texts, the identifier and the dates, in the languages of the
pair. -/
structure Returns (pair : LanguagePair) (u v : TranslationUnit) : Prop where
  sourceText : v.sourceText = u.sourceText
  targetText : v.targetText = u.targetText
  sourceLanguage : v.sourceLanguage = pair.source
  targetLanguage : v.targetLanguage = pair.target
  identifier? : v.identifier? = u.identifier?
  created? : v.created? = u.created?
  changed? : v.changed? = u.changed?

/-- A unit seen from a pair can be written under its source language. -/
theorem isWritable_of_isImported {stamp : Tmx.Stamp} (h : IsImported u) (hpair : u.pair = pair)
    (hdifferent : pair.source ≠ pair.target) (hstamp : stamp.sourceLanguage = pair.source) :
    IsWritable stamp u := by
  have hsource : primarySubtag u.sourceLanguage = pair.source := congrArg (·.source) hpair
  have htarget : primarySubtag u.targetLanguage = pair.target := congrArg (·.target) hpair
  obtain ⟨hsourceLanguage, y, hy⟩ := h.sourceLanguage
  obtain ⟨htargetLanguage, z, hz⟩ := h.targetLanguage
  refine ⟨h.sourceText.1, h.targetText.1, h.sourceText.2, h.targetText.2, ?_, ?_, ?_, ?_⟩
  · rw [hy] at hsourceLanguage ⊢
    exact primarySubtag_ne_nil hsourceLanguage
  · rw [hz] at htargetLanguage ⊢
    exact primarySubtag_ne_nil htargetLanguage
  · rw [hsource, htarget]
    exact hdifferent
  · rw [hstamp, ← hsource, hy, primarySubtag_twice]

theorem returns_readUnit {reading : Tmx.Reading} (h : IsImported u) (hpair : u.pair = pair) :
    Returns pair u (Tmx.readUnit reading u) where
  sourceText := rfl
  targetText := rfl
  sourceLanguage := congrArg (·.source) hpair
  targetLanguage := congrArg (·.target) hpair
  identifier? := Tmx.map_trim h.identifier?
  created? := Tmx.map_trim h.created?
  changed? := Tmx.map_trim h.changed?

/-- What is read back has the same texts, in the same order. -/
theorem map_texts_of_returns {us vs : List TranslationUnit}
    (h : List.Forall₂ (Returns pair) us vs) :
    vs.map (fun u => (u.sourceText, u.targetText)) =
      us.map fun u => (u.sourceText, u.targetText) := by
  induction h with
  | nil => rfl
  | cons hfirst _ ih =>
    rw [List.map_cons, List.map_cons, ih, hfirst.sourceText, hfirst.targetText]

/-! ## Exports -/

/-- The units that an export takes of a scan. -/
def ExportRequest.limited (r : ExportRequest) (units : List TranslationUnit) :
    List TranslationUnit :=
  match r.limit? with
  | some limit => units.take limit
  | none => units

theorem ExportRequest.mem_of_mem_limited {r : ExportRequest} {units : List TranslationUnit}
    (h : u ∈ r.limited units) : u ∈ units := by
  unfold limited at h
  split at h
  · exact List.mem_of_mem_take h
  · exact h

/-- The member of an export is a file, not a directory: only the default name is taken as it is. -/
theorem ExportRequest.isFileName_memberName (r : ExportRequest) {default : Text}
    (h : r.domains = [] → IsFileName default) : IsFileName (r.memberName default) := by
  have hending (t : Text) : IsFileName (t ++ ".tmx".toList) := by
    constructor <;> simp
  unfold memberName
  split
  · rename_i hdomains
    exact h hdomains
  · exact hending _
  · exact hending "combined".toList

namespace Exports

variable {e : Exports} {r : ExportRequest} {created : Timestamp}

/-- What the document of an export says about its making. -/
def documentStamp (e : Exports) (r : ExportRequest) (created : Timestamp) : Tmx.Stamp where
  sourceLanguage := r.pair.source
  tool := e.stamp.tool
  toolVersion := e.stamp.toolVersion
  created := created
  defaultMember := e.stamp.defaultMember

/-- The only member of an export. -/
def exportedMember (e : Exports) (r : ExportRequest) (created : Timestamp)
    (units : List TranslationUnit) : Archive.Member :=
  ⟨r.memberName e.stamp.defaultMember, .ofTimestamp created,
    Unicode.Utf8.encode (Tmx.documentText (e.documentStamp r created) units)⟩

theorem archiveOf_eq (units : List TranslationUnit) :
    e.archiveOf r created units = .ok [e.exportedMember r created units] := rfl

theorem run_write (path : Text) (content : Bytes) (tree : FileTree) :
    (FileAccess.write path content : StateM FileTree _).run tree =
      match tree.withFile path content with
      | .ok tree => (.ok (), tree)
      | .error fault => (.error fault, tree) := rfl

/-- Writes members at a path, the last step of an export. -/
def writeMembers (path : Text) (count : Nat) (members : List Archive.Member) :
    StateM FileTree (Except Failure Nat) := do
  match ← FileAccess.write path (Archive.encode members) with
  | .error fault => return .error ⟨[], some (.file fault)⟩
  | .ok () => return .ok count

/-- **What an export writes** at its path is the archive of the units that it takes of the scan. -/
theorem contentAt_writeArchive {α : Type} [Score α] {path : Text} {tree tree' : FileTree} {n : Nat}
    (h : (e.writeArchive (m.backend : Backend α) r created path : StateM FileTree _).run tree =
      (.ok n, tree')) :
    n = (r.limited (m.scan r.pair r.filters)).length ∧
      tree'.contentAt path = .ok (Archive.encode
        [e.exportedMember r created (r.limited (m.scan r.pair r.filters))]) := by
  -- The file is emptied before the members are put together, and written once they are.
  rw [writeArchive, StateT.run_bind, run_write] at h
  cases hempty : tree.withFile path [] with
  | error fault =>
    rw [hempty] at h
    cases h
  | ok emptied =>
    rw [hempty] at h
    have hrest : (writeMembers path (r.limited (m.scan r.pair r.filters)).length
        [e.exportedMember r created (r.limited (m.scan r.pair r.filters))]).run emptied =
          (.ok n, tree') := h
    rw [writeMembers, StateT.run_bind, run_write] at hrest
    cases hwritten : emptied.withFile path (Archive.encode
        [e.exportedMember r created (r.limited (m.scan r.pair r.filters))]) with
    | error fault =>
      rw [hwritten] at hrest
      cases hrest
    | ok written =>
      rw [hwritten] at hrest
      cases hrest
      exact ⟨rfl, FileTree.contentAt_withFile hwritten⟩

/-- **The archive of an export is read back without loss**: one unit for each unit of the scan up to
the limit, in the same order, with its texts, identifier and dates, in the languages of the pair.
Only a request without domains leaves the name of the member to the settings. -/
theorem readAll_exported {α : Type} [Score α] (hm : Filled m) (e : Exports) (r : ExportRequest)
    (created : Timestamp) (hpair : r.pair.source ≠ r.pair.target)
    (hname : r.domains = [] → IsFileName e.stamp.defaultMember) :
    ∃ members, e.archiveOf r created (r.limited (m.scan r.pair r.filters)) = .ok members ∧
      (∀ path tree tree' n,
        (e.writeArchive (m.backend : Backend α) r created path : StateM FileTree _).run tree =
          (.ok n, tree') →
        n = (r.limited (m.scan r.pair r.filters)).length ∧
          tree'.contentAt path = .ok (Archive.encode members)) ∧
      (Fits members → Stores (Archive.encode members) members) ∧
      ∀ path bytes, Stores bytes members →
        ∃ documents, Tmx.documentsOf {} path bytes = .ok documents ∧
          List.Forall₂ (Returns r.pair) (r.limited (m.scan r.pair r.filters))
            (Tmx.readAll documents).1 := by
  refine ⟨_, archiveOf_eq _, fun path tree tree' n h => contentAt_writeArchive h,
    Archive.stores_encode, fun path bytes hstores => ?_⟩
  have hfile : ∀ w ∈ [e.exportedMember r created (r.limited (m.scan r.pair r.filters))],
      IsFileName w.name := by
    intro w hw
    rw [List.mem_singleton.mp hw]
    exact r.isFileName_memberName hname
  -- The member is read like any document of writable units, and every unit of a scan is one.
  have hscan : ∀ u ∈ r.limited (m.scan r.pair r.filters), IsImported u ∧ u.pair = r.pair :=
    fun u hu => hm.mem_scan (ExportRequest.mem_of_mem_limited hu)
  have hwritable : ∀ u ∈ r.limited (m.scan r.pair r.filters),
      IsWritable (e.documentStamp r created) u := fun u hu =>
    isWritable_of_isImported (hscan u hu).1 (hscan u hu).2 hpair rfl
  refine ⟨_, Tmx.documentsOf_of_stores hstores hfile {} path, ?_⟩
  have hread := Tmx.read_document_of_isWritable
    ⟨{}, Tmx.baseName (r.memberName e.stamp.defaultMember)⟩ rfl hwritable
  have hunits : (Tmx.readAll ([e.exportedMember r created (r.limited (m.scan r.pair r.filters))].map
      fun w => .document (Tmx.Document.read ⟨{}, Tmx.baseName w.name⟩ w.content))).1 =
        (r.limited (m.scan r.pair r.filters)).map
          (Tmx.readUnit ⟨{}, Tmx.baseName (r.memberName e.stamp.defaultMember)⟩) := by
    simp only [List.map_cons, List.map_nil, exportedMember, hread, Tmx.readAll, List.append_nil]
  rw [hunits, List.forall₂_map_right_iff, List.forall₂_same]
  exact fun u hu => returns_readUnit (hscan u hu).1 (hscan u hu).2

/-- The condition on the default name is needed: an export under a name that ends with a slash is
written as usual, and when it is read its only member is passed over as a directory. -/
theorem documentsOf_exported_of_not_isFileName (e : Exports) (r : ExportRequest)
    (created : Timestamp) (units : List TranslationUnit) (hdomains : r.domains = [])
    (hname : ¬ IsFileName e.stamp.defaultMember) :
    ∃ members, e.archiveOf r created units = .ok members ∧
      ∀ path bytes, Stores bytes members → Tmx.documentsOf {} path bytes = .ok [] := by
  refine ⟨_, archiveOf_eq _, fun path bytes hstores => ?_⟩
  have hmember : (e.exportedMember r created units).name = e.stamp.defaultMember := by
    simp only [exportedMember, ExportRequest.memberName, hdomains]
  have hnone : [e.exportedMember r created units].filter (fun m => IsFileName m.name) = [] := by
    rw [List.filter_singleton, hmember, decide_eq_false hname]
    rfl
  rw [Tmx.documentsOf_eq_of_stores hstores, hnone, List.map_nil]

/-! ### An example -/

/-- A file tree with one document, in which two languages are named more closely than needed. -/
def sampleTree : FileTree where
  nodes := [(["in.tmx".toList], .file (Unicode.Utf8.encode
    ("<tmx version=\"1.4\"><header srclang=\"EN\"/><body><tu tuid=\"7\"><tuv xml:lang=\"en-GB\">" ++
      "<seg>1 &lt; 2</seg></tuv><tuv xml:lang=\"es_MX\"><seg>uno</seg></tuv></tu></body></tmx>"
    ).toList))]

/-- The memory that is filled with the document. -/
def sampleMemory : Memory :=
  (importDocuments .memory 10 "/in.tmx".toList
    ((Tmx.openInput {} "/in.tmx".toList : StateM FileTree _).run sampleTree).1 {}).2

/-- What is exported of it: the direction opposite to that of the document. -/
def sampleRequest : ExportRequest where
  pair := ⟨"es".toList, "en".toList⟩
  userName := "user".toList

def sampleExports : Exports :=
  ⟨"/exports".toList, ⟨"tool".toList, "1".toList, "memory.tmx".toList⟩⟩

theorem filled_sampleMemory : Filled sampleMemory := .importing .empty _ _ _ _

theorem scan_sampleMemory : (sampleMemory.scan sampleRequest.pair sampleRequest.filters).map
    (fun u => (u.sourceText, u.targetText)) = [("uno".toList, "1 < 2".toList)] := by
  decide +kernel

theorem fits_sample : Fits [sampleExports.exportedMember sampleRequest ⟨2024, 5, 6, 7, 8, 9⟩
    (sampleRequest.limited (sampleMemory.scan sampleRequest.pair sampleRequest.filters))] where
  count := by decide
  names := by
    intro w hw
    rw [List.mem_singleton.mp hw]
    exact (by decide : Unicode.Utf8.size "memory.tmx".toList < Nat.pow 256 2)
  size := by decide +kernel
  distinct := by decide

theorem readAll_exported_sample :
    ∃ members documents, sampleExports.archiveOf sampleRequest ⟨2024, 5, 6, 7, 8, 9⟩
        (sampleMemory.scan sampleRequest.pair sampleRequest.filters) = .ok members ∧
      Tmx.documentsOf {} "out.zip".toList (Archive.encode members) = .ok documents ∧
      (Tmx.readAll documents).1.map (fun u => (u.sourceText, u.targetText)) =
        [("uno".toList, "1 < 2".toList)] := by
  obtain ⟨members, harchive, -, hstores, hread⟩ := readAll_exported (α := Rat)
    filled_sampleMemory sampleExports sampleRequest ⟨2024, 5, 6, 7, 8, 9⟩ (by decide) (by decide)
  have hmembers : [sampleExports.exportedMember sampleRequest ⟨2024, 5, 6, 7, 8, 9⟩
      (sampleRequest.limited (sampleMemory.scan sampleRequest.pair sampleRequest.filters))] =
        members := Except.ok.inj harchive
  subst hmembers
  obtain ⟨documents, hopened, hunits⟩ := hread "out.zip".toList _ (hstores fits_sample)
  refine ⟨_, documents, harchive, hopened, ?_⟩
  have htexts : (Tmx.readAll documents).1.map (fun u => (u.sourceText, u.targetText)) =
      (sampleMemory.scan sampleRequest.pair sampleRequest.filters).map
        fun u => (u.sourceText, u.targetText) := map_texts_of_returns hunits
  rw [htexts, scan_sampleMemory]

end Exports

end Bitext.Job
