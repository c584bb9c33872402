import Bitext.Proofs.Archive.Layout
import Bitext.Proofs.Tmx.Restored
import Bitext.Proofs.Tmx.Stream

/-!
# Archives of documents read back

A session writes one document for each member, and an archive that holds them is read document by
document.  So the units of an archive are those of its members, in order, each of them restored,
whichever way the archive was packed.

## Main results

* `documentsOf_eq_of_stores`: the documents of an archive are those of its members that are files
* `readAll_documents`: the units of documents that were read without a fault
* `Session.write_members`: a session writes members with distinct names
* `Session.readAll_writtenArchive`: the units of portable members come back restored
-/

namespace Bitext.Tmx

open Archive (Stores Fits Holds)

variable {stamp : Stamp} {b : Bytes} {ms : List Archive.Member} {m : Archive.Member}
  {e : Archive.Entry}

/-! ## Documents of an archive -/

/-- The member is a file, not a directory. -/
def IsFileName (t : Text) : Prop := t.getLast? ≠ some '/' ∧ t.getLast? ≠ some '\\'

instance (t : Text) : Decidable (IsFileName t) := inferInstanceAs (Decidable (_ ∧ _))

theorem isDirectory_of_holds (h : Holds e m) : e.isDirectory = !decide (IsFileName m.name) := by
  rw [Bool.eq_iff_iff, Bool.not_eq_true', decide_eq_false_iff_not, IsFileName, not_and_or, not_not,
    not_not, Archive.Entry.isDirectory, h.name, Bool.or_eq_true, beq_iff_eq, beq_iff_eq]

theorem entryFault?_of_holds (h : Holds e m) (path : Text) : entryFault? path e = none :=
  entryFault?_eq_none h.isEncrypted h.isReadable path

theorem openEntry_of_holds (h : Holds e m) (request : Import) :
    openEntry request e = .document (Document.read ⟨request, baseName m.name⟩ m.content) := by
  rw [openEntry, Archive.Entry.content?_eq_some_iff.mp h.content?, h.name]

/-- **The documents of an archive are those of its members that are files**, in order. -/
theorem documentsOf_eq_of_stores (h : Stores b ms) (request : Import) (path : Text) :
    documentsOf request path b = .ok ((ms.filter fun m => IsFileName m.name).map fun m =>
      .document (Document.read ⟨request, baseName m.name⟩ m.content)) := by
  obtain ⟨harchive, es, hentries, hholds⟩ := h
  -- No entry is refused, and each that is a file is read as the document of its member.
  have hall : (∀ e ∈ es, entryFault? path e = none) ∧
      (es.filter (!·.isDirectory)).map (openEntry request) =
        (ms.filter fun m => IsFileName m.name).map fun m =>
          .document (Document.read ⟨request, baseName m.name⟩ m.content) := by
    clear hentries
    induction hholds with
    | nil => exact ⟨fun _ he => absurd he List.not_mem_nil, rfl⟩
    | cons hfirst _ ih =>
      obtain ⟨hfaults, hopened⟩ := ih
      refine ⟨List.forall_mem_cons.mpr ⟨entryFault?_of_holds hfirst path, hfaults⟩, ?_⟩
      rw [List.filter_cons, List.filter_cons, isDirectory_of_holds hfirst, Bool.not_not]
      split
      · rw [List.map_cons, List.map_cons, openEntry_of_holds hfirst, hopened]
      · exact hopened
  obtain ⟨hfaults, hopened⟩ := hall
  rw [documentsOf_of_entries harchive hentries (fun e he _ => hfaults e he), hopened]

/-- If all members are files, there is one document for each. -/
theorem documentsOf_of_stores (h : Stores b ms) (hnames : ∀ m ∈ ms, IsFileName m.name)
    (request : Import) (path : Text) :
    documentsOf request path b =
      .ok (ms.map fun m => .document (Document.read ⟨request, baseName m.name⟩ m.content)) := by
  have hfiles : ms.filter (fun m => IsFileName m.name) = ms :=
    List.filter_eq_self.mpr fun m hm => decide_eq_true (hnames m hm)
  rw [documentsOf_eq_of_stores h, hfiles]

/-- **The units of documents that were read without a fault** are all there, in order. -/
theorem readAll_documents (ds : List Document)
    (h : ∀ d ∈ ds, d.skipped = 0 ∧ d.recovered = 0 ∧ d.failed = false) :
    readAll (ds.map .document) =
      (ds.flatMap (·.units),
        { documents := ds.length, units := (ds.flatMap (·.units)).length }) := by
  induction ds with
  | nil => rfl
  | cons d ds ih =>
    obtain ⟨hskipped, hrecovered, hfailed⟩ := h d List.mem_cons_self
    have hrest := ih fun d hd => h d (List.mem_cons_of_mem _ hd)
    simp only [List.map_cons, readAll, hrest, Report.afterDocument, hskipped, hrecovered, hfailed,
      List.flatMap_cons, List.length_append, List.length_cons, Bool.false_eq_true, if_false]

/-! ## Written documents -/

/-- A document of writable units is read without a fault. -/
theorem read_document_of_isWritable (reading : Reading) (hpairs : reading.request.pairs = [])
    {us : List TranslationUnit} (h : ∀ u ∈ us, IsWritable stamp u) :
    Document.read reading (Unicode.Utf8.encode (documentText stamp us)) =
      ⟨reading.fileName, us.map (readUnit reading), 0, 0, false⟩ := by
  have hunits : us.flatMap (readUnits reading stamp.language?) = us.map (readUnit reading) := by
    induction us with
    | nil => rfl
    | cons u us ih =>
      rw [List.flatMap_cons, readUnits_of_isWritable (h u List.mem_cons_self) hpairs,
        ih fun v hv => h v (List.mem_cons_of_mem _ hv), List.map_cons, List.singleton_append]
  have hskipped : us.countP (fun u => (readUnits reading stamp.language? u).isEmpty) = 0 := by
    rw [List.countP_eq_zero]
    intro u hu
    rw [readUnits_of_isWritable (h u hu) hpairs]
    exact Bool.false_ne_true
  rw [read_documentText, hunits, hskipped]

namespace Session

/-- The members of a session, written one after another. -/
theorem write_members (s : Session) (members : List (Text × List TranslationUnit))
    (hopen : s.isClosed = false)
    (hnames : (s.members.map (·.name) ++ members.map Prod.fst).Nodup) :
    members.foldlM (fun s m => s.write m.2 (some m.1)) s = Except.ok (ε := Error)
      { s with members := s.members ++
        members.map fun m => ⟨m.1, documentText s.stamp m.2⟩ } := by
  induction members generalizing s with
  | nil =>
    rw [List.foldlM_nil, List.map_nil, List.append_nil]
    rfl
  | cons m members ih =>
    rw [List.map_cons, List.nodup_append] at hnames
    have hnew : s.members.any (·.name = m.1) = false := by
      rw [List.any_eq_false]
      intro w hw hname
      exact hnames.2.2 _ (List.mem_map_of_mem hw) _ List.mem_cons_self (of_decide_eq_true hname)
    have hwrite : s.write m.2 (some m.1) =
        .ok { s with members := s.members ++ [⟨m.1, documentText s.stamp m.2⟩] } := by
      simp only [write, hopen, hnew, Option.getD_some, Bool.false_eq_true, if_false]
    have hrest := ih { s with members := s.members ++ [⟨m.1, documentText s.stamp m.2⟩] } hopen (by
      rw [List.map_append, List.append_assoc]
      exact List.nodup_append.mpr hnames)
    rw [List.foldlM_cons, hwrite]
    apply hrest.trans
    rw [List.map_cons, List.append_assoc, List.singleton_append]

/-- The documents of a session of portable units hold them restored. -/
theorem read_member {us : List TranslationUnit} (h : ∀ u ∈ us, IsPortable stamp u) (name : Text) :
    Document.read ⟨{}, name⟩ (Unicode.Utf8.encode (documentText stamp us)) =
      ⟨name, us.map restored, 0, 0, false⟩ := by
  rw [read_document_of_isWritable ⟨{}, name⟩ rfl fun u hu => (h u hu).isWritable]
  rw [List.map_congr_left fun u hu => readUnit_of_isPortable (h u hu) rfl]

/-- The archive of a session that wrote the members and was closed. -/
def writtenArchive (stamp : Stamp) (members : List (Text × List TranslationUnit)) :
    List Archive.Member :=
  members.map fun m =>
    ⟨m.1, .ofTimestamp stamp.created, Unicode.Utf8.encode (documentText stamp m.2)⟩

theorem archive_eq (stamp : Stamp) (members : List (Text × List TranslationUnit))
    (isClosed : Bool) :
    (Session.mk stamp (members.map fun m => ⟨m.1, documentText stamp m.2⟩) isClosed).archive =
      writtenArchive stamp members := by
  rw [archive, List.map_map]
  rfl

/-- The units of an archive of portable units come back restored, however its members were
packed. -/
theorem readAll_writtenArchive {members : List (Text × List TranslationUnit)}
    (hfiles : ∀ m ∈ members, IsFileName m.1)
    (hunits : ∀ m ∈ members, ∀ u ∈ m.2, IsPortable stamp u)
    (hstores : Stores b (writtenArchive stamp members)) (path : Text) :
    ∃ documents, documentsOf {} path b = .ok documents ∧
      readAll documents = ((members.flatMap Prod.snd).map restored,
        { documents := members.length, units := (members.flatMap Prod.snd).length }) := by
  have hfileNames : ∀ m ∈ writtenArchive stamp members, IsFileName m.name := by
    intro m hm
    obtain ⟨w, hw, rfl⟩ := List.mem_map.mp hm
    exact hfiles w hw
  refine ⟨_, documentsOf_of_stores hstores hfileNames {} path, ?_⟩
  let documents : List Document :=
    members.map fun m => ⟨baseName m.1, m.2.map restored, 0, 0, false⟩
  have hdocuments : (writtenArchive stamp members).map
      (fun m => Opened.document (Document.read ⟨{}, baseName m.name⟩ m.content)) =
        documents.map .document := by
    rw [writtenArchive, List.map_map, List.map_map]
    refine List.map_congr_left fun m hm => ?_
    exact congrArg Opened.document (read_member (hunits m hm) (baseName m.1))
  have hread := readAll_documents documents (by
    intro d hd
    obtain ⟨m, -, rfl⟩ := List.mem_map.mp hd
    exact ⟨rfl, rfl, rfl⟩)
  have hall : documents.flatMap (·.units) = (members.flatMap Prod.snd).map restored := by
    rw [List.flatMap_map, List.map_flatMap]
  rw [hdocuments, hread, hall, List.length_map, List.length_map]

/-- A unit with markup of its own, an ampersand and properties of every kind. -/
def sampleUnit : TranslationUnit where
  sourceText := "1 < 2 & <T1>so on</T1>".toList
  targetText := "1 < 2 &amp; <b>etc".toList
  sourceLanguage := "en".toList
  targetLanguage := "es".toList
  fileName? := some "notes.txt".toList
  identifier? := some "\"1\"".toList
  industry? := some "Legal".toList
  properties := .ofList [("note".toList, " a\n".toList), (kindKey, "Help".toList)]
  targetProperties := .ofList [("x-origin".toList, "<MT>".toList)]

/-- What is written into the headers of the example. -/
def sampleStamp : Stamp :=
  ⟨"en".toList, "tool".toList, "1".toList, ⟨2024, 5, 6, 7, 8, 9⟩, "memory.tmx".toList⟩

theorem isPortable_sampleUnit : IsPortable sampleStamp sampleUnit where
  sourceLanguage := by decide +kernel
  targetLanguage := by decide +kernel
  different := by decide
  declared := rfl
  sourceText := by decide +kernel
  targetText := by decide +kernel
  fileName? := ⟨"notes.txt".toList, by decide +kernel⟩
  identifier? := by decide +kernel
  created? := by decide
  changed? := by decide
  properties := by decide +kernel
  sourceProperties := by decide +kernel
  targetProperties := by decide +kernel

/-- The archive of the example is small. -/
theorem fits_sample : Fits (Session.mk sampleStamp
    [⟨"a.tmx".toList, documentText sampleStamp [sampleUnit]⟩] true).archive where
  count := by decide
  names := by decide +kernel
  size := by decide +kernel
  distinct := by decide

end Session

end Bitext.Tmx
