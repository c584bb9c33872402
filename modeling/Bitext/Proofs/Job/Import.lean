import Bitext.Job.Import
import Bitext.Files.Tree
import Bitext.Proofs.Batch
import Bitext.Proofs.Tmx.Imported

/-!
# Imports store every unit

Units are looked at three times on their way into a memory: a document only yields them with texts
that are there, batches pass over blank ones, and a memory stores usable ones.  Since whatever is
read can be stored, batches and memory refuse nothing, and an import adds exactly the units of its
input, whatever the size of the batches.

## Main results

* `storeBatches_memory`: batches of usable units
* `importDocuments_of_isRead`: documents that were read
* `importDocuments_openInput`: the import of any input that can be opened
-/

namespace Bitext.Job

variable {m : Memory} {job path : Text} {batchSize : Nat} {batches : List (List TranslationUnit)}
  {documents : List Tmx.Opened}

/-! ## Batches -/

/-- A batch of usable units is stored as it is. -/
theorem insert_memory {batch : List TranslationUnit} (h : ∀ u ∈ batch, u.isUsable = true)
    (m : Memory) : Storage.memory.insert batch m = .ok (batch.length, ⟨m.units ++ batch⟩) := by
  have hkept : batch.filter (·.isUsable) = batch := List.filter_eq_self.mpr h
  simp only [Storage.memory, Memory.accepted, Memory.insert, hkept]

/-- **Batches of usable units** are stored one after another, and after each of them the number of
units so far is told. -/
theorem storeBatches_memory (h : ∀ batch ∈ batches, ∀ u ∈ batch, u.isUsable = true)
    (done : ImportSummary) (m : Memory) :
    storeBatches .memory job done m batches =
      (⟨(Batch.totals done.unitsRead batches).map fun n => .processing job n none,
        .ok { done with
          unitsRead := done.unitsRead + batches.flatten.length
          unitsStored := done.unitsStored + batches.flatten.length
          batches := done.batches + batches.length }⟩,
        ⟨m.units ++ batches.flatten⟩) := by
  induction batches generalizing done m with
  | nil =>
    rw [List.flatten_nil, List.append_nil]
    rfl
  | cons batch batches ih =>
    have hrest := ih fun b hb => h b (List.mem_cons_of_mem batch hb)
    simp only [storeBatches, insert_memory (h batch List.mem_cons_self), hrest, Batch.totals,
      List.map_cons, List.flatten_cons, List.length_append, List.length_cons, List.append_assoc,
      Nat.add_assoc, Nat.add_comm 1]

/-! ## Inputs -/

theorem isRead_of_openInput {tree : FileTree} {request : Tmx.Import} {path : Text}
    (h : ((Tmx.openInput request path : StateM FileTree _).run tree).1 = .ok documents) :
    ∀ o ∈ documents, o.IsRead := by
  have hread : (FileAccess.read path : StateM FileTree _).run tree =
      (tree.contentAt path, tree) := rfl
  rw [Tmx.openInput, StateT.run_bind, hread] at h
  cases hcontent : tree.contentAt path with
  | ok bytes =>
    rw [hcontent] at h
    exact Tmx.isRead_of_mem_documentsOf h
  | error fault =>
    rw [hcontent] at h
    cases h

/-- **The import of documents that were read** stores all units, in batches that hold them all. -/
theorem importDocuments_of_isRead (h : ∀ o ∈ documents, o.IsRead) (batchSize : Nat) (path : Text)
    (m : Memory) :
    let units := (Tmx.readAll documents).1
    let report := (Tmx.readAll documents).2
    let job := "import ".toList ++ path
    ∃ batches : List (List TranslationUnit),
      batches.flatten = units ∧ Batch.IsCut (max batchSize 1) batches ∧
      importDocuments .memory batchSize path (.ok documents) m =
        (⟨.scanning job :: (Batch.totals 0 batches).map fun n => .processing job n none,
          if report.isClean then .ok ⟨units.length, units.length, batches.length, report⟩
          else .error (brokenInput path ⟨units.length, units.length, batches.length, report⟩)⟩,
          ⟨m.units ++ units⟩) := by
  cases hread : Tmx.readAll documents with
  | mk units report =>
    intro _ _ job
    have husable : ∀ u ∈ units, u.isUsable = true := by
      intro u hu
      have hmem : u ∈ (Tmx.readAll documents).1 := by rwa [hread]
      exact (Tmx.isImported_of_mem_readAll h hmem).isUsable
    have hflatten : (Batch.all (fun u => !u.isUsable) batchSize units).flatten = units := by
      rw [Batch.flatten_all]
      refine List.filter_eq_self.mpr fun u hu => ?_
      rw [husable u hu]
      rfl
    have hbatches : ∀ batch ∈ Batch.all (fun u => !u.isUsable) batchSize units,
        ∀ u ∈ batch, u.isUsable = true := fun batch hbatch u hu =>
      husable u (hflatten ▸ List.mem_flatten_of_mem hbatch hu)
    refine ⟨_, hflatten, Batch.isCut_all _ _ _, ?_⟩
    simp only [importDocuments, hread, storeBatches_memory hbatches, hflatten, Nat.zero_add]
    rfl

/-- **An import stores every unit of its input**, behind those that were there, whether or not all
documents of the input could be read; it only succeeds if they could.  Batches of any size make no
difference but to how often it tells how far it has come. -/
theorem importDocuments_openInput {tree : FileTree} {request : Tmx.Import} {path : Text}
    (hopened : ((Tmx.openInput request path : StateM FileTree _).run tree).1 = .ok documents)
    (batchSize : Nat) (m : Memory) :
    let units := (Tmx.readAll documents).1
    let report := (Tmx.readAll documents).2
    let job := "import ".toList ++ path
    let summary : ImportSummary :=
      { unitsRead := units.length
        unitsStored := units.length
        batches := units.length ⌈/⌉ max batchSize 1
        report }
    let run := importDocuments .memory batchSize path
      ((Tmx.openInput request path : StateM FileTree _).run tree).1 m
    run.2.units = m.units ++ units ∧ report.units = units.length ∧
      (∀ u ∈ units, u.isUsable = true) ∧
      run.1.result = (if report.failedDocuments = [] then .ok summary
        else .error (brokenInput path summary)) ∧
      ∃ totals : List Nat,
        run.1.progress = .scanning job :: totals.map (fun n => .processing job n none) ∧
        totals.length = units.length ⌈/⌉ max batchSize 1 ∧ (0 :: totals).Pairwise (· < ·) ∧
        (0 :: totals).getLast (List.cons_ne_nil 0 totals) = units.length := by
  intro units report job summary run
  have hread := isRead_of_openInput hopened
  have hsize : 0 < max batchSize 1 := Nat.lt_of_lt_of_le Nat.one_pos (Nat.le_max_right batchSize 1)
  obtain ⟨batches, hflatten, hcut, himport⟩ := importDocuments_of_isRead hread batchSize path m
  have hcount : batches.length = units.length ⌈/⌉ max batchSize 1 := by
    rw [hcut.length_eq hsize, hflatten]
  have hrun : run = _ :=
    (congrArg (importDocuments .memory batchSize path · m) hopened).trans himport
  rw [hrun, hcount]
  refine ⟨rfl, ?_, ?_, ?_, Batch.totals 0 batches, rfl, ?_, ?_, ?_⟩
  · simp only [units, report, Tmx.readAll_eq]
    rfl
  · exact fun u hu => (Tmx.isImported_of_mem_readAll hread hu).isUsable
  · simp only [Tmx.Report.isClean, List.isEmpty_iff]
    rfl
  · rw [Batch.length_totals, hcount]
  · exact Batch.pairwise_totals (hcut.length_pos hsize) 0
  · rw [Batch.getLast_totals, hflatten, Nat.zero_add]

/-! ### An example -/

/-- A document with three records, the last one with a tag in it. -/
def threeRecords : Bytes :=
  Unicode.Utf8.encode <|
    "<tmx><body><tu><tuv xml:lang=\"en\"><seg>one</seg></tuv>".toList ++
    "<tuv xml:lang=\"es\"><seg>uno</seg></tuv></tu>".toList ++
    "<tu><tuv xml:lang=\"en\"><seg>two</seg></tuv>".toList ++
    "<tuv xml:lang=\"es\"><seg>dos</seg></tuv></tu>".toList ++
    "<tu><tuv xml:lang=\"en\"><seg> <b>three</b></seg></tuv>".toList ++
    "<tuv xml:lang=\"es\"><seg>tres</seg></tuv></tu></body></tmx>".toList

/-- The document in a file tree. -/
def threeRecordsTree : FileTree := { nodes := [(["in.tmx".toList], .file threeRecords)] }

/-- Three units make two batches of at most two. -/
theorem importDocuments_openInput_threeRecords :
    let opened :=
      ((Tmx.openInput {} "/in.tmx".toList : StateM FileTree _).run threeRecordsTree).1
    let run := importDocuments .memory 2 "/in.tmx".toList opened {}
    opened = .ok [.document (Tmx.Document.read ⟨{}, "in.tmx".toList⟩ threeRecords)] ∧
      run.1.result = .ok ⟨3, 3, 2, { documents := 1, units := 3 }⟩ ∧
      run.1.progress.length = 3 ∧ run.2.units.length = 3 := by
  intro opened run
  have hopened : opened =
      .ok [.document (Tmx.Document.read ⟨{}, "in.tmx".toList⟩ threeRecords)] := rfl
  have hreport : (Tmx.readAll [.document
      (Tmx.Document.read ⟨{}, "in.tmx".toList⟩ threeRecords)]).2 =
        { documents := 1, units := 3 } := by
    decide +kernel
  obtain ⟨hafter, hunits, -, hresult, totals, hprogress, hcount, -⟩ :=
    importDocuments_openInput hopened 2 {}
  rw [hreport] at hunits hresult
  refine ⟨hopened, hresult.trans ?_, ?_, ?_⟩
  · rw [← hunits]
    rfl
  · rw [hprogress, List.length_cons, List.length_map, hcount, ← hunits]
    rfl
  · rw [hafter, List.nil_append, ← hunits]

end Bitext.Job
