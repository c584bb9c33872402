import Bitext.Proofs.Tmx.Closings
import Bitext.Proofs.Tmx.Stream
import Bitext.Proofs.Xml.Interrupted

/-!
# Damaged members

Of an archive whose members have damaged data everything in front of the damage is read.  No event
takes back a fault that has been counted, and a document with damaged data has a fault at its end,
so whatever else is in it, the damage is counted.

## Main results

* `DocumentState.recovered_le_step`, `DocumentState.recovered_lt_run`: the faults that one event and
  all items leave counted
* `Document.recovered_pos_of_isDamaged`: a damaged document is not read without a fault
* `Document.dropLast_records_damaged`: its records are those in front of the damage
* `readAll_damaged`: the faults of an archive are at least its damaged members
-/

namespace Bitext.Tmx

open Bitext.Unicode (Glyph)

namespace DocumentState

variable {reading : Reading} {s : DocumentState} {g : OpenSegment} {name content : List Glyph}

/-! ## Faults that have been counted -/

theorem recovered_closeRecord : (s.closeRecord reading).1.recovered = s.recovered := by
  unfold closeRecord
  split <;> rfl

theorem recovered_le_closeOverdue :
    s.recovered ≤ (s.closeOverdue reading).1.recovered := by
  unfold closeOverdue
  split
  · rw [recovered_closeRecord]
    exact Nat.le_succ _
  · exact Nat.le_refl _

theorem recovered_closeProperty : s.closeProperty.recovered = s.recovered := by
  unfold closeProperty
  split
  · rfl
  · dsimp only
    split <;> rfl

theorem recovered_openVariant (isEmpty : Bool) :
    (s.openVariant content isEmpty).recovered = s.recovered := by
  unfold openVariant
  split
  · rfl
  · dsimp only
    split <;> rfl

theorem recovered_openSegment (isEmpty : Bool) :
    (s.openSegment isEmpty).recovered = s.recovered := by
  unfold openSegment
  split
  · rfl
  · split <;> rfl

theorem recovered_addText (inSegment inProperty : Text) :
    (s.addText inSegment inProperty).recovered = s.recovered := by
  unfold addText
  split <;> rfl

theorem recovered_le_openRecord (isEmpty : Bool) :
    s.recovered ≤ (s.openRecord reading content isEmpty).1.recovered := by
  have hoverdue : s.recovered ≤ (s.closeOverdue reading).1.recovered := recovered_le_closeOverdue
  unfold openRecord
  dsimp only
  split
  · rw [recovered_closeRecord]
    exact hoverdue
  · exact hoverdue

theorem recovered_le_openElement (isEmpty : Bool) :
    s.recovered ≤ (s.openElement reading content isEmpty).1.recovered := by
  unfold openElement
  dsimp only
  split_ifs
  · exact Nat.le_refl _
  · exact Nat.le_refl _
  · exact recovered_le_openRecord isEmpty
  · exact Nat.le_of_eq (recovered_openVariant isEmpty).symm
  · exact Nat.le_refl _
  · exact Nat.le_of_eq (recovered_openSegment isEmpty).symm
  · exact Nat.le_refl _

theorem recovered_le_closeElement :
    s.recovered ≤ (s.closeElement reading name).1.recovered := by
  unfold closeElement
  split_ifs
  · exact Nat.le_of_eq recovered_closeProperty.symm
  · exact Nat.le_refl _
  · exact Nat.le_of_eq recovered_closeRecord.symm
  · exact recovered_le_closeOverdue
  · exact Nat.le_refl _

theorem recovered_le_closeInSegment :
    s.recovered ≤ (s.closeInSegment reading name g).1.recovered := by
  unfold closeInSegment
  dsimp only
  split_ifs
  · exact Nat.le_refl _
  · exact Nat.le_refl _
  · exact Nat.le_refl _
  · have hclose : (s.closeSegment g.raw).recover.recovered ≤
        ((s.closeSegment g.raw).recover.closeElement reading name).1.recovered :=
      recovered_le_closeElement
    exact Nat.le_of_succ_le hclose

/-- **No event takes back a fault.** -/
theorem recovered_le_step (e : Xml.Event) : s.recovered ≤ (s.step reading e).1.recovered := by
  cases e with
  | start content | empty content =>
    simp only [step]
    split
    · exact Nat.le_refl _
    · exact recovered_le_openElement _
  | stop name =>
    simp only [step]
    split
    · exact recovered_le_closeInSegment
    · exact recovered_le_closeElement
  | text raw | data raw => exact Nat.le_of_eq (recovered_addText _ _).symm
  | other => exact Nat.le_refl _

theorem recovered_le_run (faults : Nat) (items : List Xml.Item) :
    s.recovered ≤ (s.run reading faults items).1.recovered := by
  induction items generalizing s faults with
  | nil => exact recovered_le_closeOverdue
  | cons item rest ih =>
    cases item with
    | event e => exact Nat.le_trans (recovered_le_step e) (ih 0)
    | illFormed | syntaxError =>
      simp only [run]
      split
      · exact Nat.le_succ _
      · have hrest : s.recover.recovered ≤ (s.recover.run reading (faults + 1) rest).1.recovered :=
          ih _
        exact Nat.le_of_succ_le hrest

/-- **A fault among the items is counted**: either it is reached, or the document is given up after
others. -/
theorem recovered_lt_run {items : List Xml.Item} {item : Xml.Item} (hitem : item ∈ items)
    (hfault : ∀ e, item ≠ .event e) (faults : Nat) :
    s.recovered < (s.run reading faults items).1.recovered := by
  induction items generalizing s faults with
  | nil => cases hitem
  | cons first rest ih =>
    cases first with
    | event e =>
      have hrest := (List.mem_cons.mp hitem).resolve_left (hfault e)
      exact Nat.lt_of_le_of_lt (recovered_le_step e) (ih hrest 0)
    | illFormed | syntaxError =>
      simp only [run]
      split
      · exact Nat.lt_succ_self _
      · have hrest : s.recover.recovered ≤ (s.recover.run reading (faults + 1) rest).1.recovered :=
          recovered_le_run _ rest
        exact hrest

end DocumentState

/-! ## Damaged documents -/

/-- The items of a damaged document have a fault among them. -/
theorem Document.exists_fault_mem_items {d : Data} (h : d.isDamaged = true) :
    ∃ item ∈ Document.items d, ∀ e, item ≠ .event e := by
  unfold items
  simp only [h, Bool.not_true, Bool.false_eq_true, if_false]
  split
  · exact ⟨.illFormed, List.mem_replicate.mpr ⟨by decide, rfl⟩, nofun⟩
  · refine ⟨.syntaxError, ?_, nofun⟩
    rw [Xml.interrupted_eq_dropLast_append]
    exact List.mem_append_right _ (List.mem_singleton_self _)

/-- **A damaged document is not read without a fault.** -/
theorem Document.recovered_pos_of_isDamaged (reading : Reading) {d : Data}
    (h : d.isDamaged = true) : 0 < (Document.read reading d).recovered := by
  obtain ⟨item, hitem, hfault⟩ := Document.exists_fault_mem_items h
  have hrun : ({} : DocumentState).recovered <
      (DocumentState.run reading 0 {} (Document.items d)).1.recovered :=
    DocumentState.recovered_lt_run hitem hfault 0
  exact hrun

/-! ## Records in front of the damage -/

/-- Items that end with a fault close the records that the same items close with others behind them;
only the last record may have been closed by the end of the input. -/
theorem DocumentState.dropLast_closedRecords {s : DocumentState} (faults : Nat)
    (before behind : List Xml.Item) :
    (s.closedRecords faults (before ++ [.syntaxError])).dropLast <+:
      s.closedRecords faults (before ++ behind) := by
  induction before generalizing s faults with
  | nil =>
    have hlast : (s.closedRecords faults [.syntaxError]).dropLast = [] := by
      simp only [closedRecords]
      split
      · rfl
      · cases s.recover.closingRecord? <;> rfl
    rw [List.nil_append, hlast]
    exact List.nil_prefix
  | cons item before ih =>
    cases item with
    | event e =>
      simp only [List.cons_append, closedRecords, List.dropLast_append]
      -- If nothing closes behind the event, the last record is one that the event closes.
      split
      · exact (List.dropLast_prefix _).trans (List.prefix_append _ _)
      · exact (List.prefix_append_right_inj _).mpr (ih 0)
    | illFormed | syntaxError =>
      simp only [List.cons_append, closedRecords]
      split
      · exact List.nil_prefix
      · exact ih (faults + 1)

/-- **Of a damaged document the records in front of the damage are read**: they are the first
records of the whole document, except that the last one may have been cut short. -/
theorem Document.dropLast_records_damaged (x y : Bytes) :
    (Document.records ⟨x, true⟩).dropLast <+: Document.records (x ++ y : Bytes) := by
  obtain ⟨symbols, cut, rest, hx, hwhole, hcut⟩ := Unicode.Utf8.exists_decode_append x y
  cases x with
  | nil => exact List.nil_prefix
  | cons b x =>
    have hbrackets : ∀ g ∈ cut, g.is '<' = false ∧ g.is '>' = false := by
      intro g hg
      rw [hcut g hg]
      exact ⟨rfl, rfl⟩
    obtain ⟨behind, hitems⟩ := Xml.dropLast_interrupted_items hbrackets symbols rest
    have hdamaged : Document.items ⟨b :: x, true⟩ = Xml.interrupted (Xml.items (symbols ++ cut)) :=
      congrArg (fun gs => Xml.interrupted (Xml.items gs)) hx
    rw [records, records, items_whole, hwhole, hdamaged, Xml.interrupted_eq_dropLast_append,
      ← hitems]
    exact DocumentState.dropLast_closedRecords 0 _ behind

/-- Of a damaged document the record in front of the damage is read, also if it is not closed. -/
example :
    Document.read ⟨{}, "a.tmx".toList⟩ ⟨Unicode.Utf8.encode
      ("<tmx><tu><tuv xml:lang=\"en\"><seg>Hello</seg></tuv>".toList ++
        "<tuv xml:lang=\"es\"><seg>Hola</seg></tuv><tuv xml:lang=\"f".toList), true⟩ =
      { Document.read ⟨{}, "a.tmx".toList⟩ (Unicode.Utf8.encode
          ("<tmx><tu><tuv xml:lang=\"en\"><seg>Hello</seg></tuv>".toList ++
            "<tuv xml:lang=\"es\"><seg>Hola</seg></tuv></tu></tmx>".toList)) with
        recovered := 2 } := by
  decide +kernel

/-- **Damaged members do not keep an archive from being read**, and each of them is counted with a
fault at least. -/
theorem readAll_damaged (request : Import) (path : Text) {bytes : Bytes}
    {entries : List Archive.Entry} (harchive : Archive.isArchive bytes = true)
    (hentries : Archive.entries? bytes = some entries)
    (hfaults : ∀ e ∈ entries, e.isDirectory = false → entryFault? path e = none) :
    ∃ documents, documentsOf request path bytes = .ok documents ∧
      documents.length = (entries.filter (!·.isDirectory)).length ∧
      (entries.filter (!·.isDirectory)).countP (·.unpacked.isDamaged) ≤
        (readAll documents).2.recoveredErrors := by
  refine ⟨_, documentsOf_of_entries harchive hentries hfaults request, List.length_map _, ?_⟩
  rw [readAll_eq, Report.covering]
  -- The faults of the documents add up, and each damaged one has its own.
  generalize entries.filter (!·.isDirectory) = files
  induction files with
  | nil => exact Nat.le_refl _
  | cons e files ih =>
    rw [List.countP_cons, List.map_cons, List.map_cons, List.sum_cons, Nat.add_comm]
    refine Nat.add_le_add ?_ ih
    split
    · rename_i hdamaged
      exact Document.recovered_pos_of_isDamaged ⟨request, baseName e.name⟩ hdamaged
    · exact Nat.zero_le _

end Bitext.Tmx
