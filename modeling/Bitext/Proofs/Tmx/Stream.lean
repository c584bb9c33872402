import Bitext.Proofs.Archive.Layout
import Bitext.Tmx.Input
import Mathlib.Algebra.GroupWithZero.Nat

/-!
# Reading unit by unit

Units are pulled from an input one at a time.  A document is begun when a unit of it is asked for
and nothing before it has one, and it is left behind when it is asked for a unit that it does not
have.  So the report covers the documents that were left behind, and of the current one it only says
that it was begun and how many units it has yielded.

## Main definitions

* `Report.covering`: the report in which given documents have been left behind.
* `UnitStream`, `UnitStream.next`, `UnitStream.pull`: an input that is read unit by unit.
* `UnitStream.Position`: where a stream is after so many steps.

## Main results

* `readAll_eq`, `readAll_eq_alone`: what is read of all documents, and the report at the end
* `UnitStream.Position.next`: one step
* `UnitStream.Position.pull`: any number of steps
* `readFirst_eq_pull`: the first units of an input are those that are pulled
* `exists_readFirst_eq`: what is counted before the end
* `readAll_archive`: an archive is read member by member
-/

namespace Bitext.Tmx

variable {os left waiting : List Opened} {d : Document} {us : List TranslationUnit} {k n j : Nat}

/-! ## What is counted -/

namespace Opened

/-- The units of what was opened. -/
def units : Opened → List TranslationUnit
  | .document d => d.units
  | .unreadable _ => []

/-- How many records without units it has. -/
def skipped : Opened → Nat
  | .document d => d.skipped
  | .unreadable _ => 0

/-- How many faults in it were worked around. -/
def recovered : Opened → Nat
  | .document d => d.recovered
  | .unreadable _ => 0

/-- Its name, if it could not be read. -/
def failures : Opened → List Text
  | .document d => if d.failed then [d.fileName] else []
  | .unreadable shown => [shown]

end Opened

namespace Report

/-- The report in which `left` has been left behind. -/
def covering (left : List Opened) (documents units : Nat) : Report where
  documents := documents
  units := units
  skippedRecords := (left.map Opened.skipped).sum
  recoveredErrors := (left.map Opened.recovered).sum
  failedDocuments := left.flatMap Opened.failures

/-- Adds a document to the report that is left behind; its units have been counted before. -/
def leave (d : Document) (r : Report) : Report :=
  { r with
    skippedRecords := r.skippedRecords + d.skipped
    recoveredErrors := r.recoveredErrors + d.recovered
    failedDocuments := r.failedDocuments ++ if d.failed then [d.fileName] else [] }

/-- Adds a document to the report that could not be opened. -/
def fail (shown : Text) (r : Report) : Report :=
  { r with failedDocuments := r.failedDocuments ++ [shown] }

theorem leave_covering (d : Document) (left : List Opened) (n k : Nat) :
    (covering left n k).leave d = covering (left ++ [.document d]) n k := by
  simp [covering, leave, Opened.skipped, Opened.recovered, Opened.failures]

theorem fail_covering (shown : Text) (left : List Opened) (n k : Nat) :
    (covering left n k).fail shown = covering (left ++ [.unreadable shown]) n k := by
  simp [covering, fail, Opened.skipped, Opened.recovered, Opened.failures]

theorem afterDocument_covering (d : Document) (left : List Opened) (n k : Nat) :
    (covering left n k).afterDocument d =
      covering (.document d :: left) (n + 1) (d.units.length + k) := by
  cases hfailed : d.failed <;>
    simp [covering, afterDocument, Opened.skipped, Opened.recovered, Opened.failures, hfailed]

theorem afterUnreadable_covering (shown : Text) (left : List Opened) (n k : Nat) :
    (covering left n k).afterUnreadable shown = covering (.unreadable shown :: left) (n + 1) k := by
  simp [covering, afterUnreadable, Opened.skipped, Opened.recovered, Opened.failures]

end Report

/-- **What is read of all documents**: their units one after another, and a report in which all of
them have been left behind. -/
theorem readAll_eq (os : List Opened) :
    readAll os =
      (os.flatMap Opened.units, .covering os os.length (os.flatMap Opened.units).length) := by
  induction os with
  | nil => rfl
  | cons o os ih =>
    cases o with
    | document d =>
      rw [readAll, ih]
      simp only [Report.afterDocument_covering, List.flatMap_cons, List.length_append,
        List.length_cons, Opened.units]
    | unreadable shown =>
      rw [readAll, ih]
      simp only [Report.afterUnreadable_covering, List.flatMap_cons, List.length_cons,
        Opened.units, List.nil_append]

theorem readAll_singleton (o : Opened) :
    readAll [o] = (o.units, .covering [o] 1 o.units.length) := by
  rw [readAll_eq, List.flatMap_singleton, List.length_singleton]

/-- **What is read of all documents is what is read of each of them alone**, added up. -/
theorem readAll_eq_alone (os : List Opened) :
    let alone := fun o => readAll [o]
    let units := os.flatMap fun o => (alone o).1
    readAll os = (units,
      { documents := os.length
        units := units.length
        skippedRecords := (os.map fun o => (alone o).2.skippedRecords).sum
        recoveredErrors := (os.map fun o => (alone o).2.recoveredErrors).sum
        failedDocuments := os.flatMap fun o => (alone o).2.failedDocuments }) := by
  simp [readAll_eq os, readAll_singleton, Report.covering]

/-! ## Streams -/

/-- An input that is read unit by unit. -/
structure UnitStream where
  /-- What has not been begun. -/
  waiting : List Opened
  /-- The current document, with the units that it has not yielded yet. -/
  current? : Option (Document × List TranslationUnit) := none
  report : Report := {}

namespace UnitStream

/-- The stream before anything is read. -/
def start (os : List Opened) : UnitStream := { waiting := os }

/-- Begins one document after another until one has a unit. -/
def search (report : Report) : List Opened → Option TranslationUnit × UnitStream
  | [] => (none, ⟨[], none, report⟩)
  | o :: waiting =>
    let report := { report with documents := report.documents + 1 }
    match o with
    | .unreadable shown => search (report.fail shown) waiting
    | .document d =>
      match d.units with
      | [] => search (report.leave d) waiting
      | u :: us => (some u, ⟨waiting, some (d, us), { report with units := report.units + 1 }⟩)

/-- The next unit, if there is one: of the current document, or else of those that are waiting. -/
def next (s : UnitStream) : Option TranslationUnit × UnitStream :=
  match s.current? with
  | none => search s.report s.waiting
  | some (d, []) => search (s.report.leave d) s.waiting
  | some (d, u :: us) =>
    (some u, { s with
      current? := some (d, us)
      report := { s.report with units := s.report.units + 1 } })

/-- Asks for a unit `n` times. -/
def pull (s : UnitStream) : (n : Nat) → List TranslationUnit × UnitStream
  | 0 => ([], s)
  | n + 1 =>
    let (u?, s) := s.next
    let (us, s) := s.pull n
    (u?.toList ++ us, s)

/-- Where the stream of an input is after so many steps: nothing has been begun, or some document
is current that has yielded a unit, or there was nothing more to find. -/
inductive Position (os : List Opened) : Nat → UnitStream → Prop where
  | unopened : Position os 0 (start os)
  | within {left waiting : List Opened} {d : Document} {taken rest : List TranslationUnit}
      (hos : os = left ++ .document d :: waiting) (hunits : d.units = taken ++ rest)
      (htaken : taken ≠ []) :
      Position os ((left.flatMap Opened.units).length + taken.length)
        ⟨waiting, some (d, rest), .covering left (left.length + 1)
          ((left.flatMap Opened.units).length + taken.length)⟩
  | exhausted {k : Nat} (h : (os.flatMap Opened.units).length < k) :
      Position os k ⟨[], none, .covering os os.length (os.flatMap Opened.units).length⟩

theorem search_unreadable (shown : Text) :
    search (.covering left n k) (.unreadable shown :: waiting) =
      search (.covering (left ++ [.unreadable shown]) (n + 1) k) waiting := by
  rw [← Report.fail_covering]
  rfl

theorem search_of_units_eq_nil (hunits : d.units = []) :
    search (.covering left n k) (.document d :: waiting) =
      search (.covering (left ++ [.document d]) (n + 1) k) waiting := by
  rw [← Report.leave_covering]
  simp only [search, hunits]
  rfl

theorem search_of_units_eq_cons {u : TranslationUnit} (hunits : d.units = u :: us) :
    search (.covering left n k) (.document d :: waiting) =
      (some u, ⟨waiting, some (d, us), .covering left (n + 1) (k + 1)⟩) := by
  simp only [search, hunits]
  rfl

/-- Documents without units are left behind, and the first one with units becomes current. -/
theorem search_spec (hos : os = left ++ waiting) (hn : left.length = n)
    (hk : (left.flatMap Opened.units).length = k) :
    (search (.covering left n k) waiting).1 = (os.flatMap Opened.units)[k]? ∧
      Position os (k + 1) (search (.covering left n k) waiting).2 := by
  induction waiting generalizing left n with
  | nil =>
    rw [List.append_nil] at hos
    subst hos hn hk
    exact ⟨(List.getElem?_eq_none (Nat.le_refl _)).symm, .exhausted (Nat.lt_succ_self _)⟩
  | cons o waiting ih =>
    have hnext : os = left ++ [o] ++ waiting := by rw [hos, List.append_cons]
    have hlength : (left ++ [o]).length = n + 1 := by rw [List.length_append, hn]; rfl
    have hflat : (left ++ [o]).flatMap Opened.units = left.flatMap Opened.units ++ o.units := by
      rw [List.flatMap_append, List.flatMap_singleton]
    cases o with
    | unreadable shown =>
      rw [search_unreadable]
      exact ih hnext hlength (by rw [hflat, Opened.units, List.append_nil, hk])
    | document d =>
      cases hunits : d.units with
      | nil =>
        rw [search_of_units_eq_nil hunits]
        exact ih hnext hlength (by rw [hflat, Opened.units, hunits, List.append_nil, hk])
      | cons u us =>
        subst hn hk
        rw [search_of_units_eq_cons hunits]
        refine ⟨?_, .within hos hunits (List.cons_ne_nil u [])⟩
        rw [hos, List.flatMap_append, List.getElem?_append_right (Nat.le_refl _), Nat.sub_self,
          List.flatMap_cons, Opened.units, hunits]
        rfl

/-- **One step** yields the unit at its place, if there is one, and the stream moves on by one. -/
theorem Position.next {s : UnitStream} (h : Position os k s) :
    s.next.1 = (os.flatMap Opened.units)[k]? ∧ Position os (k + 1) s.next.2 := by
  cases h with
  | unopened =>
    have hnone : os = [] ++ os := rfl
    exact search_spec hnone rfl rfl
  | @within left waiting d taken rest hos hunits htaken =>
    cases rest with
    | nil =>
      -- The current document has no more units and is left behind.
      rw [List.append_nil] at hunits
      rw [UnitStream.next]
      simp only [Report.leave_covering]
      refine search_spec (by rw [hos, List.append_cons]) (List.length_append ..) ?_
      rw [List.flatMap_append, List.flatMap_singleton, Opened.units, hunits, List.length_append]
    | cons u rest =>
      have hmore : d.units = (taken ++ [u]) ++ rest := by rw [hunits, List.append_cons]
      refine ⟨?_, ?_⟩
      · rw [hos, List.flatMap_append, List.flatMap_cons, Opened.units, hunits,
          List.getElem?_append_right (Nat.le_add_right _ _), Nat.add_sub_cancel_left,
          List.append_assoc, List.getElem?_append_right (Nat.le_refl _), Nat.sub_self]
        rfl
      · have hwithin := Position.within hos hmore (List.concat_ne_nil u taken)
        rw [List.length_append, ← Nat.add_assoc] at hwithin
        exact hwithin
  | exhausted h =>
    exact ⟨(List.getElem?_eq_none (Nat.le_of_lt h)).symm, .exhausted (Nat.lt_succ_of_lt h)⟩

/-- **Any number of steps** yields the units from there on, one after another. -/
theorem Position.pull {s : UnitStream} (h : Position os k s) (n : Nat) :
    (s.pull n).1 = ((os.flatMap Opened.units).drop k).take n ∧
      Position os (k + n) (s.pull n).2 := by
  induction n generalizing k s with
  | zero => exact ⟨List.take_zero.symm, h⟩
  | succ n ih =>
    obtain ⟨hunit, hnext⟩ := h.next
    obtain ⟨hunits, hlast⟩ := ih hnext
    rw [UnitStream.pull]
    simp only
    rw [hunits, hunit]
    refine ⟨?_, by rwa [Nat.add_assoc, Nat.add_comm 1 n] at hlast⟩
    rcases Nat.lt_or_ge k (os.flatMap Opened.units).length with hlt | hge
    · rw [List.getElem?_eq_getElem hlt, List.drop_eq_getElem_cons hlt]
      rfl
    · rw [List.getElem?_eq_none hge, List.drop_eq_nil_of_le hge,
        List.drop_eq_nil_of_le (Nat.le_succ_of_le hge), List.take_nil, List.take_nil]
      rfl

/-- The units are pulled in order, from the first one on. -/
theorem pull_start (k : Nat) (os : List Opened) :
    ((start os).pull k).1 = (os.flatMap Opened.units).take k ∧
      Position os k ((start os).pull k).2 := by
  have hstart : Position os 0 (start os) := .unopened
  obtain ⟨hunits, hposition⟩ := hstart.pull k
  rw [List.drop_zero] at hunits
  rw [Nat.zero_add] at hposition
  exact ⟨hunits, hposition⟩

end UnitStream

/-! ## The first units -/

/-- What is behind documents that have too few units. -/
theorem readFirst_append (hk : (left.flatMap Opened.units).length < k)
    (hrest : readFirst (k - (left.flatMap Opened.units).length) os = (us, .covering [] n j)) :
    readFirst k (left ++ os) = (left.flatMap Opened.units ++ us,
      .covering left (left.length + n) ((left.flatMap Opened.units).length + j)) := by
  induction left generalizing k with
  | nil =>
    rw [List.length_nil, Nat.zero_add, List.flatMap_nil, List.length_nil, Nat.zero_add]
    exact hrest
  | cons o left ih =>
    obtain ⟨k, rfl⟩ : ∃ i, k = i + 1 := ⟨k - 1, by omega⟩
    rw [List.flatMap_cons, List.length_append] at hk hrest
    rw [List.cons_append]
    cases o with
    | unreadable shown =>
      rw [Opened.units, List.length_nil, Nat.zero_add] at hk hrest
      rw [readFirst, ih hk hrest]
      simp only [Report.afterUnreadable_covering, List.flatMap_cons, Opened.units,
        List.nil_append, List.length_cons, Nat.add_right_comm _ 1 n]
    | document d =>
      rw [Opened.units] at hk hrest
      rw [readFirst, if_neg (by omega), ih (by omega) (by rwa [Nat.sub_sub])]
      simp only [Report.afterDocument_covering, List.flatMap_cons, Opened.units,
        List.append_assoc, List.length_cons, List.length_append, Nat.add_right_comm _ 1 n,
        Nat.add_assoc d.units.length]

/-- **The first units of an input** and the report behind them are those of the stream that has come
to that place. -/
theorem UnitStream.Position.readFirst_eq {s : UnitStream} (h : Position os k s) :
    readFirst k os = ((os.flatMap Opened.units).take k, s.report) := by
  cases h with
  | unopened =>
    rw [readFirst, List.take_zero]
    rfl
  | @within left waiting d taken rest hos hunits htaken =>
    obtain ⟨m, hm⟩ : ∃ m, taken.length = m + 1 :=
      Nat.exists_eq_succ_of_ne_zero fun h => htaken (List.length_eq_zero_iff.mp h)
    have hfirst : readFirst taken.length (.document d :: waiting) =
        (taken, .covering [] 1 taken.length) := by
      have henough : m + 1 ≤ d.units.length := by
        rw [hunits, List.length_append]
        omega
      rw [hm, readFirst, if_pos henough, ← hm, hunits, List.take_left]
      rfl
    rw [hos, readFirst_append (by omega) (by rwa [Nat.add_sub_cancel_left]), List.flatMap_append,
      List.take_length_add_append, List.flatMap_cons, Opened.units, hunits, List.append_assoc,
      List.take_left]
  | exhausted hlt =>
    have hnone : readFirst (k - (os.flatMap Opened.units).length) [] =
        ([], .covering [] 0 0) := by
      obtain ⟨m, hm⟩ : ∃ m, k - (os.flatMap Opened.units).length = m + 1 :=
        Nat.exists_eq_succ_of_ne_zero (by omega)
      rw [hm]
      rfl
    have hall := readFirst_append hlt hnone
    rw [List.append_nil, List.append_nil] at hall
    rw [hall, List.take_of_length_le (Nat.le_of_lt hlt)]
    rfl

/-- The first units are pulled one by one. -/
theorem readFirst_eq_pull (k : Nat) (os : List Opened) :
    readFirst k os =
      (((UnitStream.start os).pull k).1, ((UnitStream.start os).pull k).2.report) := by
  obtain ⟨hunits, hposition⟩ := UnitStream.pull_start k os
  rw [hposition.readFirst_eq, hunits]

theorem exists_position (k : Nat) (os : List Opened) :
    ∃ s, UnitStream.Position os k s ∧ readFirst k os = ((readAll os).1.take k, s.report) := by
  obtain ⟨-, hposition⟩ := UnitStream.pull_start k os
  exact ⟨_, hposition, by rw [hposition.readFirst_eq, readAll_eq]⟩

/-- **Between the first unit and the last one**, the report covers what has been left behind, and of
the document with the last unit that was read only that it was begun. -/
theorem exists_readFirst_eq (hpos : 0 < k) (hk : k ≤ (readAll os).1.length) :
    ∃ left o waiting, os = left ++ o :: waiting ∧ (readAll left).1.length < k ∧
      k ≤ (readAll (left ++ [o])).1.length ∧
      (readFirst k os).2 =
        { (readAll left).2 with documents := left.length + 1, units := k } := by
  obtain ⟨s, hposition, hfirst⟩ := exists_position k os
  rw [hfirst]
  cases hposition with
  | unopened => exact absurd hpos (Nat.lt_irrefl 0)
  | @within left waiting d taken rest hos hunits htaken =>
    refine ⟨left, .document d, waiting, hos, ?_, ?_, ?_⟩
    · rw [readAll_eq left]
      exact Nat.lt_add_of_pos_right (List.length_pos_iff.mpr htaken)
    · simp only [readAll_eq (left ++ _), List.flatMap_append, List.flatMap_singleton, Opened.units,
        hunits, List.length_append]
      omega
    · rw [readAll_eq left]
      rfl
  | exhausted h =>
    rw [readAll_eq] at hk
    exact absurd hk (Nat.not_le_of_lt h)

/-- Once there are no more units, everything has been read. -/
theorem readFirst_eq_readAll (hk : (readAll os).1.length < k) : readFirst k os = readAll os := by
  obtain ⟨s, hposition, hfirst⟩ := exists_position k os
  rw [hfirst, List.take_of_length_le (Nat.le_of_lt hk)]
  rw [readAll_eq] at hk ⊢
  cases hposition with
  | unopened => exact absurd hk (Nat.not_lt_zero _)
  | @within left waiting d taken rest hos hunits htaken =>
    -- No more units have been yielded than there are.
    rw [hos, List.flatMap_append, List.flatMap_cons, Opened.units, hunits] at hk
    simp only [List.length_append] at hk
    omega
  | exhausted h => rfl

/-! ## Archives -/

theorem entryFault?_eq_none {e : Archive.Entry} (hencrypted : e.isEncrypted = false)
    (hreadable : e.isReadable = true) (path : Text) : entryFault? path e = none := by
  simp only [entryFault?, hencrypted, hreadable, Bool.not_true, Bool.false_eq_true, if_false]

/-- The documents of an archive are in its entries that are no directories. -/
theorem documentsOf_of_entries {bytes : Bytes} {entries : List Archive.Entry} {path : Text}
    (harchive : Archive.isArchive bytes = true) (hentries : Archive.entries? bytes = some entries)
    (hfaults : ∀ e ∈ entries, e.isDirectory = false → entryFault? path e = none)
    (request : Import) :
    documentsOf request path bytes =
      .ok ((entries.filter (!·.isDirectory)).map (openEntry request)) := by
  have hnone : (entries.filter (!·.isDirectory)).findSome? (entryFault? path) = none := by
    rw [List.findSome?_eq_none_iff]
    intro e he
    obtain ⟨hmem, hfile⟩ := List.mem_filter.mp he
    exact hfaults e hmem ((Bool.not_eq_true' _).mp hfile)
  rw [documentsOf, if_pos harchive, hentries]
  simp only [hnone]

/-- If all of these can be unpacked, they are read. -/
theorem documentsOf_readable (request : Import) (path : Text) {bytes : Bytes}
    {entries : List Archive.Entry} {content : Archive.Entry → Bytes}
    (harchive : Archive.isArchive bytes = true) (hentries : Archive.entries? bytes = some entries)
    (hreadable : ∀ e ∈ entries, e.isDirectory = false →
      e.isEncrypted = false ∧ e.isReadable = true ∧ e.content? = some (content e)) :
    documentsOf request path bytes =
      .ok ((entries.filter (!·.isDirectory)).map fun e =>
        .document (Document.read ⟨request, baseName e.name⟩ (content e))) := by
  have hfaults : ∀ e ∈ entries, e.isDirectory = false → entryFault? path e = none := by
    intro e he hfile
    obtain ⟨hencrypted, hmethod, -⟩ := hreadable e he hfile
    exact entryFault?_eq_none hencrypted hmethod path
  rw [documentsOf_of_entries harchive hentries hfaults]
  refine congrArg Except.ok (List.map_congr_left fun e he => ?_)
  obtain ⟨hmem, hfile⟩ := List.mem_filter.mp he
  obtain ⟨-, -, hcontent⟩ := hreadable e hmem ((Bool.not_eq_true' _).mp hfile)
  rw [openEntry, Archive.Entry.content?_eq_some_iff.mp hcontent]

/-- **An archive is read member by member**, and each member is read as it would be alone, under the
last component of its name: the units follow one another, what is counted adds up, and what is
counted after any number of units covers the members that have been left behind. -/
theorem readAll_archive (request : Import) (path : Text) {bytes : Bytes}
    {entries : List Archive.Entry} {content : Archive.Entry → Bytes}
    (harchive : Archive.isArchive bytes = true) (hentries : Archive.entries? bytes = some entries)
    (hreadable : ∀ e ∈ entries, e.isDirectory = false →
      e.isEncrypted = false ∧ e.isReadable = true ∧ e.content? = some (content e)) :
    let files := entries.filter (!·.isDirectory)
    let opened := fun e : Archive.Entry =>
      Opened.document (Document.read ⟨request, baseName e.name⟩ (content e))
    let documents := files.map opened
    let alone := fun e => readAll [opened e]
    let units := files.flatMap fun e => (alone e).1
    documentsOf request path bytes = .ok documents ∧
      (∀ e ∈ files, Archive.isArchive (content e) = false →
        ∀ p, Path.fileName? p = some (baseName e.name) →
          (documentsOf request p (content e)).map readAll = .ok (alone e)) ∧
      readAll documents = (units,
        { documents := files.length
          units := units.length
          skippedRecords := (files.map fun e => (alone e).2.skippedRecords).sum
          recoveredErrors := (files.map fun e => (alone e).2.recoveredErrors).sum
          failedDocuments := files.flatMap fun e => (alone e).2.failedDocuments }) ∧
      (∀ k, readFirst k documents = (((UnitStream.start documents).pull k).1,
        ((UnitStream.start documents).pull k).2.report)) ∧
      (∀ k, (readFirst k documents).1 = units.take k) ∧
      (readFirst 0 documents).2 = {} ∧
      (∀ k, 0 < k → k ≤ units.length →
        ∃ left e right, files = left ++ e :: right ∧
          (left.flatMap fun e => (alone e).1).length < k ∧
          k ≤ ((left ++ [e]).flatMap fun e => (alone e).1).length ∧
          (readFirst k documents).2 =
            { (readAll (left.map opened)).2 with documents := left.length + 1, units := k }) ∧
      ∀ k, units.length < k → readFirst k documents = readAll documents := by
  intro files opened documents alone units
  have hdocuments : documentsOf request path bytes = .ok documents :=
    documentsOf_readable request path harchive hentries hreadable
  have hunits (es : List Archive.Entry) :
      (es.flatMap fun e => (alone e).1) = (readAll (es.map opened)).1 := by
    rw [readAll_eq_alone, List.flatMap_map]
  have hall : units = (readAll documents).1 := hunits files
  refine ⟨hdocuments, ?_, ?_, fun k => readFirst_eq_pull k documents, ?_, ?_, ?_, ?_⟩
  · intro e _ hplain p hp
    rw [documentsOf, hplain, hp]
    rfl
  · rw [readAll_eq_alone]
    simp only [documents, List.flatMap_map, List.map_map, List.length_map]
    rfl
  · intro k
    obtain ⟨s, -, hfirst⟩ := exists_position k documents
    rw [hfirst, ← hall]
  · rw [readFirst]
  · intro k hpos hk
    rw [hall] at hk
    obtain ⟨left, o, waiting, hsplit, hlt, hle, hreport⟩ := exists_readFirst_eq hpos hk
    -- The documents in front are those of the files in front.
    obtain ⟨before, behind, hfront, rfl, hrest⟩ := List.map_eq_append_iff.mp hsplit
    obtain ⟨e, right, rfl, rfl, -⟩ := List.map_eq_cons_iff.mp hrest
    refine ⟨before, e, right, hfront, ?_, ?_, ?_⟩
    · rw [hunits]
      exact hlt
    · rw [hunits, List.map_append]
      exact hle
    · rw [hreport, List.length_map]
  · exact fun k hk => readFirst_eq_readAll (hall ▸ hk)

/-! ### An example -/

/-- Two documents, the second one without a root element and with an empty record at its end, and a
directory. -/
def sampleMembers : List Archive.Member :=
  [⟨"a.tmx".toList, .first, Unicode.Utf8.encode
      ("<tmx><body><tu><tuv xml:lang=\"en\"><seg>Hello</seg></tuv>".toList ++
        "<tuv xml:lang=\"es\"><seg>Hola</seg></tuv></tu></body></tmx>".toList)⟩,
    ⟨"d/".toList, .first, []⟩,
    ⟨"d/b.tmx".toList, .first, Unicode.Utf8.encode
      ("<tu><tuv xml:lang=\"en\"><seg>Thanks</seg></tuv>".toList ++
        "<tuv xml:lang=\"es\"><seg>Gracias</seg></tuv></tu><tu/>".toList)⟩]

/-- What is in an entry, by its name. -/
def sampleContent (e : Archive.Entry) : Bytes :=
  ((sampleMembers.find? (·.name = e.name)).map (·.content)).getD []

theorem fits_sampleMembers : Archive.Fits sampleMembers where
  count := by decide
  names := by decide +kernel
  size := by decide +kernel
  distinct := by decide

theorem readAll_archive_sample :
    ∃ documents, documentsOf {} "a.zip".toList (Archive.encode sampleMembers) = .ok documents ∧
      (readAll documents).2 =
        { documents := 2, units := 2, skippedRecords := 1, failedDocuments := ["b.tmx".toList] } ∧
      (readFirst 2 documents).2 = { documents := 2, units := 2 } := by
  have hstores := Archive.stores_encode fits_sampleMembers
  have hcontent : ∀ m ∈ sampleMembers, m.content = sampleContent (Archive.listedEntry m) := by
    decide +kernel
  have hreadable : ∀ e ∈ sampleMembers.map Archive.listedEntry, e.isDirectory = false →
      e.isEncrypted = false ∧ e.isReadable = true ∧ e.content? = some (sampleContent e) := by
    intro e he _
    obtain ⟨m, hm, rfl⟩ := List.mem_map.mp he
    refine ⟨rfl, rfl, ?_⟩
    rw [← hcontent m hm]
    exact Archive.content?_listedEntry m
  obtain ⟨hopened, -, hall, hpull, -⟩ :=
    readAll_archive {} "a.zip".toList hstores.1 (Archive.entries?_encode fits_sampleMembers)
      hreadable
  refine ⟨_, hopened, ?_, ?_⟩
  · rw [hall]
    decide +kernel
  · rw [hpull]
    decide +kernel

end Bitext.Tmx
