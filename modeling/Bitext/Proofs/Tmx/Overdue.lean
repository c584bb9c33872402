import Bitext.Proofs.Tmx.Omission
import Bitext.Proofs.Tmx.RoundTrip

/-!
# Written documents read without some of their end tags

A variant without an end tag is closed by the next variant or with its record.  A record without
one is overdue at whatever comes next: another record, the end of the body, the end of the root or
the end of the input.  Closing it then yields its units as before and counts one fault.  So the
units may come later than they would have, but they come, each once and in order.

## Main definitions

* `InRecord`: a record is open, and perhaps its last variant.
* `Advances`: reading lines, where a record may be overdue before and after them.

## Main results

* `advances_unit`, `advances_units`: the lines of units
* `read_omitted`: a whole document
* `readAll_of_omits`: the units and the report of an input
-/

namespace Bitext.Tmx

variable {reading : Reading} {stamp : Stamp} {s s' s'' b : DocumentState} {r : Record}
  {language t l : Text} {properties : Properties} {ls ls' names : List Text} {u : TranslationUnit}
  {us units more : List TranslationUnit}

/-! ## An open record -/

/-- The record `r` is open, and its last variant is perhaps still open as well. -/
def InRecord (s : DocumentState) (r : Record) (b : DocumentState) : Prop :=
  ∃ r₀ v?, b = inside s r₀ v? ∧ DocumentState.withVariant r₀ v? = r

theorem IsIdle.recover (h : IsIdle s) : IsIdle s.recover :=
  ⟨h.record?, h.variant?, h.property?, h.segment?⟩

namespace InRecord

variable (h : IsIdle s) (hb : InRecord s r b)
  (hunits : r.units reading.request reading.fileName s.sourceLanguage? = units) (hne : units ≠ [])
include h hb

theorem isQuiet : IsQuiet b := by
  obtain ⟨r₀, v?, rfl, -⟩ := hb
  exact h.isQuiet_inside r₀ v?

include hunits hne

/-- A record with units closes, whether its last variant has been closed or not. -/
theorem closeRecord : b.closeRecord reading = (s, units) := by
  obtain ⟨r₀, v?, rfl, rfl⟩ := hb
  rw [closeRecord_inside h, hunits, List.isEmpty_eq_false_iff.mpr hne]
  rfl

/-- The end tag of the record closes it. -/
theorem reads_end : Reads reading b ('\n' :: "    </tu>".toList) s units := by
  have hclosed := hb.closeRecord h hunits hne
  obtain ⟨r₀, v?, rfl, -⟩ := hb
  have hend := reads_recordEnd reading h r₀ v?
  rwa [hclosed] at hend

/-- A record that is overdue closes with one fault more. -/
theorem settles : Settles reading b s.recover units := by
  refine ⟨hb.isQuiet h, h.recover, ?_⟩
  obtain ⟨r₀, v?, rfl, hr⟩ := hb
  have hrecovered : InRecord s.recover r (inside s.recover r₀ v?) := ⟨r₀, v?, rfl, hr⟩
  rw [DocumentState.closeOverdue]
  exact hrecovered.closeRecord h.recover hunits hne

end InRecord

/-- **A variant joins its record**, whether its end tag is there or not. -/
theorem reads_omitted_variant (reading : Reading) (h : IsIdle s) (hb : InRecord s r b)
    (ho : OmitsLines (variantLines language properties t) ls names) :
    ∃ b', InRecord s
        { r with variants := r.variants ++ [writtenVariant language properties t] } b' ∧
      ReadsLines reading b ls b' [] ∧ names.count "tu".toList = 0 := by
  rw [variantLines_eq] at ho
  obtain ⟨back, rfl, hback⟩ := IsClear.exists_append (fun l => isClear_of_mem_variantFront) ho
  obtain ⟨l, rfl, hl⟩ := hback.exists_singleton
  obtain ⟨r₀, v?, rfl, rfl⟩ := hb
  have hread := reads_variantFront reading h r₀ v? language properties t
  let record := DocumentState.withVariant r₀ v?
  let variant := writtenVariant language properties t
  have htuv : "tuv".toList ∈ outerNames := by decide
  rcases eq_or_eq_of_omits_endLine (n := 6) htuv hl with ⟨rfl, rfl⟩ | ⟨rfl, rfl⟩
  · have hend := ReadsLines.sole (reads_variantEnd reading h record variant)
    exact ⟨_, ⟨_, none, rfl, withVariant_none _⟩, hread.append hend, by decide⟩
  · have hquiet := h.isQuiet_inside record (some variant)
    have hblank := ReadsLines.sole (hquiet.reads reading (ne_open_of_indent 6))
    exact ⟨_, ⟨record, some variant, rfl, rfl⟩, hread.append hblank, by decide⟩

/-- The lines of a record up to its end tag open it and close what was overdue. -/
theorem reads_omitted_record (reading : Reading) {pending : List TranslationUnit}
    (hb : Settles reading b s pending)
    (ho : OmitsLines (recordFront u ++
      (variantLines u.sourceLanguage u.sourceProperties u.sourceText ++
        variantLines u.targetLanguage u.targetProperties u.targetText)) ls names) :
    ∃ b', InRecord s (writtenRecord u) b' ∧ ReadsLines reading b ls b' pending ∧
      names.count "tu".toList = 0 := by
  obtain ⟨back, rfl, hback⟩ := IsClear.exists_append (fun l => isClear_of_mem_recordFront) ho
  obtain ⟨source, target, dropped, others, rfl, rfl, hsource, htarget⟩ := hback.exists_append
  have hfront := reads_recordFront reading hb u
  have hclassified : InRecord s (classifiedRecord u) (inside s (classifiedRecord u) none) :=
    ⟨_, none, rfl, withVariant_none _⟩
  obtain ⟨b₁, hb₁, hread₁, hcount₁⟩ :=
    reads_omitted_variant reading hb.isIdle hclassified hsource
  obtain ⟨b₂, hb₂, hread₂, hcount₂⟩ := reads_omitted_variant reading hb.isIdle hb₁ htarget
  have hread := hfront.append (hread₁.append hread₂)
  rw [List.append_nil, List.append_nil] at hread
  exact ⟨b₂, hb₂, hread, by rw [List.count_append, hcount₁, hcount₂]⟩

/-! ## Units -/

/-- Reading the lines leads from `s` to `s'` and yields the units, if records that are overdue count
as closed.  Units of such a record are yielded later. -/
def Advances (reading : Reading) (s : DocumentState) (ls : List Text) (s' : DocumentState)
    (units : List TranslationUnit) : Prop :=
  ∀ b pending, Settles reading b s pending → ∃ b' pending' yielded,
    ReadsLines reading b ls b' yielded ∧ Settles reading b' s' pending' ∧
      yielded ++ pending' = pending ++ units

namespace Advances

theorem nil (reading : Reading) (s : DocumentState) : Advances reading s [] s [] := by
  intro b pending hb
  exact ⟨b, pending, [], .nil reading b, hb, (List.append_nil _).symm⟩

theorem append (h : Advances reading s ls s' units) (h' : Advances reading s' ls' s'' more) :
    Advances reading s (ls ++ ls') s'' (units ++ more) := by
  intro b pending hb
  obtain ⟨b', pending', yielded, hread, hb', hunits⟩ := h b pending hb
  obtain ⟨b'', pending'', yielded', hread', hb'', hunits'⟩ := h' b' pending' hb'
  refine ⟨b'', pending'', yielded ++ yielded', hread.append hread', hb'', ?_⟩
  rw [List.append_assoc, hunits', ← List.append_assoc, hunits, List.append_assoc]

end Advances

/-- **The lines of a unit advance by the unit**, and by one fault if the end tag of its record is
missing. -/
theorem advances_unit (h : IsWritable stamp u) (hpairs : reading.request.pairs = [])
    (hlanguage : s.sourceLanguage? = stamp.language?) (ho : OmitsLines (unitLines u) ls names) :
    Advances reading s ls { s with recovered := s.recovered + names.count "tu".toList }
      [readUnit reading u] := by
  intro b pending hb
  have hidle := hb.isIdle
  have hsplit : unitLines u = (recordFront u ++
      (variantLines u.sourceLanguage u.sourceProperties u.sourceText ++
        variantLines u.targetLanguage u.targetProperties u.targetText)) ++
          [endLine 4 "tu".toList] := by
    rw [unitLines_eq, List.append_assoc (recordFront u)]
    rfl
  rw [hsplit] at ho
  obtain ⟨front, last, dropped, others, rfl, rfl, hfront, hlast⟩ := ho.exists_append
  obtain ⟨l, rfl, hl⟩ := hlast.exists_singleton
  obtain ⟨b', hopen, hread, hcount⟩ := reads_omitted_record reading hb hfront
  have hunits : (writtenRecord u).units reading.request reading.fileName s.sourceLanguage? =
      [readUnit reading u] := by
    rw [hlanguage]
    exact readUnits_of_isWritable h hpairs
  have htu : "tu".toList ∈ outerNames := by decide
  rw [List.count_append, hcount, Nat.zero_add]
  rcases eq_or_eq_of_omits_endLine htu hl with ⟨rfl, rfl⟩ | ⟨rfl, rfl⟩
  · have hend := ReadsLines.sole (hopen.reads_end hidle hunits (List.cons_ne_nil _ []))
    exact ⟨s, [], _, hread.append hend, hidle.settles reading, List.append_nil _⟩
  · -- The record stays open, and its unit is yielded when what follows closes it.
    have hblank := ReadsLines.sole ((hopen.isQuiet hidle).reads reading (ne_open_of_indent 4))
    have hoverdue := hopen.settles hidle hunits (List.cons_ne_nil _ [])
    have hfrontBlank := hread.append hblank
    rw [List.append_nil] at hfrontBlank
    exact ⟨b', [readUnit reading u], _, hfrontBlank, hoverdue, rfl⟩

/-- **The lines of units advance by the units**, one after another. -/
theorem advances_units (h : ∀ u ∈ us, IsWritable stamp u) (hpairs : reading.request.pairs = [])
    (hlanguage : s.sourceLanguage? = stamp.language?)
    (ho : OmitsLines (us.flatMap unitLines) ls names) :
    Advances reading s ls { s with recovered := s.recovered + names.count "tu".toList }
      (us.map (readUnit reading)) := by
  induction us generalizing s ls names with
  | nil =>
    obtain ⟨rfl, rfl⟩ : ls = [] ∧ names = [] := by
      cases ho
      exact ⟨rfl, rfl⟩
    exact .nil reading s
  | cons u us ih =>
    rw [List.flatMap_cons] at ho
    obtain ⟨first, rest, dropped, others, rfl, rfl, hfirst, hrest⟩ := ho.exists_append
    have hunit := advances_unit (h u List.mem_cons_self) hpairs hlanguage hfirst
    have hunits := ih (s := { s with recovered := s.recovered + dropped.count "tu".toList })
      (fun v hv => h v (List.mem_cons_of_mem u hv)) hlanguage hrest
    rw [List.count_append, ← Nat.add_assoc, List.map_cons, ← List.singleton_append]
    exact hunit.append hunits

/-! ## Documents -/

/-- The end tag of the body or of the root closes a record that is overdue, or leaves it to what
follows. -/
theorem advances_outerEnd (reading : Reading) (s : DocumentState) {indent : Nat} {name : Text}
    (hname : name = "body".toList ∨ name = "tmx".toList)
    (ho : Omits (endLine indent name) l names) :
    Advances reading s [l] s [] ∧ names.count "tu".toList = 0 := by
  have houter : name ∈ outerNames := by
    rcases hname with rfl | rfl <;> decide
  have hcount : [name].count "tu".toList = 0 := by
    rcases hname with rfl | rfl <;> decide
  rcases eq_or_eq_of_omits_endLine houter ho with ⟨rfl, rfl⟩ | ⟨rfl, rfl⟩
  · refine ⟨?_, rfl⟩
    intro b pending hb
    exact ⟨s, [], pending, .sole (reads_outerEnd reading hb indent hname),
      hb.isIdle.settles reading, rfl⟩
  · refine ⟨?_, hcount⟩
    intro b pending hb
    exact ⟨b, pending, [], .sole (hb.isQuiet.reads reading (ne_open_of_indent indent)), hb,
      (List.append_nil _).symm⟩

/-- The end of the input closes a record that is overdue. -/
theorem Settles.finish_eq (h : Settles reading b s units) :
    b.finish reading = ({ s with failed := s.failed || !s.hasRoot }, units) := by
  simp only [DocumentState.finish, h.closeOverdue]

/-- The declaration stays, and the other lines are those of the document but for their end tags. -/
theorem exists_lines_of_omits (ho : Omits (documentText stamp us) t names) :
    ∃ ls, t = lines (declarationLine :: ls) ∧ OmitsLines (documentLines stamp us) ls names := by
  rw [documentText_eq] at ho
  obtain ⟨ls, rfl, hlines⟩ := omits_lines_iff.mp ho
  have hclear : ∀ l ∈ [declarationLine], IsClear l := by
    intro l hl
    rw [List.mem_singleton.mp hl]
    exact isClear_declarationLine
  obtain ⟨rest, rfl, hrest⟩ := IsClear.exists_append hclear hlines
  exact ⟨rest, rfl, hrest⟩

/-- **A document without some of its end tags** is read to its end: its units are all there, and
every record without an end tag is a fault. -/
theorem read_omitted (h : ∀ u ∈ us, IsWritable stamp u) (hpairs : reading.request.pairs = [])
    (ho : OmitsLines (documentLines stamp us) ls names) :
    Document.read reading (Unicode.Utf8.encode (lines (declarationLine :: ls))) =
      ⟨reading.fileName, us.map (readUnit reading), 0, names.count "tu".toList, false⟩ := by
  have hsplit : documentLines stamp us = stamp.front ++
      (us.flatMap unitLines ++ ([endLine 2 "body".toList] ++ [endLine 0 "tmx".toList])) := by
    simp only [documentLines, Stamp.front, List.append_assoc]
    rfl
  rw [hsplit] at ho
  obtain ⟨back, rfl, hback⟩ := IsClear.exists_append (fun l => stamp.isClear_of_mem_front) ho
  obtain ⟨records, rest, dropped, others, rfl, rfl, hrecords, hrest⟩ := hback.exists_append
  obtain ⟨body, root, dropped', others', rfl, rfl, hbody, hroot⟩ := hrest.exists_append
  obtain ⟨l, rfl, hl⟩ := hbody.exists_singleton
  obtain ⟨l', rfl, hl'⟩ := hroot.exists_singleton
  have hunits := advances_units h hpairs (s := afterHeader stamp) rfl hrecords
  obtain ⟨hbodyEnd, hcount⟩ := advances_outerEnd reading _ (.inl rfl) hl
  obtain ⟨hrootEnd, hcount'⟩ := advances_outerEnd reading _ (.inr rfl) hl'
  -- Nothing is overdue behind the header, and what is overdue at the end closes there.
  obtain ⟨b, pending, yielded, hread, hb, hall⟩ := hunits.append (hbodyEnd.append hrootEnd) _ []
    ((isIdle_afterHeader stamp).settles reading)
  have hlines := read_lines ((reads_front reading stamp).append hread) hb.isQuiet
  rw [hb.finish_eq] at hlines
  simp only [List.nil_append, List.append_nil] at hall hlines
  simp only [List.count_append, hcount, hcount', Nat.add_zero]
  rw [hlines, hall]
  simp [afterHeader]

/-! ## Inputs -/

theorem documentsOf_lines (request : Import) (path : Text) (ls : List Text) :
    documentsOf request path (Unicode.Utf8.encode (lines (declarationLine :: ls))) =
      .ok [.document (Document.read ⟨request, (Path.fileName? path).getD []⟩
        (Unicode.Utf8.encode (lines (declarationLine :: ls))))] := by
  have harchive : Archive.isArchive (Unicode.Utf8.encode (lines (declarationLine :: ls))) = false :=
    rfl
  rw [documentsOf, harchive]
  rfl

/-- **Missing end tags are recovered exactly**: an input without some of the end tags of its
variants, its records, its body and its root has the same units in the same order, and its report
counts one fault for each record without an end tag and nothing else. -/
theorem readAll_of_omits (request : Import) (path : Text) (hpairs : request.pairs = [])
    (h : ∀ u ∈ us, IsWritable stamp u) (ho : Omits (documentText stamp us) t names) :
    ∃ complete documents,
      documentsOf request path (Unicode.Utf8.encode (documentText stamp us)) = .ok complete ∧
      documentsOf request path (Unicode.Utf8.encode t) = .ok documents ∧
      (readAll documents).1 = (readAll complete).1 ∧
      (readAll documents).2 =
        { documents := 1
          units := us.length
          skippedRecords := 0
          recoveredErrors := names.count "tu".toList
          failedDocuments := [] } := by
  let reading : Reading := ⟨request, (Path.fileName? path).getD []⟩
  have hcomplete := read_document_of_isWritable reading hpairs h
  obtain ⟨ls, rfl, hlines⟩ := exists_lines_of_omits ho
  have hread : Document.read reading _ = _ := read_omitted h hpairs hlines
  rw [documentText_eq] at hcomplete ⊢
  refine ⟨_, _, documentsOf_lines request path _, documentsOf_lines request path ls, ?_, ?_⟩
  · simp only [readAll]
    rw [hcomplete, hread]
  · simp only [readAll]
    rw [hread]
    simp [Report.afterDocument]

/-- Two records in a body, where the end tags of the first record and of the body are missing. -/
theorem omits_sample : ∃ t, Omits (documentText Session.sampleStamp
    [Session.sampleUnit, Session.sampleUnit]) t ["tu".toList, "body".toList] := by
  let u := Session.sampleUnit
  have hunit := OmitsLines.append (.refl (recordFront u ++
      variantLines u.sourceLanguage u.sourceProperties u.sourceText ++
      variantLines u.targetLanguage u.targetProperties u.targetText))
    (.cons (omits_endLine 4 (show "tu".toList ∈ outerNames by decide)) .nil)
  have hunits := hunit.append (.refl (unitLines u ++ []))
  have hend := OmitsLines.cons (omits_endLine 2 (show "body".toList ∈ outerNames by decide))
    (.refl ["</tmx>".toList])
  have hdocument := (OmitsLines.append (.refl Session.sampleStamp.front) hunits).append hend
  rw [documentText_eq]
  exact ⟨_, omits_lines_iff.mpr ⟨_, rfl, .cons (.refl declarationLine) hdocument⟩⟩

theorem readAll_of_omits_sample :
    ∃ t documents, Omits (documentText Session.sampleStamp
        [Session.sampleUnit, Session.sampleUnit]) t ["tu".toList, "body".toList] ∧
      documentsOf {} "a.tmx".toList (Unicode.Utf8.encode t) = .ok documents ∧
      (readAll documents).2 = { documents := 1, units := 2, recoveredErrors := 1 } := by
  obtain ⟨t, ho⟩ := omits_sample
  have hwritable : ∀ u ∈ [Session.sampleUnit, Session.sampleUnit],
      IsWritable Session.sampleStamp u := by
    intro u hu
    simp only [List.mem_cons, List.not_mem_nil, or_false, or_self] at hu
    rw [hu]
    exact Session.isPortable_sampleUnit.isWritable
  obtain ⟨-, documents, -, hdocuments, -, hreport⟩ :=
    readAll_of_omits {} "a.tmx".toList rfl hwritable ho
  exact ⟨t, documents, ho, hdocuments, hreport⟩

end Bitext.Tmx
