import Bitext.Proofs.Tmx.Reads

/-!
# Written documents read back

A written document is read without a fault.  Every unit is written as one record, and what the
reader makes of that record is a matter of the record alone: `writtenRecord` says what is read of
it, and `Record.units` what units it has.

## Main definitions

* `writtenRecord`: what is read of the record of a unit.
* `Stamp.language?`: the source language that is read of a header.

## Main results

* `reads_unit`: the lines of a unit are read as its record, which closes
* `read_documentText`: the whole of a written document
-/

namespace Bitext.Tmx

open Bitext.Unicode (Glyph)
open Bitext.Markup (tagText)
open Bitext.Xml (writtenAttributes HasKeys IsName)

variable {reading : Reading} {s : DocumentState} {r : Record} {v : Variant}

/-! ## What is read -/

/-- An entry as it is read: without blanks at the ends of its key. -/
def readEntry (e : Text × Text) : Text × Text := (Text.trim e.1, e.2)

/-- What is read of one side of a unit. -/
def writtenVariant (language : Text) (properties : Properties) (t : Text) : Variant where
  language := primarySubtag language
  properties := .ofList (properties.entries.map readEntry)
  segment? := some (escapeSegment t)

/-- What is read of the record of a unit. -/
def writtenRecord (u : TranslationUnit) : Record where
  identifier? := u.identifier?.map Text.trim
  created? := u.created?.map Text.trim
  changed? := u.changed?.map Text.trim
  properties := (recordProperties u).map readEntry
  variants := [writtenVariant u.sourceLanguage u.sourceProperties u.sourceText,
    writtenVariant u.targetLanguage u.targetProperties u.targetText]

/-- The source language that is read of a header. -/
def Stamp.language? (stamp : Stamp) : Option Text :=
  (some (primarySubtag stamp.sourceLanguage)).filter fun l => !l.isEmpty && l ≠ "*all*".toList

/-! ## States -/

/-- Nothing is open. -/
structure IsIdle (s : DocumentState) : Prop where
  record? : s.record? = none
  variant? : s.variant? = none
  property? : s.property? = none
  segment? : s.segment? = none

/-- A record is open, and perhaps a variant. -/
def inside (s : DocumentState) (r : Record) (v? : Option Variant) : DocumentState :=
  { s with record? := some r, variant? := v? }

@[simp] theorem withVariant_none (r : Record) : DocumentState.withVariant r none = r := by
  simp only [DocumentState.withVariant, Option.toList_none, List.append_nil]

theorem IsIdle.isQuiet (h : IsIdle s) : IsQuiet s := ⟨h.property?, h.segment?⟩

theorem IsIdle.closeOverdue (h : IsIdle s) (reading : Reading) :
    s.closeOverdue reading = (s, []) := by
  rw [DocumentState.closeOverdue, h.record?]
  rfl

/-- At most a record is open, and if it is overdue, closing it leaves `s'` and yields the units. -/
structure Settles (reading : Reading) (s s' : DocumentState) (units : List TranslationUnit) :
    Prop where
  isQuiet : IsQuiet s
  isIdle : IsIdle s'
  closeOverdue : s.closeOverdue reading = (s', units)

theorem IsIdle.settles (h : IsIdle s) (reading : Reading) : Settles reading s s [] :=
  ⟨h.isQuiet, h, h.closeOverdue reading⟩

theorem IsIdle.isQuiet_inside (h : IsIdle s) (r : Record) (v? : Option Variant) :
    IsQuiet (inside s r v?) :=
  ⟨h.property?, h.segment?⟩

@[simp] theorem primarySubtag_trim (t : Text) : primarySubtag (Text.trim t) = primarySubtag t := by
  rw [primarySubtag, primarySubtag, Text.trim_trim]

/-! ## Properties -/

theorem putProperty_record (h : IsIdle s) (key value : Text) :
    putProperty key value (inside s r none) =
      inside s { r with properties := r.properties ++ [(key, value)] } none := by
  obtain ⟨hrecord, hvariant, hproperty, hsegment⟩ := h
  cases s
  cases hproperty
  rfl

theorem putProperty_variant (h : IsIdle s) (key value : Text) :
    putProperty key value (inside s r (some v)) =
      inside s r (some { v with properties := v.properties.insert key value }) := by
  obtain ⟨hrecord, hvariant, hproperty, hsegment⟩ := h
  cases s
  cases hproperty
  rfl

/-- The properties of a record are read in order. -/
theorem reads_recordProperties (reading : Reading) (h : IsIdle s) (indent : Nat)
    (entries : List (Text × Text)) (r : Record) :
    ReadsLines reading (inside s r none)
      (entries.map fun (key, value) => propertyLine indent key value)
      (inside s { r with properties := r.properties ++ entries.map readEntry } none) [] := by
  induction entries generalizing r with
  | nil =>
    rw [List.map_nil, List.map_nil, List.append_nil]
    exact .nil reading _
  | cons e entries ih =>
    have hfirst := reads_property reading (h.isQuiet_inside r none) indent e.1 e.2
    rw [putProperty_record h] at hfirst
    have hrest := ih { r with properties := r.properties ++ [(Text.trim e.1, e.2)] }
    rw [List.append_assoc] at hrest
    exact ReadsLines.cons hfirst hrest

/-- The properties of a variant are put in order. -/
theorem reads_variantProperties (reading : Reading) (h : IsIdle s) (indent : Nat)
    (entries : List (Text × Text)) (r : Record) (v : Variant) :
    ReadsLines reading (inside s r (some v))
      (entries.map fun (key, value) => propertyLine indent key value)
      (inside s r (some { v with
        properties := (entries.map readEntry).foldl (fun p e => p.insert e.1 e.2) v.properties }))
      [] := by
  induction entries generalizing v with
  | nil => exact .nil reading _
  | cons e entries ih =>
    have hfirst := reads_property reading (h.isQuiet_inside r (some v)) indent e.1 e.2
    rw [putProperty_variant h] at hfirst
    exact ReadsLines.cons hfirst
      (ih { v with properties := v.properties.insert (Text.trim e.1) e.2 })

/-! ## Variants -/

theorem hasKeys_sole {key value : Text} (h : IsName key) : HasKeys [(key, value)] := by
  refine ⟨?_, List.pairwise_singleton _ _⟩
  intro kv hkv
  rw [List.mem_singleton.mp hkv]
  exact h

theorem isName_tuv : IsName "tuv".toList := by decide

theorem isName_seg : IsName "seg".toList := by decide

theorem isName_tu : IsName "tu".toList := by decide

theorem variantStart_eq (language : Text) :
    "      <tuv".toList ++ attributeText "xml:lang" language ++ ['>'] = List.replicate 6 ' ' ++
      tagText ("tuv".toList ++ writtenAttributes [("xml:lang".toList, language)]) := by
  simp [attributeText, tagText, writtenAttributes, Xml.writtenAttribute]

/-- The start of a variant.  A variant that is still open belongs to the record from then on. -/
theorem reads_variantStart (reading : Reading) (h : IsIdle s) (r : Record) (v? : Option Variant)
    (language : Text) :
    Reads reading (inside s r v?)
      ('\n' :: ("      <tuv".toList ++ attributeText "xml:lang" language ++ ['>']))
      (inside s (DocumentState.withVariant r v?) (some { language := primarySubtag language }))
      [] := by
  have hkeys : HasKeys [("xml:lang".toList, language)] := hasKeys_sole (by decide)
  have hname : Xml.contentName (Glyph.ofText ("tuv".toList ++
      writtenAttributes [("xml:lang".toList, language)])) = Xml.word "tuv" :=
    contentName_tag isName_tuv
  -- Both keys that languages may have are looked for; the written one is the first of them.
  have hstart := reads_start reading (h.isQuiet_inside r v?) (ne_open_of_indent 6) isName_tuv
    hkeys.1
  rw [DocumentState.openElement_tuv false hname] at hstart
  have hlanguage : attribute? ["xml:lang".toList, "lang".toList] (Glyph.ofText
      ("tuv".toList ++ writtenAttributes [("xml:lang".toList, language)])) =
      some (Text.trim language) := by
    rw [attribute?_tag isName_tuv hkeys]
    rfl
  simp only [DocumentState.openVariant, inside, hlanguage, Option.map_some, Option.getD_some,
    primarySubtag_trim, Bool.false_eq_true, if_false] at hstart
  rw [variantStart_eq]
  exact hstart

/-- **A segment of the open variant**, if what stands in it is read as its content. -/
theorem reads_segment_of_content (reading : Reading) (h : IsQuiet s) (hv : s.variant? = some v)
    {a content : Text} (ha : ∀ c ∈ a, c ≠ '<')
    (hcontent : ∀ u, Xml.StartsMarkup (Glyph.ofText u) →
      readOn reading (withSegment s [] 0) (content ++ u) =
        readOn reading (withSegment s content 0) u) :
    Reads reading s (a ++ tagText "seg".toList ++ (content ++ tagText "/seg".toList))
      { s with variant? := some { v with segment? := some content } } [] := by
  -- Start tag, content and end tag are read in turn: the content is no line of one tag.
  have hname : Xml.contentName (Glyph.ofText ("seg".toList ++ writtenAttributes [])) =
      Xml.word "seg" := contentName_tag isName_seg
  have hnone : ∀ kv ∈ ([] : List (Text × Text)), IsName kv.1 := by simp
  have hopened : Reads reading s (a ++ tagText "seg".toList) (withSegment s [] 0) [] := by
    have hstart := reads_start reading h ha isName_seg hnone
    rw [DocumentState.openElement_seg false hname] at hstart
    cases s
    cases hv
    exact hstart
  have hclosed : Reads reading (withSegment s content 0) (tagText "/seg".toList)
      { s with variant? := some { v with segment? := some content } } [] := by
    have hstop := reads_stop_tag reading isName_seg (withSegment s content 0)
    have hseg : Glyph.ofText "seg".toList = Xml.word "seg" := rfl
    simp only [DocumentState.step, withSegment, DocumentState.closeInSegment, Nat.lt_irrefl,
      if_false, hseg, if_true, DocumentState.closeSegment] at hstop
    obtain ⟨hproperty, hsegment⟩ := h
    cases s
    cases hsegment
    cases hv
    exact hstop
  have hmarkup (rest : Text) :
      Xml.StartsMarkup (Glyph.ofText (tagText "/seg".toList ++ rest)) := by
    rw [Glyph.ofText_append]
    exact Markup.startsMarkup_tagText _ _
  intro rest
  rw [List.append_assoc, hopened, withUnits_nil, List.append_assoc, hcontent _ (hmarkup rest),
    hclosed]

/-- The segment of a variant. -/
theorem reads_segment (reading : Reading) (h : IsIdle s) (r : Record) (v : Variant) (t : Text) :
    Reads reading (inside s r (some v))
      ('\n' :: ("        <seg>".toList ++ escapeSegment t ++ "</seg>".toList))
      (inside s r (some { v with segment? := some (escapeSegment t) })) [] := by
  have hline : '\n' :: ("        <seg>".toList ++ escapeSegment t ++ "</seg>".toList) =
      ('\n' :: List.replicate 8 ' ') ++ tagText "seg".toList ++
        (escapeSegment t ++ tagText "/seg".toList) := by
    simp [tagText]
  rw [hline]
  exact reads_segment_of_content reading (h.isQuiet_inside r (some v)) rfl (ne_open_of_indent 8)
    fun u hu => readOn_escapeSegment t hu

/-- The end of a variant. -/
theorem reads_variantEnd (reading : Reading) (h : IsIdle s) (r : Record) (v : Variant) :
    Reads reading (inside s r (some v)) ('\n' :: "      </tuv>".toList)
      (inside s { r with variants := r.variants ++ [v] } none) [] := by
  have hline : '\n' :: "      </tuv>".toList =
      ('\n' :: List.replicate 6 ' ') ++ tagText ('/' :: "tuv".toList) := by
    simp [tagText]
  have hstop := reads_stop reading (h.isQuiet_inside r (some v)) (ne_open_of_indent 6) isName_tuv
  rw [show Glyph.ofText "tuv".toList = Xml.word "tuv" from rfl,
    DocumentState.closeElement_tuv] at hstop
  rw [hline]
  exact hstop

/-- The lines of one side of a unit up to the end of its segment. -/
def variantFront (language : Text) (properties : Properties) (t : Text) : List Text :=
  ["      <tuv".toList ++ attributeText "xml:lang" language ++ ['>']] ++
    properties.entries.map (fun (key, value) => propertyLine 8 key value) ++
    ["        <seg>".toList ++ escapeSegment t ++ "</seg>".toList]

theorem variantLines_eq (language : Text) (properties : Properties) (t : Text) :
    variantLines language properties t =
      variantFront language properties t ++ ["      </tuv>".toList] := by
  simp only [variantLines, variantFront, List.append_assoc, List.singleton_append]

theorem reads_variantFront (reading : Reading) (h : IsIdle s) (r : Record) (v? : Option Variant)
    (language : Text) (properties : Properties) (t : Text) :
    ReadsLines reading (inside s r v?) (variantFront language properties t)
      (inside s (DocumentState.withVariant r v?) (some (writtenVariant language properties t)))
      [] := by
  let record := DocumentState.withVariant r v?
  have hstart : ReadsLines reading (inside s r v?)
      ["      <tuv".toList ++ attributeText "xml:lang" language ++ ['>']]
      (inside s record (some { language := primarySubtag language })) [] :=
    .sole (reads_variantStart reading h r v? language)
  have hproperties := reads_variantProperties reading h 8 properties.entries record
    { language := primarySubtag language }
  have hsegment := ReadsLines.sole (reads_segment reading h record
      { language := primarySubtag language,
        properties := .ofList (properties.entries.map readEntry) } t)
  exact (hstart.append hproperties).append hsegment

/-- The lines of one side of a unit. -/
theorem reads_variant (reading : Reading) (h : IsIdle s) (r : Record) (language : Text)
    (properties : Properties) (t : Text) :
    ReadsLines reading (inside s r none) (variantLines language properties t)
      (inside s { r with variants := r.variants ++ [writtenVariant language properties t] } none)
      [] := by
  have hfront := reads_variantFront reading h r none language properties t
  have hend := ReadsLines.sole (reads_variantEnd reading h r
    (writtenVariant language properties t))
  rw [withVariant_none] at hfront
  rw [variantLines_eq]
  exact hfront.append hend

/-! ## Records -/

/-- An attribute that may be missing. -/
theorem writtenAttributes_optional (key : String) (value? : Option Text) :
    (value?.map (attributeText key)).getD [] =
      writtenAttributes (value?.toList.map (key.toList, ·)) := by
  cases value? with
  | none => rfl
  | some value => simp [writtenAttributes, attributeText, Xml.writtenAttribute]

/-- The attributes of the record of a unit. -/
def recordAttributes (u : TranslationUnit) : List (Text × Text) :=
  u.identifier?.toList.map ("tuid".toList, ·) ++ u.created?.toList.map ("creationdate".toList, ·) ++
    u.changed?.toList.map ("changedate".toList, ·)

theorem hasKeys_recordAttributes (u : TranslationUnit) : HasKeys (recordAttributes u) := by
  -- Any of the three may be missing.
  unfold recordAttributes HasKeys
  cases u.identifier? <;> cases u.created? <;> cases u.changed? <;> simp <;> decide

/-- The attributes are found by their keys. -/
theorem lookup_recordAttributes (u : TranslationUnit) :
    (recordAttributes u).lookup "tuid".toList = u.identifier? ∧
      (recordAttributes u).lookup "creationdate".toList = u.created? ∧
      (recordAttributes u).lookup "changedate".toList = u.changed? := by
  unfold recordAttributes
  cases u.identifier? <;> cases u.created? <;> cases u.changed? <;> exact ⟨rfl, rfl, rfl⟩

/-- The line with the start tag of the record of a unit. -/
def recordLine (u : TranslationUnit) : Text :=
  "    <tu".toList ++ (u.identifier?.map (attributeText "tuid")).getD [] ++
    (u.created?.map (attributeText "creationdate")).getD [] ++
    (u.changed?.map (attributeText "changedate")).getD [] ++ ['>']

/-- What is read of that line. -/
def startedRecord (u : TranslationUnit) : Record where
  identifier? := u.identifier?.map Text.trim
  created? := u.created?.map Text.trim
  changed? := u.changed?.map Text.trim
  properties := []
  variants := []

theorem recordLine_eq (u : TranslationUnit) :
    recordLine u = List.replicate 4 ' ' ++
      tagText ("tu".toList ++ writtenAttributes (recordAttributes u)) := by
  unfold recordLine
  rw [writtenAttributes_optional, writtenAttributes_optional, writtenAttributes_optional]
  simp [tagText, writtenAttributes, recordAttributes]

/-- The start of the record of a unit.  A record that is overdue closes first. -/
theorem reads_recordStart (reading : Reading) {s' : DocumentState} {units : List TranslationUnit}
    (h : Settles reading s s' units) (u : TranslationUnit) :
    Reads reading s ('\n' :: recordLine u) (inside s' (startedRecord u) none) units := by
  have hkeys := hasKeys_recordAttributes u
  have hname : Xml.contentName (Glyph.ofText ("tu".toList ++
      writtenAttributes (recordAttributes u))) = Xml.word "tu" := contentName_tag isName_tu
  have hvalue (key : Text) : attribute? [key] (Glyph.ofText ("tu".toList ++
      writtenAttributes (recordAttributes u))) =
        ((recordAttributes u).lookup key).map Text.trim := by
    rw [attribute?_tag isName_tu hkeys]
    simp only [List.findSome?_cons, List.findSome?_nil]
    cases (recordAttributes u).lookup key <;> rfl
  obtain ⟨hidentifier, hcreated, hchanged⟩ := lookup_recordAttributes u
  have hstart := reads_start reading h.isQuiet (ne_open_of_indent 4) isName_tu hkeys.1
  simp only [DocumentState.openElement_tu false hname, DocumentState.openRecord, h.closeOverdue,
    hvalue, hidentifier, hcreated, hchanged, Bool.false_eq_true, if_false] at hstart
  rw [recordLine_eq]
  have hvariant := h.isIdle.variant?
  cases s'
  cases hvariant
  exact hstart

/-- The lines of the record of a unit up to its first variant. -/
def recordFront (u : TranslationUnit) : List Text :=
  [recordLine u] ++ (recordProperties u).map (fun (key, value) => propertyLine 6 key value)

/-- What is read of them. -/
def classifiedRecord (u : TranslationUnit) : Record :=
  { startedRecord u with properties := (recordProperties u).map readEntry }

theorem reads_recordFront (reading : Reading) {s' : DocumentState} {units : List TranslationUnit}
    (h : Settles reading s s' units) (u : TranslationUnit) :
    ReadsLines reading s (recordFront u) (inside s' (classifiedRecord u) none) units := by
  have hstart := ReadsLines.sole (reads_recordStart reading h u)
  have hproperties := reads_recordProperties reading h.isIdle 6 (recordProperties u)
    (startedRecord u)
  have hfront := hstart.append hproperties
  rw [List.append_nil] at hfront
  exact hfront

/-- The end of a record. -/
theorem reads_recordEnd (reading : Reading) (h : IsIdle s) (r : Record) (v? : Option Variant) :
    Reads reading (inside s r v?) ('\n' :: "    </tu>".toList)
      ((inside s r v?).closeRecord reading).1 ((inside s r v?).closeRecord reading).2 := by
  have hline : '\n' :: "    </tu>".toList =
      ('\n' :: List.replicate 4 ' ') ++ tagText ('/' :: "tu".toList) := by
    simp [tagText]
  have hstop := reads_stop reading (h.isQuiet_inside r v?) (ne_open_of_indent 4) isName_tu
  rw [show Glyph.ofText "tu".toList = Xml.word "tu" from rfl,
    DocumentState.closeElement_tu] at hstop
  rw [hline]
  exact hstop

/-- The lines of the record of a unit. -/
def unitLines (u : TranslationUnit) : List Text :=
  [recordLine u] ++
    (recordProperties u).map (fun (key, value) => propertyLine 6 key value) ++
    variantLines u.sourceLanguage u.sourceProperties u.sourceText ++
    variantLines u.targetLanguage u.targetProperties u.targetText ++
    ["    </tu>".toList]

theorem unitLines_eq (u : TranslationUnit) : unitLines u = recordFront u ++
    variantLines u.sourceLanguage u.sourceProperties u.sourceText ++
    variantLines u.targetLanguage u.targetProperties u.targetText ++ ["    </tu>".toList] := rfl

/-- The units that the record of a unit is read as. -/
def readUnits (reading : Reading) (language? : Option Text) (u : TranslationUnit) :
    List TranslationUnit :=
  (writtenRecord u).units reading.request reading.fileName language?

/-- A record that has been read and closed leaves nothing but its count. -/
theorem closeRecord_inside (h : IsIdle s) (r : Record) (v? : Option Variant) :
    (inside s r v?).closeRecord reading =
      ({ s with skipped := s.skipped + if ((DocumentState.withVariant r v?).units reading.request
          reading.fileName s.sourceLanguage?).isEmpty then 1 else 0 },
        (DocumentState.withVariant r v?).units reading.request reading.fileName
          s.sourceLanguage?) := by
  obtain ⟨hrecord, hvariant, hproperty, hsegment⟩ := h
  cases s
  cases hrecord
  cases hvariant
  cases hproperty
  cases hsegment
  simp only [inside, DocumentState.closeRecord]
  -- A record without units is counted as skipped.
  split <;> simp_all

/-- **The lines of a unit are read as its record.** -/
theorem reads_unit (reading : Reading) (h : IsIdle s) (u : TranslationUnit) :
    ReadsLines reading s (unitLines u)
      { s with skipped := s.skipped +
          if (readUnits reading s.sourceLanguage? u).isEmpty then 1 else 0 }
      (readUnits reading s.sourceLanguage? u) := by
  have hfront := reads_recordFront reading (h.settles reading) u
  -- The record grows by one variant after the other.
  let source := writtenVariant u.sourceLanguage u.sourceProperties u.sourceText
  have hsource := reads_variant reading h (classifiedRecord u) u.sourceLanguage u.sourceProperties
    u.sourceText
  have htarget := reads_variant reading h { classifiedRecord u with variants := [source] }
    u.targetLanguage u.targetProperties u.targetText
  have hend : ReadsLines reading (inside s (writtenRecord u) none) ["    </tu>".toList] _ _ :=
    .sole (reads_recordEnd reading h (writtenRecord u) none)
  rw [closeRecord_inside h, withVariant_none] at hend
  exact ((hfront.append hsource).append htarget).append hend

/-- **The lines of units are read as their records**, one after another. -/
theorem reads_units (reading : Reading) (h : IsIdle s) (us : List TranslationUnit) :
    ReadsLines reading s (us.flatMap unitLines)
      { s with skipped := s.skipped +
          us.countP fun u => (readUnits reading s.sourceLanguage? u).isEmpty }
      (us.flatMap (readUnits reading s.sourceLanguage?)) := by
  induction us generalizing s with
  | nil => exact .nil reading _
  | cons u us ih =>
    have hfirst := reads_unit reading h u
    have hrest := ih (s := { s with skipped := s.skipped +
      if (readUnits reading s.sourceLanguage? u).isEmpty then 1 else 0 })
      ⟨h.record?, h.variant?, h.property?, h.segment?⟩
    have hcount : (u :: us).countP (fun u => (readUnits reading s.sourceLanguage? u).isEmpty) =
        (if (readUnits reading s.sourceLanguage? u).isEmpty then 1 else 0) +
          us.countP fun u => (readUnits reading s.sourceLanguage? u).isEmpty := by
      rw [List.countP_cons, Nat.add_comm]
    rw [List.flatMap_cons, List.flatMap_cons, hcount, ← Nat.add_assoc]
    exact hfirst.append hrest

/-! ## Headers -/

/-- The first line of a document. -/
def declarationLine : Text := "<?xml version=\"1.0\" encoding=\"UTF-8\"?>".toList

/-- The declaration in the first line is nothing to the reader. -/
theorem reads_declaration (reading : Reading) (s : DocumentState) :
    Reads reading s declarationLine s [] := by
  intro rest
  have hitems : Xml.itemsFrom (Glyph.ofText (declarationLine ++ rest)) =
      .event .other :: Xml.itemsFrom (Glyph.ofText rest) := by
    rw [Glyph.ofText_append]
    exact Xml.itemsFrom_open rfl
  rw [readOn, hitems, DocumentState.run]
  rfl

/-- The attributes of a header. -/
def Stamp.attributes (stamp : Stamp) : List (Text × Text) :=
  [("creationtool".toList, stamp.tool), ("creationtoolversion".toList, stamp.toolVersion),
    ("datatype".toList, "PlainText".toList), ("segtype".toList, "sentence".toList),
    ("adminlang".toList, "en-us".toList), ("srclang".toList, stamp.sourceLanguage),
    ("o-tmf".toList, stamp.tool), ("creationdate".toList, stamp.created.compact)]

theorem Stamp.hasKeys_attributes (stamp : Stamp) : HasKeys stamp.attributes := by
  unfold Stamp.attributes HasKeys
  constructor
  · simp only [List.forall_mem_cons]
    decide
  · simp only [List.pairwise_cons, List.mem_cons, forall_eq_or_imp]
    simp

theorem attributeText_eq (key : String) (value : Text) :
    attributeText key value = Xml.writtenAttribute key.toList value := rfl

/-- The line of a header. -/
def Stamp.headerLine (stamp : Stamp) : Text :=
  "  <header".toList ++ attributeText "creationtool" stamp.tool ++
    attributeText "creationtoolversion" stamp.toolVersion ++
    attributeText "datatype" "PlainText".toList ++ attributeText "segtype" "sentence".toList ++
    attributeText "adminlang" "en-us".toList ++ attributeText "srclang" stamp.sourceLanguage ++
    attributeText "o-tmf" stamp.tool ++ attributeText "creationdate" stamp.created.compact ++
    "/>".toList

theorem isName_tmx : IsName "tmx".toList := by decide

theorem isName_header : IsName "header".toList := by decide

theorem isName_body : IsName "body".toList := by decide

/-- The root element. -/
theorem reads_root (reading : Reading) (h : IsQuiet s) :
    Reads reading s ('\n' :: "<tmx version=\"1.4\">".toList) { s with hasRoot := true } [] := by
  have hline : '\n' :: "<tmx version=\"1.4\">".toList =
      ('\n' :: List.replicate 0 ' ') ++
        tagText ("tmx".toList ++ writtenAttributes [("version".toList, "1.4".toList)]) := by
    rfl
  have hkeys : HasKeys [("version".toList, "1.4".toList)] := hasKeys_sole (by decide)
  have hname : Xml.contentName (Glyph.ofText ("tmx".toList ++
      writtenAttributes [("version".toList, "1.4".toList)])) = Xml.word "tmx" :=
    contentName_tag isName_tmx
  have hstart := reads_start reading h (ne_open_of_indent 0) isName_tmx hkeys.1
  rw [DocumentState.openElement_tmx false hname] at hstart
  rw [hline]
  exact hstart

theorem Stamp.headerLine_eq (stamp : Stamp) : stamp.headerLine = List.replicate 2 ' ' ++
    tagText ("header".toList ++ writtenAttributes stamp.attributes ++ ['/']) := by
  unfold Stamp.headerLine Stamp.attributes
  simp only [attributeText_eq, tagText, writtenAttributes, List.flatMap_cons, List.flatMap_nil,
    List.append_assoc, List.nil_append]
  rfl

/-- The header declares the source language. -/
theorem reads_header (reading : Reading) (h : IsQuiet s) (stamp : Stamp) :
    Reads reading s ('\n' :: stamp.headerLine)
      { s with sourceLanguage? := stamp.language? } [] := by
  have hkeys := stamp.hasKeys_attributes
  have hname : Xml.contentName (Glyph.ofText ("header".toList ++
      writtenAttributes stamp.attributes)) = Xml.word "header" :=
    contentName_tag isName_header
  have hempty := reads_empty reading h (ne_open_of_indent 2) isName_header hkeys.1
  have hlanguage : attribute? ["srclang".toList] (Glyph.ofText ("header".toList ++
      writtenAttributes stamp.attributes)) = some (Text.trim stamp.sourceLanguage) := by
    rw [attribute?_tag isName_header hkeys]
    rfl
  rw [DocumentState.openElement_header true hname, DocumentState.header, hlanguage,
    Option.map_some, primarySubtag_trim] at hempty
  rw [Stamp.headerLine_eq]
  exact hempty

/-- The start of the body means nothing. -/
theorem reads_body (reading : Reading) (h : IsQuiet s) :
    Reads reading s ('\n' :: "  <body>".toList) s [] := by
  have hline : '\n' :: "  <body>".toList =
      ('\n' :: List.replicate 2 ' ') ++ tagText ("body".toList ++ writtenAttributes []) := by
    rfl
  have hname : Xml.contentName (Glyph.ofText ("body".toList ++ writtenAttributes [])) =
      Xml.word "body" := contentName_tag isName_body
  have hnone : ∀ kv ∈ ([] : List (Text × Text)), IsName kv.1 := by simp
  have hstart := reads_start reading h (ne_open_of_indent 2) isName_body hnone
  rw [DocumentState.openElement_body hname] at hstart
  rw [hline]
  exact hstart

/-- The end of the body or of the document.  A record that is overdue closes first. -/
theorem reads_outerEnd (reading : Reading) {s' : DocumentState} {units : List TranslationUnit}
    (h : Settles reading s s' units) (indent : Nat) {name : Text}
    (hname : name = "body".toList ∨ name = "tmx".toList) :
    Reads reading s ('\n' :: (List.replicate indent ' ' ++ tagText ('/' :: name))) s' units := by
  rcases hname with rfl | rfl
  · have hstop := reads_stop reading h.isQuiet (ne_open_of_indent indent) isName_body
    rw [show Glyph.ofText "body".toList = Xml.word "body" from rfl,
      DocumentState.closeElement_body, h.closeOverdue] at hstop
    exact hstop
  · have hstop := reads_stop reading h.isQuiet (ne_open_of_indent indent) isName_tmx
    rw [show Glyph.ofText "tmx".toList = Xml.word "tmx" from rfl,
      DocumentState.closeElement_tmx, h.closeOverdue] at hstop
    exact hstop

/-! ## Documents -/

/-- The lines of a document between the first one and its units. -/
def Stamp.front (stamp : Stamp) : List Text :=
  ["<tmx version=\"1.4\">".toList, stamp.headerLine, "  <body>".toList]

/-- The lines of a document behind its first one. -/
def documentLines (stamp : Stamp) (units : List TranslationUnit) : List Text :=
  ["<tmx version=\"1.4\">".toList, stamp.headerLine, "  <body>".toList] ++
    units.flatMap unitLines ++ ["  </body>".toList, "</tmx>".toList]

theorem lines_append (ls ls' : List Text) : lines (ls ++ ls') = lines ls ++ lines ls' :=
  List.flatMap_append

theorem lines_cons (l : Text) (ls : List Text) : lines (l :: ls) = l ++ '\n' :: lines ls := by
  rw [lines, List.flatMap_cons, List.append_assoc]
  rfl

theorem documentText_eq (stamp : Stamp) (units : List TranslationUnit) :
    documentText stamp units = lines (declarationLine :: documentLines stamp units) := by
  have hunits : units.flatMap unitText = lines (units.flatMap unitLines) := by
    rw [lines, List.flatMap_assoc]
    rfl
  have hheader : stamp.header = declarationLine ++ '\n' :: lines stamp.front := lines_cons _ _
  have hlines : documentLines stamp units = stamp.front ++ units.flatMap unitLines ++
      ["  </body>".toList, "</tmx>".toList] := rfl
  rw [documentText, hheader, hunits, lines_cons, hlines, lines_append, lines_append, footer]
  simp only [List.append_assoc, List.cons_append]

/-- The state behind the header of a document. -/
def afterHeader (stamp : Stamp) : DocumentState :=
  { sourceLanguage? := stamp.language?, hasRoot := true }

theorem isIdle_afterHeader (stamp : Stamp) : IsIdle (afterHeader stamp) := ⟨rfl, rfl, rfl, rfl⟩

theorem reads_front (reading : Reading) (stamp : Stamp) :
    ReadsLines reading {} stamp.front (afterHeader stamp) [] := by
  have hroot : Reads reading {} _ { hasRoot := true } [] := reads_root reading ⟨rfl, rfl⟩
  have hheader : Reads reading { hasRoot := true } _ (afterHeader stamp) [] :=
    reads_header reading ⟨rfl, rfl⟩ stamp
  have hbody := reads_body reading (isIdle_afterHeader stamp).isQuiet
  exact ReadsLines.cons hroot (.cons hheader (.sole hbody))

/-- The lines of a document, one after another. -/
theorem reads_documentLines (reading : Reading) (stamp : Stamp) (units : List TranslationUnit) :
    ReadsLines reading {} (documentLines stamp units)
      { afterHeader stamp with
        skipped := units.countP fun u => (readUnits reading stamp.language? u).isEmpty }
      (units.flatMap (readUnits reading stamp.language?)) := by
  have hunits := reads_units reading (isIdle_afterHeader stamp) units
  have hidle : IsIdle { afterHeader stamp with
      skipped := units.countP fun u => (readUnits reading stamp.language? u).isEmpty } :=
    ⟨rfl, rfl, rfl, rfl⟩
  have hend := ReadsLines.cons (reads_outerEnd reading (hidle.settles reading) 2 (.inl rfl))
    (.sole (reads_outerEnd reading (hidle.settles reading) 0 (.inr rfl)))
  simp only [afterHeader, Nat.zero_add] at hunits
  have hall := ((reads_front reading stamp).append hunits).append hend
  simp only [List.append_nil, List.nil_append] at hall
  exact hall

/-- The last line break, where no text is read. -/
theorem readOn_break (h : IsQuiet s) : readOn reading s ['\n'] = s.finish reading := by
  have hopen : ∀ c ∈ ['\n'], c ≠ '<' := by simp
  have hread := h.reads reading hopen []
  rw [List.append_nil, withUnits_nil] at hread
  rw [hread, readOn, Glyph.ofText_nil, Xml.itemsFrom_nil, DocumentState.run]

/-- A document is read line by line if its first line is the declaration. -/
theorem read_lines {units : List TranslationUnit} {ls : List Text}
    (h : ReadsLines reading {} ls s units) (hs : IsQuiet s) :
    Document.read reading (Unicode.Utf8.encode (lines (declarationLine :: ls))) =
      ⟨reading.fileName, units ++ (s.finish reading).2, (s.finish reading).1.skipped,
        (s.finish reading).1.recovered, (s.finish reading).1.failed⟩ := by
  have hitems : Xml.items (Glyph.ofText (lines (declarationLine :: ls))) =
      Xml.itemsFrom (Glyph.ofText (lines (declarationLine :: ls))) := by
    rw [lines_cons]
    rfl
  have hrun : readOn reading {} (lines (declarationLine :: ls)) =
      withUnits units (s.finish reading) := by
    rw [lines_cons, reads_declaration, withUnits_nil, ← List.append_nil (lines ls), h,
      readOn_break hs]
  rw [Document.read, Document.items_whole, Unicode.Utf8.decode_encode, hitems, ← readOn, hrun]
  rfl

/-- **A written document is read to its end without a fault**, record by record. -/
theorem read_documentText (reading : Reading) (stamp : Stamp) (units : List TranslationUnit) :
    Document.read reading (Unicode.Utf8.encode (documentText stamp units)) =
      ⟨reading.fileName, units.flatMap (readUnits reading stamp.language?),
        units.countP fun u => (readUnits reading stamp.language? u).isEmpty, 0, false⟩ := by
  have hread := read_lines (reads_documentLines reading stamp units) ⟨rfl, rfl⟩
  rw [documentText_eq, hread]
  exact congrArg (Document.mk _ · _ _ _) (List.append_nil _)

end Bitext.Tmx
