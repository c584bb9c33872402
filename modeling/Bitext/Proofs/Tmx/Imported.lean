import Bitext.Proofs.Language
import Bitext.Proofs.Tmx.Events
import Bitext.Proofs.Tmx.Stream

/-!
# What is read of any input

Whatever an input is, its units have texts without blanks at their ends, codes of languages that are
primary subtags, and identifiers and dates without blanks at their ends.  The record that is open
keeps this from event to event.

## Main definitions

* `IsImported`: what every unit of an input has.
* `DocumentState.IsSound`: what the open record and the open variant have between two events.

## Main results

* `DocumentState.IsSound.step`: one event
* `DocumentState.IsSound.mem_run`: all events
* `isImported_of_mem_readAll`: all documents of an input
-/

namespace Bitext.Tmx

variable {reading : Reading} {s : DocumentState} {r : Record} {v : Variant} {u : TranslationUnit}
  {t : Text}

/-! ## Units -/

/-- The text is there, and no blanks are at its ends. -/
def IsVisible (t : Text) : Prop := t ≠ [] ∧ Text.IsTrimmed t

theorem IsVisible.trim_eq (h : IsVisible t) : Text.trim t = t := Text.trim_of_isTrimmed h.2

theorem IsVisible.isBlank_eq (h : IsVisible t) : Text.isBlank t = false := by
  rw [Bool.eq_false_iff]
  intro hblank
  exact h.1 (h.trim_eq ▸ Text.trim_eq_nil_iff.mpr hblank)

/-- The code is a primary subtag, and not empty. -/
def IsCode (t : Text) : Prop := t ≠ [] ∧ ∃ y, t = primarySubtag y

/-- What every unit of an input has. -/
structure IsImported (u : TranslationUnit) : Prop where
  sourceText : IsVisible u.sourceText
  targetText : IsVisible u.targetText
  sourceLanguage : IsCode u.sourceLanguage
  targetLanguage : IsCode u.targetLanguage
  identifier? : ∀ t ∈ u.identifier?, Text.trim t = t
  created? : ∀ t ∈ u.created?, Text.trim t = t
  changed? : ∀ t ∈ u.changed?, Text.trim t = t

/-- Units of inputs can be stored. -/
theorem IsImported.isUsable (h : IsImported u) : u.isUsable = true := by
  rw [TranslationUnit.isUsable, h.sourceText.isBlank_eq, h.targetText.isBlank_eq]
  rfl

theorem IsImported.reversed (h : IsImported u) : IsImported u.reversed :=
  ⟨h.targetText, h.sourceText, h.targetLanguage, h.sourceLanguage, h.identifier?, h.created?,
    h.changed?⟩

/-! ## Records -/

/-- The language of the variant is a primary subtag. -/
def Variant.IsSound (v : Variant) : Prop := ∃ y, v.language = primarySubtag y

/-- Identifier and dates have no blanks at their ends, and languages are primary subtags. -/
structure Record.IsSound (r : Record) : Prop where
  identifier? : ∀ t ∈ r.identifier?, Text.trim t = t
  created? : ∀ t ∈ r.created?, Text.trim t = t
  changed? : ∀ t ∈ r.changed?, Text.trim t = t
  variants : ∀ v ∈ r.variants, v.IsSound

/-- The side has a visible text and a code. -/
def Side.IsSound (a : Side) : Prop := IsVisible a.text ∧ IsCode a.language

theorem Variant.IsSound.side? (h : v.IsSound) {a : Side} (ha : v.side? = some a) : a.IsSound := by
  unfold Variant.side? at ha
  split at ha
  · cases ha
  · rename_i raw _
    simp only at ha
    split at ha
    · cases ha
    · rename_i hvisible
      simp only [Bool.or_eq_true, List.isEmpty_iff, not_or] at hvisible
      cases ha
      exact ⟨⟨hvisible.1, Text.isTrimmed_trim _⟩, hvisible.2, h⟩

theorem Record.IsSound.mem_sides (h : r.IsSound) {a : Side} (ha : a ∈ r.sides) : a.IsSound := by
  obtain ⟨v, hv, hside⟩ := List.mem_filterMap.mp ha
  exact (h.variants v hv).side? hside

theorem mem_allPairs {sides : List Side} {p : Side × Side} (h : p ∈ allPairs sides) :
    p.1 ∈ sides ∧ p.2 ∈ sides := by
  induction sides with
  | nil => cases h
  | cons a sides ih =>
    rw [allPairs, List.mem_append] at h
    rcases h with h | h
    · obtain ⟨b, hb, rfl⟩ := List.mem_map.mp h
      exact ⟨List.mem_cons_self, List.mem_cons_of_mem a ((List.mem_filter.mp hb).1)⟩
    · obtain ⟨hfirst, hsecond⟩ := ih h
      exact ⟨List.mem_cons_of_mem a hfirst, List.mem_cons_of_mem a hsecond⟩

/-- Pairs are taken from the sides of a record, whatever is wanted or declared. -/
theorem mem_sidePairs {wanted : List LanguagePair} {language? : Option Text} {sides : List Side}
    {p : Side × Side} (h : p ∈ sidePairs wanted language? sides) : p.1 ∈ sides ∧ p.2 ∈ sides := by
  unfold sidePairs at h
  split at h
  -- For every wanted pair its two sides are looked up.
  · obtain ⟨pair, -, hpair⟩ := List.mem_filterMap.mp h
    simp only [Option.bind_eq_bind, Option.bind_eq_some_iff] at hpair
    obtain ⟨a, ha, b, hb, hab⟩ := hpair
    cases hab
    exact ⟨List.mem_of_find?_eq_some ha, List.mem_of_find?_eq_some hb⟩
  -- Otherwise the declared source is paired with the others, or every two sides are.
  · split at h
    · split at h
      · rename_i a ha
        obtain ⟨b, hb, rfl⟩ := List.mem_map.mp h
        exact ⟨List.mem_of_find?_eq_some ha, (List.mem_filter.mp hb).1⟩
      · cases h
    · exact mem_allPairs h

/-- **The units of a sound record** are units as every input has them. -/
theorem Record.IsSound.mem_units (h : r.IsSound) {request : Import} {fileName : Text}
    {language? : Option Text} (hu : u ∈ r.units request fileName language?) : IsImported u := by
  obtain ⟨p, hp, rfl⟩ := List.mem_map.mp hu
  obtain ⟨hsource, htarget⟩ := mem_sidePairs hp
  obtain ⟨hsourceText, hsourceLanguage⟩ := h.mem_sides hsource
  obtain ⟨htargetText, htargetLanguage⟩ := h.mem_sides htarget
  exact ⟨hsourceText, htargetText, hsourceLanguage, htargetLanguage, h.identifier?, h.created?,
    h.changed?⟩

/-! ## States -/

namespace DocumentState

/-- The open record and the open variant are sound. -/
structure IsSound (s : DocumentState) : Prop where
  record? : ∀ r ∈ s.record?, r.IsSound
  variant? : ∀ v ∈ s.variant?, v.IsSound

/-- The state is sound, and the units are as every input has them. -/
def SoundResult (p : DocumentState × List TranslationUnit) : Prop :=
  p.1.IsSound ∧ ∀ u ∈ p.2, IsImported u

theorem IsSound.silent (h : s.IsSound) : SoundResult (s, []) :=
  ⟨h, fun _ hu => absurd hu List.not_mem_nil⟩

theorem isSound_withVariant {variant? : Option Variant} (hr : r.IsSound)
    (hv : ∀ v ∈ variant?, v.IsSound) : (withVariant r variant?).IsSound := by
  refine ⟨hr.identifier?, hr.created?, hr.changed?, fun v hmem => ?_⟩
  rcases List.mem_append.mp hmem with hmem | hmem
  · exact hr.variants v hmem
  · exact hv v (Option.mem_toList.mp hmem)

theorem trim_of_mem_attribute? {keys : List Text} {content : List Unicode.Glyph}
    (h : t ∈ attribute? keys content) : Text.trim t = t := by
  obtain ⟨value, -, rfl⟩ := Option.map_eq_some_iff.mp h
  exact Text.trim_trim value

namespace IsSound

variable (reading : Reading)

theorem recover (h : s.IsSound) : s.recover.IsSound := ⟨h.record?, h.variant?⟩

theorem closeRecord (h : s.IsSound) : SoundResult (s.closeRecord reading) := by
  unfold DocumentState.closeRecord
  split
  · exact h.silent
  · rename_i r hr
    have hrecord := isSound_withVariant (h.record? r hr) h.variant?
    -- Nothing is open behind the record, so nothing is left to be sound.
    have hclosed : ∀ {α : Type} {p : α → Prop}, ∀ a ∈ (none : Option α), p a := by
      intro α p a ha
      cases ha
    exact ⟨⟨hclosed, hclosed⟩, fun u hu => hrecord.mem_units hu⟩

theorem closeOverdue (h : s.IsSound) : SoundResult (s.closeOverdue reading) := by
  unfold DocumentState.closeOverdue
  split
  · exact h.recover.closeRecord reading
  · exact h.silent

theorem closeSegment (h : s.IsSound) (raw : Text) : (s.closeSegment raw).IsSound := by
  refine ⟨h.record?, fun v hv => ?_⟩
  obtain ⟨w, hw, rfl⟩ := Option.map_eq_some_iff.mp hv
  exact h.variant? w hw

theorem closeProperty (h : s.IsSound) : s.closeProperty.IsSound := by
  unfold DocumentState.closeProperty
  split
  · exact h
  · simp only
    -- A property of the open variant or the open record, and neither is judged by its properties.
    split
    · rename_i v hv
      refine ⟨h.record?, fun w hw => ?_⟩
      cases hw
      exact h.variant? v hv
    · refine ⟨fun r hr => ?_, h.variant?⟩
      obtain ⟨q, hq, rfl⟩ := Option.map_eq_some_iff.mp hr
      have hsound := h.record? q hq
      exact ⟨hsound.identifier?, hsound.created?, hsound.changed?, hsound.variants⟩

theorem closeVariant (h : s.IsSound) : s.closeVariant.IsSound := by
  refine ⟨fun r hr => ?_, fun _ hv => nomatch hv⟩
  obtain ⟨q, hq, rfl⟩ := Option.map_eq_some_iff.mp hr
  exact isSound_withVariant (h.record? q hq) h.variant?

theorem openRecord (h : s.IsSound) (content : List Unicode.Glyph) (isEmpty : Bool) :
    SoundResult (s.openRecord reading content isEmpty) := by
  obtain ⟨hoverdue, hunits⟩ := h.closeOverdue reading
  have hopen : ({ (s.closeOverdue reading).1 with
      record? := some
        { identifier? := attribute? ["tuid".toList] content
          created? := attribute? ["creationdate".toList] content
          changed? := attribute? ["changedate".toList] content } } : DocumentState).IsSound := by
    refine ⟨fun r hr => ?_, hoverdue.variant?⟩
    cases hr
    exact ⟨fun _ ht => trim_of_mem_attribute? ht, fun _ ht => trim_of_mem_attribute? ht,
      fun _ ht => trim_of_mem_attribute? ht, fun _ hv => absurd hv List.not_mem_nil⟩
  unfold DocumentState.openRecord
  simp only
  split
  · obtain ⟨hclosed, hmore⟩ := hopen.closeRecord reading
    refine ⟨hclosed, fun u hu => ?_⟩
    rcases List.mem_append.mp hu with hu | hu
    · exact hunits u hu
    · exact hmore u hu
  · exact ⟨hopen, hunits⟩

theorem openVariant (h : s.IsSound) (content : List Unicode.Glyph) (isEmpty : Bool) :
    (s.openVariant content isEmpty).IsSound := by
  have hlanguage : ∃ y, ((attribute? ["xml:lang".toList, "lang".toList] content).map
      primarySubtag).getD [] = primarySubtag y := by
    cases attribute? ["xml:lang".toList, "lang".toList] content with
    | none => exact ⟨[], rfl⟩
    | some y => exact ⟨y, rfl⟩
  unfold DocumentState.openVariant
  split
  · exact h
  · rename_i r hr
    have hrecord := isSound_withVariant (h.record? r hr) h.variant?
    simp only
    split
    · refine ⟨fun q hq => ?_, fun _ hv => nomatch hv⟩
      cases hq
      exact isSound_withVariant hrecord fun v hv => by cases hv; exact hlanguage
    · refine ⟨fun q hq => ?_, fun v hv => ?_⟩
      · cases hq
        exact hrecord
      · cases hv
        exact hlanguage

theorem openSegment (h : s.IsSound) (isEmpty : Bool) : (s.openSegment isEmpty).IsSound := by
  unfold DocumentState.openSegment
  split
  · exact h
  · split
    · exact h.closeSegment []
    · exact ⟨h.record?, h.variant?⟩

theorem openElement (h : s.IsSound) (content : List Unicode.Glyph) (isEmpty : Bool) :
    SoundResult (s.openElement reading content isEmpty) := by
  unfold DocumentState.openElement
  simp only
  split
  · exact silent ⟨h.record?, h.variant?⟩
  split
  · exact silent ⟨h.record?, h.variant?⟩
  split
  · exact h.openRecord reading content isEmpty
  split
  · exact (h.openVariant content isEmpty).silent
  split
  · exact silent ⟨h.record?, h.variant?⟩
  split
  · exact (h.openSegment isEmpty).silent
  · exact h.silent

theorem closeElement (h : s.IsSound) (name : List Unicode.Glyph) :
    SoundResult (s.closeElement reading name) := by
  unfold DocumentState.closeElement
  split
  · exact h.closeProperty.silent
  split
  · exact h.closeVariant.silent
  split
  · exact h.closeRecord reading
  split
  · exact h.closeOverdue reading
  · exact h.silent

theorem closeInSegment (h : s.IsSound) (name : List Unicode.Glyph) (g : OpenSegment) :
    SoundResult (s.closeInSegment reading name g) := by
  unfold DocumentState.closeInSegment
  simp only
  split
  · exact silent ⟨h.record?, h.variant?⟩
  split
  · exact silent ⟨h.record?, h.variant?⟩
  split
  · exact (h.closeSegment g.raw).silent
  · exact (h.closeSegment g.raw).recover.closeElement reading name

theorem addText (h : s.IsSound) (inSegment inProperty : Text) :
    (s.addText inSegment inProperty).IsSound := by
  unfold DocumentState.addText
  split <;> exact ⟨h.record?, h.variant?⟩

/-- **One event** keeps the state sound, and the units it yields are as every input has them. -/
theorem step (h : s.IsSound) (e : Xml.Event) : SoundResult (s.step reading e) := by
  cases e with
  | start content =>
    simp only [DocumentState.step]
    split
    · exact silent ⟨h.record?, h.variant?⟩
    · exact h.openElement reading content false
  | empty content =>
    simp only [DocumentState.step]
    split
    · exact silent ⟨h.record?, h.variant?⟩
    · exact h.openElement reading content true
  | stop name =>
    simp only [DocumentState.step]
    split
    · exact h.closeInSegment reading name _
    · exact h.closeElement reading name
  | text raw => exact (h.addText _ _).silent
  | data raw => exact (h.addText _ _).silent
  | other => exact h.silent

/-- **All events of an input** yield units as every input has them. -/
theorem mem_run (h : s.IsSound) (faults : Nat) (items : List Xml.Item)
    (hu : u ∈ (s.run reading faults items).2) : IsImported u := by
  induction items generalizing s faults with
  | nil => exact (h.closeOverdue reading).2 u hu
  | cons item rest ih =>
    cases item with
    | event e =>
      obtain ⟨hnext, hunits⟩ := h.step reading e
      rw [DocumentState.run, List.mem_append] at hu
      rcases hu with hu | hu
      · exact hunits u hu
      · exact ih hnext 0 hu
    | illFormed | syntaxError =>
      -- A fault only counts, and the open record stays as it is.
      simp only [DocumentState.run] at hu
      split at hu
      · exact absurd hu List.not_mem_nil
      · exact ih h.recover _ hu

end IsSound

end DocumentState

/-! ## Inputs -/

/-- **The units of a document**, whatever its data. -/
theorem isImported_of_mem_read {d : Data} (hu : u ∈ (Document.read reading d).units) :
    IsImported u := by
  have hstart : ({} : DocumentState).IsSound := by
    constructor <;> (intro _ hmem; cases hmem)
  exact hstart.mem_run reading 0 _ hu

/-- Every document of an input is read as it was asked for. -/
theorem exists_read_of_mem_documentsOf {request : Import} {path : Text} {bytes : Bytes}
    {documents : List Opened} (h : documentsOf request path bytes = .ok documents) {d : Document}
    (hd : .document d ∈ documents) :
    ∃ fileName data, d = Document.read ⟨request, fileName⟩ data := by
  unfold documentsOf at h
  split at h
  -- The documents of an archive are its entries, one by one.
  · split at h
    · cases h
    · simp only at h
      split at h
      · cases h
      · cases h
        obtain ⟨e, -, he⟩ := List.mem_map.mp hd
        cases he
        exact ⟨_, _, rfl⟩
  -- Anything else is one document.
  · cases h
    cases List.mem_singleton.mp hd
    exact ⟨_, _, rfl⟩

/-- The units of an input are those of its documents. -/
theorem mem_readAll {documents : List Opened} (hu : u ∈ (readAll documents).1) :
    ∃ d, .document d ∈ documents ∧ u ∈ d.units := by
  rw [readAll_eq] at hu
  obtain ⟨o, ho, hmem⟩ := List.mem_flatMap.mp hu
  cases o with
  | document d => exact ⟨d, ho, hmem⟩
  | unreadable shown => cases hmem

/-- What was opened was read from some data, if it was read at all. -/
def Opened.IsRead (o : Opened) : Prop :=
  ∀ d, o = .document d → ∃ reading data, d = Document.read reading data

theorem isRead_of_mem_documentsOf {request : Import} {path : Text} {bytes : Bytes}
    {documents : List Opened} (h : documentsOf request path bytes = .ok documents) :
    ∀ o ∈ documents, o.IsRead := by
  rintro o ho d rfl
  obtain ⟨fileName, content, hread⟩ := exists_read_of_mem_documentsOf h ho
  exact ⟨_, _, hread⟩

/-- **The units of all documents** that were read, whatever their data. -/
theorem isImported_of_mem_readAll {documents : List Opened} (h : ∀ o ∈ documents, o.IsRead)
    (hu : u ∈ (readAll documents).1) : IsImported u := by
  obtain ⟨d, hd, hmem⟩ := mem_readAll hu
  obtain ⟨reading, bytes, rfl⟩ := h _ hd d rfl
  exact isImported_of_mem_read hmem

end Bitext.Tmx
