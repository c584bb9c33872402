import Bitext.Tmx.Document
import Mathlib.Tactic.Common

/-!
# Reading event after event

Reading a stretch of events yields a state and the units of the records that were closed on the way.
The counters of a state have no part in it: states that agree but for them yield the same units and
go on to agree.

## Main definitions

* `DocumentState.steps`: reading a list of events.
* `DocumentState.Agrees`: equal but for the counters.

## Main results

* `DocumentState.run_events`: whole readings as stretches of events
* `DocumentState.Agrees.steps`: agreement is kept, and the same units are yielded
-/

namespace Bitext.Tmx.DocumentState

variable {reading : Reading} {s s' s'' : DocumentState} {es : List Xml.Event} {e : Xml.Event}

/-- Reads events one after another, and yields the units of the records that they close. -/
def steps (reading : Reading) (s : DocumentState) :
    List Xml.Event → DocumentState × List TranslationUnit
  | [] => (s, [])
  | e :: rest =>
    let (next, units) := s.step reading e
    let (last, more) := next.steps reading rest
    (last, units ++ more)

@[simp] theorem steps_nil (reading : Reading) (s : DocumentState) :
    s.steps reading [] = (s, []) := rfl

theorem steps_cons (reading : Reading) (s : DocumentState) (e : Xml.Event)
    (rest : List Xml.Event) :
    s.steps reading (e :: rest) =
      (((s.step reading e).1.steps reading rest).1,
        (s.step reading e).2 ++ ((s.step reading e).1.steps reading rest).2) := rfl

theorem steps_append (reading : Reading) (s : DocumentState) (first second : List Xml.Event) :
    s.steps reading (first ++ second) =
      (((s.steps reading first).1.steps reading second).1,
        (s.steps reading first).2 ++ ((s.steps reading first).1.steps reading second).2) := by
  induction first generalizing s with
  | nil => rfl
  | cons e rest ih =>
    rw [List.cons_append, steps_cons, ih, steps_cons]
    simp only [List.append_assoc]

/-- **Reading a whole document** begins with reading the events up to some place. -/
theorem run_events (reading : Reading) (s : DocumentState) (es : List Xml.Event)
    (items : List Xml.Item) :
    run reading 0 s (es.map .event ++ items) =
      ((run reading 0 (s.steps reading es).1 items).1,
        (s.steps reading es).2 ++ (run reading 0 (s.steps reading es).1 items).2) := by
  induction es generalizing s with
  | nil => rfl
  | cons e rest ih =>
    rw [List.map_cons, List.cons_append, run, steps_cons]
    simp only [ih, List.append_assoc]

/-! ## The elements of a document -/

section Elements

variable {content name : List Unicode.Glyph} (isEmpty : Bool)

theorem openElement_tmx (h : Xml.contentName content = Xml.word "tmx") :
    s.openElement reading content isEmpty = ({ s with hasRoot := true }, []) := by
  rw [openElement, h]
  rfl

theorem openElement_header (h : Xml.contentName content = Xml.word "header") :
    s.openElement reading content isEmpty = (s.header content, []) := by
  rw [openElement, h]
  rfl

theorem openElement_tu (h : Xml.contentName content = Xml.word "tu") :
    s.openElement reading content isEmpty = s.openRecord reading content isEmpty := by
  rw [openElement, h]
  rfl

theorem openElement_tuv (h : Xml.contentName content = Xml.word "tuv") :
    s.openElement reading content isEmpty = (s.openVariant content isEmpty, []) := by
  rw [openElement, h]
  rfl

theorem openElement_prop (h : Xml.contentName content = Xml.word "prop") :
    s.openElement reading content false = (s.openProperty content, []) := by
  rw [openElement, h]
  rfl

theorem openElement_seg (h : Xml.contentName content = Xml.word "seg") :
    s.openElement reading content isEmpty = (s.openSegment isEmpty, []) := by
  rw [openElement, h]
  cases isEmpty <;> rfl

/-- The body has no meaning of its own. -/
theorem openElement_body (h : Xml.contentName content = Xml.word "body") :
    s.openElement reading content false = (s, []) := by
  rw [openElement, h]
  rfl

/-- A record that opens where none is open. -/
theorem openRecord_of_no_record (h : s.record?.isSome = false) :
    s.openRecord reading content false =
      ({ s with
          record? := some
            ⟨attribute? ["tuid".toList] content, attribute? ["creationdate".toList] content,
              attribute? ["changedate".toList] content, [], []⟩ }, []) := by
  simp only [openRecord, closeOverdue, h, Bool.false_eq_true, if_false]

/-- An empty record that opens where none is open closes at once. -/
theorem openRecord_empty_of_no_record (h : s.record?.isSome = false) :
    s.openRecord reading content true =
      (s.openRecord reading content false).1.closeRecord reading := by
  simp only [openRecord, closeOverdue, h, Bool.false_eq_true, if_false, if_true, List.nil_append]

theorem closeElement_prop :
    s.closeElement reading (Xml.word "prop") = (s.closeProperty, []) := rfl

theorem closeElement_tuv :
    s.closeElement reading (Xml.word "tuv") = (s.closeVariant, []) := rfl

theorem closeElement_tu :
    s.closeElement reading (Xml.word "tu") = s.closeRecord reading := rfl

theorem closeElement_body :
    s.closeElement reading (Xml.word "body") = s.closeOverdue reading := rfl

theorem closeElement_tmx :
    s.closeElement reading (Xml.word "tmx") = s.closeOverdue reading := rfl

end Elements

/-! ## States that agree -/

/-- The states are equal but for what they count. -/
structure Agrees (s s' : DocumentState) : Prop where
  sourceLanguage? : s.sourceLanguage? = s'.sourceLanguage?
  record? : s.record? = s'.record?
  variant? : s.variant? = s'.variant?
  property? : s.property? = s'.property?
  segment? : s.segment? = s'.segment?

/-- The states agree, and the units are the same. -/
def SameResult (p p' : DocumentState × List TranslationUnit) : Prop :=
  Agrees p.1 p'.1 ∧ p.2 = p'.2

namespace Agrees

theorem refl (s : DocumentState) : Agrees s s := ⟨rfl, rfl, rfl, rfl, rfl⟩

theorem trans (h : Agrees s s') (h' : Agrees s' s'') : Agrees s s'' :=
  ⟨h.sourceLanguage?.trans h'.sourceLanguage?, h.record?.trans h'.record?,
    h.variant?.trans h'.variant?, h.property?.trans h'.property?, h.segment?.trans h'.segment?⟩

variable (reading : Reading)

theorem recover (h : Agrees s s') : Agrees s.recover s'.recover :=
  ⟨h.sourceLanguage?, h.record?, h.variant?, h.property?, h.segment?⟩

theorem closeRecord (h : Agrees s s') :
    SameResult (s.closeRecord reading) (s'.closeRecord reading) := by
  unfold DocumentState.closeRecord
  rw [h.record?]
  split
  · exact ⟨h, rfl⟩
  · rw [h.variant?, h.sourceLanguage?]
    exact ⟨⟨rfl, rfl, rfl, rfl, rfl⟩, rfl⟩

theorem closeOverdue (h : Agrees s s') :
    SameResult (s.closeOverdue reading) (s'.closeOverdue reading) := by
  unfold DocumentState.closeOverdue
  rw [h.record?]
  split
  · exact h.recover.closeRecord reading
  · exact ⟨h, rfl⟩

theorem closeSegment (h : Agrees s s') (raw : Text) :
    Agrees (s.closeSegment raw) (s'.closeSegment raw) := by
  refine ⟨h.sourceLanguage?, h.record?, ?_, h.property?, rfl⟩
  simp only [DocumentState.closeSegment, h.variant?]

theorem closeProperty (h : Agrees s s') : Agrees s.closeProperty s'.closeProperty := by
  unfold DocumentState.closeProperty
  rw [h.property?]
  split
  · exact h
  · simp only [h.variant?, h.record?]
    -- The property belongs to the open variant, or else to the record.
    split
    · exact ⟨h.sourceLanguage?, rfl, rfl, rfl, h.segment?⟩
    · exact ⟨h.sourceLanguage?, rfl, rfl, rfl, h.segment?⟩

theorem closeVariant (h : Agrees s s') : Agrees s.closeVariant s'.closeVariant := by
  refine ⟨h.sourceLanguage?, ?_, rfl, h.property?, h.segment?⟩
  simp only [DocumentState.closeVariant, h.record?, h.variant?]

theorem openRecord (h : Agrees s s') (content : List Unicode.Glyph) (isEmpty : Bool) :
    SameResult (s.openRecord reading content isEmpty) (s'.openRecord reading content isEmpty) := by
  -- A record that is overdue closes first, and its units come before those of an empty record.
  obtain ⟨hoverdue, hunits⟩ := h.closeOverdue reading
  unfold DocumentState.openRecord
  simp only
  have hopen : ∀ r : Record,
      Agrees { (s.closeOverdue reading).1 with record? := some r }
        { (s'.closeOverdue reading).1 with record? := some r } := fun r =>
    ⟨hoverdue.sourceLanguage?, rfl, hoverdue.variant?, hoverdue.property?, hoverdue.segment?⟩
  split
  · obtain ⟨hclosed, hmore⟩ := (hopen _).closeRecord reading
    refine ⟨hclosed, ?_⟩
    simp only [hunits, hmore]
  · exact ⟨hopen _, hunits⟩

theorem openVariant (h : Agrees s s') (content : List Unicode.Glyph) (isEmpty : Bool) :
    Agrees (s.openVariant content isEmpty) (s'.openVariant content isEmpty) := by
  unfold DocumentState.openVariant
  rw [h.record?, h.variant?]
  split
  · exact h
  · simp only
    split
    · exact ⟨h.sourceLanguage?, rfl, rfl, h.property?, h.segment?⟩
    · exact ⟨h.sourceLanguage?, rfl, rfl, h.property?, h.segment?⟩

theorem openSegment (h : Agrees s s') (isEmpty : Bool) :
    Agrees (s.openSegment isEmpty) (s'.openSegment isEmpty) := by
  unfold DocumentState.openSegment
  rw [h.variant?]
  split
  · exact h
  · split
    · exact h.closeSegment []
    · exact ⟨h.sourceLanguage?, h.record?, rfl, h.property?, rfl⟩

theorem openElement (h : Agrees s s') (content : List Unicode.Glyph) (isEmpty : Bool) :
    SameResult (s.openElement reading content isEmpty)
      (s'.openElement reading content isEmpty) := by
  -- One case for each name with a meaning, in the order in which they are looked for.
  unfold DocumentState.openElement
  simp only
  split
  · exact ⟨⟨h.sourceLanguage?, h.record?, h.variant?, h.property?, h.segment?⟩, rfl⟩
  split
  · exact ⟨⟨rfl, h.record?, h.variant?, h.property?, h.segment?⟩, rfl⟩
  split
  · exact h.openRecord reading content isEmpty
  split
  · exact ⟨h.openVariant content isEmpty, rfl⟩
  split
  · exact ⟨⟨h.sourceLanguage?, h.record?, h.variant?, rfl, h.segment?⟩, rfl⟩
  split
  · exact ⟨h.openSegment isEmpty, rfl⟩
  · exact ⟨h, rfl⟩

theorem closeElement (h : Agrees s s') (name : List Unicode.Glyph) :
    SameResult (s.closeElement reading name) (s'.closeElement reading name) := by
  unfold DocumentState.closeElement
  split
  · exact ⟨h.closeProperty, rfl⟩
  split
  · exact ⟨h.closeVariant, rfl⟩
  split
  · exact h.closeRecord reading
  split
  · exact h.closeOverdue reading
  · exact ⟨h, rfl⟩

theorem closeInSegment (h : Agrees s s') (name : List Unicode.Glyph) (g : OpenSegment) :
    SameResult (s.closeInSegment reading name g) (s'.closeInSegment reading name g) := by
  unfold DocumentState.closeInSegment
  simp only
  split
  · exact ⟨⟨h.sourceLanguage?, h.record?, h.variant?, h.property?, rfl⟩, rfl⟩
  split
  · exact ⟨⟨h.sourceLanguage?, h.record?, h.variant?, h.property?, rfl⟩, rfl⟩
  split
  · exact ⟨h.closeSegment g.raw, rfl⟩
  · exact (h.closeSegment g.raw).recover.closeElement reading name

theorem addText (h : Agrees s s') (inSegment inProperty : Text) :
    Agrees (s.addText inSegment inProperty) (s'.addText inSegment inProperty) := by
  unfold DocumentState.addText
  rw [h.segment?, h.property?]
  split
  · exact ⟨h.sourceLanguage?, h.record?, h.variant?, rfl, rfl⟩
  · exact ⟨h.sourceLanguage?, h.record?, h.variant?, rfl, rfl⟩

/-- One event keeps agreement. -/
theorem step (h : Agrees s s') (e : Xml.Event) :
    SameResult (s.step reading e) (s'.step reading e) := by
  cases e with
  | start content =>
    simp only [DocumentState.step, h.segment?]
    split
    · exact ⟨⟨h.sourceLanguage?, h.record?, h.variant?, h.property?, rfl⟩, rfl⟩
    · exact h.openElement reading content false
  | empty content =>
    simp only [DocumentState.step, h.segment?]
    split
    · exact ⟨⟨h.sourceLanguage?, h.record?, h.variant?, h.property?, rfl⟩, rfl⟩
    · exact h.openElement reading content true
  | stop name =>
    simp only [DocumentState.step, h.segment?]
    split
    · exact h.closeInSegment reading name _
    · exact h.closeElement reading name
  | text raw => exact ⟨h.addText _ _, rfl⟩
  | data raw => exact ⟨h.addText _ _, rfl⟩
  | other => exact ⟨h, rfl⟩

/-- **States that agree yield the same units, and go on to agree.** -/
theorem steps (h : Agrees s s') (es : List Xml.Event) :
    SameResult (s.steps reading es) (s'.steps reading es) := by
  induction es generalizing s s' with
  | nil => exact ⟨h, rfl⟩
  | cons e rest ih =>
    obtain ⟨hnext, hunits⟩ := h.step reading e
    obtain ⟨hlast, hmore⟩ := ih hnext
    exact ⟨hlast, by simp only [steps_cons, hunits, hmore]⟩

end Agrees

end Bitext.Tmx.DocumentState
