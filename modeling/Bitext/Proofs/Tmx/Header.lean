import Bitext.Proofs.Tmx.Closings
import Bitext.Proofs.Tmx.Origin
import Bitext.Proofs.Tmx.Recovery

/-!
# The source language in force

A header declares the source language of what follows it, and nothing else changes it.  So if the
last header of a document stands before its first record, all of its records close under the
language that this header declares.

## Main definitions

* `declaredLanguage?`: the source language that a header declares.
* `IsHeaded`: the last header stands before all records and declares the given language.

## Main results

* `DocumentState.sourceLanguage?_readItem`: one item
* `IsHeaded.language?_of_mem_closedRecords`: all items of a document
-/

namespace Bitext.Tmx

open Bitext.Unicode (Glyph)
open Bitext.Xml (Event Item contentName)

variable {reading : Reading} {s : DocumentState} {l : Text} {language? : Option Text}
  {faults : Nat} {items : List Item}

/-! ## Headers -/

/-- The source language that a header declares. -/
def declaredLanguage? (content : List Glyph) : Option Text :=
  ((attribute? ["srclang".toList] content).map primarySubtag).filter
    fun code => !code.isEmpty && code ≠ "*all*".toList

theorem DocumentState.sourceLanguage?_header (s : DocumentState) (content : List Glyph) :
    (s.header content).sourceLanguage? = declaredLanguage? content := rfl

/-- The content of the tag of a header, if the item is one; in a segment there are none. -/
def DocumentState.header? (s : DocumentState) : Item → Option (List Glyph)
  | .event (.start content) | .event (.empty content) =>
    if s.segment?.isNone && contentName content == Xml.word "header" then some content else none
  | _ => none

namespace Passage

/-- The content of the tag of a header, if the passage reads one. -/
def header? (p : Passage) : Option (List Glyph) := p.item?.bind p.state.header?

/-- The passage reads a header that declares the language. -/
def declares (p : Passage) (language : Text) : Bool :=
  p.header?.bind declaredLanguage? == some language

end Passage

/-- The last header of the document stands before all of its records, and declares the language. -/
inductive IsHeaded (language : Text) : List Passage → Prop
  | header {p : Passage} {ps : List Passage} (declares : p.declares language = true)
      (only : ∀ q ∈ ps, q.header? = none) : IsHeaded language (p :: ps)
  | before {p : Passage} {ps : List Passage} (opens : p.opens = false)
      (later : IsHeaded language ps) : IsHeaded language (p :: ps)

theorem isHeaded_cons_iff {p : Passage} {ps : List Passage} :
    IsHeaded l (p :: ps) ↔
      (p.declares l = true ∧ ∀ q ∈ ps, q.header? = none) ∨
        (p.opens = false ∧ IsHeaded l ps) := by
  constructor
  · rintro (⟨hdeclares, honly⟩ | ⟨hopens, hlater⟩)
    · exact .inl ⟨hdeclares, honly⟩
    · exact .inr ⟨hopens, hlater⟩
  · rintro (⟨hdeclares, honly⟩ | ⟨hopens, hlater⟩)
    · exact .header hdeclares honly
    · exact .before hopens hlater

instance decidableIsHeaded (language : Text) :
    (ps : List Passage) → Decidable (IsHeaded language ps)
  | [] => isFalse (by rintro ⟨⟩)
  | _ :: ps =>
    have := decidableIsHeaded language ps
    decidable_of_iff _ isHeaded_cons_iff.symm

namespace DocumentState

/-! ## The language in force -/

@[simp] theorem sourceLanguage?_stored (s : DocumentState) :
    s.stored.sourceLanguage? = s.sourceLanguage? := by
  unfold stored
  split <;> rfl

@[simp] theorem sourceLanguage?_closeRecord (reading : Reading) (s : DocumentState) :
    (s.closeRecord reading).1.sourceLanguage? = s.sourceLanguage? := by
  unfold closeRecord
  split <;> rfl

@[simp] theorem sourceLanguage?_closeOverdue (reading : Reading) (s : DocumentState) :
    (s.closeOverdue reading).1.sourceLanguage? = s.sourceLanguage? := by
  unfold closeOverdue
  split
  · exact sourceLanguage?_closeRecord reading s.recover
  · rfl

theorem sourceLanguage?_openRecord (reading : Reading) (s : DocumentState) (content : List Glyph)
    (isEmpty : Bool) :
    (s.openRecord reading content isEmpty).1.sourceLanguage? = s.sourceLanguage? := by
  unfold openRecord
  simp only
  split
  · rw [sourceLanguage?_closeRecord]
    exact sourceLanguage?_closeOverdue reading s
  · exact sourceLanguage?_closeOverdue reading s

theorem sourceLanguage?_openVariant (s : DocumentState) (content : List Glyph) (isEmpty : Bool) :
    (s.openVariant content isEmpty).sourceLanguage? = s.sourceLanguage? := by
  unfold openVariant
  split
  · rfl
  · simp only
    split <;> rfl

theorem sourceLanguage?_openSegment (s : DocumentState) (isEmpty : Bool) :
    (s.openSegment isEmpty).sourceLanguage? = s.sourceLanguage? := by
  unfold openSegment
  split
  · rfl
  · split <;> rfl

theorem sourceLanguage?_closeProperty (s : DocumentState) :
    s.closeProperty.sourceLanguage? = s.sourceLanguage? := by
  unfold closeProperty
  split
  · rfl
  · simp only
    split <;> rfl

theorem sourceLanguage?_openElement (reading : Reading) (s : DocumentState) (content : List Glyph)
    (isEmpty : Bool) :
    (s.openElement reading content isEmpty).1.sourceLanguage? =
      if contentName content = Xml.word "header" then declaredLanguage? content
      else s.sourceLanguage? := by
  by_cases hheader : contentName content = Xml.word "header"
  · rw [if_pos hheader, openElement_header isEmpty hheader, sourceLanguage?_header]
  · rw [if_neg hheader]
    unfold openElement
    simp only [hheader, if_false]
    split
    · rfl
    split
    · exact sourceLanguage?_openRecord reading s content isEmpty
    split
    · exact sourceLanguage?_openVariant s content isEmpty
    split
    · rfl
    split
    · exact sourceLanguage?_openSegment s isEmpty
    · rfl

theorem sourceLanguage?_closeElement (reading : Reading) (s : DocumentState) (name : List Glyph) :
    (s.closeElement reading name).1.sourceLanguage? = s.sourceLanguage? := by
  unfold closeElement
  split
  · exact sourceLanguage?_closeProperty s
  split
  · rfl
  split
  · exact sourceLanguage?_closeRecord reading s
  split
  · exact sourceLanguage?_closeOverdue reading s
  · rfl

theorem sourceLanguage?_closeInSegment (reading : Reading) (s : DocumentState)
    (name : List Glyph) (g : OpenSegment) :
    (s.closeInSegment reading name g).1.sourceLanguage? = s.sourceLanguage? := by
  unfold closeInSegment
  simp only
  split
  · rfl
  split
  · rfl
  split
  · rfl
  · exact sourceLanguage?_closeElement reading (s.closeSegment g.raw).recover name

theorem sourceLanguage?_addText (s : DocumentState) (inSegment inProperty : Text) :
    (s.addText inSegment inProperty).sourceLanguage? = s.sourceLanguage? := by
  unfold addText
  split <;> rfl

/-- **Only a header changes the source language**, to the one that it declares. -/
theorem sourceLanguage?_readItem (reading : Reading) (s : DocumentState) (item : Item) :
    (s.readItem reading item).1.sourceLanguage? =
      ((s.header? item).map declaredLanguage?).getD s.sourceLanguage? := by
  cases item with
  | illFormed | syntaxError => rfl
  | event e =>
    cases hsegment : s.segment? with
    | some g =>
      cases e with
      | start content | empty content => simp [readItem, step, header?, hsegment]
      | stop name =>
        simp only [readItem, step, hsegment]
        exact sourceLanguage?_closeInSegment reading s name g
      | text raw | data raw => exact sourceLanguage?_addText s _ _
      | other => rfl
    | none =>
      cases e with
      | start content | empty content =>
        simp only [readItem, step, header?, hsegment, Option.isNone_none, Bool.true_and,
          beq_iff_eq]
        rw [sourceLanguage?_openElement]
        split <;> rfl
      | stop name =>
        simp only [readItem, step, hsegment]
        exact sourceLanguage?_closeElement reading s name
      | text raw | data raw => exact sourceLanguage?_addText s _ _
      | other => rfl

theorem language?_of_mem_closingRecord? {c : ClosedRecord} (h : c ∈ s.closingRecord?) :
    c.language? = s.sourceLanguage? := by
  obtain ⟨r, -, rfl⟩ := Option.map_eq_some_iff.mp h
  rfl

theorem language?_of_mem_closed? {e : Event} {c : ClosedRecord} (h : c ∈ s.closed? e) :
    c.language? = s.sourceLanguage? := by
  unfold closed? at h
  split at h
  · rw [language?_of_mem_closingRecord? h, sourceLanguage?_stored]
  · cases h

/-- Without a header all records close under the language that is in force. -/
theorem language?_of_no_header (h : ∀ p ∈ s.allPassages .plain items, p.header? = none) :
    ∀ c ∈ s.closedRecords faults items, c.language? = s.sourceLanguage? := by
  induction items generalizing s faults with
  | nil =>
    intro c hc
    exact language?_of_mem_closingRecord? (Option.mem_toList.mp hc)
  | cons item rest ih =>
    intro c hc
    rcases mem_closedRecords_cons hc with ⟨e, -, hclosed⟩ | ⟨n, hlater⟩
    · exact language?_of_mem_closed? hclosed
    · -- The first item keeps the language, so those behind it have the same one in force.
      have hfirst : s.header? item = none := h (s.passage .plain item) List.mem_cons_self
      have hkept : (s.readItem .plain item).1.sourceLanguage? = s.sourceLanguage? := by
        rw [sourceLanguage?_readItem, hfirst]
        rfl
      rw [← hkept]
      exact ih (fun p hp => h p (List.mem_cons_of_mem _ hp)) c hlater

/-- Where no record is open, none closes. -/
theorem closed?_of_no_record (h : s.record? = none) (e : Event) : s.closed? e = none := by
  have hstored : s.stored.record? = none := by rw [record?_stored, h]
  rw [closed?, closingRecord?_of_no_record hstored, ite_self]

/-- What opens no record leaves none open. -/
theorem outside_readItem {item : Item} (h : s.opens item = false)
    (hs : Outside language? false false s) :
    ∃ l, Outside l false false (s.readItem .plain item).1 := by
  cases item with
  | illFormed | syntaxError =>
    exact ⟨language?, hs.sourceLanguage?, hs.record?, hs.variant?, hs.segment?⟩
  | event e =>
    have hopens : ¬ OpensRecord e := by
      intro hopens
      cases e with
      | start content | empty content =>
        simp only [OpensRecord] at hopens
        simp [opens, hs.segment?, hopens] at h
      | _ => exact hopens
    exact (step_head .plain hopens hs).2

end DocumentState

/-- **All records close under the declared language**, if the last header stands before them. -/
theorem IsHeaded.language?_of_mem_closedRecords
    (h : IsHeaded l (s.allPassages .plain items)) (hs : Outside language? false false s) :
    ∀ c ∈ s.closedRecords faults items, c.language? = some l := by
  induction items generalizing s language? faults with
  | nil =>
    -- The end of the input is no header.
    rcases h with ⟨hdeclares, -⟩ | ⟨-, ⟨⟩⟩
    cases hdeclares
  | cons item rest ih =>
    intro c hc
    rcases DocumentState.mem_closedRecords_cons hc with ⟨e, -, hclosed⟩ | ⟨n, hlater⟩
    · rw [DocumentState.closed?_of_no_record hs.record?_eq_none] at hclosed
      cases hclosed
    rcases h with ⟨hdeclares, honly⟩ | ⟨hopens, hbehind⟩
    · have hheader : (s.header? item).bind declaredLanguage? = some l := beq_iff_eq.mp hdeclares
      obtain ⟨content, hcontent, hdeclared⟩ := Option.bind_eq_some_iff.mp hheader
      have hlanguage : (s.readItem .plain item).1.sourceLanguage? = some l := by
        rw [DocumentState.sourceLanguage?_readItem, hcontent, ← hdeclared]
        rfl
      rw [← hlanguage]
      exact DocumentState.language?_of_no_header honly c hlater
    · obtain ⟨language?, hnext⟩ := DocumentState.outside_readItem hopens hs
      exact ih hbehind hnext c hlater

/-- The last header of the document stands before all of its records, and declares the language. -/
def Document.IsHeaded (language : Text) (d : Data) : Prop :=
  Tmx.IsHeaded language (Document.passages .plain d)

instance (language : Text) (d : Data) : Decidable (Document.IsHeaded language d) :=
  decidableIsHeaded language _

theorem Document.IsHeaded.language?_of_mem_records {d : Data}
    (h : Document.IsHeaded l d) : ∀ c ∈ Document.records d, c.language? = some l :=
  Tmx.IsHeaded.language?_of_mem_closedRecords h ⟨rfl, rfl, rfl, rfl⟩

end Bitext.Tmx
