import Bitext.Proofs.Tmx.Accounts

/-!
# The records of a document

What a caller asks for decides which units are made of a record, and nothing else: which records a
document has, what they hold and which source language is declared when they close is the same for
every request.  So reading a document may be taken apart into its records, one after another as they
close, and the units that the request makes of each of them.

## Main definitions

* `ClosedRecord`: a record that has closed, under the source language declared by then.
* `DocumentState.closed?`: the record that an event closes.
* `Document.records`: the records of a document.

## Main results

* `DocumentState.units_step`: one event yields the units of the record that it closes
* `DocumentState.agrees_step`: one event leads to the same state for every request
* `Document.units_read`: the units of a document are those of its records
-/

namespace Bitext.Tmx

open Bitext.Unicode (Glyph)

/-- A record that has closed, and the source language that was declared by then. -/
structure ClosedRecord where
  record : Record
  language? : Option Text
  deriving DecidableEq, Repr

/-- What a caller makes of the record. -/
def ClosedRecord.units (reading : Reading) (c : ClosedRecord) : List TranslationUnit :=
  c.record.units reading.request reading.fileName c.language?

/-- A reading that asks for nothing. -/
def Reading.plain : Reading := ⟨{}, []⟩

/-- The elements that end with every record in them. -/
def enclosing : List (List Glyph) := ["tu", "body", "tmx"].map Xml.word

theorem mem_enclosing {name : List Glyph} :
    name ∈ enclosing ↔ name = Xml.word "tu" ∨ name = Xml.word "body" ∨ name = Xml.word "tmx" := by
  simp only [enclosing, List.map_cons, List.map_nil, List.mem_cons, List.not_mem_nil, or_false]

theorem mem_structural_of_mem_enclosing {name : List Glyph} (h : name ∈ enclosing) :
    name ∈ structural ∧ name ≠ Xml.word "seg" := by
  rcases mem_enclosing.mp h with rfl | rfl | rfl <;> decide

namespace DocumentState

variable {reading reading' : Reading} {s s' s'' : DocumentState}

/-- The event closes the record that is open, if there is one: it is the tag of the next record, or
the end tag of an element around the record.  A segment takes both for content, an end tag only as
long as inline tags are open. -/
def closes (s : DocumentState) : Xml.Event → Bool
  | .start content | .empty content =>
    s.segment?.isNone && Xml.contentName content == Xml.word "tu"
  | .stop name => s.segment?.all (·.depth == 0) && enclosing.contains name
  | _ => false

/-- The open record, as it would close now. -/
def closingRecord? (s : DocumentState) : Option ClosedRecord :=
  s.closing?.map fun r => ⟨r, s.sourceLanguage?⟩

/-- The record that the event closes.  An empty tag closes the record before it; its own record has
no variants and is left out. -/
def closed? (s : DocumentState) (e : Xml.Event) : Option ClosedRecord :=
  if s.closes e then s.stored.closingRecord? else none

/-! ## The units that an event yields -/

theorem closingRecord?_of_no_record (h : s.record? = none) : s.closingRecord? = none := by
  rw [closingRecord?, closing?, h]
  rfl

theorem units_closeRecord (reading : Reading) (s : DocumentState) :
    (s.closeRecord reading).2 = s.closingRecord?.toList.flatMap (·.units reading) := by
  unfold closeRecord
  split
  · rename_i hr
    rw [closingRecord?_of_no_record hr]
    rfl
  · rename_i r hr
    have hclosing : s.closingRecord? = some ⟨withVariant r s.variant?, s.sourceLanguage?⟩ := by
      rw [closingRecord?, closing?, hr]
      rfl
    rw [hclosing]
    exact (List.flatMap_singleton _ _).symm

theorem units_closeOverdue (reading : Reading) (s : DocumentState) :
    (s.closeOverdue reading).2 = s.closingRecord?.toList.flatMap (·.units reading) := by
  unfold closeOverdue
  split
  · exact units_closeRecord reading s.recover
  · rename_i hr
    rw [closingRecord?_of_no_record (Option.not_isSome_iff_eq_none.mp hr)]
    rfl

/-- Only a record that is overdue yields units where one opens; an empty record has none. -/
theorem units_openRecord (reading : Reading) (h : s.IsNested) (content : List Glyph)
    (isEmpty : Bool) :
    (s.openRecord reading content isEmpty).2 =
      s.closingRecord?.toList.flatMap (·.units reading) := by
  obtain ⟨-, hvariant, -⟩ := closed_closeOverdue reading h
  unfold openRecord
  simp only
  split
  · simp only [closeRecord, hvariant, withVariant, Option.toList_none, List.append_nil]
    rw [units_of_no_variants rfl, List.append_nil, units_closeOverdue]
  · exact units_closeOverdue reading s

theorem units_openElement (reading : Reading) (h : s.IsNested) (content : List Glyph)
    (isEmpty : Bool) :
    (s.openElement reading content isEmpty).2 =
      if Xml.contentName content = Xml.word "tu" then
        s.closingRecord?.toList.flatMap (·.units reading)
      else [] := by
  by_cases hrecord : Xml.contentName content = Xml.word "tu"
  · rw [if_pos hrecord, openElement_tu isEmpty hrecord, units_openRecord reading h]
  · -- No other element closes anything.
    rw [if_neg hrecord]
    unfold openElement
    simp only [hrecord, if_false]
    repeat' split
    all_goals rfl

theorem units_closeElement (reading : Reading) (s : DocumentState) (name : List Glyph) :
    (s.closeElement reading name).2 =
      if name ∈ enclosing then s.closingRecord?.toList.flatMap (·.units reading) else [] := by
  by_cases hname : name ∈ enclosing
  · rw [if_pos hname]
    rcases mem_enclosing.mp hname with rfl | rfl | rfl
    · exact units_closeRecord reading s
    · exact units_closeOverdue reading s
    · exact units_closeOverdue reading s
  · rw [if_neg hname]
    rw [mem_enclosing, not_or, not_or] at hname
    obtain ⟨hrecord, hbody, hroot⟩ := hname
    unfold closeElement
    simp only [hrecord, hbody, hroot, if_false, decide_false, Bool.or_false, Bool.false_eq_true]
    repeat' split
    all_goals rfl

/-- An end tag in a segment closes the record with what the segment has come to. -/
theorem units_closeInSegment (reading : Reading) {g : OpenSegment} (hg : s.segment? = some g)
    (name : List Glyph) :
    (s.closeInSegment reading name g).2 =
      if g.depth = 0 ∧ name ∈ enclosing then
        s.stored.closingRecord?.toList.flatMap (·.units reading)
      else [] := by
  have hstored : s.stored = s.closeSegment g.raw := by rw [stored, hg]
  have hclose (name : List Glyph) : ((s.closeSegment g.raw).recover.closeElement reading name).2 =
      if name ∈ enclosing then s.stored.closingRecord?.toList.flatMap (·.units reading) else [] := by
    rw [units_closeElement, hstored]
    rfl
  unfold closeInSegment
  simp only
  by_cases hname : name ∈ enclosing
  · -- Such an end tag belongs to the structure of the document, and is not that of the segment.
    obtain ⟨hstructural, hsegment⟩ := mem_structural_of_mem_enclosing hname
    have hcontains : (!structural.contains name) = false := by simpa using hstructural
    simp only [hcontains, hsegment, hname, Bool.false_eq_true, if_false, and_true]
    split
    · rw [if_neg (by omega)]
    · rw [hclose, if_pos hname, if_pos (by omega)]
  · have hkept : ¬ (g.depth = 0 ∧ name ∈ enclosing) := fun h => hname h.2
    rw [if_neg hkept]
    split
    · rfl
    split
    · rfl
    split
    · rfl
    · rw [hclose, if_neg hname]

/-- **One event** yields the units of the record that it closes. -/
theorem units_step (reading : Reading) (h : s.IsNested) (e : Xml.Event) :
    (s.step reading e).2 = (s.closed? e).toList.flatMap (·.units reading) := by
  unfold closed?
  cases hsegment : s.segment? with
  | some g =>
    cases e with
    | start content | empty content | text raw | data raw | other =>
      simp [step, closes, hsegment]
    | stop name =>
      simp only [step, closes, hsegment, Option.all_some]
      rw [units_closeInSegment reading hsegment]
      simp only [Bool.and_eq_true, beq_iff_eq, List.contains_iff_mem]
      split <;> rfl
  | none =>
    rw [stored_of_none hsegment]
    cases e with
    | start content | empty content =>
      simp only [step, closes, hsegment, Option.isNone_none, Bool.true_and, beq_iff_eq]
      rw [units_openElement reading h]
      split <;> rfl
    | stop name =>
      simp only [step, closes, hsegment, Option.all_none, Bool.true_and, List.contains_iff_mem]
      rw [units_closeElement]
      split <;> rfl
    | text raw | data raw | other => rfl

/-! ## The same state for every request -/

namespace Agrees

theorem closingRecord? (h : Agrees s s') : s.closingRecord? = s'.closingRecord? := by
  rw [DocumentState.closingRecord?, DocumentState.closingRecord?, closing?, closing?, h.record?,
    h.variant?, h.sourceLanguage?]

theorem stored (h : Agrees s s') : Agrees s.stored s'.stored := by
  unfold DocumentState.stored
  rw [h.segment?]
  split
  · exact h
  · exact h.closeSegment _

theorem closed? (h : Agrees s s') (e : Xml.Event) : s.closed? e = s'.closed? e := by
  have hcloses : s.closes e = s'.closes e := by
    cases e <;> simp only [closes, h.segment?]
  rw [DocumentState.closed?, DocumentState.closed?, hcloses, h.stored.closingRecord?]

end Agrees

variable (reading reading' s)

theorem agrees_closeRecord :
    Agrees (s.closeRecord reading).1 (s.closeRecord reading').1 := by
  unfold closeRecord
  split
  · exact .refl s
  · exact ⟨rfl, rfl, rfl, rfl, rfl⟩

theorem agrees_closeOverdue :
    Agrees (s.closeOverdue reading).1 (s.closeOverdue reading').1 := by
  unfold closeOverdue
  split
  · exact agrees_closeRecord reading reading' s.recover
  · exact .refl s

theorem agrees_openRecord (content : List Glyph) (isEmpty : Bool) :
    Agrees (s.openRecord reading content isEmpty).1
      (s.openRecord reading' content isEmpty).1 := by
  have hoverdue := agrees_closeOverdue reading reading' s
  have hopen : ∀ r : Record,
      Agrees { (s.closeOverdue reading).1 with record? := some r }
        { (s.closeOverdue reading').1 with record? := some r } := fun r =>
    ⟨hoverdue.sourceLanguage?, rfl, hoverdue.variant?, hoverdue.property?, hoverdue.segment?⟩
  unfold openRecord
  simp only
  split
  · exact ((hopen _).closeRecord reading).1.trans (agrees_closeRecord reading reading' _)
  · exact hopen _

theorem agrees_openElement (content : List Glyph) (isEmpty : Bool) :
    Agrees (s.openElement reading content isEmpty).1
      (s.openElement reading' content isEmpty).1 := by
  -- Only the tag of a record has to do with the request.
  by_cases hrecord : Xml.contentName content = Xml.word "tu"
  · rw [openElement_tu isEmpty hrecord, openElement_tu isEmpty hrecord]
    exact agrees_openRecord reading reading' s content isEmpty
  · unfold openElement
    simp only [hrecord, if_false]
    repeat' split
    all_goals exact .refl _

theorem agrees_closeElement (name : List Glyph) :
    Agrees (s.closeElement reading name).1 (s.closeElement reading' name).1 := by
  unfold closeElement
  split
  · exact .refl _
  split
  · exact .refl _
  split
  · exact agrees_closeRecord reading reading' s
  split
  · exact agrees_closeOverdue reading reading' s
  · exact .refl _

theorem agrees_closeInSegment (name : List Glyph) (g : OpenSegment) :
    Agrees (s.closeInSegment reading name g).1 (s.closeInSegment reading' name g).1 := by
  unfold closeInSegment
  simp only
  split
  · exact .refl _
  split
  · exact .refl _
  split
  · exact .refl _
  · exact agrees_closeElement reading reading' _ name

/-- **One event** leads to the same state for every request, but for what is counted. -/
theorem agrees_step (e : Xml.Event) :
    Agrees (s.step reading e).1 (s.step reading' e).1 := by
  cases e with
  | start content | empty content =>
    simp only [step]
    split
    · exact .refl _
    · exact agrees_openElement reading reading' s content _
  | stop name =>
    simp only [step]
    split
    · exact agrees_closeInSegment reading reading' s name _
    · exact agrees_closeElement reading reading' s name
  | text raw | data raw | other => exact .refl _

variable {reading reading' s}

/-! ## Whole documents -/

/-- The records that close while the items are read, one after another; `faults` is the number of
faults in a row before them.  A document that is given up closes no more. -/
def closedRecords (faults : Nat) (s : DocumentState) : List Xml.Item → List ClosedRecord
  | [] => s.closingRecord?.toList
  | .event e :: rest => (s.closed? e).toList ++ (s.step .plain e).1.closedRecords 0 rest
  | .illFormed :: rest | .syntaxError :: rest =>
    if patience ≤ faults + 1 then [] else s.recover.closedRecords (faults + 1) rest

/-- A record that closes is closed by the first item or behind it. -/
theorem mem_closedRecords_cons {faults : Nat} {item : Xml.Item} {rest : List Xml.Item}
    {c : ClosedRecord} (h : c ∈ s.closedRecords faults (item :: rest)) :
    (∃ e, item = .event e ∧ c ∈ s.closed? e) ∨
      ∃ n, c ∈ (s.readItem .plain item).1.closedRecords n rest := by
  cases item with
  | event e =>
    rcases List.mem_append.mp h with h | h
    · exact .inl ⟨e, rfl, Option.mem_toList.mp h⟩
    · exact .inr ⟨0, h⟩
  | illFormed | syntaxError =>
    simp only [closedRecords] at h
    split at h
    · cases h
    · exact .inr ⟨faults + 1, h⟩

/-- **The units that are read** are those of the records that close. -/
theorem units_run {faults : Nat} {items : List Xml.Item} (h : Agrees s s') (hs : s.IsNested) :
    (s.run reading faults items).2 =
      (s'.closedRecords faults items).flatMap (·.units reading) := by
  induction items generalizing s s' faults with
  | nil => rw [run, finish, closedRecords, ← h.closingRecord?, ← units_closeOverdue]
  | cons item rest ih =>
    cases item with
    | event e =>
      -- The states behind the event agree, whatever is asked for.
      have hnext := (agrees_step reading .plain s e).trans (h.step .plain e).1
      rw [run, closedRecords, List.flatMap_append, ← h.closed?, ← units_step reading hs,
        ← ih hnext (accounts_step hs e).isNested]
    | illFormed | syntaxError =>
      simp only [run, closedRecords]
      split
      · rfl
      · exact ih h.recover ⟨hs.segment?, hs.variant?⟩

end DocumentState

/-- The records of a document, one after another as they close, without those of empty tags. -/
def Document.records (d : Data) : List ClosedRecord :=
  DocumentState.closedRecords 0 {} (Document.items d)

/-- **The units of a document** are those that the request makes of its records. -/
theorem Document.units_read (reading : Reading) (d : Data) :
    (Document.read reading d).units = (Document.records d).flatMap (·.units reading) :=
  DocumentState.units_run (.refl {}) (DocumentState.isNested_of_none rfl rfl)

end Bitext.Tmx
