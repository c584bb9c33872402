import Bitext.Proofs.Tmx.Records

/-!
# How far a broken segment reaches

While a segment is open, every start tag is content and every end tag that follows it too, those of
the document's own structure included.  So inline tags that are left open in one segment take the
end tags of the segment, of its variant and of its record for their own.  With at most two of them
the end of the record is still seen, and the records after it are read as if nothing had happened.
With three or more everything behind the segment is content, and no record after it yields a unit.

## Main definitions

* `SegmentSite`: a document cut around the content of one of its segments.
* `leftOpen`: how many inline tags a content leaves open.
* `DocumentState.unitsOf`: the units of records that are read one after another.

## Main results

* `closed_of_closesRecord`, `Silently.of_closesRecord`: what open tags do to the end of a record
* `SegmentSite.swallowed`: three open tags swallow the records that follow
* `SegmentSite.unitsByRecord_eraseIdx_eq_iff`: exactly when the other records keep their units
-/

namespace Bitext.Tmx

open Bitext.Unicode (Glyph)
open Bitext.Xml (Event contentName)

variable {es old new : List Event}

/-! ## Open inline tags -/

/-- What the content of a segment may consist of: text, and tags of elements that are none of the
document's own. -/
def IsInline : Event → Prop
  | .start content | .empty content => contentName content ∉ structural
  | .stop name => name ∉ structural
  | _ => True

/-- The inline tags that are open after an event, if `depth` were open before it. -/
def depthAfter (depth : Nat) : Event → Nat
  | .start _ => depth + 1
  | .stop _ => depth - 1
  | _ => depth

/-- The number of inline tags that a content leaves open. -/
def leftOpen (content : List Event) : Nat := content.foldl depthAfter 0

variable {reading : Reading} {language? : Option Text} {s s' : DocumentState}

theorem Silently.of_inline {e : Event} {depth : Nat} (h : IsInline e) :
    Silently reading (InSegment language? depth) [e]
      (InSegment language? (depthAfter depth e)) := by
  cases e with
  | start content => exact start_inSegment content
  | empty content => exact empty_inSegment content
  | stop name =>
    cases depth with
    | zero => exact stop_inline_inSegment h
    | succ depth => exact stop_inSegment name
  | text raw => exact text_inSegment raw
  | data raw => exact data_inSegment raw
  | other => exact other_inSegment

/-- **Inline content leaves the segment open**, with as many inline tags as it does not close. -/
theorem Silently.of_inlineContent {depth : Nat} (h : ∀ e ∈ new, IsInline e) :
    Silently reading (InSegment language? depth) new
      (InSegment language? (new.foldl depthAfter depth)) := by
  induction new generalizing depth with
  | nil => exact nil reading _
  | cons e rest ih =>
    exact (of_inline (h e List.mem_cons_self)).cons
      (ih fun e' he => h e' (List.mem_cons_of_mem e he))

/-- **The end of the record is seen if at most two inline tags are open.**  The first one takes the
end tag of the segment, the second one that of the variant. -/
theorem closed_of_closesRecord {depth : Nat} (h : ClosesRecord es) (hdepth : depth ≤ 2)
    (hs : InSegment language? depth s) : Closed language? (s.steps reading es).1 := by
  obtain ⟨inside, variants⟩ := h
  have hsplit (a b : List Event) (e e' e'' : Event) :
      e :: (a ++ e' :: (b ++ [e''])) = (e :: (a ++ e' :: b)) ++ [e''] := by simp
  rw [hsplit]
  obtain rfl | rfl | rfl : depth = 0 ∨ depth = 1 ∨ depth = 2 := by omega
  -- Every end tag closes what it belongs to.
  · exact closed_of_silently
      (Silently.stop_segment.cons ((Silently.of_variantBody inside).append
        (Silently.stop_variant.cons (Silently.of_recordBody variants))))
      (fun _ => closed_stop_record) hs
  -- The segment stays open until the end tag of the variant, which closes both.
  · exact closed_of_silently
      ((Silently.stop_inSegment _).cons ((Silently.of_nested inside.nested).append
        (Silently.stop_variant_inSegment.cons (Silently.of_recordBody variants))))
      (fun _ => closed_stop_record) hs
  -- The end tag of the variant is content as well, and that of the record closes all three.
  · exact closed_of_silently
      ((Silently.stop_inSegment _).cons ((Silently.of_nested inside.nested).append
        ((Silently.stop_inSegment _).cons (Silently.of_nested variants.nested))))
      (fun _ => closed_stop_record_inSegment) hs

/-- With three or more inline tags open, the end of the record is content as well. -/
theorem Silently.of_closesRecord {depth : Nat} (h : ClosesRecord es) :
    Silently reading (InSegment language? (depth + 3)) es (InSegment language? depth) := by
  obtain ⟨inside, variants⟩ := h
  exact (stop_inSegment _).cons <| (of_nested inside.nested).append <| (stop_inSegment _).cons <|
    (of_nested variants.nested).append (stop_inSegment _)

/-! ## Records one after another -/

/-- Reads stretches of events one after another, and yields the units of each of them. -/
def DocumentState.unitsOf (reading : Reading) (s : DocumentState) :
    List (List Event) → List (List TranslationUnit)
  | [] => []
  | block :: rest => (s.steps reading block).2 :: (s.steps reading block).1.unitsOf reading rest

theorem unitsOf_append (reading : Reading) (s : DocumentState) (front back : List (List Event)) :
    s.unitsOf reading (front ++ back) =
      s.unitsOf reading front ++ (s.steps reading front.flatten).1.unitsOf reading back := by
  induction front generalizing s with
  | nil => rfl
  | cons block rest ih =>
    rw [List.cons_append, DocumentState.unitsOf, ih, List.flatten_cons,
      DocumentState.steps_append]
    rfl

@[simp] theorem length_unitsOf (reading : Reading) (s : DocumentState)
    (blocks : List (List Event)) : (s.unitsOf reading blocks).length = blocks.length := by
  induction blocks generalizing s with
  | nil => rfl
  | cons block rest ih => rw [DocumentState.unitsOf, List.length_cons, ih, List.length_cons]

/-- Reading all at once yields the same units. -/
theorem flatten_unitsOf (reading : Reading) (s : DocumentState) (blocks : List (List Event)) :
    (s.unitsOf reading blocks).flatten = (s.steps reading blocks.flatten).2 := by
  induction blocks generalizing s with
  | nil => rfl
  | cons block rest ih =>
    rw [DocumentState.unitsOf, List.flatten_cons, ih, List.flatten_cons,
      DocumentState.steps_append]

theorem unitsOf_of_agrees (h : s.Agrees s') (blocks : List (List Event)) :
    s.unitsOf reading blocks = s'.unitsOf reading blocks := by
  induction blocks generalizing s s' with
  | nil => rfl
  | cons block rest ih =>
    obtain ⟨hnext, hunits⟩ := h.steps reading block
    rw [DocumentState.unitsOf, DocumentState.unitsOf, hunits, ih hnext]

/-- Records in an open segment yield nothing. -/
theorem unitsOf_inSegment {depth : Nat} {blocks : List (List Event)}
    (h : ∀ block ∈ blocks, IsRecord block) (hs : InSegment language? depth s) :
    ∀ units ∈ s.unitsOf reading blocks, units = [] := by
  induction blocks generalizing s with
  | nil =>
    intro units hunits
    cases hunits
  | cons block rest ih =>
    have hblock : Silently reading (InSegment language? depth) block
        (InSegment language? depth) :=
      Silently.of_nested (h block List.mem_cons_self).nested
    obtain ⟨hunits, hnext⟩ := hblock s hs
    intro units hmem
    rcases List.mem_cons.mp hmem with rfl | hmem
    · exact hunits
    · exact ih (fun b hb => h b (List.mem_cons_of_mem block hb)) hnext units hmem

theorem closed_of_records {blocks : List (List Event)} (h : ∀ block ∈ blocks, IsRecord block)
    (hs : Outside language? false false s) :
    Outside language? false false (s.steps reading blocks.flatten).1 := by
  induction blocks generalizing s with
  | nil => exact hs
  | cons block rest ih =>
    rw [List.flatten_cons, DocumentState.steps_append]
    refine ih (fun b hb => h b (List.mem_cons_of_mem block hb)) ?_
    exact (closed_of_isRecord (h block List.mem_cons_self) hs).outside

/-! ## Heads of documents -/

/-- An event that opens a record. -/
def OpensRecord : Event → Prop
  | .start content | .empty content => contentName content = Xml.word "tu"
  | _ => False

theorem openElement_head {content : List Glyph} (isEmpty : Bool)
    (hname : contentName content ≠ Xml.word "tu") (hs : Outside language? false false s) :
    (s.openElement reading content isEmpty).2 = [] ∧
      ∃ l, Outside l false false (s.openElement reading content isEmpty).1 := by
  have hrecord := hs.record?_eq_none
  have hvariant : s.variant?.isNone = true := by
    rw [← Option.not_isSome, hs.variant?]
    rfl
  unfold DocumentState.openElement
  simp only
  split
  · exact ⟨rfl, language?, hs.sourceLanguage?, hs.record?, hs.variant?, hs.segment?⟩
  split
  · exact ⟨rfl, _, rfl, hs.record?, hs.variant?, hs.segment?⟩
  split
  · simp only [DocumentState.openVariant, hrecord]
    exact ⟨trivial, language?, hs⟩
  split
  · exact ⟨rfl, language?, hs.sourceLanguage?, hs.record?, hs.variant?, hs.segment?⟩
  split
  · simp only [DocumentState.openSegment, hvariant, if_true]
    exact ⟨trivial, language?, hs⟩
  · exact ⟨rfl, language?, hs⟩

theorem closeElement_head (reading : Reading) (name : List Glyph)
    (hs : Outside language? false false s) :
    (s.closeElement reading name).2 = [] ∧
      Outside language? false false (s.closeElement reading name).1 := by
  have hrecord := hs.record?_eq_none
  unfold DocumentState.closeElement
  split
  · exact ⟨rfl, Silently.closeProperty_outside hs⟩
  split
  · refine ⟨rfl, hs.sourceLanguage?, ?_, rfl, hs.segment?⟩
    simp only [DocumentState.closeVariant, hrecord]
    rfl
  split
  · simp only [DocumentState.closeRecord, hrecord]
    exact ⟨trivial, hs⟩
  split
  · simp only [DocumentState.closeOverdue, hs.record?]
    exact ⟨rfl, hs⟩
  · exact ⟨rfl, hs⟩

/-- Only the header changes the language, and no other event opens anything. -/
theorem step_head (reading : Reading) {e : Event} (h : ¬ OpensRecord e)
    (hs : Outside language? false false s) :
    (s.step reading e).2 = [] ∧ ∃ l, Outside l false false (s.step reading e).1 := by
  cases e with
  | start content =>
    simp only [DocumentState.step, hs.segment?]
    exact openElement_head false h hs
  | empty content =>
    simp only [DocumentState.step, hs.segment?]
    exact openElement_head true h hs
  | stop name =>
    simp only [DocumentState.step, hs.segment?]
    obtain ⟨hunits, hnext⟩ := closeElement_head reading name hs
    exact ⟨hunits, language?, hnext⟩
  | text raw => exact ⟨rfl, language?, Silently.addText_outside hs _ _⟩
  | data raw => exact ⟨rfl, language?, Silently.addText_outside hs _ _⟩
  | other => exact ⟨rfl, language?, hs⟩

/-- Where no record is opened, none is open, nor is a variant or a segment. -/
theorem outside_of_head (reading : Reading) {head : List Event} (h : ∀ e ∈ head, ¬ OpensRecord e)
    (hs : Outside language? false false s) :
    (s.steps reading head).2 = [] ∧ ∃ l, Outside l false false (s.steps reading head).1 := by
  induction head generalizing language? s with
  | nil => exact ⟨rfl, language?, hs⟩
  | cons e rest ih =>
    obtain ⟨hunits, l, hnext⟩ := step_head reading (h e List.mem_cons_self) hs
    obtain ⟨hmore, hlast⟩ := ih (fun e' he' => h e' (List.mem_cons_of_mem e he')) hnext
    rw [DocumentState.steps_cons, hunits, hmore]
    exact ⟨rfl, hlast⟩

/-! ## Documents cut at a segment -/

/-- A document of well-formed records, cut around the content of a segment. -/
structure SegmentSite where
  /-- What precedes the first record. -/
  head : List Event
  /-- The records before the one with the segment. -/
  before : List (List Event)
  /-- The record up to the start tag of the segment. -/
  opening : List Event
  /-- The record from the end tag of the segment on. -/
  closing : List Event
  /-- The records after it. -/
  after : List (List Event)
  opensNone : ∀ e ∈ head, ¬ OpensRecord e
  isRecord_before : ∀ block ∈ before, IsRecord block
  opensSegment : OpensSegment opening
  closesRecord : ClosesRecord closing
  isRecord_after : ∀ block ∈ after, IsRecord block

namespace SegmentSite

variable (d : SegmentSite)

/-- The records of the document with a content of the segment. -/
def blocks (content : List Event) : List (List Event) :=
  d.before ++ (d.opening ++ (content ++ d.closing)) :: d.after

/-- The units of each record of the document with a content of the segment. -/
def unitsByRecord (reading : Reading) (content : List Event) : List (List TranslationUnit) :=
  (({} : DocumentState).steps reading d.head).1.unitsOf reading (d.blocks content)

/-- The units of the whole document are those of its records, and what the rest of it yields. -/
theorem units_run (reading : Reading) (content : List Event) (rest : List Xml.Item) :
    (DocumentState.run reading 0 {}
        ((d.head ++ (d.blocks content).flatten).map .event ++ rest)).2 =
      (d.unitsByRecord reading content).flatten ++
        (DocumentState.run reading 0 (({} : DocumentState).steps reading
          (d.head ++ (d.blocks content).flatten)).1 rest).2 := by
  have hempty : Outside none false false {} := ⟨rfl, rfl, rfl, rfl⟩
  obtain ⟨hhead, -⟩ := outside_of_head reading d.opensNone hempty
  rw [DocumentState.run_events, DocumentState.steps_append, hhead, List.nil_append,
    unitsByRecord, flatten_unitsOf]

/-- The state behind the records before the one with the segment. -/
def reached (reading : Reading) : DocumentState :=
  ((({} : DocumentState).steps reading d.head).1.steps reading d.before.flatten).1

/-- The state behind the record with the segment. -/
def behind (reading : Reading) (content : List Event) : DocumentState :=
  ((d.reached reading).steps reading (d.opening ++ (content ++ d.closing))).1

theorem exists_outside_reached (reading : Reading) :
    ∃ language?, Outside language? false false (d.reached reading) := by
  have hempty : Outside none false false {} := ⟨rfl, rfl, rfl, rfl⟩
  obtain ⟨-, language?, hhead⟩ := outside_of_head reading d.opensNone hempty
  exact ⟨language?, closed_of_records d.isRecord_before hhead⟩

/-- The units of the records before, of the one with the segment, and of those behind it. -/
theorem unitsByRecord_eq (reading : Reading) (content : List Event) :
    ∃ units, d.unitsByRecord reading content =
      (({} : DocumentState).steps reading d.head).1.unitsOf reading d.before ++
        units :: (d.behind reading content).unitsOf reading d.after := by
  rw [unitsByRecord, blocks, unitsOf_append]
  exact ⟨_, rfl⟩

theorem unitsByRecord_eraseIdx (reading : Reading) (content : List Event) :
    (d.unitsByRecord reading content).eraseIdx d.before.length =
      (({} : DocumentState).steps reading d.head).1.unitsOf reading d.before ++
        (d.behind reading content).unitsOf reading d.after := by
  obtain ⟨units, hunits⟩ := d.unitsByRecord_eq reading content
  rw [hunits, List.eraseIdx_append_of_length_le (Nat.le_of_eq (length_unitsOf _ _ _)),
    length_unitsOf, Nat.sub_self, List.eraseIdx_cons_zero]

theorem unitsByRecord_drop (reading : Reading) (content : List Event) :
    (d.unitsByRecord reading content).drop (d.before.length + 1) =
      (d.behind reading content).unitsOf reading d.after := by
  obtain ⟨units, hunits⟩ := d.unitsByRecord_eq reading content
  rw [hunits, List.drop_append, length_unitsOf, Nat.add_sub_cancel_left, List.drop_succ_cons,
    List.drop_zero, List.drop_of_length_le (by rw [length_unitsOf]; omega), List.nil_append]

/-- A content that keeps the segment open stands before the end of the record. -/
theorem behind_eq (content : List Event) (reading : Reading) :
    d.behind reading content =
      (((d.reached reading).steps reading (d.opening ++ content)).1.steps reading d.closing).1 := by
  rw [behind, ← List.append_assoc, DocumentState.steps_append]

variable {d} {depth : Nat}

theorem inSegment_of_content {content : List Event}
    (h : Silently reading (InSegment language? 0) content (InSegment language? depth))
    (hs : Outside language? false false (d.reached reading)) :
    InSegment language? depth ((d.reached reading).steps reading (d.opening ++ content)).1 :=
  (((Silently.of_opensSegment d.opensSegment).append h) _ hs).2

/-- **Three open inline tags swallow the records that follow.** -/
theorem swallowed (d : SegmentSite) (reading : Reading) (hnew : ∀ e ∈ new, IsInline e)
    (hopen : 3 ≤ leftOpen new) :
    ∀ units ∈ (d.behind reading new).unitsOf reading d.after, units = [] := by
  obtain ⟨language?, hreached⟩ := d.exists_outside_reached reading
  have hcontent := inSegment_of_content (Silently.of_inlineContent hnew) hreached
  -- Three of the tags are closed by the end tags of segment, variant and record; the segment is
  -- open behind them, and the records that follow are nested content.
  obtain ⟨depth, hdepth⟩ := Nat.exists_eq_add_of_le' hopen
  rw [show new.foldl depthAfter 0 = depth + 3 from hdepth] at hcontent
  have hclosing : Silently reading (InSegment language? (depth + 3)) d.closing
      (InSegment language? depth) := Silently.of_closesRecord d.closesRecord
  have hbehind := (hclosing _ hcontent).2
  rw [← behind_eq] at hbehind
  exact unitsOf_inSegment d.isRecord_after hbehind

/-- **Behind at most two open inline tags the records are read as ever.** -/
theorem unitsOf_behind_eq (hold : Nested old) (hnew : ∀ e ∈ new, IsInline e)
    (hopen : leftOpen new ≤ 2) :
    (d.behind reading new).unitsOf reading d.after =
      (d.behind reading old).unitsOf reading d.after := by
  obtain ⟨language?, hreached⟩ := d.exists_outside_reached reading
  have hcontent := inSegment_of_content (Silently.of_inlineContent hnew) hreached
  have hcontent' := inSegment_of_content (Silently.of_nested hold) hreached
  -- Behind the record nothing is open for either content, so only the counters can differ.
  have hbehind : Closed language? (d.behind reading new) := by
    rw [behind_eq]
    exact closed_of_closesRecord d.closesRecord hopen hcontent
  have hbehind' : Closed language? (d.behind reading old) := by
    rw [behind_eq]
    exact closed_of_closesRecord d.closesRecord (Nat.zero_le 2) hcontent'
  exact unitsOf_of_agrees (hbehind.agrees hbehind') d.after

/-- **Exactly when the other records keep their units** although the content of a segment is
replaced: if it leaves at most two inline tags open, or if no later record had units anyway. -/
theorem unitsByRecord_eraseIdx_eq_iff (d : SegmentSite) (reading : Reading) (hold : Nested old)
    (hnew : ∀ e ∈ new, IsInline e) :
    (d.unitsByRecord reading new).eraseIdx d.before.length =
        (d.unitsByRecord reading old).eraseIdx d.before.length ↔
      leftOpen new ≤ 2 ∨
        ∀ units ∈ (d.unitsByRecord reading old).drop (d.before.length + 1), units = [] := by
  rw [unitsByRecord_eraseIdx, unitsByRecord_eraseIdx, unitsByRecord_drop,
    List.append_cancel_left_eq]
  -- The records before the segment do not see its content, so those behind it decide.
  by_cases hopen : leftOpen new ≤ 2
  · exact iff_of_true (unitsOf_behind_eq hold hnew hopen) (Or.inl hopen)
  · have hlost := d.swallowed reading hnew (by omega)
    constructor
    · intro hsame
      rw [← hsame]
      exact Or.inr hlost
    · rintro (hfew | hnone)
      · exact absurd hfew hopen
      · rw [List.eq_replicate_of_mem hlost, List.eq_replicate_of_mem hnone, length_unitsOf,
          length_unitsOf]

/-- The events of a variant with a text. -/
def variantOf (language text : String) : List Event :=
  [.start (Xml.word "tuv xml:lang=\"" ++ Xml.word language ++ Xml.word "\""),
    .start (Xml.word "seg"), .text (Xml.word text), .stop (Xml.word "seg"), .stop (Xml.word "tuv")]

theorem recordBody_variantOf {language : String} (text : String) {rest : List Event}
    (hname : contentName (Xml.word "tuv xml:lang=\"" ++ Xml.word language ++ Xml.word "\"") =
      Xml.word "tuv") (h : RecordBody rest) : RecordBody (variantOf language text ++ rest) :=
  .variant hname (.segment (by decide) (.text .nil) .nil) h

/-- Two records in two languages, cut at the first segment of the first one. -/
def twoRecords : SegmentSite where
  head := [.start (Xml.word "tmx"), .empty (Xml.word "header srclang=\"en\""),
    .start (Xml.word "body")]
  before := []
  opening := [.start (Xml.word "tu"), .start (Xml.word "tuv xml:lang=\"en\""),
    .start (Xml.word "seg")]
  closing := .stop (Xml.word "seg") :: .stop (Xml.word "tuv") ::
    (variantOf "es" "Uno" ++ [Event.stop (Xml.word "tu")])
  after := [.start (Xml.word "tu") ::
    (variantOf "en" "Two" ++ (variantOf "es" "Dos" ++ [Event.stop (Xml.word "tu")]))]
  opensNone := by
    simp only [List.mem_cons, List.not_mem_nil, or_false]
    rintro e (rfl | rfl | rfl)
    · exact show contentName (Xml.word "tmx") ≠ Xml.word "tu" by decide
    · exact show contentName (Xml.word "header srclang=\"en\"") ≠ Xml.word "tu" by decide
    · exact show contentName (Xml.word "body") ≠ Xml.word "tu" by decide
  isRecord_before := by simp
  opensSegment := @OpensSegment.intro [] _ [] _ [] _ .nil (by decide) .nil (by decide) .nil
    (by decide)
  closesRecord := @ClosesRecord.intro [] (variantOf "es" "Uno" ++ []) .nil
    (recordBody_variantOf "Uno" (by decide) .nil)
  isRecord_after := by
    intro block hblock
    rw [List.mem_singleton.mp hblock]
    exact @IsRecord.element [] _ (variantOf "en" "Two" ++ (variantOf "es" "Dos" ++ [])) .nil
      (by decide) (recordBody_variantOf "Two" (by decide)
        (recordBody_variantOf "Dos" (by decide) .nil))

/-- Tags that open three inline elements. -/
def threeOpen : List Event :=
  [.start (Xml.word "b"), .start (Xml.word "i"), .start (Xml.word "u")]

/-- The condition fails for three open tags, where the second record has a unit. -/
theorem twoRecords_threeOpen :
    Nested [.text (Xml.word "One")] ∧ (∀ e ∈ threeOpen, IsInline e) ∧
      ((twoRecords.unitsByRecord ⟨{}, []⟩ threeOpen).eraseIdx 0 =
          (twoRecords.unitsByRecord ⟨{}, []⟩ [.text (Xml.word "One")]).eraseIdx 0 ↔
        leftOpen threeOpen ≤ 2 ∨
          ∀ units ∈ (twoRecords.unitsByRecord ⟨{}, []⟩ [.text (Xml.word "One")]).drop 1,
            units = []) := by
  have hinline : ∀ e ∈ threeOpen, IsInline e := by
    simp only [threeOpen, List.mem_cons, List.not_mem_nil, or_false]
    rintro e (rfl | rfl | rfl)
    · exact show contentName (Xml.word "b") ∉ structural by decide
    · exact show contentName (Xml.word "i") ∉ structural by decide
    · exact show contentName (Xml.word "u") ∉ structural by decide
  have hold : Nested [.text (Xml.word "One")] := .text .nil
  exact ⟨hold, hinline, unitsByRecord_eraseIdx_eq_iff twoRecords ⟨{}, []⟩ hold hinline⟩

end SegmentSite

/-- A document of two records; the content is that of the first segment. -/
def twoRecordsText (content : Text) : Text :=
  "<tmx version=\"1.4\"><header srclang=\"en\"/><body><tu><tuv xml:lang=\"en\"><seg>".toList ++
    content ++
    "</seg></tuv><tuv xml:lang=\"es\"><seg>Uno</seg></tuv></tu><tu><tuv xml:lang=\"en\">".toList ++
    "<seg>Two</seg></tuv><tuv xml:lang=\"es\"><seg>Dos</seg></tuv></tu></body></tmx>".toList

/-- Three inline tags that are left open in the first record take away the unit of the second. -/
theorem read_threeOpen :
    ((Document.read ⟨{}, []⟩ (Unicode.Utf8.encode (twoRecordsText "One".toList))).units.map
        (·.sourceText) = ["One".toList, "Two".toList]) ∧
      (Document.read ⟨{}, []⟩
        (Unicode.Utf8.encode (twoRecordsText "One<b><i><u>".toList))).units = [] := by
  decide +kernel

end Bitext.Tmx
