import Bitext.Proofs.Tmx.Events

/-!
# Well-formed records

The form of records, and what reading their parts does.  Only the end of a record yields units, so
every other part leads without any from one kind of state to another: from one in which nothing is
open to one in a record, in a variant, in a segment, and back.

## Main definitions

* `Balanced`, `VariantBody`, `RecordBody`, `IsRecord`: the form of well-formed records.
* `Outside`, `InSegment`, `Closed`: what is open in a state.
* `Silently`: what holds behind events that yield no unit.

## Main results

* `Silently.of_nested`: balanced events are content of an open segment
* `Silently.of_aside`, `Silently.of_variantBody`, `Silently.of_recordBody`: the parts of a record
* `closed_of_isRecord`: nothing is open behind a record
-/

namespace Bitext.Tmx

open Bitext.Unicode (Glyph)
open Bitext.Xml (Event contentName)

/-! ## Well-formed records -/

/-- Events in which every element is closed by an end tag of its name, and all names are allowed. -/
inductive Balanced (allowed : List Glyph → Prop) : List Event → Prop where
  | nil : Balanced allowed []
  | text {raw rest} (after : Balanced allowed rest) : Balanced allowed (.text raw :: rest)
  | data {raw rest} (after : Balanced allowed rest) : Balanced allowed (.data raw :: rest)
  | other {rest} (after : Balanced allowed rest) : Balanced allowed (.other :: rest)
  | empty {content rest} (name : allowed (contentName content)) (after : Balanced allowed rest) :
    Balanced allowed (.empty content :: rest)
  | element {content inner rest} (name : allowed (contentName content))
    (inside : Balanced allowed inner) (after : Balanced allowed rest) :
    Balanced allowed (.start content :: (inner ++ .stop (contentName content) :: rest))

/-- Events in which every element is closed. -/
def Nested (es : List Event) : Prop := Balanced (fun _ => True) es

/-- The names with a meaning of their own for the structure of a document. -/
def reserved : List (List Glyph) :=
  ["tmx", "header", "body", "tu", "tuv", "seg"].map Xml.word

/-- What may stand anywhere outside segments: properties, notes, comments, blanks. -/
def Aside (es : List Event) : Prop := Balanced (· ∉ reserved) es

/-- What stands inside a variant: segments, and anything beside them. -/
inductive VariantBody : List Event → Prop where
  | nil : VariantBody []
  | aside {es rest} (here : Aside es) (after : VariantBody rest) : VariantBody (es ++ rest)
  | emptySegment {content rest} (name : contentName content = Xml.word "seg")
    (after : VariantBody rest) : VariantBody (.empty content :: rest)
  | segment {content inner rest} (name : contentName content = Xml.word "seg")
    (inside : Nested inner) (after : VariantBody rest) :
    VariantBody (.start content :: (inner ++ .stop (Xml.word "seg") :: rest))

/-- What stands inside a record: variants, and anything beside them. -/
inductive RecordBody : List Event → Prop where
  | nil : RecordBody []
  | aside {es rest} (here : Aside es) (after : RecordBody rest) : RecordBody (es ++ rest)
  | emptyVariant {content rest} (name : contentName content = Xml.word "tuv")
    (after : RecordBody rest) : RecordBody (.empty content :: rest)
  | variant {content inner rest} (name : contentName content = Xml.word "tuv")
    (inside : VariantBody inner) (after : RecordBody rest) :
    RecordBody (.start content :: (inner ++ .stop (Xml.word "tuv") :: rest))

/-- A record, with what stands between it and the record before it. -/
inductive IsRecord : List Event → Prop where
  | empty {gap content} (before : Aside gap) (name : contentName content = Xml.word "tu") :
    IsRecord (gap ++ [.empty content])
  | element {gap content inner} (before : Aside gap) (name : contentName content = Xml.word "tu")
    (inside : RecordBody inner) :
    IsRecord (gap ++ .start content :: (inner ++ [.stop (Xml.word "tu")]))

/-- A record up to the start tag of one of its segments. -/
inductive OpensSegment : List Event → Prop where
  | intro {gap record body variant inner segment} (before : Aside gap)
    (recordName : contentName record = Xml.word "tu") (variants : RecordBody body)
    (variantName : contentName variant = Xml.word "tuv") (inside : VariantBody inner)
    (segmentName : contentName segment = Xml.word "seg") :
    OpensSegment (gap ++ .start record :: (body ++ .start variant :: (inner ++ [.start segment])))

/-- A record from the end tag of one of its segments on. -/
inductive ClosesRecord : List Event → Prop where
  | intro {inner body} (inside : VariantBody inner) (variants : RecordBody body) :
    ClosesRecord (.stop (Xml.word "seg") ::
      (inner ++ .stop (Xml.word "tuv") :: (body ++ [.stop (Xml.word "tu")])))

/-! ### Every element is closed -/

variable {allowed : List Glyph → Prop} {es es' : List Event}

theorem Balanced.append (h : Balanced allowed es) (h' : Balanced allowed es') :
    Balanced allowed (es ++ es') := by
  induction h with
  | nil => exact h'
  | text _ ih => exact .text ih
  | data _ ih => exact .data ih
  | other _ ih => exact .other ih
  | empty name _ ih => exact .empty name ih
  | element name inside _ _ ih =>
    rw [List.cons_append, List.append_assoc]
    exact .element name inside ih

theorem Balanced.nested (h : Balanced allowed es) : Nested es := by
  induction h with
  | nil => exact .nil
  | text _ ih => exact .text ih
  | data _ ih => exact .data ih
  | other _ ih => exact .other ih
  | empty _ _ ih => exact .empty trivial ih
  | element _ _ _ ihi ih => exact .element trivial ihi ih

/-- An element around balanced events. -/
theorem Nested.element {content : List Glyph} {name : List Glyph} {inner rest : List Event}
    (hname : contentName content = name) (inside : Nested inner) (after : Nested rest) :
    Nested (.start content :: (inner ++ .stop name :: rest)) := by
  subst hname
  exact Balanced.element trivial inside after

theorem VariantBody.nested (h : VariantBody es) : Nested es := by
  induction h with
  | nil => exact .nil
  | aside here _ ih => exact here.nested.append ih
  | emptySegment _ _ ih => exact .empty trivial ih
  | segment name inside _ ih => exact .element name inside ih

theorem RecordBody.nested (h : RecordBody es) : Nested es := by
  induction h with
  | nil => exact .nil
  | aside here _ ih => exact here.nested.append ih
  | emptyVariant _ _ ih => exact .empty trivial ih
  | variant name inside _ ih => exact .element name inside.nested ih

theorem IsRecord.nested (h : IsRecord es) : Nested es := by
  cases h with
  | empty before name => exact before.nested.append (.empty trivial .nil)
  | element before name inside =>
    exact before.nested.append (Nested.element name inside.nested .nil)

/-! ## States -/

/-- No segment is open; whether a record and a variant are is told by the flags. -/
structure Outside (language? : Option Text) (inRecord inVariant : Bool) (s : DocumentState) :
    Prop where
  sourceLanguage? : s.sourceLanguage? = language?
  record? : s.record?.isSome = inRecord
  variant? : s.variant?.isSome = inVariant
  segment? : s.segment? = none

theorem Outside.record?_eq_none {language? : Option Text} {inVariant : Bool} {s : DocumentState}
    (h : Outside language? false inVariant s) : s.record? = none := by
  simpa using h.record?

/-- A segment of a variant is open, and in it so many inline tags. -/
structure InSegment (language? : Option Text) (depth : Nat) (s : DocumentState) : Prop where
  sourceLanguage? : s.sourceLanguage? = language?
  record? : s.record?.isSome = true
  variant? : s.variant?.isSome = true
  segment? : s.segment?.map OpenSegment.depth = some depth

/-- From every state with property `p` the events yield no unit, and lead to one with property
`q`. -/
def Silently (reading : Reading) (p : DocumentState → Prop) (es : List Event)
    (q : DocumentState → Prop) : Prop :=
  ∀ s, p s → (s.steps reading es).2 = [] ∧ q (s.steps reading es).1

namespace Silently

variable {reading : Reading} {p q r : DocumentState → Prop} {e : Event}
  {language? : Option Text} {inRecord inVariant : Bool} {depth : Nat}

theorem nil (reading : Reading) (p : DocumentState → Prop) : Silently reading p [] p :=
  fun _ h => ⟨rfl, h⟩

theorem append (h : Silently reading p es q) (h' : Silently reading q es' r) :
    Silently reading p (es ++ es') r := by
  intro s hs
  obtain ⟨hunits, hq⟩ := h s hs
  obtain ⟨hmore, hr⟩ := h' _ hq
  rw [DocumentState.steps_append]
  exact ⟨by rw [hunits, hmore, List.append_nil], hr⟩

theorem cons (h : Silently reading p [e] q) (h' : Silently reading q es r) :
    Silently reading p (e :: es) r :=
  h.append h'

/-- One event is read by one step. -/
theorem of_step (h : ∀ s, p s → (s.step reading e).2 = [] ∧ q (s.step reading e).1) :
    Silently reading p [e] q := by
  intro s hs
  obtain ⟨hunits, hq⟩ := h s hs
  rw [DocumentState.steps_cons, hunits]
  exact ⟨rfl, hq⟩

/-! ### Inside a segment -/

theorem start_inSegment (content : List Glyph) :
    Silently reading (InSegment language? depth) [.start content]
      (InSegment language? (depth + 1)) := by
  apply of_step
  rintro s ⟨hlanguage, hrecord, hvariant, hsegment⟩
  obtain ⟨g, hg, rfl⟩ := Option.map_eq_some_iff.mp hsegment
  simp only [DocumentState.step, hg]
  exact ⟨trivial, hlanguage, hrecord, hvariant, rfl⟩

theorem empty_inSegment (content : List Glyph) :
    Silently reading (InSegment language? depth) [.empty content]
      (InSegment language? depth) := by
  apply of_step
  rintro s ⟨hlanguage, hrecord, hvariant, hsegment⟩
  obtain ⟨g, hg, rfl⟩ := Option.map_eq_some_iff.mp hsegment
  simp only [DocumentState.step, hg]
  exact ⟨trivial, hlanguage, hrecord, hvariant, rfl⟩

/-- Any end tag closes an inline tag that is open. -/
theorem stop_inSegment (name : List Glyph) :
    Silently reading (InSegment language? (depth + 1)) [.stop name]
      (InSegment language? depth) := by
  apply of_step
  rintro s ⟨hlanguage, hrecord, hvariant, hsegment⟩
  obtain ⟨g, hg, hdepth⟩ := Option.map_eq_some_iff.mp hsegment
  have hopen : 0 < g.depth := by omega
  simp only [DocumentState.step, hg, DocumentState.closeInSegment, hopen, if_true]
  refine ⟨trivial, hlanguage, hrecord, hvariant, ?_⟩
  rw [Option.map_some, hdepth, Nat.add_sub_cancel]

theorem stop_inline_inSegment {name : List Glyph} (h : name ∉ structural) :
    Silently reading (InSegment language? 0) [.stop name] (InSegment language? 0) := by
  apply of_step
  rintro s ⟨hlanguage, hrecord, hvariant, hsegment⟩
  obtain ⟨g, hg, hdepth⟩ := Option.map_eq_some_iff.mp hsegment
  have hclosed : ¬ 0 < g.depth := by omega
  have hname : (!structural.contains name) = true := by simpa using h
  simp only [DocumentState.step, hg, DocumentState.closeInSegment, hclosed, hname, if_false,
    if_true]
  exact ⟨trivial, hlanguage, hrecord, hvariant, rfl⟩

theorem addText_inSegment {s : DocumentState} (h : InSegment language? depth s) (a b : Text) :
    InSegment language? depth (s.addText a b) := by
  obtain ⟨hlanguage, hrecord, hvariant, hsegment⟩ := h
  obtain ⟨g, hg, rfl⟩ := Option.map_eq_some_iff.mp hsegment
  simp only [DocumentState.addText, hg]
  exact ⟨hlanguage, hrecord, hvariant, rfl⟩

theorem text_inSegment (raw : List Glyph) :
    Silently reading (InSegment language? depth) [.text raw] (InSegment language? depth) :=
  of_step fun _ h => ⟨rfl, addText_inSegment h _ _⟩

theorem data_inSegment (raw : List Glyph) :
    Silently reading (InSegment language? depth) [.data raw] (InSegment language? depth) :=
  of_step fun _ h => ⟨rfl, addText_inSegment h _ _⟩

theorem other_inSegment :
    Silently reading (InSegment language? depth) [.other] (InSegment language? depth) :=
  of_step fun _ h => ⟨rfl, h⟩

/-- **Balanced events are content of an open segment**, whatever their names. -/
theorem of_nested (h : Nested es) :
    Silently reading (InSegment language? depth) es (InSegment language? depth) := by
  unfold Nested at h
  -- Inside an element one more inline tag is open, so the induction is over all depths.
  induction h generalizing depth with
  | nil => exact nil reading _
  | text _ ih => exact (text_inSegment _).cons ih
  | data _ ih => exact (data_inSegment _).cons ih
  | other _ ih => exact other_inSegment.cons ih
  | empty _ _ ih => exact (empty_inSegment _).cons ih
  | element _ _ _ ihi ih => exact (start_inSegment _).cons (ihi.append ((stop_inSegment _).cons ih))

/-! ### Beside variants and segments -/

theorem addText_outside {s : DocumentState} (h : Outside language? inRecord inVariant s)
    (a b : Text) : Outside language? inRecord inVariant (s.addText a b) := by
  simp only [DocumentState.addText, h.segment?]
  exact ⟨h.sourceLanguage?, h.record?, h.variant?, rfl⟩

theorem openElement_outside {s : DocumentState} {content : List Glyph} (isEmpty : Bool)
    (h : Outside language? inRecord inVariant s) (hname : contentName content ∉ reserved) :
    (s.openElement reading content isEmpty).2 = [] ∧
      Outside language? inRecord inVariant (s.openElement reading content isEmpty).1 := by
  simp only [reserved, List.map_cons, List.map_nil, List.mem_cons, List.not_mem_nil, or_false,
    not_or] at hname
  obtain ⟨htmx, hheader, htu, htuv, -, hseg⟩ : _ ∧ _ ∧ _ ∧ _ ∧ _ ∧ _ :=
    ⟨hname.1, hname.2.1, hname.2.2.2.1, hname.2.2.2.2.1, hname.2.2.1, hname.2.2.2.2.2⟩
  simp only [DocumentState.openElement, htmx, hheader, htu, htuv, hseg, if_false]
  -- Of the names that are left only that of properties does anything.
  split
  · exact ⟨rfl, h.sourceLanguage?, h.record?, h.variant?, h.segment?⟩
  · exact ⟨rfl, h⟩

theorem closeProperty_outside {s : DocumentState} (h : Outside language? inRecord inVariant s) :
    Outside language? inRecord inVariant s.closeProperty := by
  obtain ⟨hlanguage, hrecord, hvariant, hsegment⟩ := h
  unfold DocumentState.closeProperty
  split
  · exact ⟨hlanguage, hrecord, hvariant, hsegment⟩
  · simp only
    -- The property is put into the variant or the record, and neither is closed by that.
    split
    · rename_i hv
      rw [hv] at hvariant
      exact ⟨hlanguage, hrecord, hvariant, hsegment⟩
    · refine ⟨hlanguage, ?_, hvariant, hsegment⟩
      rw [← hrecord]
      exact Option.isSome_map

theorem closeElement_outside {s : DocumentState} {name : List Glyph}
    (h : Outside language? inRecord inVariant s) (hname : name ∉ reserved) :
    (s.closeElement reading name).2 = [] ∧
      Outside language? inRecord inVariant (s.closeElement reading name).1 := by
  simp only [reserved, List.map_cons, List.map_nil, List.mem_cons, List.not_mem_nil, or_false,
    not_or] at hname
  obtain ⟨htmx, -, hbody, htu, htuv, -⟩ := hname
  have hend : (decide (name = Xml.word "body") || decide (name = Xml.word "tmx")) = false := by
    simp [hbody, htmx]
  simp only [DocumentState.closeElement, htuv, htu, hend, if_false, Bool.false_eq_true]
  split
  · exact ⟨rfl, closeProperty_outside h⟩
  · exact ⟨rfl, h⟩

/-- What stands beside variants and segments changes nothing but properties. -/
theorem of_aside (h : Aside es) :
    Silently reading (Outside language? inRecord inVariant) es
      (Outside language? inRecord inVariant) := by
  have hstart {content : List Glyph} (hname : contentName content ∉ reserved) :
      Silently reading (Outside language? inRecord inVariant) [.start content]
        (Outside language? inRecord inVariant) := by
    apply of_step
    intro s hs
    simp only [DocumentState.step, hs.segment?]
    exact openElement_outside false hs hname
  have hstop {name : List Glyph} (hname : name ∉ reserved) :
      Silently reading (Outside language? inRecord inVariant) [.stop name]
        (Outside language? inRecord inVariant) := by
    apply of_step
    intro s hs
    simp only [DocumentState.step, hs.segment?]
    exact closeElement_outside hs hname
  have hother : Silently reading (Outside language? inRecord inVariant) [.other]
      (Outside language? inRecord inVariant) := of_step fun _ hs => ⟨rfl, hs⟩
  unfold Aside at h
  induction h with
  | nil => exact nil reading _
  | text _ ih => exact (of_step fun _ hs => ⟨rfl, addText_outside hs _ _⟩).cons ih
  | data _ ih => exact (of_step fun _ hs => ⟨rfl, addText_outside hs _ _⟩).cons ih
  | other _ ih => exact hother.cons ih
  | empty name _ ih =>
    refine cons (of_step fun s hs => ?_) ih
    simp only [DocumentState.step, hs.segment?]
    exact openElement_outside true hs name
  | element name _ _ ihi ih => exact (hstart name).cons (ihi.append ((hstop name).cons ih))

/-! ### Variants and segments -/

variable {content : List Glyph}

theorem openVariant_outside {s : DocumentState} (isEmpty : Bool)
    (h : Outside language? true inVariant s) :
    Outside language? true (!isEmpty) (s.openVariant content isEmpty) := by
  obtain ⟨hlanguage, hrecord, hvariant, hsegment⟩ := h
  obtain ⟨r, hr⟩ := Option.isSome_iff_exists.mp hrecord
  simp only [DocumentState.openVariant, hr]
  cases isEmpty with
  | false => exact ⟨hlanguage, rfl, rfl, hsegment⟩
  | true => exact ⟨hlanguage, rfl, rfl, hsegment⟩

theorem start_variant (h : contentName content = Xml.word "tuv") :
    Silently reading (Outside language? true inVariant) [.start content]
      (Outside language? true true) := by
  apply of_step
  intro s hs
  simp only [DocumentState.step, hs.segment?, DocumentState.openElement_tuv false h]
  exact ⟨trivial, openVariant_outside false hs⟩

theorem empty_variant (h : contentName content = Xml.word "tuv") :
    Silently reading (Outside language? true inVariant) [.empty content]
      (Outside language? true false) := by
  apply of_step
  intro s hs
  simp only [DocumentState.step, hs.segment?, DocumentState.openElement_tuv true h]
  exact ⟨trivial, openVariant_outside true hs⟩

theorem closeVariant_outside {s : DocumentState} (h : Outside language? true inVariant s) :
    Outside language? true false s.closeVariant := by
  refine ⟨h.sourceLanguage?, ?_, rfl, h.segment?⟩
  rw [← h.record?]
  exact Option.isSome_map

theorem stop_variant :
    Silently reading (Outside language? true inVariant) [.stop (Xml.word "tuv")]
      (Outside language? true false) := by
  apply of_step
  intro s hs
  simp only [DocumentState.step, hs.segment?, DocumentState.closeElement_tuv]
  exact ⟨trivial, closeVariant_outside hs⟩

theorem start_segment (h : contentName content = Xml.word "seg") :
    Silently reading (Outside language? true true) [.start content] (InSegment language? 0) := by
  apply of_step
  intro s hs
  have hvariant : s.variant?.isNone = false := by
    rw [← Option.not_isSome, hs.variant?]
    rfl
  simp only [DocumentState.step, hs.segment?, DocumentState.openElement_seg false h,
    DocumentState.openSegment, hvariant]
  exact ⟨trivial, hs.sourceLanguage?, hs.record?, hs.variant?, rfl⟩

theorem closeSegment_outside {s : DocumentState} (raw : Text) (h : s.sourceLanguage? = language?)
    (hrecord : s.record?.isSome = inRecord) (hvariant : s.variant?.isSome = inVariant) :
    Outside language? inRecord inVariant (s.closeSegment raw) := by
  refine ⟨h, hrecord, ?_, rfl⟩
  rw [← hvariant]
  exact Option.isSome_map

theorem recover_outside {s : DocumentState} (h : Outside language? inRecord inVariant s) :
    Outside language? inRecord inVariant s.recover :=
  ⟨h.sourceLanguage?, h.record?, h.variant?, h.segment?⟩

theorem empty_segment (h : contentName content = Xml.word "seg") :
    Silently reading (Outside language? true true) [.empty content]
      (Outside language? true true) := by
  apply of_step
  intro s hs
  have hvariant : s.variant?.isNone = false := by
    rw [← Option.not_isSome, hs.variant?]
    rfl
  simp only [DocumentState.step, hs.segment?, DocumentState.openElement_seg true h,
    DocumentState.openSegment, hvariant]
  exact ⟨trivial, closeSegment_outside [] hs.sourceLanguage? hs.record? hs.variant?⟩

/-- An end tag of the document's structure closes a segment in which no inline tag is open, and then
whatever else it closes. -/
theorem step_stop_structural {s : DocumentState} {name : List Glyph} {g : OpenSegment}
    (hg : s.segment? = some g) (hdepth : g.depth = 0) (hname : name ∈ structural) :
    s.step reading (.stop name) =
      if name = Xml.word "seg" then (s.closeSegment g.raw, [])
      else (s.closeSegment g.raw).recover.closeElement reading name := by
  have hclosed : ¬ 0 < g.depth := by omega
  have hcontains : structural.contains name = true := by simpa using hname
  simp only [DocumentState.step, hg, DocumentState.closeInSegment, hclosed, hcontains, if_false,
    Bool.not_true, Bool.false_eq_true]

theorem stop_segment :
    Silently reading (InSegment language? 0) [.stop (Xml.word "seg")]
      (Outside language? true true) := by
  apply of_step
  intro s hs
  obtain ⟨g, hg, hdepth⟩ := Option.map_eq_some_iff.mp hs.segment?
  rw [step_stop_structural hg hdepth (by decide), if_pos rfl]
  exact ⟨rfl, closeSegment_outside g.raw hs.sourceLanguage? hs.record? hs.variant?⟩

theorem stop_variant_inSegment :
    Silently reading (InSegment language? 0) [.stop (Xml.word "tuv")]
      (Outside language? true false) := by
  apply of_step
  intro s hs
  obtain ⟨g, hg, hdepth⟩ := Option.map_eq_some_iff.mp hs.segment?
  have houtside := recover_outside
    (closeSegment_outside g.raw hs.sourceLanguage? hs.record? hs.variant?)
  rw [step_stop_structural hg hdepth (by decide), if_neg (by decide),
    DocumentState.closeElement_tuv]
  exact ⟨rfl, closeVariant_outside houtside⟩

/-- A segment is read from its start tag to its end tag, and the variant stays open. -/
theorem of_variantBody (h : VariantBody es) :
    Silently reading (Outside language? true true) es (Outside language? true true) := by
  induction h with
  | nil => exact nil reading _
  | aside here _ ih => exact (of_aside here).append ih
  | emptySegment name _ ih => exact (empty_segment name).cons ih
  | segment name inside _ ih =>
    exact (start_segment name).cons ((of_nested inside).append (stop_segment.cons ih))

/-- Variants are read one after another, and the record stays open. -/
theorem of_recordBody (h : RecordBody es) :
    Silently reading (Outside language? true false) es (Outside language? true false) := by
  induction h with
  | nil => exact nil reading _
  | aside here _ ih => exact (of_aside here).append ih
  | emptyVariant name _ ih => exact (empty_variant name).cons ih
  | variant name inside _ ih =>
    exact (start_variant name).cons ((of_variantBody inside).append (stop_variant.cons ih))

theorem openRecord_outside {s : DocumentState} (h : Outside language? false false s) :
    (s.openRecord reading content false).2 = [] ∧
      Outside language? true false (s.openRecord reading content false).1 := by
  rw [DocumentState.openRecord_of_no_record h.record?]
  exact ⟨rfl, h.sourceLanguage?, rfl, h.variant?, h.segment?⟩

theorem start_record (h : contentName content = Xml.word "tu") :
    Silently reading (Outside language? false false) [.start content]
      (Outside language? true false) := by
  apply of_step
  intro s hs
  simp only [DocumentState.step, hs.segment?, DocumentState.openElement_tu false h]
  exact openRecord_outside hs

/-- The start of a record, up to the start tag of a segment. -/
theorem of_opensSegment (h : OpensSegment es) :
    Silently reading (Outside language? false false) es (InSegment language? 0) := by
  obtain ⟨before, recordName, variants, variantName, inside, segmentName⟩ := h
  exact (of_aside before).append <| (start_record recordName).cons <|
    (of_recordBody variants).append <| (start_variant variantName).cons <|
      (of_variantBody inside).append (start_segment segmentName)

end Silently

/-! ## The ends of records -/

section Ends

variable {reading : Reading} {language? : Option Text} {inVariant : Bool} {s s' : DocumentState}

/-- Nothing is open. -/
structure Closed (language? : Option Text) (s : DocumentState) : Prop where
  outside : Outside language? false false s
  property? : s.property? = none

theorem Closed.agrees (h : Closed language? s) (h' : Closed language? s') : s.Agrees s' := by
  -- Where nothing is open on either side, the two sides are the same.
  have hnone {α : Type} {x y : Option α} (hx : x.isSome = false) (hy : y.isSome = false) :
      x = y := by
    cases x with
    | some => cases hx
    | none =>
      cases y with
      | some => cases hy
      | none => rfl
  exact ⟨h.outside.sourceLanguage?.trans h'.outside.sourceLanguage?.symm,
    hnone h.outside.record? h'.outside.record?, hnone h.outside.variant? h'.outside.variant?,
    h.property?.trans h'.property?.symm, h.outside.segment?.trans h'.outside.segment?.symm⟩

theorem closed_closeRecord (h : Outside language? true inVariant s) :
    Closed language? (s.closeRecord reading).1 := by
  obtain ⟨r, hr⟩ := Option.isSome_iff_exists.mp h.record?
  simp only [DocumentState.closeRecord, hr]
  exact ⟨⟨h.sourceLanguage?, rfl, rfl, rfl⟩, rfl⟩

theorem closed_stop_record (h : Outside language? true inVariant s) :
    Closed language? (s.step reading (.stop (Xml.word "tu"))).1 := by
  simp only [DocumentState.step, h.segment?, DocumentState.closeElement_tu]
  exact closed_closeRecord h

theorem closed_stop_record_inSegment (h : InSegment language? 0 s) :
    Closed language? (s.step reading (.stop (Xml.word "tu"))).1 := by
  obtain ⟨g, hg, hdepth⟩ := Option.map_eq_some_iff.mp h.segment?
  have houtside := Silently.recover_outside
    (Silently.closeSegment_outside g.raw h.sourceLanguage? h.record? h.variant?)
  rw [Silently.step_stop_structural hg hdepth (by decide), if_neg (by decide),
    DocumentState.closeElement_tu]
  exact closed_closeRecord houtside

/-- What holds behind events after which only the record is to be closed. -/
theorem closed_of_silently {p q : DocumentState → Prop} (h : Silently reading p es q)
    (hq : ∀ s, q s → Closed language? (s.step reading (.stop (Xml.word "tu"))).1) (hs : p s) :
    Closed language? (s.steps reading (es ++ [.stop (Xml.word "tu")])).1 := by
  rw [DocumentState.steps_append]
  exact hq _ (h s hs).2

/-- **A record that is read from its start closes.** -/
theorem closed_of_isRecord (h : IsRecord es) (hs : Outside language? false false s) :
    Closed language? (s.steps reading es).1 := by
  cases h with
  | @empty gap content before name =>
    have hgap : Silently reading (Outside language? false false) gap
        (Outside language? false false) := Silently.of_aside before
    have houtside := (hgap s hs).2
    rw [DocumentState.steps_append, DocumentState.steps_cons]
    simp only [DocumentState.step, houtside.segment?, DocumentState.openElement_tu true name,
      DocumentState.openRecord_empty_of_no_record houtside.record?]
    exact closed_closeRecord (Silently.openRecord_outside houtside).2
  -- Everything up to the end tag yields nothing, and the end tag closes the record.
  | @element gap content inner before name inside =>
    have hread : Silently reading (Outside language? false false) (gap ++ .start content :: inner)
        (Outside language? true false) :=
      (Silently.of_aside before).append
        ((Silently.start_record name).cons (Silently.of_recordBody inside))
    have hclosed := closed_of_silently hread (fun _ => closed_stop_record) hs
    rwa [List.append_assoc, List.cons_append] at hclosed

end Ends

end Bitext.Tmx
