import Bitext.Proofs.Tmx.Events
import Bitext.Proofs.Tmx.Segment
import Bitext.Proofs.Xml.Attribute
import Bitext.Tmx.Output

/-!
# Reading what is written piece by piece

A document is written line by line, and each line begins with blanks and ends with a tag.  So it can
be read line by line as well: the line break before a line and the blanks at its start are one text,
which means nothing unless a property or a segment is open.

## Main definitions

* `readOn`: reading the rest of a document.
* `Reads`: reading a text leads from one state to another, whatever follows the text.
* `ReadsLines`: the same for lines, with the line break before them.
* `IsQuiet`: neither a property nor a segment is open.

## Main results

* `reads_start`, `reads_empty`, `reads_stop`: lines of one tag
* `reads_property`: the line of a property
* `readOn_escapeSegment`: the content of a segment
-/

namespace Bitext.Tmx

open Bitext.Unicode (Glyph)
open Bitext.Markup (tagText NormalForm Forest)
open Bitext.Xml (writtenAttributes HasKeys IsName)

variable {reading : Reading} {s s' s'' : DocumentState} {units more : List TranslationUnit}
  {t u a name : Text} {l : Text} {ls ls' : List Text}

/-- Units in front of those that come later. -/
def withUnits (units : List TranslationUnit) (p : DocumentState × List TranslationUnit) :
    DocumentState × List TranslationUnit :=
  (p.1, units ++ p.2)

@[simp] theorem withUnits_nil (p : DocumentState × List TranslationUnit) : withUnits [] p = p := rfl

@[simp] theorem withUnits_withUnits (units more : List TranslationUnit)
    (p : DocumentState × List TranslationUnit) :
    withUnits units (withUnits more p) = withUnits (units ++ more) p := by
  simp [withUnits]

/-- Reads the rest of a document from a place outside markup. -/
def readOn (reading : Reading) (s : DocumentState) (t : Text) :
    DocumentState × List TranslationUnit :=
  DocumentState.run reading 0 s (Xml.itemsFrom (Glyph.ofText t))

/-- Reading the text leads from `s` to `s'` and yields the units, whatever follows it. -/
def Reads (reading : Reading) (s : DocumentState) (t : Text) (s' : DocumentState)
    (units : List TranslationUnit) : Prop :=
  ∀ rest, readOn reading s (t ++ rest) = withUnits units (readOn reading s' rest)

theorem Reads.append (h : Reads reading s t s' units) (h' : Reads reading s' u s'' more) :
    Reads reading s (t ++ u) s'' (units ++ more) := by
  intro rest
  rw [List.append_assoc, h, h', withUnits_withUnits]

/-- Reading the lines leads from `s` to `s'` and yields the units.  The line break before them is
read, the one behind them is not. -/
def ReadsLines (reading : Reading) (s : DocumentState) (ls : List Text) (s' : DocumentState)
    (units : List TranslationUnit) : Prop :=
  ∀ rest, readOn reading s ('\n' :: (lines ls ++ rest)) =
    withUnits units (readOn reading s' ('\n' :: rest))

namespace ReadsLines

theorem nil (reading : Reading) (s : DocumentState) : ReadsLines reading s [] s [] :=
  fun _ => rfl

theorem cons (h : Reads reading s ('\n' :: l) s' units) (h' : ReadsLines reading s' ls s'' more) :
    ReadsLines reading s (l :: ls) s'' (units ++ more) := by
  intro rest
  have hsplit : '\n' :: (lines (l :: ls) ++ rest) =
      ('\n' :: l) ++ '\n' :: (lines ls ++ rest) := by
    simp [lines]
  rw [hsplit, h, h', withUnits_withUnits]

theorem sole (h : Reads reading s ('\n' :: l) s' units) : ReadsLines reading s [l] s' units := by
  have hline := cons h (nil reading s')
  rwa [List.append_nil] at hline

theorem append (h : ReadsLines reading s ls s' units) (h' : ReadsLines reading s' ls' s'' more) :
    ReadsLines reading s (ls ++ ls') s'' (units ++ more) := by
  intro rest
  have hsplit : lines (ls ++ ls') ++ rest = lines ls ++ (lines ls' ++ rest) := by
    simp [lines]
  rw [hsplit, h, h', withUnits_withUnits]

end ReadsLines

/-! ## Text and tags -/

/-- Where no segment is open, text is added to the open property. -/
theorem DocumentState.addText_property {p : OpenProperty} (hs : s.segment? = none)
    (hp : s.property? = some p) (b c : Text) :
    s.addText b c = { s with property? := some ⟨p.key, p.value ++ c⟩ } := by
  simp only [addText, hs, hp, Option.map_some]

theorem DocumentState.addText_nil (s : DocumentState) : s.addText [] [] = s := by
  unfold addText
  split
  · rename_i g hg
    simp only [List.append_nil]
    rw [← hg]
  · cases hp : s.property? with
    | none => rw [← hp]; simp
    | some p => simp [← hp]

theorem plainText_ofText (t : Text) :
    DocumentState.plainText (Glyph.ofText t) = Xml.unescape t := by
  rw [DocumentState.plainText, Glyph.wellFormed?_ofText, Option.bind_some, Glyph.shown_ofText,
    Xml.unescape]

/-- A text in front of markup is read as one event. -/
theorem readOn_text (ha : ∀ c ∈ a, c ≠ '<') (hrest : Xml.StartsMarkup (Glyph.ofText u)) :
    readOn reading s (a ++ u) = readOn reading (s.addText a (Xml.unescape a)) u := by
  rw [readOn, readOn, Glyph.ofText_append, Xml.itemsFrom_text_append ha hrest]
  cases a with
  | nil =>
    have hnil : Xml.unescape [] = [] := rfl
    rw [hnil, DocumentState.addText_nil]
    rfl
  | cons c a =>
    have hitem : Xml.textItem (Glyph.ofText (c :: a)) =
        [.event (.text (Glyph.ofText (c :: a)))] := rfl
    rw [hitem, List.singleton_append, DocumentState.run]
    simp only [DocumentState.step, plainText_ofText, Glyph.shown_ofText, List.nil_append]

/-- A tag is read as one event. -/
theorem reads_tag (reading : Reading) (hb : Xml.BeginsTag t) (hs : Xml.IsStretch t)
    (s : DocumentState) :
    Reads reading s (tagText t) (s.step reading (Xml.tagEvent (Glyph.ofText t))).1
      (s.step reading (Xml.tagEvent (Glyph.ofText t))).2 := by
  intro rest
  have hitems : Xml.itemsFrom (Glyph.ofText (tagText t ++ rest)) =
      .event (Xml.tagEvent (Glyph.ofText t)) :: Xml.itemsFrom (Glyph.ofText rest) := by
    rw [Glyph.ofText_append, tagText, Xml.itemsFrom_tag hb hs]
  rw [readOn, hitems, DocumentState.run]
  rfl

/-- Neither a property nor a segment is open. -/
structure IsQuiet (s : DocumentState) : Prop where
  property? : s.property? = none
  segment? : s.segment? = none

theorem IsQuiet.addText (h : IsQuiet s) (a b : Text) : s.addText a b = s := by
  obtain ⟨hproperty, hsegment⟩ := h
  cases s
  cases hproperty
  cases hsegment
  rfl

/-- The text in front of a tag is added before the tag is read. -/
theorem reads_text_tag (ha : ∀ c ∈ a, c ≠ '<')
    (ht : Reads reading (s.addText a (Xml.unescape a)) (tagText t) s' units) :
    Reads reading s (a ++ tagText t) s' units := by
  intro rest
  have hmarkup : Xml.StartsMarkup (Glyph.ofText (tagText t ++ rest)) := by
    rw [Glyph.ofText_append]
    exact Markup.startsMarkup_tagText t _
  rw [List.append_assoc, readOn_text ha hmarkup, ht]

/-- Behind a text up to the next opening bracket there is markup or nothing. -/
theorem startsMarkup_dropWhile (t : Text) :
    Xml.StartsMarkup (Glyph.ofText (t.dropWhile (· ≠ '<'))) := by
  have hhead := List.head?_dropWhile_not (· ≠ '<') t
  cases hback : t.dropWhile (· ≠ '<') with
  | nil => exact Xml.startsMarkup_nil
  | cons c back =>
    rw [hback] at hhead
    have hc : c = '<' := by simpa using hhead
    rw [hc]
    exact Xml.startsMarkup_open _

/-- Blanks mean nothing there, whatever comes behind them. -/
theorem IsQuiet.reads (h : IsQuiet s) (reading : Reading) (ha : ∀ c ∈ a, c ≠ '<') :
    Reads reading s a s [] := by
  intro rest
  -- What stands behind the blanks up to the next tag is one text with them.
  let front := rest.takeWhile (· ≠ '<')
  let back := rest.dropWhile (· ≠ '<')
  have hrest : rest = front ++ back := List.takeWhile_append_dropWhile.symm
  have hfront : ∀ c ∈ front, c ≠ '<' := by
    intro c hc
    exact of_decide_eq_true (List.mem_takeWhile_imp (p := (· ≠ '<')) hc)
  have hback : Xml.StartsMarkup (Glyph.ofText back) := startsMarkup_dropWhile rest
  have hboth : ∀ c ∈ a ++ front, c ≠ '<' := by
    intro c hc
    rcases List.mem_append.mp hc with hc | hc
    · exact ha c hc
    · exact hfront c hc
  rw [hrest, ← List.append_assoc, readOn_text hboth hback, readOn_text hfront hback, h.addText,
    h.addText, withUnits_nil]

/-- Blanks in front of a tag mean nothing there. -/
theorem reads_quiet_tag (h : IsQuiet s) (ha : ∀ c ∈ a, c ≠ '<')
    (ht : Reads reading s (tagText t) s' units) : Reads reading s (a ++ tagText t) s' units :=
  (h.reads reading ha).append ht

/-! ## Lines of one tag -/

section Tags

variable {kvs : List (Text × Text)}

theorem getLast?_writtenAttributes (h : kvs ≠ []) :
    (writtenAttributes kvs).getLast? = some '"' := by
  induction kvs with
  | nil => exact absurd rfl h
  | cons kv kvs ih =>
    rw [writtenAttributes, List.flatMap_cons, List.getLast?_append]
    by_cases hkvs : kvs = []
    · rw [hkvs]
      simp [Xml.writtenAttribute, List.getLast?_cons]
    · have hrest := ih hkvs
      rw [writtenAttributes] at hrest
      rw [hrest, Option.some_or]

theorem getLast?_tag_ne (h : IsName name) (kvs : List (Text × Text)) :
    (name ++ writtenAttributes kvs).getLast? ≠ some '/' := by
  rw [List.getLast?_append]
  by_cases hkvs : kvs = []
  · rw [hkvs]
    intro hlast
    exact h.not_mem rfl (List.mem_of_getLast? hlast)
  · rw [getLast?_writtenAttributes hkvs, Option.some_or]
    decide

theorem isStretch_tag (h : IsName name) (hkvs : ∀ kv ∈ kvs, IsName kv.1) :
    Xml.IsStretch (name ++ writtenAttributes kvs) :=
  h.isTagName.isStretch.append (Xml.isStretch_writtenAttributes hkvs)

/-- A start tag with attributes. -/
theorem reads_start (reading : Reading) (h : IsQuiet s) (ha : ∀ c ∈ a, c ≠ '<')
    (hname : IsName name) (hkvs : ∀ kv ∈ kvs, IsName kv.1) :
    Reads reading s (a ++ tagText (name ++ writtenAttributes kvs))
      (s.openElement reading (Glyph.ofText (name ++ writtenAttributes kvs)) false).1
      (s.openElement reading (Glyph.ofText (name ++ writtenAttributes kvs)) false).2 := by
  have hevent := hname.isTagName.tagEvent_start (getLast?_tag_ne hname kvs)
  have htag := reads_tag reading (hname.isTagName.beginsTag.append _) (isStretch_tag hname hkvs) s
  simp only [hevent, DocumentState.step, h.segment?] at htag
  exact reads_quiet_tag h ha htag

/-- An empty tag with attributes. -/
theorem reads_empty (reading : Reading) (h : IsQuiet s) (ha : ∀ c ∈ a, c ≠ '<')
    (hname : IsName name) (hkvs : ∀ kv ∈ kvs, IsName kv.1) :
    Reads reading s (a ++ tagText (name ++ writtenAttributes kvs ++ ['/']))
      (s.openElement reading (Glyph.ofText (name ++ writtenAttributes kvs)) true).1
      (s.openElement reading (Glyph.ofText (name ++ writtenAttributes kvs)) true).2 := by
  have hstretch := (isStretch_tag hname hkvs).append Xml.isStretch_slash
  have hbegins := (hname.isTagName.beginsTag.append (writtenAttributes kvs)).append ['/']
  have htag := reads_tag reading hbegins hstretch s
  simp only [hname.isTagName.tagEvent_empty, DocumentState.step, h.segment?] at htag
  exact reads_quiet_tag h ha htag

/-- The event of an end tag. -/
theorem reads_stop_tag (reading : Reading) (hname : IsName name) (s : DocumentState) :
    Reads reading s (tagText ('/' :: name)) (s.step reading (.stop (Glyph.ofText name))).1
      (s.step reading (.stop (Glyph.ofText name))).2 := by
  have hstretch : Xml.IsStretch ('/' :: name) :=
    Xml.isStretch_slash.append hname.isTagName.isStretch
  have htag := reads_tag reading (Xml.beginsTag_slash name) hstretch s
  rwa [Xml.tagEvent_stop hname.isTagName.isTagSpace] at htag

/-- An end tag. -/
theorem reads_stop (reading : Reading) (h : IsQuiet s) (ha : ∀ c ∈ a, c ≠ '<')
    (hname : IsName name) :
    Reads reading s (a ++ tagText ('/' :: name)) (s.closeElement reading (Glyph.ofText name)).1
      (s.closeElement reading (Glyph.ofText name)).2 := by
  have htag := reads_stop_tag reading hname s
  simp only [DocumentState.step, h.segment?] at htag
  exact reads_quiet_tag h ha htag

/-- The value of an attribute of a written tag. -/
theorem attribute?_tag (hname : IsName name) (hkvs : HasKeys kvs) (keys : List Text) :
    attribute? keys (Glyph.ofText (name ++ writtenAttributes kvs)) =
      (keys.findSome? fun key => List.lookup key kvs).map Text.trim := by
  rw [attribute?]
  simp only [Xml.attribute?_written hname.isTagName.isTagSpace hkvs]

theorem contentName_tag (hname : IsName name) :
    Xml.contentName (Glyph.ofText (name ++ writtenAttributes kvs)) = Glyph.ofText name :=
  Xml.contentName_written hname.isTagName.isTagSpace kvs

end Tags

/-! ## Properties -/

theorem isName_prop : IsName "prop".toList := by decide

theorem hasKeys_type (key : Text) : HasKeys [("type".toList, key)] := by
  refine ⟨?_, List.pairwise_singleton _ _⟩
  intro kv hkv
  rw [List.mem_singleton.mp hkv]
  exact show IsName "type".toList by decide

/-- What the end tag of a property does with it. -/
def putProperty (key value : Text) (s : DocumentState) : DocumentState :=
  ({ s with property? := some ⟨key, value⟩ } : DocumentState).closeProperty

theorem ne_open_of_indent (indent : Nat) :
    ∀ c ∈ '\n' :: List.replicate indent ' ', c ≠ '<' := by
  intro c hc
  rcases List.mem_cons.mp hc with rfl | hc
  · decide
  · rw [List.eq_of_mem_replicate hc]
    decide

theorem propertyLine_eq (indent : Nat) (key value : Text) :
    propertyLine indent key value = List.replicate indent ' ' ++
      (tagText ("prop".toList ++ writtenAttributes [("type".toList, key)]) ++
        (Xml.escape value ++ tagText ('/' :: "prop".toList))) := by
  simp [propertyLine, attributeText, tagText, writtenAttributes, Xml.writtenAttribute]

/-- **The line of a property** puts its value, under the key without blanks at its ends. -/
theorem reads_property (reading : Reading) (h : IsQuiet s) (indent : Nat) (key value : Text) :
    Reads reading s ('\n' :: propertyLine indent key value)
      (putProperty (Text.trim key) value s) [] := by
  have hline : '\n' :: propertyLine indent key value =
      (('\n' :: List.replicate indent ' ') ++
        tagText ("prop".toList ++ writtenAttributes [("type".toList, key)])) ++
      (Xml.escape value ++ tagText ('/' :: "prop".toList)) := by
    rw [propertyLine_eq]
    simp only [List.append_assoc, List.cons_append]
  have hkeys := hasKeys_type key
  have hname : Xml.contentName (Glyph.ofText ("prop".toList ++
      writtenAttributes [("type".toList, key)])) = Xml.word "prop" := contentName_tag isName_prop
  have hopened : Reads reading s (('\n' :: List.replicate indent ' ') ++
      tagText ("prop".toList ++ writtenAttributes [("type".toList, key)]))
      { s with property? := some ⟨Text.trim key, []⟩ } [] := by
    have hstart := reads_start reading h (ne_open_of_indent indent) isName_prop hkeys.1
    rw [DocumentState.openElement_prop hname, DocumentState.openProperty,
      attribute?_tag isName_prop hkeys] at hstart
    exact hstart
  have hclosed : Reads reading { s with property? := some ⟨Text.trim key, value⟩ }
      (tagText ('/' :: "prop".toList)) (putProperty (Text.trim key) value s) [] := by
    have hstop := reads_stop_tag reading isName_prop
      { s with property? := some ⟨Text.trim key, value⟩ }
    simp only [DocumentState.step, h.segment?] at hstop
    rw [show Glyph.ofText "prop".toList = Xml.word "prop" from rfl,
      DocumentState.closeElement_prop] at hstop
    rw [putProperty, h.segment?]
    exact hstop
  have hopen : ∀ c ∈ Xml.escape value, c ≠ '<' := fun c hc => (Xml.isPlain_of_mem_escape hc).1
  rw [hline]
  refine hopened.append (reads_text_tag hopen ?_)
  have hadded := DocumentState.addText_property
    (s := { s with property? := some ⟨Text.trim key, []⟩ })
    h.segment? rfl (Xml.escape value) (Xml.unescape (Xml.escape value))
  rw [Xml.unescape_escape, List.nil_append] at hadded
  rw [Xml.unescape_escape, hadded]
  exact hclosed

/-! ## Segments -/

/-- The state in which the open segment has the content `raw` and `depth` inline tags are open. -/
def withSegment (s : DocumentState) (raw : Text) (depth : Nat) : DocumentState :=
  { s with segment? := some ⟨raw, depth⟩ }

section Segments

variable {raw : Text} {depth : Nat} {f : Forest} {n : Nat}

theorem readOn_text_inSegment (ha : ∀ c ∈ a, c ≠ '<') (hrest : Xml.StartsMarkup (Glyph.ofText u)) :
    readOn reading (withSegment s raw depth) (a ++ u) =
      readOn reading (withSegment s (raw ++ a) depth) u :=
  readOn_text ha hrest

theorem reads_opening_inSegment (reading : Reading) (h : IsName name) (s : DocumentState) :
    Reads reading (withSegment s raw depth) (tagText name)
      (withSegment s (raw ++ tagText name) (depth + 1)) [] := by
  have htag := reads_tag reading h.isTagName.beginsTag h.isTagName.isStretch
    (withSegment s raw depth)
  rw [h.isTagName.tagEvent_sole] at htag
  simp only [DocumentState.step, withSegment, DocumentState.inlineOpening, Glyph.shown_ofText,
    Bool.false_eq_true, if_false] at htag
  exact htag

theorem reads_empty_inSegment (reading : Reading) (h : IsName name) (s : DocumentState) :
    Reads reading (withSegment s raw depth) (tagText (name ++ ['/']))
      (withSegment s (raw ++ tagText (name ++ ['/'])) depth) [] := by
  have htag := reads_tag reading (h.isTagName.beginsTag.append ['/'])
    (h.isTagName.isStretch.append Xml.isStretch_slash) (withSegment s raw depth)
  rw [h.isTagName.tagEvent_sole_empty] at htag
  simp only [DocumentState.step, withSegment, DocumentState.inlineOpening, Glyph.shown_ofText,
    if_true] at htag
  exact htag

theorem reads_closing_inSegment (reading : Reading) (h : IsName name) (s : DocumentState) :
    Reads reading (withSegment s raw (depth + 1)) (tagText ('/' :: name))
      (withSegment s (raw ++ tagText ('/' :: name)) depth) [] := by
  have htag := reads_stop_tag reading h (withSegment s raw (depth + 1))
  simp only [DocumentState.step, withSegment, DocumentState.closeInSegment, Nat.zero_lt_succ,
    if_true, Glyph.shown_ofText, Nat.add_sub_cancel] at htag
  exact htag

/-- **A written forest is content of the segment**, tag by tag as it was written. -/
theorem readOn_forest (hr : f.IsReadable) (hn : f.IsNumbered n)
    (hu : Xml.StartsMarkup (Glyph.ofText u)) :
    readOn reading (withSegment s raw depth) (f.print ++ u) =
      readOn reading (withSegment s (raw ++ f.print) depth) u := by
  induction f generalizing n raw depth u with
  | nil => rw [Forest.print, List.append_nil]; rfl
  | cons name text children tail rest ihc ihr =>
    obtain ⟨htext, hrc, htail, hrr⟩ := hr
    obtain ⟨rfl, hnc, hnr⟩ := Forest.IsNumbered.cons_iff.mp hn
    have hname := Markup.isName_numberedName (n + 1)
    have hrest : Xml.StartsMarkup (Glyph.ofText (rest.print ++ u)) := by
      rw [Glyph.ofText_append]
      exact Forest.startsMarkup_print hu
    rw [Forest.print]
    split
    · simp only [List.append_assoc]
      rw [reads_empty_inSegment reading hname, withUnits_nil, readOn_text_inSegment htail hrest,
        ihr hrr hnr hu]
      simp only [List.append_assoc]
    · have hclosing (x : Text) : Xml.StartsMarkup
          (Glyph.ofText (tagText ('/' :: Markup.numberedName (n + 1)) ++ x)) := by
        rw [Glyph.ofText_append]
        exact Markup.startsMarkup_tagText _ _
      have hinside (x : Text) : Xml.StartsMarkup (Glyph.ofText
          (children.print ++ (tagText ('/' :: Markup.numberedName (n + 1)) ++ x))) := by
        rw [Glyph.ofText_append]
        exact Forest.startsMarkup_print (hclosing x)
      simp only [List.append_assoc]
      rw [reads_opening_inSegment reading hname, withUnits_nil,
        readOn_text_inSegment htext (hinside _), ihc hrc hnc (hclosing _),
        reads_closing_inSegment reading hname, withUnits_nil, readOn_text_inSegment htail hrest,
        ihr hrr hnr hu]
      simp only [List.append_assoc]

/-- What is written into a segment is a text and a numbered forest behind it. -/
theorem exists_normalForm_escapeSegment (t : Text) :
    ∃ m : NormalForm, m.markup = escapeSegment t := by
  rcases escapeSegment_cases t with ⟨-, hescape⟩ | ⟨htags, hkept, hfixed⟩
  · refine ⟨⟨Xml.escape t, .nil, fun c hc => (Xml.isPlain_of_mem_escape hc).1, trivial, rfl,
      ⟨trivial, trivial, trivial⟩⟩, ?_⟩
    rw [NormalForm.markup, hescape, Forest.print, List.append_nil]
  · obtain ⟨m, hm, -⟩ := exists_normalForm_escapeAround htags hfixed
    exact ⟨m, by rw [hm, hkept]⟩

/-- **What is written into a segment is its content when it is read**, character by character. -/
theorem readOn_escapeSegment (t : Text) (hu : Xml.StartsMarkup (Glyph.ofText u)) :
    readOn reading (withSegment s raw depth) (escapeSegment t ++ u) =
      readOn reading (withSegment s (raw ++ escapeSegment t) depth) u := by
  obtain ⟨m, hm⟩ := exists_normalForm_escapeSegment t
  have hforest : Xml.StartsMarkup (Glyph.ofText (m.forest.print ++ u)) := by
    rw [Glyph.ofText_append]
    exact Forest.startsMarkup_print hu
  rw [← hm, NormalForm.markup, List.append_assoc, readOn_text_inSegment m.no_open hforest,
    readOn_forest m.isReadable m.isNumbered hu, List.append_assoc]

end Segments

end Bitext.Tmx
