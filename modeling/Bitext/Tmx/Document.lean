import Bitext.Bytes
import Bitext.Tmx.Record
import Bitext.Xml.Attribute

/-!
# Documents

Reads a TMX document from the items of its markup.  End tags are not compared with start tags, and
what is left open is closed by whatever cannot stand inside it: a record by the next record, by the
end of the body or by the end of the input, a variant by the next variant.  A record without units
is counted as skipped.

Inside a segment all markup is content, except that an end tag of the document's own structure
closes the segment once every inline tag is closed.

## Main definitions

* `DocumentState`: what a document has come to.
* `DocumentState.step`: reading one event; it yields the units of a record that the event closes.
* `DocumentState.run`: reading all items, up to the first that makes the document hopeless.
* `Document.read`: the units of a document and the account of its reading.
-/
namespace Bitext.Tmx

open Bitext.Unicode (Glyph)

/-- A property that is being read. -/
structure OpenProperty where
  key : Text
  value : Text
  deriving DecidableEq, Repr

/-- A segment that is being read: its content so far, and how many inline tags are open. -/
structure OpenSegment where
  raw : Text
  depth : Nat
  deriving DecidableEq, Repr

/-- A document between two events. -/
structure DocumentState where
  /-- The source language that the header declares. -/
  sourceLanguage? : Option Text := none
  /-- The root element has been seen. -/
  hasRoot : Bool := false
  record? : Option Record := none
  variant? : Option Variant := none
  property? : Option OpenProperty := none
  segment? : Option OpenSegment := none
  /-- The number of records without units. -/
  skipped : Nat := 0
  /-- The number of faults that were worked around. -/
  recovered : Nat := 0
  /-- The document is none, or was given up. -/
  failed : Bool := false
  deriving DecidableEq, Repr

/-- How a document is read: what the caller asks for, and the file it is read from. -/
structure Reading where
  request : Import := {}
  fileName : Text
  deriving DecidableEq, Repr

/-- The first attribute with one of the given keys, in the order of the keys, without blanks at its
ends. -/
def attribute? (keys : List Text) (content : List Glyph) : Option Text :=
  (keys.findSome? fun key => Xml.attribute? key content).map Text.trim

/-- The elements of the document's own structure that can close a segment. -/
def structural : List (List Glyph) :=
  ["seg", "tuv", "tu", "body", "tmx"].map Xml.word

namespace DocumentState

/-- A fault was worked around. -/
def recover (s : DocumentState) : DocumentState := { s with recovered := s.recovered + 1 }

/-! ## Closing -/

/-- Moves the open variant into its record. -/
def withVariant (r : Record) (variant? : Option Variant) : Record :=
  { r with variants := r.variants ++ variant?.toList }

/-- Closes the open record, if there is one, and yields its units. -/
def closeRecord (reading : Reading) (s : DocumentState) : DocumentState × List TranslationUnit :=
  match s.record? with
  | none => (s, [])
  | some r =>
    let units :=
      (withVariant r s.variant?).units reading.request reading.fileName s.sourceLanguage?
    ({ s with
        record? := none
        variant? := none
        property? := none
        segment? := none
        skipped := if units.isEmpty then s.skipped + 1 else s.skipped }, units)

/-- Closes a record that should have been closed before. -/
def closeOverdue (reading : Reading) (s : DocumentState) : DocumentState × List TranslationUnit :=
  if s.record?.isSome then s.recover.closeRecord reading else (s, [])

/-- Stores the content of the open segment in the open variant. -/
def closeSegment (raw : Text) (s : DocumentState) : DocumentState :=
  { s with
    segment? := none
    variant? := s.variant?.map fun v => { v with segment? := some raw } }

/-- Stores the open property in the open variant, or else in the open record. -/
def closeProperty (s : DocumentState) : DocumentState :=
  match s.property? with
  | none => s
  | some p =>
    let s := { s with property? := none }
    match s.variant? with
    | some v => { s with variant? := some { v with properties := v.properties.insert p.key p.value } }
    | none =>
      { s with
        record? := s.record?.map fun r => { r with properties := r.properties ++ [(p.key, p.value)] } }

/-- Stores the open variant in the open record. -/
def closeVariant (s : DocumentState) : DocumentState :=
  { s with
    variant? := none
    record? := s.record?.map fun r => withVariant r s.variant? }

/-! ## Opening -/

/-- Reads a header. -/
def header (content : List Glyph) (s : DocumentState) : DocumentState :=
  let language? := (attribute? ["srclang".toList] content).map primarySubtag
  { s with sourceLanguage? := language?.filter fun l => !l.isEmpty && l ≠ "*all*".toList }

/-- Opens a record, and closes it at once if it is empty. -/
def openRecord (reading : Reading) (content : List Glyph) (isEmpty : Bool) (s : DocumentState) :
    DocumentState × List TranslationUnit :=
  let (s, units) := s.closeOverdue reading
  let r : Record :=
    { identifier? := attribute? ["tuid".toList] content
      created? := attribute? ["creationdate".toList] content
      changed? := attribute? ["changedate".toList] content }
  let s := { s with record? := some r }
  if isEmpty then
    let (s, more) := s.closeRecord reading
    (s, units ++ more)
  else (s, units)

/-- Opens a variant of the open record; outside records there are none. -/
def openVariant (content : List Glyph) (isEmpty : Bool) (s : DocumentState) : DocumentState :=
  match s.record? with
  | none => s
  | some r =>
    let language := ((attribute? ["xml:lang".toList, "lang".toList] content).map primarySubtag).getD []
    let v : Variant := { language }
    let r := withVariant r s.variant?
    if isEmpty then { s with record? := some (withVariant r (some v)), variant? := none }
    else { s with record? := some r, variant? := some v }

/-- Opens a property. -/
def openProperty (content : List Glyph) (s : DocumentState) : DocumentState :=
  { s with property? := some ⟨(attribute? ["type".toList] content).getD [], []⟩ }

/-- Opens a segment of the open variant; outside variants there are none. -/
def openSegment (isEmpty : Bool) (s : DocumentState) : DocumentState :=
  if s.variant?.isNone then s
  else if isEmpty then s.closeSegment []
  else { s with segment? := some ⟨[], 0⟩ }

/-! ## Events -/

/-- Reads a start tag or an empty tag outside segments. -/
def openElement (reading : Reading) (content : List Glyph) (isEmpty : Bool) (s : DocumentState) :
    DocumentState × List TranslationUnit :=
  let name := Xml.contentName content
  if name = Xml.word "tmx" then ({ s with hasRoot := true }, [])
  else if name = Xml.word "header" then (s.header content, [])
  else if name = Xml.word "tu" then s.openRecord reading content isEmpty
  else if name = Xml.word "tuv" then (s.openVariant content isEmpty, [])
  else if name = Xml.word "prop" && !isEmpty then (s.openProperty content, [])
  else if name = Xml.word "seg" then (s.openSegment isEmpty, [])
  else (s, [])

/-- Reads an end tag outside segments. -/
def closeElement (reading : Reading) (name : List Glyph) (s : DocumentState) :
    DocumentState × List TranslationUnit :=
  if name = Xml.word "prop" then (s.closeProperty, [])
  else if name = Xml.word "tuv" then (s.closeVariant, [])
  else if name = Xml.word "tu" then s.closeRecord reading
  else if name = Xml.word "body" || name = Xml.word "tmx" then s.closeOverdue reading
  else (s, [])

/-- Reads a start tag or an empty tag inside a segment. -/
def inlineOpening (content : List Glyph) (isEmpty : Bool) (g : OpenSegment) : OpenSegment :=
  let body := Glyph.shown content
  if isEmpty then { g with raw := g.raw ++ Markup.tagText (body ++ ['/']) }
  else ⟨g.raw ++ Markup.tagText body, g.depth + 1⟩

/-- Reads an end tag inside a segment.  It is content as long as inline tags are open or if it does
not belong to the structure of the document; otherwise it closes the segment, and what else it
closes as well. -/
def closeInSegment (reading : Reading) (name : List Glyph) (g : OpenSegment) (s : DocumentState) :
    DocumentState × List TranslationUnit :=
  let raw := g.raw ++ Markup.tagText ('/' :: Glyph.shown name)
  if 0 < g.depth then ({ s with segment? := some ⟨raw, g.depth - 1⟩ }, [])
  else if !structural.contains name then ({ s with segment? := some ⟨raw, 0⟩ }, [])
  else
    -- Any other end tag than that of the segment closes it early, and then closes its own element.
    let s := s.closeSegment g.raw
    if name = Xml.word "seg" then (s, []) else s.recover.closeElement reading name

/-- Adds to the content of the open segment, or else to the value of the open property. -/
def addText (inSegment inProperty : Text) (s : DocumentState) : DocumentState :=
  match s.segment? with
  | some g => { s with segment? := some { g with raw := g.raw ++ inSegment } }
  | none =>
    { s with property? := s.property?.map fun p => { p with value := p.value ++ inProperty } }

/-- The text between tags as a value: entities resolved, if the text is well formed. -/
def plainText (raw : List Glyph) : Text :=
  ((Glyph.wellFormed? raw).bind Xml.unescape?).getD (Glyph.shown raw)

/-- Reads an event, and yields the units of a record that it closes. -/
def step (reading : Reading) (s : DocumentState) : Xml.Event → DocumentState × List TranslationUnit
  | .start content =>
    match s.segment? with
    | some g => ({ s with segment? := some (inlineOpening content false g) }, [])
    | none => s.openElement reading content false
  | .empty content =>
    match s.segment? with
    | some g => ({ s with segment? := some (inlineOpening content true g) }, [])
    | none => s.openElement reading content true
  | .stop name =>
    match s.segment? with
    | some g => s.closeInSegment reading name g
    | none => s.closeElement reading name
  | .text raw => (s.addText (Glyph.shown raw) (plainText raw), [])
  | .data raw => (s.addText (Xml.escape (Glyph.shown raw)) (Glyph.shown raw), [])
  | .other => (s, [])

/-- Reads the end of the input.  A document without a root element is none. -/
def finish (reading : Reading) (s : DocumentState) : DocumentState × List TranslationUnit :=
  let (s, units) := s.closeOverdue reading
  ({ s with failed := s.failed || !s.hasRoot }, units)

/-! ## Whole documents -/

/-- How many faults in a row make a document hopeless. -/
def patience : Nat := 16

/-- Reads the remaining items; `faults` is the number of faults in a row before them. -/
def run (reading : Reading) (faults : Nat) (s : DocumentState) :
    List Xml.Item → DocumentState × List TranslationUnit
  | [] => s.finish reading
  | .event e :: rest =>
    let (s, units) := s.step reading e
    let (s, more) := run reading 0 s rest
    (s, units ++ more)
  | .illFormed :: rest | .syntaxError :: rest =>
    let s := s.recover
    -- Units that were read before stay; those of an open record are lost.
    if patience ≤ faults + 1 then ({ s with failed := true }, [])
    else run reading (faults + 1) s rest

end DocumentState

/-- A document that was read to its end: its units, and the account of its reading. -/
structure Document where
  fileName : Text
  units : List TranslationUnit
  skipped : Nat
  recovered : Nat
  failed : Bool
  deriving DecidableEq, Repr

/-- The items of a document.  If not even the first byte can be read, every attempt to begin with the
document is a fault. -/
def Document.items (d : Data) : List Xml.Item :=
  let items := Xml.items (Unicode.Utf8.decode d.bytes)
  if !d.isDamaged then items
  else if d.bytes.isEmpty then List.replicate DocumentState.patience .illFormed
  else Xml.interrupted items

@[simp] theorem Document.items_whole (b : Bytes) :
    Document.items b = Xml.items (Unicode.Utf8.decode b) := rfl

/-- Reads a document from its data. -/
def Document.read (reading : Reading) (d : Data) : Document :=
  let (s, units) := DocumentState.run reading 0 {} (Document.items d)
  ⟨reading.fileName, units, s.skipped, s.recovered, s.failed⟩

end Bitext.Tmx
