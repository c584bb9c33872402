import Bitext.Tmx.Segment
import Bitext.Unit.Basic

/-!
# Records and the units they hold

A record of a TMX document lists variants of one text in several languages.  Two usable variants in
different languages make a unit; which pairs of variants are taken depends on the pairs that were
asked for and on the source language that the document declares.

## Main definitions

* `Variant`, `Record`: what is read of a record.
* `Import`: what the caller adds to the units and asks for.
* `Record.units`: the units of a record.
-/
namespace Bitext.Tmx

/-- The property that names the file a unit comes from. -/
def fileNameKey : Text := "file_name".toList

/-- The property that names the industry. -/
def industryKey : Text := "tda-industry".toList

/-- The property that names the kind of content. -/
def kindKey : Text := "tda-type".toList

/-- The property that names the organization. -/
def organizationKey : Text := "tda-org".toList

/-- The text in one language, as it was read. -/
structure Variant where
  language : Text
  properties : Properties := .empty
  /-- The content of the segment, if there was one. -/
  segment? : Option Text := none
  deriving DecidableEq, Repr

/-- A record, as it was read. -/
structure Record where
  identifier? : Option Text := none
  created? : Option Text := none
  changed? : Option Text := none
  /-- Properties of the whole record, in order. -/
  properties : List (Text × Text) := []
  variants : List Variant := []
  deriving DecidableEq, Repr

/-- What a caller adds to the units that are read, and which of them are wanted. -/
structure Import where
  /-- The only domain of every unit. -/
  domain? : Option Text := none
  userName? : Option Text := none
  /-- The wanted pairs; an empty list leaves the choice to the document. -/
  pairs : List LanguagePair := []
  deriving DecidableEq, Repr

/-- A variant with a text and a language. -/
structure Side where
  language : Text
  text : Text
  properties : Properties
  deriving DecidableEq, Repr

/-- The variant as one side of a unit; nothing without a visible text or a language. -/
def Variant.side? (v : Variant) : Option Side :=
  match v.segment? with
  | none => none
  | some raw =>
    let text := cleanSegment raw
    if text.isEmpty || v.language.isEmpty then none else some ⟨v.language, text, v.properties⟩

/-! ## Pairs of sides -/

/-- The first side in a language. -/
def sideIn? (sides : List Side) (language : Text) : Option Side :=
  sides.find? (·.language == language)

/-- Every two sides in different languages, the earlier one first. -/
def allPairs : List Side → List (Side × Side)
  | [] => []
  | side :: rest =>
    (rest.filter (·.language ≠ side.language)).map (side, ·) ++ allPairs rest

/-- The pairs of sides that make units.  Wanted pairs take the first side in each language; with a
source language, its first side goes with every side in another language; otherwise all sides in
different languages go together. -/
def sidePairs (wanted : List LanguagePair) (sourceLanguage? : Option Text) (sides : List Side) :
    List (Side × Side) :=
  if !wanted.isEmpty then
    wanted.filterMap fun pair => do
      return (← sideIn? sides pair.source, ← sideIn? sides pair.target)
  else
    match sourceLanguage? with
    | some language =>
      match sideIn? sides language with
      | some source => (sides.filter (·.language ≠ source.language)).map (source, ·)
      | none => []
    | none => allPairs sides

/-! ## Units -/

namespace Record

/-- The usable sides of the record. -/
def sides (r : Record) : List Side := r.variants.filterMap (·.side?)

/-- The file that the record says it is from: the last property of that name that is not blank. -/
def fileName? (r : Record) : Option Text :=
  let names := (r.properties.filter (·.1 == fileNameKey)).map fun p => Text.trim p.2
  (names.filter (!·.isEmpty)).getLast?

/-- The properties other than the file name. -/
def unitProperties (r : Record) : Properties :=
  .ofList (r.properties.filter (·.1 ≠ fileNameKey))

/-- The unit of two sides of the record. -/
def unit (r : Record) (request : Import) (fileName : Text) (source target : Side) :
    TranslationUnit :=
  let properties := r.unitProperties
  { sourceText := source.text
    targetText := target.text
    sourceLanguage := source.language
    targetLanguage := target.language
    domains := request.domain?.toList
    fileName? := some (r.fileName?.getD fileName)
    identifier? := r.identifier?
    created? := r.created?
    changed? := r.changed?
    industry? := properties.get? industryKey
    kind? := properties.get? kindKey
    organization? := properties.get? organizationKey
    properties := properties
    sourceProperties := source.properties
    targetProperties := target.properties
    userName? := request.userName? }

/-- The units of the record, which was read from the named file under the given source language. -/
def units (r : Record) (request : Import) (fileName : Text) (sourceLanguage? : Option Text) :
    List TranslationUnit :=
  (sidePairs request.pairs sourceLanguage? r.sides).map fun (source, target) =>
    r.unit request fileName source target

end Record

end Bitext.Tmx
