import Bitext.Archive.Member
import Bitext.Error
import Bitext.Tmx.Record
import Bitext.Unicode.Utf8

/-!
# Written documents

Units as a TMX document, and documents as the members of an archive.  A writing session collects
members until it is closed; a closed session accepts nothing more.

## Main definitions

* `Stamp`: what is written into the header of every document.
* `documentText`: the document of a list of units.
* `Session`: the members written so far.
-/
namespace Bitext.Tmx

/-- What a document says about its making. -/
structure Stamp where
  sourceLanguage : Text
  tool : Text
  toolVersion : Text
  created : Timestamp
  /-- The name of members for which none is given. -/
  defaultMember : Text
  deriving DecidableEq, Repr

/-- Puts the lines of a document together. -/
def lines (ls : List Text) : Text := ls.flatMap fun l => l ++ ['\n']

/-- An attribute with a blank before it. -/
def attributeText (key : String) (value : Text) : Text :=
  ' ' :: (key.toList ++ '=' :: '"' :: (Xml.escape value ++ ['"']))

/-- The start of a document, up to its first unit. -/
def Stamp.header (s : Stamp) : Text :=
  lines [
    "<?xml version=\"1.0\" encoding=\"UTF-8\"?>".toList,
    "<tmx version=\"1.4\">".toList,
    "  <header".toList ++ attributeText "creationtool" s.tool ++
      attributeText "creationtoolversion" s.toolVersion ++
      attributeText "datatype" "PlainText".toList ++ attributeText "segtype" "sentence".toList ++
      attributeText "adminlang" "en-us".toList ++ attributeText "srclang" s.sourceLanguage ++
      attributeText "o-tmf" s.tool ++ attributeText "creationdate" s.created.compact ++
      "/>".toList,
    "  <body>".toList]

/-- The end of a document, behind its last unit. -/
def footer : Text := lines ["  </body>".toList, "</tmx>".toList]

/-- The line for a property. -/
def propertyLine (indent : Nat) (key value : Text) : Text :=
  List.replicate indent ' ' ++ "<prop".toList ++ attributeText "type" key ++
    '>' :: (Xml.escape value ++ "</prop>".toList)

/-- The keys of properties with a place of their own in the unit. -/
def ownKeys : List Text := [fileNameKey, industryKey, kindKey, organizationKey]

/-- The properties of a unit in the order in which they are written: first those with a place of
their own in the unit, then the others. -/
def recordProperties (u : TranslationUnit) : List (Text × Text) :=
  let own (key : Text) (value? : Option Text) := value?.toList.map (key, ·)
  own fileNameKey u.fileName? ++ own industryKey u.industry? ++ own kindKey u.kind? ++
    own organizationKey u.organization? ++
    u.properties.entries.filter fun e => !ownKeys.contains e.1

/-- The lines for one side of a unit. -/
def variantLines (language : Text) (properties : Properties) (t : Text) : List Text :=
  ["      <tuv".toList ++ attributeText "xml:lang" language ++ ['>']] ++
    properties.entries.map (fun (key, value) => propertyLine 8 key value) ++
    ["        <seg>".toList ++ escapeSegment t ++ "</seg>".toList,
      "      </tuv>".toList]

/-- The record of a unit. -/
def unitText (u : TranslationUnit) : Text :=
  let own (key : String) (value? : Option Text) := (value?.map (attributeText key)).getD []
  lines <|
    ["    <tu".toList ++ own "tuid" u.identifier? ++ own "creationdate" u.created? ++
      own "changedate" u.changed? ++ ['>']] ++
    (recordProperties u).map (fun (key, value) => propertyLine 6 key value) ++
    variantLines u.sourceLanguage u.sourceProperties u.sourceText ++
    variantLines u.targetLanguage u.targetProperties u.targetText ++
    ["    </tu>".toList]

/-- The document of a list of units. -/
def documentText (stamp : Stamp) (units : List TranslationUnit) : Text :=
  stamp.header ++ units.flatMap unitText ++ footer

/-! ## Sessions -/

/-- A member as text. -/
structure WrittenMember where
  name : Text
  text : Text
  deriving DecidableEq, Repr

/-- An archive that is being written. -/
structure Session where
  stamp : Stamp
  members : List WrittenMember := []
  isClosed : Bool := false
  deriving DecidableEq, Repr

namespace Session

/-- Writes a member, under the default name if none is given.  The names of members are distinct. -/
def write (s : Session) (units : List TranslationUnit) (name? : Option Text) :
    Except Error Session :=
  let name := name?.getD s.stamp.defaultMember
  if s.isClosed then .error .archiveClosed
  else if s.members.any (·.name = name) then .error (.archiveDamaged "<stream>".toList)
  else .ok { s with members := s.members ++ [⟨name, documentText s.stamp units⟩] }

/-- Closes the archive; closing it again changes nothing. -/
def close (s : Session) : Session := { s with isClosed := true }

/-- The members with their bytes and the time of the session. -/
def archive (s : Session) : List Archive.Member :=
  s.members.map fun m =>
    ⟨m.name, .ofTimestamp s.stamp.created, Unicode.Utf8.encode m.text⟩

end Session

end Bitext.Tmx
