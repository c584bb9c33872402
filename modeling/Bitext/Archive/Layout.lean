import Bitext.Archive.Inflate
import Bitext.Archive.Member
import Bitext.Unicode.Utf8

/-!
# The layout of archives

An archive is written as one record for each member, followed by a directory that repeats the
headers of the records, and by an end record that says where the directory is.  Reading starts at
the end record, so other data may stand before the first member and behind the last one.

## Main definitions

* `encode`: the bytes of an archive.
* `Entry`, `entries?`: what the directory of an archive lists, with the data of each entry.
* `Entry.unpacked`, `Entry.content?`: the unpacked data of an entry.
-/
namespace Bitext.Archive

/-- The mark in front of a member. -/
def memberMark : Bytes := [0x50, 0x4B, 0x03, 0x04]

/-- The mark in front of a directory entry. -/
def entryMark : Bytes := [0x50, 0x4B, 0x01, 0x02]

/-- The mark in front of the end record. -/
def endMark : Bytes := [0x50, 0x4B, 0x05, 0x06]

/-- A file is an archive if it starts with a member or with an end record. -/
def isArchive (b : Bytes) : Bool := memberMark.isPrefixOf b || endMark.isPrefixOf b

/-- The number of the method that back references and prefix codes have. -/
def deflated : Nat := 8

/-! ## Writing -/

/-- Shifts one bit out of a remainder. -/
def shiftRemainder (r : UInt32) : UInt32 :=
  if r &&& 1 = 1 then (r >>> 1) ^^^ 0xEDB88320 else r >>> 1

/-- The remainder after one more byte. -/
def addByte (r : UInt32) (b : UInt8) : UInt32 :=
  (List.range 8).foldl (fun r _ => shiftRemainder r) (r ^^^ b.toUInt32)

/-- The cyclic redundancy check of 32 bits that archives keep for each member. -/
def checksum (b : Bytes) : UInt32 := b.foldl addByte 0xFFFFFFFF ^^^ 0xFFFFFFFF

/-- The part that the header of a member and its directory entry share. -/
def sharedHeader (m : Member) : Bytes :=
  let packed := storedBlocks m.content
  let flags := if m.name.all fun c => c.toNat < 0x80 then 0 else 0x800
  Bytes.little 2 20 ++ Bytes.little 2 flags ++ Bytes.little 2 deflated ++
    Bytes.little 2 m.modified.timeField ++ Bytes.little 2 m.modified.dateField ++
    Bytes.little 4 (checksum m.content).toNat ++ Bytes.little 4 packed.length ++
    Bytes.little 4 m.content.length ++ Bytes.little 2 (Unicode.Utf8.size m.name) ++
    Bytes.little 2 0

/-- The record of a member. -/
def memberRecord (m : Member) : Bytes :=
  memberMark ++ sharedHeader m ++ Unicode.Utf8.encode m.name ++ storedBlocks m.content

/-- The directory entry of a member whose record begins at the given place. -/
def directoryEntry (place : Nat) (m : Member) : Bytes :=
  entryMark ++ Bytes.little 2 20 ++ sharedHeader m ++ List.replicate 10 0 ++
    Bytes.little 4 place ++ Unicode.Utf8.encode m.name

/-- The directory of members whose records begin at the given place. -/
def directory (place : Nat) : List Member → Bytes
  | [] => []
  | m :: rest => directoryEntry place m ++ directory (place + (memberRecord m).length) rest

/-- The bytes of an archive. -/
def encode (members : List Member) : Bytes :=
  let records := members.flatMap memberRecord
  let listing := directory 0 members
  records ++ listing ++ endMark ++ List.replicate 4 0 ++ Bytes.little 2 members.length ++
    Bytes.little 2 members.length ++ Bytes.little 4 listing.length ++
    Bytes.little 4 records.length ++ List.replicate 2 0

/-! ## Reading -/

/-- An entry of a directory, with the data of its member as they are stored. -/
structure Entry where
  name : Text
  isEncrypted : Bool
  method : Nat
  data : Bytes
  deriving DecidableEq, Repr

/-- The characters from 128 to 255 of the code page for names that are not marked as UTF-8. -/
def codePage : Array Char :=
  ("ÇüéâäàåçêëèïîìÄÅÉæÆôöòûùÿÖÜ¢£¥₧ƒáíóúñÑªº¿⌐¬½¼¡«»░▒▓│┤╡╢╖╕╣║╗╝╜╛┐└┴┬├─┼╞╟╚╔╩╦╠═╬╧╨╤╥╙╘╒╓╫╪┘┌█▄▌▐▀" ++
    "αßΓπΣσµτΦΘΩδ∞φε∩≡±≥≤⌠⌡÷≈°∙·√ⁿ²■\u00A0").toList.toArray

/-- A name in the code page. -/
def nameInCodePage (b : Bytes) : Text :=
  b.map fun x => if x.toNat < 0x80 then Char.ofNat x.toNat else codePage[x.toNat - 0x80]?.getD ' '

/-- A name in UTF-8. -/
def nameInUtf8 (b : Bytes) : Text := Unicode.Glyph.shown (Unicode.Utf8.decode b)

/-- The bytes from a place on begin with a mark. -/
def hasMark (mark b : Bytes) (place : Nat) : Bool := mark.isPrefixOf (b.drop place)

/-- Reads the entry at a place of the directory, and yields the place behind it.  `shift` is the
length of what stands before the archive, `start` the place of the directory; members begin and
their data begin before it. -/
def entry? (b : Bytes) (shift start place : Nat) : Option (Entry × Nat) := do
  let field := fun at_ width => b.field? (place + at_) width
  if !hasMark entryMark b place then none
  else
    let flags ← field 8 2
    let method ← field 10 2
    let size ← field 20 4
    let nameLength ← field 28 2
    let extraLength ← field 30 2
    let commentLength ← field 32 2
    let offset ← field 42 4
    let name := (b.drop (place + 46)).take nameLength
    let next := place + 46 + nameLength + extraLength + commentLength
    let member := offset + shift
    if b.length < next || start ≤ member || !hasMark memberMark b member || method = 99 then none
    else
      let localName ← b.field? (member + 26) 2
      let localExtra ← b.field? (member + 28) 2
      let data := member + 30 + localName + localExtra
      if start < data then none
      else
        return (⟨if flags.testBit 11 then nameInUtf8 name else nameInCodePage name,
          flags.testBit 0, method, (b.drop data).take size⟩, next)

/-- Reads `n` entries of the directory. -/
def listing? (b : Bytes) (shift start : Nat) : (n : Nat) → (place : Nat) → Option (List Entry)
  | 0, _ => some []
  | n + 1, place => do
    let (entry, next) ← entry? b shift start place
    return entry :: (← listing? b shift start n next)

/-- The first place from `place` to before `stop` that has a mark. -/
def findMark? (mark : Bytes) (place stop : Nat) : Bytes → Option Nat
  | [] => none
  | b :: rest =>
    if stop < place + mark.length then none
    else if mark.isPrefixOf (b :: rest) then some place
    else findMark? mark (place + 1) stop rest

/-- Reads the archive whose end record is at a place. -/
def readFrom? (b : Bytes) (place : Nat) : Option (List Entry) := do
  let field := fun at_ width => b.field? (place + at_) width
  let disk ← field 4 2
  let directoryDisk ← field 6 2
  let entries ← field 8 2
  let total ← field 10 2
  let offset ← field 16 4
  let commentLength ← field 20 2
  if b.length < place + 22 + commentLength then none
  else if disk ≠ directoryDisk then none
  else if total = 0 then
    -- Without entries there is no directory to look for: it would begin at the end record.
    listing? b (place - offset) (offset + (place - offset)) entries (offset + (place - offset))
  else if place ≤ offset then none
  else
    -- What stands before the archive moves the directory behind the place it claims to have.
    let start ← findMark? entryMark offset place (b.drop offset)
    listing? b (start - offset) start entries start

/-- The places of a mark, the last one first; `seen` are those before `place`. -/
def markPlaces (mark : Bytes) (place : Nat) (seen : List Nat) : Bytes → List Nat
  | [] => seen
  | b :: rest =>
    markPlaces mark (place + 1) (if mark.isPrefixOf (b :: rest) then place :: seen else seen) rest

/-- Of entries with one name, keeps the last one at the place of the first one. -/
def insertEntry (e : Entry) : List Entry → List Entry
  | [] => [e]
  | f :: rest => if f.name = e.name then e :: rest else f :: insertEntry e rest

/-- The entries of an archive, in order; nothing if its layout is broken. -/
def entries? (b : Bytes) : Option (List Entry) :=
  ((markPlaces endMark 0 [] b).findSome? (readFrom? b)).map fun entries =>
    entries.foldl (fun listed e => insertEntry e listed) []

namespace Entry

/-- The entry is a directory. -/
def isDirectory (e : Entry) : Bool :=
  e.name.getLast? == some '/' || e.name.getLast? == some '\\'

/-- The data of the entry can be unpacked. -/
def isReadable (e : Entry) : Bool := e.method = 0 || e.method = deflated

/-- The unpacked data of a readable entry. -/
def unpacked (e : Entry) : Data := if e.method = 0 then .whole e.data else inflate e.data

/-- The content of a readable entry; nothing if its data are damaged. -/
def content? (e : Entry) : Option Bytes :=
  if e.unpacked.isDamaged then none else some e.unpacked.bytes

/-- The name of the method by which the entry is compressed. -/
def methodName (e : Entry) : Text :=
  match e.method with
  | 0 => "Stored".toList
  | 8 => "Deflated".toList
  | 9 => "Deflate64".toList
  | 12 => "Bzip2".toList
  | 14 => "Lzma".toList
  | 93 => "Zstd".toList
  | 95 => "Xz".toList
  | 98 => "Ppmd".toList
  | n => "Unsupported(".toList ++ Text.ofNat n ++ [')']

end Entry

end Bitext.Archive
