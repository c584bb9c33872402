import Bitext.Bytes

/-!
# Compressed data

Unpacks data that is compressed by back references and prefix codes, and packs data in the plainest
way that the format allows, as stored blocks.  Packed data may be damaged or end too early.  What
stands in front of the damage is unpacked nevertheless, all of it: a decoder that unpacks into a
buffer may hand on less.

## Main definitions

* `BitStream`: bytes read bit by bit.
* `PrefixCode`: a code given by the lengths of its code words.
* `inflate`, `storedBlocks`: unpacking and packing.
-/
namespace Bitext.Archive

/-! ## Bits -/

/-- Bytes of which some bits have been taken, the least significant first. -/
structure BitStream where
  bytes : Bytes
  /-- How many bits of the first byte have been taken. -/
  taken : Nat

namespace BitStream

/-- The next bit. -/
def bit? (s : BitStream) : Option (Nat × BitStream) :=
  match s.bytes with
  | [] => none
  | b :: rest =>
    some (b.toNat >>> s.taken % 2, if s.taken = 7 then ⟨rest, 0⟩ else ⟨b :: rest, s.taken + 1⟩)

/-- A number of `n` bits, the least significant first. -/
def number? : (n : Nat) → BitStream → Option (Nat × BitStream)
  | 0, s => some (0, s)
  | n + 1, s => do
    let (low, s) ← s.bit?
    let (high, s) ← number? n s
    return (low + 2 * high, s)

/-- The bytes from the next full byte on. -/
def align (s : BitStream) : Bytes := if s.taken = 0 then s.bytes else s.bytes.drop 1

/-- A bound on the number of bits that are left. -/
def bound (s : BitStream) : Nat := 8 * s.bytes.length

end BitStream

/-! ## Prefix codes -/

/-- A canonical prefix code: how many code words there are of length one, two and so on, and their
symbols in order. -/
structure PrefixCode where
  counts : List Nat
  symbols : Array Nat

namespace PrefixCode

/-- The length of the longest code words. -/
def maxLength : Nat := 15

/-- The code in which symbol `i` has a word of the length given at place `i`; symbols of length zero
have none. -/
def ofLengths (lengths : List Nat) : PrefixCode :=
  let symbolsOf (n : Nat) : List Nat :=
    (lengths.zipIdx.filter (·.1 = n)).map (·.2)
  let all := (List.range maxLength).map fun n => symbolsOf (n + 1)
  ⟨all.map List.length, (all.flatten).toArray⟩

/-- Goes on reading a code word whose bits so far make the number `word`; `first` is the first word
of the length so far and `index` the place of its symbol. -/
def decodeFrom (symbols : Array Nat) (word first index : Nat) (s : BitStream) :
    List Nat → Option (Nat × BitStream)
  | [] => none
  | count :: counts => do
    let (bit, s) ← s.bit?
    let word := 2 * word + bit
    if word < first + count then
      let symbol ← symbols[index + (word - first)]?
      return (symbol, s)
    else decodeFrom symbols word (2 * (first + count)) (index + count) s counts

/-- Reads a code word and yields its symbol. -/
def decode? (code : PrefixCode) (s : BitStream) : Option (Nat × BitStream) :=
  decodeFrom code.symbols 0 0 0 s code.counts

end PrefixCode

/-! ## Blocks -/

/-- The least length that each length symbol stands for, and how many more bits follow it. -/
def lengthBases : Array (Nat × Nat) := #[
  (3, 0), (4, 0), (5, 0), (6, 0), (7, 0), (8, 0), (9, 0), (10, 0), (11, 1), (13, 1), (15, 1),
  (17, 1), (19, 2), (23, 2), (27, 2), (31, 2), (35, 3), (43, 3), (51, 3), (59, 3), (67, 4),
  (83, 4), (99, 4), (115, 4), (131, 5), (163, 5), (195, 5), (227, 5), (258, 0)]

/-- The least distance that each distance symbol stands for, and how many more bits follow it. -/
def distanceBases : Array (Nat × Nat) := #[
  (1, 0), (2, 0), (3, 0), (4, 0), (5, 1), (7, 1), (9, 2), (13, 2), (17, 3), (25, 3), (33, 4),
  (49, 4), (65, 5), (97, 5), (129, 6), (193, 6), (257, 7), (385, 7), (513, 8), (769, 8),
  (1025, 9), (1537, 9), (2049, 10), (3073, 10), (4097, 11), (6145, 11), (8193, 12), (12289, 12),
  (16385, 13), (24577, 13)]

/-- The number that a symbol and the bits after it stand for. -/
def based? (bases : Array (Nat × Nat)) (symbol : Nat) (s : BitStream) : Option (Nat × BitStream) := do
  let (base, extra) ← bases[symbol]?
  let (more, s) ← s.number? extra
  return (base + more, s)

/-- Unpacking goes on behind what has been unpacked so far, or stops with it at damage. -/
abbrev Unpacking := Except (Array UInt8)

/-- Goes on with what was found; where nothing can be read, the data are damaged. -/
def foundOrDamaged {α : Type} (out : Array UInt8) : Option α → Unpacking α
  | some found => .ok found
  | none => .error out

/-- Repeats `n` bytes from `distance` bytes back. -/
def copyBack (distance : Nat) : (n : Nat) → Array UInt8 → Array UInt8
  | 0, out => out
  | n + 1, out => copyBack distance n (out.push (out[out.size - distance]?.getD 0))

/-- Reads the symbols of a block up to its end, at most `fuel` of them. -/
def inflateSymbols (literals distances : PrefixCode) :
    (fuel : Nat) → Array UInt8 → BitStream → Unpacking (Array UInt8 × BitStream)
  | 0, out, _ => .error out
  | fuel + 1, out, s => do
    let (symbol, s) ← foundOrDamaged out (literals.decode? s)
    if symbol < 256 then inflateSymbols literals distances fuel (out.push (UInt8.ofNat symbol)) s
    else if symbol = 256 then return (out, s)
    else
      let (length, s) ← foundOrDamaged out (based? lengthBases (symbol - 257) s)
      let (symbol, s) ← foundOrDamaged out (distances.decode? s)
      let (distance, s) ← foundOrDamaged out (based? distanceBases symbol s)
      if out.size < distance then .error out
      else inflateSymbols literals distances fuel (copyBack distance length out) s

/-- The greatest length of a stored block. -/
def maxStored : Nat := 65535

/-- Reads a stored block.  Its length is written twice, the second time as what it lacks of the
greatest length. -/
def inflateStored (out : Array UInt8) (s : BitStream) : Unpacking (Array UInt8 × BitStream) := do
  let bytes := s.align
  let length ← foundOrDamaged out (bytes.field? 0 2)
  let lacking ← foundOrDamaged out (bytes.field? 2 2)
  let rest := bytes.drop 4
  if length + lacking ≠ maxStored then .error out
  else if rest.length < length then .error (out ++ rest.toArray)
  else return (out ++ (rest.take length).toArray, ⟨rest.drop length, 0⟩)

/-- The fixed code for literals and lengths. -/
def fixedLiterals : PrefixCode :=
  .ofLengths (List.replicate 144 8 ++ List.replicate 112 9 ++ List.replicate 24 7 ++
    List.replicate 8 8)

/-- The fixed code for distances. -/
def fixedDistances : PrefixCode := .ofLengths (List.replicate 30 5)

/-- The order in which the lengths of the code for lengths are written. -/
def lengthOrder : List Nat := [16, 17, 18, 0, 8, 7, 9, 6, 10, 5, 11, 4, 12, 3, 13, 2, 14, 1, 15]

/-- Reads `n` numbers of three bits. -/
def triples? : (n : Nat) → BitStream → Option (List Nat × BitStream)
  | 0, s => some ([], s)
  | n + 1, s => do
    let (first, s) ← s.number? 3
    let (rest, s) ← triples? n s
    return (first :: rest, s)

/-- Reads code lengths until there are `wanted` of them; `read` are the lengths so far, last
first. -/
def codeLengths? (code : PrefixCode) (wanted : Nat) :
    (fuel : Nat) → List Nat → BitStream → Option (List Nat × BitStream)
  | 0, _, _ => none
  | fuel + 1, read, s =>
    if wanted ≤ read.length then
      if wanted = read.length then some (read.reverse, s) else none
    else do
      let (symbol, s) ← code.decode? s
      if symbol < 16 then codeLengths? code wanted fuel (symbol :: read) s
      else if symbol = 16 then
        let last ← read.head?
        let (more, s) ← s.number? 2
        codeLengths? code wanted fuel (List.replicate (more + 3) last ++ read) s
      else
        let (more, s) ← s.number? (if symbol = 17 then 3 else 7)
        let n := more + if symbol = 17 then 3 else 11
        codeLengths? code wanted fuel (List.replicate n 0 ++ read) s

/-- Reads the two codes of a block that brings its own. -/
def ownCodes? (s : BitStream) : Option (PrefixCode × PrefixCode × BitStream) := do
  let (literals, s) ← s.number? 5
  let (distances, s) ← s.number? 5
  let (lengths, s) ← s.number? 4
  let (triples, s) ← triples? (lengths + 4) s
  let written := lengthOrder.zip triples
  let code := PrefixCode.ofLengths ((List.range 19).map fun i => (written.lookup i).getD 0)
  let (all, s) ← codeLengths? code (literals + 257 + distances + 1) 400 [] s
  return (.ofLengths (all.take (literals + 257)), .ofLengths (all.drop (literals + 257)), s)

/-- Reads blocks up to the last one, at most `fuel` of them. -/
def inflateBlocks : (fuel : Nat) → Array UInt8 → BitStream → Unpacking (Array UInt8)
  | 0, out, _ => .error out
  | fuel + 1, out, s => do
    let (isLast, s) ← foundOrDamaged out s.bit?
    let (kind, s) ← foundOrDamaged out (s.number? 2)
    let (out, s) ←
      if kind = 0 then inflateStored out s
      else if kind = 1 then inflateSymbols fixedLiterals fixedDistances (s.bound + 1) out s
      else if kind = 2 then do
        let (literals, distances, s) ← foundOrDamaged out (ownCodes? s)
        inflateSymbols literals distances (s.bound + 1) out s
      else .error out
    if isLast = 1 then return out else inflateBlocks fuel out s

/-- Unpacks compressed data.  Every symbol and every block takes at least one bit, so the number of
bits bounds them. -/
def inflate (b : Bytes) : Data :=
  match inflateBlocks (8 * b.length + 1) #[] ⟨b, 0⟩ with
  | .ok out => .whole out.toList
  | .error out => ⟨out.toList, true⟩

/-! ## Stored blocks -/

/-- A stored block. -/
def storedBlock (isLast : Bool) (b : Bytes) : Bytes :=
  (if isLast then 1 else 0) :: (Bytes.little 2 b.length ++ Bytes.little 2 (maxStored - b.length) ++ b)

/-- Packs data as stored blocks. -/
def storedBlocks (b : Bytes) : Bytes :=
  if _long : maxStored < b.length then
    storedBlock false (b.take maxStored) ++ storedBlocks (b.drop maxStored)
  else storedBlock true b
termination_by b.length
decreasing_by
  simp only [List.length_drop, maxStored] at *
  omega

end Bitext.Archive
