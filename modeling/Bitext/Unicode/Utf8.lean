import Bitext.Text.Basic

/-!
# Reading bytes as characters

Decodes UTF-8.  Bytes that encode no character do not stop the reading: each maximal sequence that
begins an encoding and cannot be continued counts as one malformed symbol, which is shown as the
replacement character.  No malformed sequence ever swallows an ASCII byte, so cutting at ASCII
characters may be done after decoding.
-/
namespace Bitext.Unicode

/-- A decoded symbol: a character, or a sequence of bytes that encodes none. -/
inductive Glyph where
  | char (c : Char)
  | malformed
  deriving DecidableEq, Repr

namespace Glyph

/-- The character to show. -/
def toChar : Glyph → Char
  | char c => c
  | malformed => '\uFFFD'

/-- The symbol is the given character. -/
def is (c : Char) (g : Glyph) : Bool := g == char c

/-- The text to show for a sequence of symbols. -/
def shown (gs : List Glyph) : Text := gs.map toChar

/-- The text of a sequence of symbols, if all of them are well formed. -/
def wellFormed? : List Glyph → Option Text
  | [] => some []
  | char c :: rest => (wellFormed? rest).map (c :: ·)
  | malformed :: _ => none

/-- The symbols of a text. -/
def ofText (t : Text) : List Glyph := t.map char

@[simp] theorem shown_ofText (t : Text) : shown (ofText t) = t := by
  simp [shown, ofText, Function.comp_def, toChar]

@[simp] theorem wellFormed?_ofText (t : Text) : wellFormed? (ofText t) = some t := by
  induction t with
  | nil => rfl
  | cons c rest ih =>
    simp only [ofText, List.map_cons, wellFormed?] at ih ⊢
    simp [ih]

end Glyph

namespace Utf8

/-- Where decoding stands between two bytes. -/
inductive State where
  /-- Between characters. -/
  | start
  /-- Inside a character: how many more bytes it takes, the least and the greatest value of the
  next one, and the bits collected. -/
  | inside (missing low high bits : Nat)

/-- What a first byte yields: a symbol of its own, and the state after it. -/
def first (b : Nat) : Option Glyph × State :=
  if b < 0x80 then (some (.char (Char.ofNat b)), .start)
  else if 0xC2 ≤ b && b ≤ 0xDF then (none, .inside 1 0x80 0xBF (b - 0xC0))
  else if b == 0xE0 then (none, .inside 2 0xA0 0xBF 0)
  else if b == 0xED then (none, .inside 2 0x80 0x9F 0xD)
  else if 0xE1 ≤ b && b ≤ 0xEF then (none, .inside 2 0x80 0xBF (b - 0xE0))
  else if b == 0xF0 then (none, .inside 3 0x90 0xBF 0)
  else if 0xF1 ≤ b && b ≤ 0xF3 then (none, .inside 3 0x80 0xBF (b - 0xF0))
  else if b == 0xF4 then (none, .inside 3 0x80 0x8F 4)
  else (some .malformed, .start)

/-- Decodes the rest of the input from a state. -/
def decodeFrom : State → List UInt8 → List Glyph
  | .start, [] => []
  | .inside .., [] => [.malformed]
  | .start, b :: rest =>
    let (symbol, state) := first b.toNat
    symbol.toList ++ decodeFrom state rest
  | .inside missing low high bits, b :: rest =>
    let n := b.toNat
    if low ≤ n && n ≤ high then
      let bits := bits * 64 + (n - 0x80)
      if missing ≤ 1 then .char (Char.ofNat bits) :: decodeFrom .start rest
      else decodeFrom (.inside (missing - 1) 0x80 0xBF bits) rest
    else
      let (symbol, state) := first n
      .malformed :: (symbol.toList ++ decodeFrom state rest)

/-- The symbols that a sequence of bytes encodes. -/
def decode (bytes : List UInt8) : List Glyph := decodeFrom .start bytes

/-- The bytes that encode a text. -/
def encode (t : Text) : List UInt8 := t.flatMap String.utf8EncodeChar

/-- The number of bytes that encode a text. -/
def size (t : Text) : Nat := t.foldr (fun c n => c.utf8Size + n) 0

end Utf8

end Bitext.Unicode
