import Bitext.Unicode.Utf8
import Mathlib.Tactic.Common

/-!
# Decoding what was encoded

The bytes of a text decode to its characters, each of them well formed.  The decoder is a machine
that reads one byte after another; each of the four lengths of an encoding is followed through it,
with the bounds that the first byte sets for the second.

## Main results

* `decode_encode`: the round trip
* `exists_decode_append`: decoding a beginning of the bytes
* `zero_notMem_encode`: a text without zero characters is encoded without zero bytes
-/

namespace Bitext.Unicode

namespace Glyph

variable {c : Char} {t u : Text}

@[simp] theorem ofText_nil : ofText [] = [] := rfl

@[simp] theorem ofText_cons (c : Char) (t : Text) : ofText (c :: t) = .char c :: ofText t := rfl

@[simp] theorem ofText_append (t u : Text) : ofText (t ++ u) = ofText t ++ ofText u :=
  List.map_append

@[simp] theorem is_char (c d : Char) : is c (.char d) = (d == c) := by
  simp [is, BEq.beq]

theorem ofText_injective (h : ofText t = ofText u) : t = u := by
  rw [← shown_ofText t, h, shown_ofText]

@[simp] theorem ofText_inj : ofText t = ofText u ↔ t = u :=
  ⟨ofText_injective, congrArg ofText⟩

end Glyph

namespace Utf8

/-! ## One byte of an encoding -/

theorem toNat_byte {n : Nat} (hn : n < 256) : (UInt8.ofNat n).toNat = n :=
  UInt8.toNat_ofNat_of_lt' hn

/-- A byte inside a character that is not its last one. -/
theorem decodeFrom_inside {missing low high bits n : Nat} (hn : n < 256) (hlow : low ≤ n)
    (hhigh : n ≤ high) (hmissing : 1 < missing) (rest : List UInt8) :
    decodeFrom (.inside missing low high bits) (UInt8.ofNat n :: rest) =
      decodeFrom (.inside (missing - 1) 0x80 0xBF (bits * 64 + (n - 0x80))) rest := by
  simp only [decodeFrom, toNat_byte hn, hlow, hhigh, decide_true, Bool.and_self, if_true,
    Nat.not_le_of_lt hmissing, if_false]

/-- The last byte of a character. -/
theorem decodeFrom_last {low high bits n : Nat} (hn : n < 256) (hlow : low ≤ n)
    (hhigh : n ≤ high) (rest : List UInt8) :
    decodeFrom (.inside 1 low high bits) (UInt8.ofNat n :: rest) =
      .char (Char.ofNat (bits * 64 + (n - 0x80))) :: decodeFrom .start rest := by
  simp only [decodeFrom, toNat_byte hn, hlow, hhigh, decide_true, Bool.and_self, if_true,
    Nat.le_refl]

/-- A first byte that does not stand for a character of its own. -/
theorem decodeFrom_start {n : Nat} {state : State} (hn : n < 256) (h : first n = (none, state))
    (rest : List UInt8) :
    decodeFrom .start (UInt8.ofNat n :: rest) = decodeFrom state rest := by
  simp only [decodeFrom, toNat_byte hn, h, Option.toList_none, List.nil_append]

/-! ## One character -/

theorem first_of_two {n : Nat} (hlow : 0xC2 ≤ n) (hhigh : n ≤ 0xDF) :
    first n = (none, .inside 1 0x80 0xBF (n - 0xC0)) := by
  have hbig : ¬ n < 0x80 := by omega
  simp [first, hbig, hlow, hhigh]

/-- The first byte of three bounds the second one, so that no value is encoded too long and no
surrogate is encoded. -/
theorem first_of_three {n : Nat} (hlow : 0xE0 ≤ n) (hhigh : n ≤ 0xEF) :
    first n = (none, .inside 2 (if n = 0xE0 then 0xA0 else 0x80) (if n = 0xED then 0x9F else 0xBF)
      (n - 0xE0)) := by
  have hbig : ¬ n < 0x80 := by omega
  have htwo : ¬ n ≤ 0xDF := by omega
  rcases Nat.lt_or_eq_of_le hlow with hlow | rfl
  · have h0 : n ≠ 0xE0 := by omega
    have h1 : 0xE1 ≤ n := by omega
    by_cases hd : n = 0xED
    · simp [first, hd]
    · simp [first, hbig, htwo, h0, h1, hd, hhigh]
  · rfl

/-- The first byte of four bounds the second one, so that no value is encoded too long and none is
beyond the last character. -/
theorem first_of_four {n : Nat} (hlow : 0xF0 ≤ n) (hhigh : n ≤ 0xF4) :
    first n = (none, .inside 3 (if n = 0xF0 then 0x90 else 0x80) (if n = 0xF4 then 0x8F else 0xBF)
      (n - 0xF0)) := by
  obtain rfl | rfl | rfl | rfl | rfl : n = 0xF0 ∨ n = 0xF1 ∨ n = 0xF2 ∨ n = 0xF3 ∨ n = 0xF4 := by
    omega
  all_goals rfl

theorem decode_encodeChar (c : Char) (rest : List UInt8) :
    decodeFrom .start (String.utf8EncodeChar c ++ rest) = .char c :: decodeFrom .start rest := by
  have hvalid : c.val.toNat < 0xD800 ∨ 0xDFFF < c.val.toNat ∧ c.val.toNat < 0x110000 := c.valid
  have hback : Char.ofNat c.val.toNat = c := Char.ofNat_toNat c
  unfold String.utf8EncodeChar
  generalize hv : c.val.toNat = v at hvalid hback ⊢
  simp only
  -- One case for each length of an encoding.
  split
  · have hsmall : v < 0x80 := by omega
    have hbyte : (UInt8.ofNat v).toNat = v := toNat_byte (by omega)
    simp only [List.cons_append, List.nil_append, decodeFrom, hbyte, first, hsmall, if_true, hback,
      Option.toList_some]
  · split
    · rw [List.cons_append, List.cons_append, List.nil_append,
        decodeFrom_start (by omega) (first_of_two (by omega) (by omega)),
        decodeFrom_last (by omega) (by omega) (by omega)]
      -- The bits of the two bytes, put together, are those of the character.
      have hbits : (v / 64 % 0x20 + 0xc0 - 0xC0) * 64 + (v % 0x40 + 0x80 - 0x80) = v := by omega
      rw [hbits, hback]
    · split
      · simp only [List.cons_append, List.nil_append]
        rw [decodeFrom_start (by omega) (first_of_three (by omega) (by omega)),
          decodeFrom_inside (by omega) (by split <;> omega) (by split <;> omega) (by decide),
          decodeFrom_last (by omega) (by omega) (by omega)]
        have hbits : ((v / 4096 % 0x10 + 0xe0 - 0xE0) * 64 + (v / 64 % 0x40 + 0x80 - 0x80)) * 64 +
            (v % 0x40 + 0x80 - 0x80) = v := by omega
        rw [hbits, hback]
      · simp only [List.cons_append, List.nil_append]
        rw [decodeFrom_start (by omega) (first_of_four (by omega) (by omega)),
          decodeFrom_inside (by omega) (by split <;> omega) (by split <;> omega) (by decide),
          decodeFrom_inside (by omega) (by omega) (by omega) (by decide),
          decodeFrom_last (by omega) (by omega) (by omega)]
        have hbits : (((v / 262144 % 0x08 + 0xf0 - 0xF0) * 64 + (v / 4096 % 0x40 + 0x80 - 0x80)) *
            64 + (v / 64 % 0x40 + 0x80 - 0x80)) * 64 + (v % 0x40 + 0x80 - 0x80) = v := by omega
        rw [hbits, hback]

/-! ## Texts -/

/-- **Decoding takes back encoding.** -/
theorem decode_encode (t : Text) : decode (encode t) = Glyph.ofText t := by
  induction t with
  | nil => rfl
  | cons c rest ih =>
    rw [encode, List.flatMap_cons, decode, decode_encodeChar]
    exact congrArg (Glyph.char c :: ·) ih

theorem encode_injective {t u : Text} (h : encode t = encode u) : t = u := by
  apply Glyph.ofText_injective
  rw [← decode_encode t, h, decode_encode]

/-! ## A beginning of the bytes -/

theorem exists_decodeFrom_append (state : State) (x y : List UInt8) :
    ∃ symbols cut rest, decodeFrom state x = symbols ++ cut ∧
      decodeFrom state (x ++ y) = symbols ++ rest ∧ ∀ g ∈ cut, g = .malformed := by
  induction x generalizing state with
  | nil =>
    cases state with
    | start => exact ⟨[], [], _, rfl, rfl, nofun⟩
    | inside missing low high bits =>
      exact ⟨[], [.malformed], _, rfl, rfl, fun g hg => List.mem_singleton.mp hg⟩
  | cons b x ih =>
    have hbehind (first : List Glyph) (state : State) :
        ∃ symbols cut rest, first ++ decodeFrom state x = symbols ++ cut ∧
          first ++ decodeFrom state (x ++ y) = symbols ++ rest ∧ ∀ g ∈ cut, g = .malformed := by
      obtain ⟨symbols, cut, rest, hx, hwhole, hcut⟩ := ih state
      exact ⟨first ++ symbols, cut, rest, by rw [hx, List.append_assoc],
        by rw [hwhole, List.append_assoc], hcut⟩
    cases state with
    | start => exact hbehind (first b.toNat).1.toList (first b.toNat).2
    | inside missing low high bits =>
      simp only [List.cons_append, decodeFrom]
      split
      · split
        · exact hbehind [_] _
        · exact hbehind [] _
      · exact hbehind (.malformed :: (first b.toNat).1.toList) (first b.toNat).2

/-- **A beginning of the bytes** decodes to a beginning of the symbols; only a character that is cut
off at its end is malformed. -/
theorem exists_decode_append (x y : List UInt8) :
    ∃ symbols cut rest, decode x = symbols ++ cut ∧ decode (x ++ y) = symbols ++ rest ∧
      ∀ g ∈ cut, g = .malformed :=
  exists_decodeFrom_append .start x y

/-! ## Zero bytes -/

/-- Every byte of the encoding of another character is positive: the first one is that character or
has a marker added to it, and so have those behind it. -/
theorem zero_notMem_encodeChar {c : Char} (hc : c ≠ '\x00') : 0 ∉ String.utf8EncodeChar c := by
  have hpositive : c.val.toNat ≠ 0 := fun hzero => hc (Char.toNat_inj.mp hzero)
  have hbyte : ∀ n < 256, n ≠ 0 → (0 : UInt8) ≠ UInt8.ofNat n := by
    intro n hn hne heq
    have hzero : (UInt8.ofNat n).toNat = 0 := congrArg UInt8.toNat heq.symm
    exact hne (toNat_byte hn ▸ hzero)
  unfold String.utf8EncodeChar
  generalize c.val.toNat = v at hpositive
  simp only
  -- One case for each length of an encoding.
  split
  · exact List.mem_singleton.not.mpr (hbyte _ (by omega) hpositive)
  · split
    · simp only [List.mem_cons, List.not_mem_nil, or_false, not_or]
      exact ⟨hbyte _ (by omega) (by omega), hbyte _ (by omega) (by omega)⟩
    · split
      · simp only [List.mem_cons, List.not_mem_nil, or_false, not_or]
        exact ⟨hbyte _ (by omega) (by omega), hbyte _ (by omega) (by omega),
          hbyte _ (by omega) (by omega)⟩
      · simp only [List.mem_cons, List.not_mem_nil, or_false, not_or]
        exact ⟨hbyte _ (by omega) (by omega), hbyte _ (by omega) (by omega),
          hbyte _ (by omega) (by omega), hbyte _ (by omega) (by omega)⟩

/-- A zero byte in the encoding of a text comes from a zero character. -/
theorem zero_notMem_encode {t : Text} (ht : '\x00' ∉ t) : 0 ∉ encode t := by
  rw [encode, List.mem_flatMap]
  rintro ⟨c, hc, hzero⟩
  exact zero_notMem_encodeChar (fun heq => ht (heq ▸ hc)) hzero

end Utf8

end Bitext.Unicode
