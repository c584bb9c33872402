import Bitext.Proofs.Unicode.Utf8

/-!
# Places in the bytes of a text

A place in a text that is counted in bytes may lie behind its end or inside a character.  Cutting at
such a place fails.  Between characters it does not, and a search among the bytes of a text for the
bytes of another one finds no other places: the first byte of a character never stands inside one.

## Main definitions

* `Utf8.drop?`, `Utf8.take?`, `Utf8.slice?`: parts of a text, by bytes.
* `Utf8.indexOf?`: where some bytes occur among others.

## Main results

* `Utf8.slice?_eq`: cutting between characters
* `Utf8.indexOf?_encode`: searching bytes is searching characters
-/

namespace Bitext

namespace Text

variable {p t : Text} {i : Nat}

/-- Where a text was found, it stands. -/
theorem exists_append_of_indexOf? (h : indexOf? p t = some i) :
    ∃ a b, t = a ++ (p ++ b) ∧ a.length = i := by
  induction t generalizing i with
  | nil =>
    rw [indexOf?] at h
    split at h
    · rename_i hp
      cases h
      exact ⟨[], [], by simp [List.isEmpty_iff.mp hp], rfl⟩
    · cases h
  | cons c r ih =>
    rw [indexOf?] at h
    split at h
    · rename_i hp
      cases h
      obtain ⟨b, hb⟩ := List.isPrefixOf_iff_prefix.mp hp
      exact ⟨[], b, hb.symm, rfl⟩
    · obtain ⟨j, hj, rfl⟩ := Option.map_eq_some_iff.mp h
      obtain ⟨a, b, rfl, rfl⟩ := ih hj
      exact ⟨c :: a, b, rfl, rfl⟩

end Text

namespace Unicode.Utf8

variable {a t p : Text} {i j n : Nat}

/-! ## Sizes -/

@[simp] theorem size_nil : size [] = 0 := rfl

@[simp] theorem size_cons (c : Char) (t : Text) : size (c :: t) = c.utf8Size + size t := rfl

@[simp] theorem size_append (a t : Text) : size (a ++ t) = size a + size t := by
  induction a with
  | nil => rw [List.nil_append, size_nil, Nat.zero_add]
  | cons c a ih => rw [List.cons_append, size_cons, size_cons, ih, Nat.add_assoc]

@[simp] theorem encode_nil : encode [] = [] := rfl

@[simp] theorem encode_cons (c : Char) (t : Text) :
    encode (c :: t) = String.utf8EncodeChar c ++ encode t :=
  List.flatMap_cons

/-- The byte at which the character number `i` begins. -/
def byteOf (t : Text) (i : Nat) : Nat := size (t.take i)

@[simp] theorem byteOf_zero (t : Text) : byteOf t 0 = 0 := by
  rw [byteOf, List.take_zero, size_nil]

@[simp] theorem byteOf_append (a t : Text) (i : Nat) :
    byteOf (a ++ t) (a.length + i) = size a + byteOf t i := by
  rw [byteOf, List.take_length_add_append, size_append, byteOf]

theorem byteOf_length_append (a t : Text) : byteOf (a ++ t) a.length = size a := by
  rw [byteOf, List.take_left]

/-- Later characters begin at later bytes. -/
theorem byteOf_lt_byteOf (hij : i < j) (hj : j ≤ t.length) : byteOf t i < byteOf t j := by
  -- Every character has at least one byte.
  induction t generalizing i j with
  | nil => exact absurd (Nat.lt_of_lt_of_le hij hj) (Nat.not_lt_zero i)
  | cons c t ih =>
    obtain ⟨j, rfl⟩ := Nat.exists_eq_succ_of_ne_zero (Nat.ne_zero_of_lt hij)
    have hpositive := c.utf8Size_pos
    cases i with
    | zero =>
      rw [byteOf_zero, byteOf, List.take_succ_cons, size_cons]
      omega
    | succ i =>
      have hlt := ih (Nat.lt_of_succ_lt_succ hij) (Nat.le_of_succ_le_succ hj)
      rw [byteOf, byteOf] at hlt ⊢
      rw [List.take_succ_cons, List.take_succ_cons, size_cons, size_cons]
      omega

theorem byteOf_le_byteOf_iff (hi : i ≤ t.length) (hj : j ≤ t.length) :
    byteOf t i ≤ byteOf t j ↔ i ≤ j := by
  constructor
  · intro h
    by_contra hji
    exact absurd (byteOf_lt_byteOf (Nat.lt_of_not_le hji) hi) (Nat.not_lt_of_le h)
  · intro h
    rcases Nat.lt_or_eq_of_le h with hlt | rfl
    · exact Nat.le_of_lt (byteOf_lt_byteOf hlt hj)
    · exact Nat.le_refl _

/-! ## Cutting -/

/-- The part of a text from a byte on; nothing if that is behind the end or inside a character. -/
def drop? : Nat → Text → Option Text
  | 0, t => some t
  | _ + 1, [] => none
  | n + 1, c :: t => if c.utf8Size ≤ n + 1 then drop? (n + 1 - c.utf8Size) t else none

/-- The part of a text up to a byte; nothing if that is behind the end or inside a character. -/
def take? : Nat → Text → Option Text
  | 0, _ => some []
  | _ + 1, [] => none
  | n + 1, c :: t =>
    if c.utf8Size ≤ n + 1 then (take? (n + 1 - c.utf8Size) t).map (c :: ·) else none

/-- The part of a text between two bytes; nothing if the second one is in front of the first. -/
def slice? (i j : Nat) (t : Text) : Option Text :=
  if i ≤ j then (drop? i t).bind (take? (j - i)) else none

theorem drop?_size_append (a t : Text) : drop? (size a) (a ++ t) = some t := by
  induction a with
  | nil => rw [size_nil, List.nil_append, drop?]
  | cons c a ih =>
    have hpositive := c.utf8Size_pos
    obtain ⟨n, hn⟩ := Nat.exists_eq_succ_of_ne_zero (n := c.utf8Size + size a) (by omega)
    rw [size_cons, List.cons_append, hn, drop?, if_pos (by omega)]
    rwa [show n + 1 - c.utf8Size = size a by omega]

theorem take?_size_append (a t : Text) : take? (size a) (a ++ t) = some a := by
  induction a with
  | nil => rw [size_nil, List.nil_append, take?]
  | cons c a ih =>
    have hpositive := c.utf8Size_pos
    obtain ⟨n, hn⟩ := Nat.exists_eq_succ_of_ne_zero (n := c.utf8Size + size a) (by omega)
    rw [size_cons, List.cons_append, hn, take?, if_pos (by omega),
      show n + 1 - c.utf8Size = size a by omega, ih]
    rfl

theorem drop?_byteOf (t : Text) (i : Nat) : drop? (byteOf t i) t = some (t.drop i) := by
  have hdrop := drop?_size_append (t.take i) (t.drop i)
  rwa [List.take_append_drop] at hdrop

/-- **Cutting between characters** gives the characters between the two places. -/
theorem slice?_eq (hij : i ≤ j) (hj : j ≤ t.length) :
    slice? (byteOf t i) (byteOf t j) t = some ((t.drop i).take (j - i)) := by
  have hle := (byteOf_le_byteOf_iff (Nat.le_trans hij hj) hj).mpr hij
  have hparts := take?_size_append ((t.drop i).take (j - i)) ((t.drop i).drop (j - i))
  rw [List.take_append_drop] at hparts
  -- The bytes up to the second place are those up to the first one and those between.
  have hsize : byteOf t j - byteOf t i = size ((t.drop i).take (j - i)) := by
    have hsum := byteOf_append (t.take i) (t.drop i) (j - i)
    rw [List.take_append_drop, List.length_take_of_le (Nat.le_trans hij hj),
      Nat.add_sub_cancel' hij] at hsum
    rw [hsum, byteOf, byteOf, Nat.add_sub_cancel_left]
  rw [slice?, if_pos hle, drop?_byteOf, Option.bind_some, hsize, hparts]

/-! ## Searching -/

/-- The number of bytes before the first occurrence of `pattern` among others. -/
def indexOf? (pattern : List UInt8) : List UInt8 → Option Nat
  | [] => if pattern.isEmpty then some 0 else none
  | b :: rest =>
    if pattern.isPrefixOf (b :: rest) then some 0 else (indexOf? pattern rest).map (· + 1)

/-- The bytes of a text begin with those of another one only if the text begins with it. -/
theorem encode_prefix_iff : encode p <+: encode t ↔ p <+: t := by
  constructor
  · intro h
    induction p generalizing t with
    | nil => exact List.nil_prefix
    | cons c p ih =>
      obtain ⟨rest, hrest⟩ := h
      cases t with
      | nil =>
        rw [encode_cons, List.append_assoc] at hrest
        exact absurd (List.append_eq_nil_iff.mp hrest).1 String.utf8EncodeChar_ne_nil
      | cons d t =>
        rw [encode_cons, encode_cons, List.append_assoc] at hrest
        -- Decoding yields the two first characters.
        have hdecode := congrArg (decodeFrom .start) hrest
        rw [decode_encodeChar, decode_encodeChar] at hdecode
        cases (List.cons.inj hdecode).1
        rw [List.append_cancel_left_eq] at hrest
        exact (List.prefix_cons_inj c).mpr (ih ⟨rest, hrest⟩)
  · rintro ⟨rest, rfl⟩
    exact ⟨encode rest, (List.flatMap_append ..).symm⟩

theorem isPrefixOf_encode (p t : Text) :
    (encode p).isPrefixOf (encode t) = p.isPrefixOf t := by
  rw [Bool.eq_iff_iff, List.isPrefixOf_iff_prefix, List.isPrefixOf_iff_prefix, encode_prefix_iff]

/-- Among bytes that begin no character, none are found that begin with a character. -/
theorem indexOf?_append_inner {b : UInt8} {pattern inner : List UInt8} (hb : b.IsUTF8FirstByte)
    (hinner : ∀ x ∈ inner, ¬ x.IsUTF8FirstByte) (rest : List UInt8) :
    indexOf? (b :: pattern) (inner ++ rest) =
      (indexOf? (b :: pattern) rest).map (· + inner.length) := by
  induction inner with
  | nil => simp
  | cons x inner ih =>
    -- One of the two begins a character and the other one does not.
    have hx : b ≠ x := by
      rintro rfl
      exact hinner b List.mem_cons_self hb
    rw [List.cons_append, indexOf?, List.isPrefixOf_cons_cons, beq_eq_false_iff_ne.mpr hx,
      Bool.false_and, if_neg (by decide), ih fun y hy => hinner y (List.mem_cons_of_mem x hy),
      Option.map_map]
    rfl

/-- The encoding of a character: a byte that may begin one, and bytes that may not. -/
theorem exists_encodeChar (c : Char) : ∃ b inner, String.utf8EncodeChar c = b :: inner ∧
    b.IsUTF8FirstByte ∧ (∀ x ∈ inner, ¬ x.IsUTF8FirstByte) ∧ inner.length + 1 = c.utf8Size := by
  have hne : String.utf8EncodeChar c ≠ [] := String.utf8EncodeChar_ne_nil
  obtain ⟨b, inner, hbytes⟩ := List.exists_cons_of_ne_nil hne
  have hfirst (i : Nat) (h : i < (b :: inner).length) :
      ((b :: inner)[i]).IsUTF8FirstByte ↔ i = 0 := by
    have hbyte := @UInt8.isUTF8FirstByte_getElem_utf8EncodeChar c i (hbytes ▸ h)
    simpa only [hbytes] using hbyte
  refine ⟨b, inner, hbytes, (hfirst 0 (Nat.zero_lt_succ _)).mpr rfl, ?_, ?_⟩
  · intro x hx hbegins
    obtain ⟨i, hi, rfl⟩ := List.mem_iff_getElem.mp hx
    exact absurd ((hfirst (i + 1) (Nat.succ_lt_succ hi)).mp hbegins) (Nat.succ_ne_zero i)
  · rw [← String.length_utf8EncodeChar, hbytes, List.length_cons]

/-- **Searching bytes is searching characters**: the bytes of a text are found where the text is. -/
theorem indexOf?_encode (p t : Text) :
    indexOf? (encode p) (encode t) = (Text.indexOf? p t).map (byteOf t) := by
  induction t with
  | nil =>
    cases p with
    | nil => rfl
    | cons c p =>
      obtain ⟨b, inner, hbytes, -⟩ := exists_encodeChar c
      rw [encode_cons, hbytes]
      rfl
  | cons c t ih =>
    have hbelow := isPrefixOf_encode p (c :: t)
    obtain ⟨b, inner, hbytes, -, hinner, hlength⟩ := exists_encodeChar c
    rw [encode_cons, hbytes, List.cons_append] at hbelow ⊢
    rw [indexOf?, Text.indexOf?, hbelow]
    split
    · rw [Option.map_some, byteOf_zero]
    · rename_i hnone
      cases p with
      | nil => exact absurd rfl hnone
      | cons d p =>
        -- What is looked for begins a character, so it is not found inside this one.
        obtain ⟨b', inner', hbytes', hfirst, -⟩ := exists_encodeChar d
        rw [encode_cons, hbytes', List.cons_append] at ih ⊢
        rw [indexOf?_append_inner hfirst hinner, ih, Option.map_map, Option.map_map,
          Option.map_map]
        congr 1
        funext i
        simp only [Function.comp_apply, byteOf, List.take_succ_cons, size_cons]
        omega

end Unicode.Utf8

end Bitext
