import Bitext.Xml.Event

/-!
# Attributes of a tag

Reads the attributes out of the content of a tag.  Faults are skipped: a key without an equals sign,
a value without quotes, a repeated key.  Behind a repeated key reading goes on at the first blank,
even inside its quotes; a missing value or an open quote ends the reading.
-/
namespace Bitext.Xml

open Bitext.Unicode (Glyph)

/-- A key with its value, entities unresolved. -/
structure Attribute where
  key : List Glyph
  value : List Glyph
  deriving DecidableEq, Repr

/-- What stands before the first symbol `c`, and what follows it. -/
def cutAt? (c : Char) : List Glyph → Option (List Glyph × List Glyph)
  | [] => none
  | g :: rest =>
    if g.is c then some ([], rest)
    else (cutAt? c rest).map fun (before, after) => (g :: before, after)

theorem length_cutAt? {c : Char} {input before after : List Glyph}
    (h : cutAt? c input = some (before, after)) : after.length < input.length := by
  induction input generalizing before with
  | nil => simp [cutAt?] at h
  | cons g rest ih =>
    simp only [cutAt?] at h
    split at h
    · simp only [Option.some.injEq, Prod.mk.injEq] at h
      simp [← h.2]
    · simp only [Option.map_eq_some_iff, Prod.mk.injEq, Prod.exists] at h
      obtain ⟨b, a, found, -, rfl⟩ := h
      have := ih found
      simp only [List.length_cons]
      omega

/-- From the first blank on. -/
def atSpace (input : List Glyph) : List Glyph := input.dropWhile (!isTagSpace ·)

/-- The quoted value that the input begins with, and what follows it. -/
def quoted? : List Glyph → Option (List Glyph × List Glyph)
  | [] => none
  | g :: rest =>
    if g.is '"' then cutAt? '"' rest else if g.is '\'' then cutAt? '\'' rest else none

/-- The input begins with a quotation mark. -/
def isQuoted : List Glyph → Bool
  | [] => false
  | g :: _ => g.is '"' || g.is '\''

/-- One step of reading attributes: the key that was accepted, the attribute if it was complete, and
the rest to read. -/
structure AttributeStep where
  key? : Option (List Glyph)
  attribute? : Option Attribute
  rest : List Glyph

/-- Reads the attribute that begins with `first`; `seen` are the keys accepted before. -/
def attributeStep (seen : List (List Glyph)) (first : Glyph) (input : List Glyph) :
    AttributeStep :=
  let isKeyEnd : Glyph → Bool := fun g => g.is '=' || isTagSpace g
  let key := first :: input.takeWhile (!isKeyEnd ·)
  let rest := (input.dropWhile (!isKeyEnd ·)).dropWhile isTagSpace
  match rest with
  | [] => ⟨none, none, []⟩
  | g :: value =>
    if g.is '=' then
      if seen.contains key then ⟨none, none, atSpace value⟩
      else
        let value := value.dropWhile isTagSpace
        if isQuoted value then
          match quoted? value with
          | some (inside, rest) => ⟨some key, some ⟨key, inside⟩, rest⟩
          | none => ⟨some key, none, []⟩
        else ⟨some key, none, atSpace value⟩
    else ⟨none, none, rest⟩

theorem length_quoted? {input inside rest : List Glyph}
    (h : quoted? input = some (inside, rest)) : rest.length < input.length := by
  unfold quoted? at h
  split at h
  · simp at h
  · split at h
    · have := length_cutAt? h
      simp only [List.length_cons]
      omega
    · split at h
      · have := length_cutAt? h
        simp only [List.length_cons]
        omega
      · simp at h

theorem length_attributeStep (seen : List (List Glyph)) (first : Glyph) (input : List Glyph) :
    (attributeStep seen first input).rest.length ≤ input.length := by
  have drops : ∀ (p q : Glyph → Bool),
      ((input.dropWhile p).dropWhile q).length ≤ input.length := fun p q =>
    Nat.le_trans (List.dropWhile_suffix q).length_le (List.dropWhile_suffix p).length_le
  unfold attributeStep
  simp only
  split
  · simp
  · rename_i g value rest
    have short := drops (fun g => !(g.is '=' || isTagSpace g)) isTagSpace
    rw [rest] at short
    simp only [List.length_cons] at short
    have shorter : ∀ p : Glyph → Bool, (value.dropWhile p).length ≤ value.length := fun p =>
      (List.dropWhile_suffix p).length_le
    split
    · split
      · have := shorter (!isTagSpace ·)
        simp only [atSpace]
        omega
      · split
        · split
          · rename_i found
            have := length_quoted? found
            have := shorter isTagSpace
            simp only
            omega
          · simp
        · have := shorter isTagSpace
          have : ((value.dropWhile isTagSpace).dropWhile (!isTagSpace ·)).length ≤
              (value.dropWhile isTagSpace).length := (List.dropWhile_suffix _).length_le
          simp only [atSpace]
          omega
    · rw [rest]
      simp only [List.length_cons]
      omega

/-- The attributes of a content from a place behind the name; `seen` are the keys accepted
before. -/
def attributesFrom (seen : List (List Glyph)) (input : List Glyph) : List Attribute :=
  match _found : input.dropWhile isTagSpace with
  | [] => []
  | first :: more =>
    let step := attributeStep seen first more
    step.attribute?.toList ++ attributesFrom (step.key?.toList ++ seen) step.rest
termination_by input.length
decreasing_by
  have step := length_attributeStep seen first more
  have suffix := (List.dropWhile_suffix isTagSpace (l := input)).length_le
  rw [_found] at suffix
  simp only [List.length_cons] at suffix
  omega

/-- The attributes of the content of a tag. -/
def attributes (content : List Glyph) : List Attribute :=
  attributesFrom [] (content.drop (contentName content).length)

/-- The value of the first attribute with the given key, entities resolved.  A value that is not
well formed counts as absent. -/
def attribute? (key : Text) (content : List Glyph) : Option Text :=
  ((attributes content).find? (·.key == Glyph.ofText key)).bind fun a =>
    (Glyph.wellFormed? a.value).bind unescape?

end Bitext.Xml
