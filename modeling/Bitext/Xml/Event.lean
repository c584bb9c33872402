import Bitext.Unicode.Utf8
import Bitext.Xml.Entity

/-!
# Events of a markup stream

Cuts an input into tags and the text between them.  The cut is forgiving: end tags are not compared
with start tags, text is not checked, and quotes hide brackets anywhere in a tag.  A construct that
is not closed, or that starts with an exclamation or question mark and is none of the known ones, is
a syntax error, and nothing is read after it.  A document type without a name is an ill-formed item,
and reading goes on behind it.

## Main definitions

* `Event`: tags, text, character data and everything that carries no content.
* `Item`: an event or one of the two faults.
* `items`, `interrupted`: the items of an input, and what is left of them if reading it fails.
-/
namespace Bitext.Xml

open Bitext.Unicode (Glyph)

/-- A part of a markup stream.  A tag is given by what stands between its brackets, without the
slash that closes it. -/
inductive Event where
  /-- `<content>` -/
  | start (content : List Glyph)
  /-- `<content/>` -/
  | empty (content : List Glyph)
  /-- `</name>` -/
  | stop (name : List Glyph)
  /-- Text between markup, entities unresolved. -/
  | text (raw : List Glyph)
  /-- Character data that is not markup. -/
  | data (raw : List Glyph)
  /-- Comments, processing instructions, declarations and document types. -/
  | other
  deriving DecidableEq, Repr

/-- What reading on yields. -/
inductive Item where
  | event (e : Event)
  /-- A fault that reading goes on after. -/
  | illFormed
  /-- A fault that ends the input. -/
  | syntaxError
  deriving DecidableEq, Repr

/-- Blanks inside tags: space, tab, line feed, carriage return. -/
def isTagSpace (g : Glyph) : Bool := g.is ' ' || g.is '\t' || g.is '\n' || g.is '\r'

/-- The name that the content of a tag begins with; it may be empty. -/
def contentName (content : List Glyph) : List Glyph := content.takeWhile (!isTagSpace ·)

/-- The name of an end tag: its content without blanks at the end.  Content of blanks only is a
name itself. -/
def stopName (content : List Glyph) : List Glyph :=
  let kept := (content.reverse.dropWhile isTagSpace).reverse
  if kept.isEmpty then content else kept

/-! ## Ends of constructs

Each of these functions reads up to a closing bracket and yields what stands before it and what
follows it. -/

/-- Up to the first `>` outside quotes; `quote` is the quotation mark that is open. -/
def tagEnd? (quote : Option Char) : List Glyph → Option (List Glyph × List Glyph)
  | [] => none
  | g :: rest =>
    match quote with
    | some q =>
      (tagEnd? (if g.is q then none else quote) rest).map fun (content, after) =>
        (g :: content, after)
    | none =>
      if g.is '>' then some ([], rest)
      else
        let quote := if g.is '\'' then some '\'' else if g.is '"' then some '"' else none
        (tagEnd? quote rest).map fun (content, after) => (g :: content, after)

/-- Up to the first `>` that has at least `least` symbols before it, the last of them being
`closing`; `seen` are the symbols before, last first. -/
def markedEnd? (closing : List Glyph) (least : Nat) (seen : List Glyph) :
    List Glyph → Option (List Glyph × List Glyph)
  | [] => none
  | g :: rest =>
    if g.is '>' && least ≤ seen.length && closing.isPrefixOf seen then some (seen.reverse, rest)
    else markedEnd? closing least (g :: seen) rest

/-- Up to the `>` that balances the inner brackets; `depth` of them are open. -/
def balancedEnd? (depth : Nat) : List Glyph → Option (List Glyph × List Glyph)
  | [] => none
  | g :: rest =>
    if g.is '>' && depth == 0 then some ([], rest)
    else
      let depth := if g.is '<' then depth + 1 else if g.is '>' then depth - 1 else depth
      (balancedEnd? depth rest).map fun (content, after) => (g :: content, after)

/-! ## Constructs -/

/-- The symbols of an ASCII word. -/
def word (s : String) : List Glyph := Glyph.ofText s.toList

/-- The lower-case form of an ASCII letter. -/
def lowerGlyph : Glyph → Glyph
  | .char c => .char c.toLower
  | .malformed => .malformed

/-- Reads a construct that begins with an exclamation mark, which is the first symbol given. -/
def declaration? (input : List Glyph) : Option (Item × List Glyph) :=
  match input.drop 1 with
  | [] => none
  | g :: _ =>
    if g.is '[' then
      (markedEnd? (word "]]") 0 [] input).bind fun (content, rest) =>
        if (word "![CDATA[").isPrefixOf content then
          some (.event (.data ((content.drop 8).dropLast.dropLast)), rest)
        else none
    else if g.is '-' then
      (markedEnd? (word "--") 5 [] input).bind fun (content, rest) =>
        if (word "!--").isPrefixOf content then some (.event .other, rest) else none
    else if g.is 'D' || g.is 'd' then
      (balancedEnd? 0 input).bind fun (content, rest) =>
        if (word "!doctype").isPrefixOf (content.map lowerGlyph) then
          some (if (content.drop 8).all isTagSpace then .illFormed else .event .other, rest)
        else none
    else none

/-- Reads a construct that begins with a question mark, which is the first symbol given. -/
def instruction? (input : List Glyph) : Option (Item × List Glyph) :=
  (markedEnd? (word "?") 0 [] input).bind fun (content, rest) =>
    if 2 ≤ content.length then some (.event .other, rest) else none

/-- The event for the content of a tag. -/
def tagEvent (content : List Glyph) : Event :=
  match content with
  | [] => .start []
  | g :: rest =>
    if g.is '/' then .stop (stopName rest)
    else if (content.getLast?).any (Glyph.is '/') then .empty content.dropLast
    else .start content

/-- Reads the construct behind an opening bracket, and yields its item and the rest of the input;
nothing in case of a syntax error. -/
def construct? (input : List Glyph) : Option (Item × List Glyph) :=
  match input with
  | [] => none
  | g :: _ =>
    if g.is '!' then declaration? input
    else if g.is '?' then instruction? input
    else (tagEnd? none input).map fun (content, rest) => (.event (tagEvent content), rest)

/-! ## Every construct takes something from the input -/

theorem length_tagEnd? {quote : Option Char} {input content rest : List Glyph}
    (h : tagEnd? quote input = some (content, rest)) : rest.length < input.length := by
  induction input generalizing quote content with
  | nil => simp [tagEnd?] at h
  | cons g tail ih =>
    cases quote with
    | some q =>
      simp only [tagEnd?, Option.map_eq_some_iff, Prod.mk.injEq, Prod.exists] at h
      obtain ⟨c, r, found, -, rfl⟩ := h
      have := ih found
      simp only [List.length_cons]
      omega
    | none =>
      simp only [tagEnd?] at h
      split at h
      · simp only [Option.some.injEq, Prod.mk.injEq] at h
        simp [← h.2]
      · simp only [Option.map_eq_some_iff, Prod.mk.injEq, Prod.exists] at h
        obtain ⟨c, r, found, -, rfl⟩ := h
        have := ih found
        simp only [List.length_cons]
        omega

theorem length_markedEnd? {closing seen input content rest : List Glyph} {least : Nat}
    (h : markedEnd? closing least seen input = some (content, rest)) :
    rest.length < input.length := by
  induction input generalizing seen with
  | nil => simp [markedEnd?] at h
  | cons g tail ih =>
    simp only [markedEnd?] at h
    split at h
    · simp only [Option.some.injEq, Prod.mk.injEq] at h
      simp [← h.2]
    · have := ih h
      simp only [List.length_cons]
      omega

theorem length_balancedEnd? {depth : Nat} {input content rest : List Glyph}
    (h : balancedEnd? depth input = some (content, rest)) : rest.length < input.length := by
  induction input generalizing depth content with
  | nil => simp [balancedEnd?] at h
  | cons g tail ih =>
    simp only [balancedEnd?] at h
    split at h
    · simp only [Option.some.injEq, Prod.mk.injEq] at h
      simp [← h.2]
    · simp only [Option.map_eq_some_iff, Prod.mk.injEq, Prod.exists] at h
      obtain ⟨c, r, found, -, rfl⟩ := h
      have := ih found
      simp only [List.length_cons]
      omega

theorem length_construct? {input rest : List Glyph} {item : Item}
    (h : construct? input = some (item, rest)) : rest.length < input.length := by
  unfold construct? at h
  split at h
  · simp at h
  · split at h
    · unfold declaration? at h
      split at h
      · simp at h
      · split at h
        · simp only [Option.bind_eq_some_iff, Prod.exists] at h
          obtain ⟨c, r, found, h⟩ := h
          split at h
          · simp only [Option.some.injEq, Prod.mk.injEq] at h
            exact h.2 ▸ length_markedEnd? found
          · simp at h
        · split at h
          · simp only [Option.bind_eq_some_iff, Prod.exists] at h
            obtain ⟨c, r, found, h⟩ := h
            split at h
            · simp only [Option.some.injEq, Prod.mk.injEq] at h
              exact h.2 ▸ length_markedEnd? found
            · simp at h
          · split at h
            · simp only [Option.bind_eq_some_iff, Prod.exists] at h
              obtain ⟨c, r, found, h⟩ := h
              split at h
              · simp only [Option.some.injEq, Prod.mk.injEq] at h
                exact h.2 ▸ length_balancedEnd? found
              · simp at h
            · simp at h
    · split at h
      · unfold instruction? at h
        simp only [Option.bind_eq_some_iff, Prod.exists] at h
        obtain ⟨c, r, found, h⟩ := h
        split at h
        · simp only [Option.some.injEq, Prod.mk.injEq] at h
          exact h.2 ▸ length_markedEnd? found
        · simp at h
      · simp only [Option.map_eq_some_iff, Prod.mk.injEq, Prod.exists] at h
        obtain ⟨c, r, found, -, rfl⟩ := h
        exact length_tagEnd? found

/-! ## The stream -/

/-- The text event for what stands before a bracket; none for nothing. -/
def textItem (raw : List Glyph) : List Item :=
  if raw.isEmpty then [] else [.event (.text raw)]

/-- The items from a place outside markup. -/
def itemsFrom (input : List Glyph) : List Item :=
  textItem (input.takeWhile (!Glyph.is '<' ·)) ++
    match _before : input.dropWhile (!Glyph.is '<' ·) with
    | [] => []
    | _ :: inside =>
      match _found : construct? inside with
      | some (item, rest) => item :: itemsFrom rest
      | none => [.syntaxError]
termination_by input.length
decreasing_by
  have shorter := length_construct? _found
  have suffix := (List.dropWhile_suffix (!Glyph.is '<' ·) (l := input)).length_le
  rw [_before] at suffix
  simp only [List.length_cons] at suffix
  omega

/-- The items of an input.  A byte order mark at its very start is dropped. -/
def items : List Glyph → List Item
  | [] => []
  | g :: rest => if g.is '\uFEFF' then itemsFrom rest else itemsFrom (g :: rest)

/-- The items of an input that cannot be read to its end, from those of its readable part.  A text or
a construct that goes on where reading fails is not read. -/
def interrupted : List Item → List Item
  | [] | [.event (.text _)] | [.syntaxError] => [.syntaxError]
  | item :: rest => item :: interrupted rest

end Bitext.Xml
