import Bitext.Proofs.Text.Blank
import Bitext.Proofs.Xml.Items

/-!
# Names in tags

Any text may be the name in a tag as long as it holds no character that means something there.  Such
a name hides no end of a tag, ends at the first blank behind it, and a tag that begins with one is
the tag of an element.  The names of elements and attributes that are written are of this kind.

## Main definitions

* `IsTagName`: a text without the characters that mean something in a tag.
* `IsName`: letters, digits, hyphens and colons.

## Main results

* `IsTagName.tagEvent_start`, `IsTagName.tagEvent_empty`: the event for a tag that begins with one
* `IsName.isTagName`: the names that are written can be read
-/

namespace Bitext.Xml

open Bitext.Unicode (Glyph)

variable {name x : Text}

/-! ## Names that can be read -/

/-- The characters that mean something in a tag: brackets, marks at its ends, quotation marks and
blanks. -/
def tagMarks : List Char := ['<', '>', '/', '!', '?', '\'', '"', ' ', '\t', '\n', '\r']

/-- A text that is read as a name when it stands in a tag. -/
structure IsTagName (name : Text) : Prop where
  ne_nil : name ≠ []
  not_mem : ∀ c ∈ tagMarks, c ∉ name

namespace IsTagName

/-- A class of characters without those marks makes names. -/
theorem of_all {p : Char → Bool} (hne : name ≠ []) (hall : ∀ c ∈ name, p c = true)
    (hp : tagMarks.any p = false) : IsTagName name :=
  ⟨hne, fun c hc hmem => List.any_eq_false.mp hp c hc (hall c hmem)⟩

theorem isTagSpace (h : IsTagName name) : ∀ c ∈ name, isTagSpace (.char c) = false := by
  intro c hc
  simp only [Xml.isTagSpace, Glyph.is_char, Bool.or_eq_false_iff, beq_eq_false_iff_ne]
  refine ⟨⟨⟨?_, ?_⟩, ?_⟩, ?_⟩ <;> (rintro rfl; exact h.not_mem _ (by decide) hc)

theorem isStretch (h : IsTagName name) : IsStretch name := by
  apply isStretch_of_plain
  intro c hc
  refine ⟨?_, ?_, ?_⟩ <;> (rintro rfl; exact h.not_mem _ (by decide) hc)

theorem exists_cons (h : IsTagName name) :
    ∃ c rest, name = c :: rest ∧ c ≠ '/' ∧ c ≠ '!' ∧ c ≠ '?' := by
  obtain ⟨c, rest, rfl⟩ := List.exists_cons_of_ne_nil h.ne_nil
  refine ⟨c, rest, rfl, ?_, ?_, ?_⟩ <;>
    (rintro rfl; exact h.not_mem _ (by decide) List.mem_cons_self)

theorem getLast?_ne (h : IsTagName name) : name.getLast? ≠ some '/' := by
  intro hlast
  exact h.not_mem _ (by decide) (List.mem_of_getLast? hlast)

theorem beginsTag (h : IsTagName name) : BeginsTag name := by
  obtain ⟨c, rest, hname, -, hmarks⟩ := h.exists_cons
  exact ⟨c, rest, hname, hmarks⟩

/-- A tag that begins with a name and does not end with a slash starts an element. -/
theorem tagEvent_start (h : IsTagName name) (hlast : (name ++ x).getLast? ≠ some '/') :
    tagEvent (Glyph.ofText (name ++ x)) = .start (Glyph.ofText (name ++ x)) := by
  obtain ⟨c, rest, rfl, hslash, -⟩ := h.exists_cons
  exact Xml.tagEvent_start hslash hlast

/-- A tag that begins with a name and ends with a slash is an empty element. -/
theorem tagEvent_empty (h : IsTagName name) (x : Text) :
    tagEvent (Glyph.ofText (name ++ x ++ ['/'])) = .empty (Glyph.ofText (name ++ x)) := by
  obtain ⟨c, rest, rfl, hslash, -⟩ := h.exists_cons
  exact Xml.tagEvent_empty hslash (rest ++ x)

/-- A tag that is nothing but a name starts an element. -/
theorem tagEvent_sole (h : IsTagName name) :
    tagEvent (Glyph.ofText name) = .start (Glyph.ofText name) := by
  have hevent := h.tagEvent_start (x := []) (by rw [List.append_nil]; exact h.getLast?_ne)
  rwa [List.append_nil] at hevent

theorem tagEvent_sole_empty (h : IsTagName name) :
    tagEvent (Glyph.ofText (name ++ ['/'])) = .empty (Glyph.ofText name) := by
  have hevent := h.tagEvent_empty []
  rwa [List.append_nil] at hevent

end IsTagName

/-! ## Names that are written -/

/-- A letter, a digit, a hyphen or a colon. -/
def isNameChar (c : Char) : Bool := c.isAlphanum || c == '-' || c == ':'

/-- A text of such characters that is not empty. -/
def IsName (name : Text) : Prop := name ≠ [] ∧ name.all isNameChar = true

instance (name : Text) : Decidable (IsName name) :=
  inferInstanceAs (Decidable (name ≠ [] ∧ name.all isNameChar = true))

namespace IsName

/-- No other character stands in a name. -/
theorem not_mem (h : IsName name) {c : Char} (hc : isNameChar c = false) : c ∉ name := by
  intro hmem
  rw [List.all_eq_true.mp h.2 c hmem] at hc
  cases hc

theorem isSpace (h : IsName name) : ∀ c ∈ name, Text.isSpace c = false := by
  intro c hc
  have hname := List.all_eq_true.mp h.2 c hc
  simp only [isNameChar, Bool.or_eq_true, beq_iff_eq] at hname
  rcases hname with (halpha | rfl) | rfl
  · exact Text.isSpace_of_isAlphanum halpha
  · rfl
  · rfl

theorem isTagName (h : IsName name) : IsTagName name :=
  .of_all h.1 (List.all_eq_true.mp h.2) (by decide)

end IsName

/-! ## End tags -/

theorem isStretch_slash : IsStretch ['/'] :=
  isStretch_singleton ⟨by decide, by decide, by decide⟩

theorem beginsTag_slash (name : Text) : BeginsTag ('/' :: name) :=
  ⟨'/', name, rfl, by decide, by decide⟩

end Bitext.Xml
