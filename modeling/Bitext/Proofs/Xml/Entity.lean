import Bitext.Proofs.Text.Blank
import Bitext.Xml.Entity

/-!
# Escaped texts

An escaped text holds none of the characters that have a meaning in XML except ampersands, so it
can stand between tags and, in quotes, inside them.  Escaping neither adds nor removes blanks.

## Main definitions

* `IsPlain`: no bracket and no quotation mark.

## Main results

* `isPlain_of_mem_escape`: the characters that do not occur
* `head?_escapeChar`, `getLast?_escapeChar`: no entity begins or ends with a blank
* `escape_of_isBlank`: blanks are not escaped
-/

namespace Bitext.Xml

variable {c d : Char} {t u : Text}

@[simp] theorem escape_nil : escape [] = [] := rfl

@[simp] theorem escape_cons (c : Char) (t : Text) : escape (c :: t) = escapeChar c ++ escape t :=
  rfl

@[simp] theorem escape_append (t u : Text) : escape (t ++ u) = escape t ++ escape u := by
  simp [escape]

@[simp] theorem unescape_escape (t : Text) : unescape (escape t) = t := by
  rw [unescape, unescape?_escape, Option.getD_some]

/-- No bracket and no quotation mark. -/
def IsPlain (c : Char) : Prop := c ≠ '<' ∧ c ≠ '>' ∧ c ≠ '\'' ∧ c ≠ '"'

instance (c : Char) : Decidable (IsPlain c) :=
  inferInstanceAs (Decidable (c ≠ '<' ∧ c ≠ '>' ∧ c ≠ '\'' ∧ c ≠ '"'))

theorem isPlain_of_mem_escapeChar (c : Char) : ∀ d ∈ escapeChar c, IsPlain d := by
  unfold escapeChar
  split
  case h_6 hlt hgt hamp hapos hquot =>
    intro d hd
    rw [List.mem_singleton.mp hd]
    exact ⟨hlt, hgt, hapos, hquot⟩
  all_goals simp [IsPlain]

/-- Escaping leaves neither brackets nor quotation marks. -/
theorem isPlain_of_mem_escape (h : d ∈ escape t) : IsPlain d := by
  obtain ⟨c, -, hd⟩ := List.mem_flatMap.mp h
  exact isPlain_of_mem_escapeChar c d hd

/-- The first and the last character of an entity are visible, so escaping hides no blank. -/
theorem head?_escapeChar (c : Char) :
    (escapeChar c).head? = some c ∨ (escapeChar c).head? = some '&' := by
  unfold escapeChar
  split
  case h_6 => exact Or.inl rfl
  all_goals exact Or.inr rfl

theorem getLast?_escapeChar (c : Char) :
    (escapeChar c).getLast? = some c ∨ (escapeChar c).getLast? = some ';' := by
  unfold escapeChar
  split
  case h_6 => exact Or.inl rfl
  all_goals exact Or.inr rfl

theorem escape_eq_nil_iff : escape t = [] ↔ t = [] := by
  refine ⟨fun h => ?_, fun h => by rw [h, escape_nil]⟩
  cases t with
  | nil => rfl
  | cons c t =>
    rw [escape_cons, List.append_eq_nil_iff] at h
    rcases head?_escapeChar c with hhead | hhead <;> (rw [h.1] at hhead; cases hhead)

theorem escapeChar_of_isSpace (h : Text.isSpace c = true) : escapeChar c = [c] := by
  unfold escapeChar
  split
  case h_6 => rfl
  all_goals
    revert h
    decide

theorem escape_of_isBlank (h : Text.isBlank t = true) : escape t = t := by
  induction t with
  | nil => rfl
  | cons c t ih =>
    obtain ⟨hc, ht⟩ := Bool.and_eq_true_iff.mp h
    rw [escape_cons, escapeChar_of_isSpace hc, ih ht, List.singleton_append]

end Bitext.Xml
