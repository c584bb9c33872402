import Bitext.Language
import Bitext.Proofs.Text.Blank
import Bitext.Proofs.Unicode.Casing

/-!
# Codes of languages

Taking the primary subtag of a primary subtag changes at most the blanks at its end, and taking it
once more changes nothing.

## Main results

* `primarySubtag_primarySubtag`: the second time only blanks are lost
* `primarySubtag_ne_nil`: the second time something is left if the first time something was
-/

namespace Bitext

variable {y : Text}

/-- No character of a code ends its primary subtag. -/
theorem takeWhile_of_no_mark {t : Text} (h : ∀ c ∈ t, c ≠ '-' ∧ c ≠ '_') :
    (t.takeWhile fun c => !(c == '-' || c == '_')) = t := by
  rw [List.takeWhile_eq_self_iff]
  intro c hc
  simp [h c hc]

theorem isLowered_of_mem_primarySubtag {c : Char} (h : c ∈ primarySubtag y) : Unicode.IsLowered c :=
  (Unicode.mem_lower h).1

theorem no_mark_of_mem_primarySubtag {c : Char} (h : c ∈ primarySubtag y) : c ≠ '-' ∧ c ≠ '_' := by
  -- Lowering brings in no mark, and the part that is lowered ends before the first one.
  obtain ⟨-, hkept | hother⟩ := Unicode.mem_lower h
  · have := List.mem_takeWhile_imp hkept
    simpa using this
  · constructor <;> (rintro rfl; exact absurd hother (by decide))

/-- **The primary subtag of a primary subtag** is that subtag without blanks at its ends. -/
theorem primarySubtag_primarySubtag (y : Text) :
    primarySubtag (primarySubtag y) = Text.trim (primarySubtag y) := by
  have hmarks : ∀ c ∈ Text.trim (primarySubtag y), c ≠ '-' ∧ c ≠ '_' := fun c hc =>
    no_mark_of_mem_primarySubtag (Text.mem_of_mem_trim hc)
  have hlowered : ∀ c ∈ Text.trim (primarySubtag y), Unicode.IsLowered c := fun c hc =>
    isLowered_of_mem_primarySubtag (Text.mem_of_mem_trim hc)
  have hstart : primarySubtag (primarySubtag y) = Unicode.lower
      ((Text.trim (primarySubtag y)).takeWhile fun c => !(c == '-' || c == '_')) := rfl
  rw [hstart, takeWhile_of_no_mark hmarks, Unicode.lower_of_isLowered hlowered]

/-- Taking the primary subtag once more changes nothing. -/
theorem primarySubtag_twice (y : Text) :
    primarySubtag (primarySubtag (primarySubtag y)) = primarySubtag (primarySubtag y) := by
  rw [primarySubtag_primarySubtag (primarySubtag y), primarySubtag_primarySubtag y, Text.trim_trim]

/-- A primary subtag begins with a character that is no blank. -/
theorem head_primarySubtag (h : primarySubtag y ≠ []) :
    ∃ c, (primarySubtag y).head? = some c ∧ Unicode.isSeparator c = false := by
  apply Unicode.head_lower
  cases hcode : (Text.trim y).takeWhile (fun c => !(c == '-' || c == '_')) with
  -- A code that begins with a mark has an empty primary subtag.
  | nil =>
    refine absurd ?_ h
    rw [primarySubtag, hcode]
    rfl
  | cons c rest =>
    obtain ⟨more, hmore⟩ :=
      List.takeWhile_prefix (fun c => !(c == '-' || c == '_')) (l := Text.trim y)
    rw [hcode, List.cons_append] at hmore
    have hspace : Text.isSpace c = false := (Text.isTrimmed_trim y).1 c (by rw [← hmore]; rfl)
    have hmem : c ∈ (Text.trim y).takeWhile (fun c => !(c == '-' || c == '_')) := by
      rw [hcode]
      exact List.mem_cons_self
    have hmark := List.mem_takeWhile_imp hmem
    rw [Bool.not_eq_true'] at hmark
    refine ⟨c, rfl, ?_⟩
    rw [Unicode.isSeparator, Bool.or_assoc, hspace, hmark]
    rfl

/-- **Something is left of a primary subtag** when it is taken again. -/
theorem primarySubtag_ne_nil (h : primarySubtag y ≠ []) :
    primarySubtag (primarySubtag y) ≠ [] := by
  rw [primarySubtag_primarySubtag, Ne, Text.trim_eq_nil_iff, Text.isBlank_iff]
  obtain ⟨c, hc, hseparator⟩ := head_primarySubtag h
  intro hblank
  have hspace := hblank c (List.mem_of_head? hc)
  rw [Unicode.isSeparator, hspace] at hseparator
  cases hseparator

end Bitext
