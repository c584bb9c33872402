import Bitext.Proofs.Text.Blank

/-!
# The words of a text

A blank between two texts keeps their words apart.  Blanks at the ends of a text belong to no word,
and a text without blanks is one word, so the words of a text that is put together from such parts
can be told one part after another.

## Main results

* `words_append_cons`: the words on both sides of a blank
* `words_collapse`, `words_trim`: words do not depend on how many blanks are around them
* `words_of_visible`: a sole word
-/

namespace Bitext.Text

variable {a b t w : Text} {c : Char}

@[simp] theorem words_nil : words [] = [] := rfl

/-- **A blank keeps words apart.** -/
theorem words_append_cons (h : isSpace c = true) (a t : Text) :
    words (a ++ c :: t) = words a ++ words t := by
  rw [words, List.splitOnP_append_cons a t h, List.filter_append, words, words]

theorem words_cons_of_isSpace (h : isSpace c = true) (t : Text) : words (c :: t) = words t :=
  words_append_cons h [] t

theorem words_of_isBlank (h : isBlank b = true) : words b = [] := by
  induction b with
  | nil => rfl
  | cons c b ih =>
    obtain ⟨hc, hb⟩ := Bool.and_eq_true_iff.mp h
    rw [words_cons_of_isSpace hc, ih hb]

theorem isBlank_of_words (h : words t = []) : isBlank t = true := by
  induction t with
  | nil => rfl
  | cons c t ih =>
    cases hc : isSpace c with
    | true => exact Bool.and_eq_true_iff.mpr ⟨hc, ih ((words_cons_of_isSpace hc t).symm.trans h)⟩
    | false =>
      -- A visible character belongs to the first part, which is a word then.
      obtain ⟨first, others, hsplit⟩ := List.exists_cons_of_ne_nil (List.splitOnP_ne_nil isSpace t)
      rw [words, List.splitOnP_cons_eq_if_modifyHead, hc, if_neg Bool.false_ne_true, hsplit,
        List.modifyHead_cons, List.filter_cons_of_pos rfl] at h
      cases h

theorem words_eq_nil_iff : words t = [] ↔ isBlank t = true :=
  ⟨isBlank_of_words, words_of_isBlank⟩

theorem words_ne_nil (h : isBlank t = false) : words t ≠ [] := by
  rw [ne_eq, words_eq_nil_iff, h]
  exact Bool.false_ne_true

theorem words_blank_append (h : isBlank a = true) (t : Text) : words (a ++ t) = words t := by
  induction a with
  | nil => rfl
  | cons c a ih =>
    obtain ⟨hc, ha⟩ := Bool.and_eq_true_iff.mp h
    rw [List.cons_append, words_cons_of_isSpace hc, ih ha]

theorem words_append_blank (h : isBlank b = true) (t : Text) : words (t ++ b) = words t := by
  cases b with
  | nil => rw [List.append_nil]
  | cons c b =>
    obtain ⟨hc, hb⟩ := Bool.and_eq_true_iff.mp h
    rw [words_append_cons hc, words_of_isBlank hb, List.append_nil]

@[simp] theorem words_trim (t : Text) : words (trim t) = words t := by
  obtain ⟨a, b, ha, hb, ht⟩ := exists_eq_trim t
  conv_rhs => rw [ht]
  rw [words_append_blank hb, words_blank_append ha]

/-- A text without blanks is a word. -/
theorem words_of_visible (hw : w ≠ []) (hvisible : ∀ c ∈ w, isSpace c = false) :
    words w = [w] := by
  rw [words, List.splitOnP_eq_singleton hvisible]
  exact List.filter_cons_of_pos (by simpa using hw)

/-- What stands between a blank and the next one is a word. -/
theorem words_append_of_visible (hw : w ≠ []) (hvisible : ∀ c ∈ w, isSpace c = false)
    (ht : ∀ c, t.head? = some c → isSpace c = true) : words (w ++ t) = w :: words t := by
  cases t with
  | nil => rw [List.append_nil, words_of_visible hw hvisible, words_nil]
  | cons c t =>
    have hc := ht c rfl
    rw [words_append_cons hc, words_of_visible hw hvisible, words_cons_of_isSpace hc]
    rfl

/-- Words are not empty, and have no blanks. -/
theorem visible_of_mem_words (h : w ∈ words t) : w ≠ [] ∧ ∀ c ∈ w, isSpace c = false := by
  obtain ⟨hsplit, hnil⟩ := List.mem_filter.mp h
  exact ⟨by simpa using hnil, fun c hc => (mem_of_mem_splitOnP hsplit hc).2⟩

/-- Collapsing keeps the words. -/
@[simp] theorem words_collapse (t : Text) : words (collapse t) = words t :=
  words_unwords fun _ hw => visible_of_mem_words hw

end Bitext.Text
