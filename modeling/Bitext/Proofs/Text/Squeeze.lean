import Bitext.Proofs.Text.Blank

/-!
# Runs of blanks squeezed from left to right

Joining the words of a text by single spaces looks at the whole of it.  Squeezing looks at one
character after another and only remembers whether the last one was a blank: the first blank of a
run becomes a space and the others are dropped.  The two differ in nothing but a space at the end.

## Main definitions

* `squeeze`: every run of blanks becomes one space.

## Main results

* `exists_squeeze_eq`: squeezing is collapsing, but for blanks at the end
* `squeeze_squeeze`: squeezing twice is squeezing once
* `squeeze_append`: texts squeezed one after the other
-/

namespace Bitext.Text

variable {a t : Text} {w : Text} {ws : List Text} {c : Char}

/-- Every run of blanks as one space; `behind` says that the text stands behind a blank. -/
def squeeze (behind : Bool) : Text → Text
  | [] => []
  | c :: t =>
    if isSpace c then
      if behind then squeeze true t else ' ' :: squeeze true t
    else c :: squeeze false t

@[simp] theorem squeeze_nil (behind : Bool) : squeeze behind [] = [] := rfl

theorem squeeze_cons_of_not_isSpace (h : isSpace c = false) (behind : Bool) (t : Text) :
    squeeze behind (c :: t) = c :: squeeze false t := by
  rw [squeeze, h]
  rfl

theorem squeeze_false_cons_of_isSpace (h : isSpace c = true) (t : Text) :
    squeeze false (c :: t) = ' ' :: squeeze true t := by
  rw [squeeze, h]
  rfl

theorem squeeze_true_cons_of_isSpace (h : isSpace c = true) (t : Text) :
    squeeze true (c :: t) = squeeze true t := by
  rw [squeeze, h]
  rfl

@[simp] theorem squeeze_squeeze (behind : Bool) (t : Text) :
    squeeze behind (squeeze behind t) = squeeze behind t := by
  induction t generalizing behind with
  | nil => rfl
  | cons c t ih =>
    cases hc : isSpace c with
    | false => rw [squeeze_cons_of_not_isSpace hc, squeeze_cons_of_not_isSpace hc, ih]
    | true =>
      cases behind with
      | false =>
        rw [squeeze_false_cons_of_isSpace hc, squeeze_false_cons_of_isSpace rfl, ih]
      | true => rw [squeeze_true_cons_of_isSpace hc, ih]

/-- The text ends with a blank, or, if it is empty, it stands behind one. -/
def endsBlank (behind : Bool) (t : Text) : Bool := (t.getLast?.map isSpace).getD behind

theorem endsBlank_cons (behind : Bool) (c : Char) (t : Text) :
    endsBlank behind (c :: t) = endsBlank (isSpace c) t := by
  rw [endsBlank, endsBlank, List.getLast?_cons]
  cases t.getLast? <;> rfl

/-- **Texts are squeezed one after the other.** -/
theorem squeeze_append (behind : Bool) (a t : Text) :
    squeeze behind (a ++ t) = squeeze behind a ++ squeeze (endsBlank behind a) t := by
  induction a generalizing behind with
  | nil => rfl
  | cons c a ih =>
    rw [List.cons_append, endsBlank_cons]
    cases hc : isSpace c with
    | false =>
      rw [squeeze_cons_of_not_isSpace hc, squeeze_cons_of_not_isSpace hc, ih, List.cons_append]
    | true =>
      cases behind with
      | false =>
        rw [squeeze_false_cons_of_isSpace hc, squeeze_false_cons_of_isSpace hc, ih,
          List.cons_append]
      | true => rw [squeeze_true_cons_of_isSpace hc, squeeze_true_cons_of_isSpace hc, ih]

theorem squeeze_cons (behind : Bool) (c : Char) (t : Text) :
    squeeze behind (c :: t) = squeeze behind [c] ++ squeeze (isSpace c) t :=
  squeeze_append behind [c] t

theorem mem_of_mem_squeeze {behind : Bool} (h : c ∈ squeeze behind t) : c = ' ' ∨ c ∈ t := by
  induction t generalizing behind with
  | nil => cases h
  | cons d t ih =>
    have htail {b : Bool} (h : c ∈ squeeze b t) : c = ' ' ∨ c ∈ d :: t :=
      (ih h).imp_right (List.mem_cons_of_mem d)
    cases hd : isSpace d with
    | false =>
      rw [squeeze_cons_of_not_isSpace hd] at h
      rcases List.mem_cons.mp h with rfl | h
      · exact .inr List.mem_cons_self
      · exact htail h
    | true =>
      cases behind with
      | false =>
        rw [squeeze_false_cons_of_isSpace hd] at h
        rcases List.mem_cons.mp h with rfl | h
        · exact .inl rfl
        · exact htail h
      | true =>
        rw [squeeze_true_cons_of_isSpace hd] at h
        exact htail h

theorem squeeze_false_eq_nil_iff : squeeze false t = [] ↔ t = [] := by
  cases t with
  | nil => simp
  | cons c t => cases hc : isSpace c <;> simp [squeeze, hc]

/-! ## Words -/

theorem unwords_cons (w : Text) (ws : List Text) :
    unwords (w :: ws) = w ++ ws.flatMap (' ' :: ·) := by
  induction ws generalizing w with
  | nil =>
    rw [unwords, List.intercalate_singleton]
    exact (List.append_nil w).symm
  | cons v ws ih =>
    have hrest : [' '].intercalate (v :: ws) = v ++ ws.flatMap (' ' :: ·) := ih v
    rw [unwords, List.intercalate_cons_cons, hrest, List.flatMap_cons]
    simp

/-- What squeezing makes of a text that stands behind a word, and behind a blank: the parts between
its blanks, but for the empty ones, with a space before each, and perhaps a blank at the end. -/
theorem exists_squeeze_parts (t : Text) : ∃ first others, t.splitOnP isSpace = first :: others ∧
    (∃ b, isBlank b ∧ squeeze false t =
      first ++ (others.filter (!·.isEmpty)).flatMap (' ' :: ·) ++ b) ∧
    ∃ b, isBlank b ∧ squeeze true t = unwords ((first :: others).filter (!·.isEmpty)) ++ b := by
  induction t with
  | nil => exact ⟨[], [], rfl, ⟨[], rfl, rfl⟩, [], rfl, rfl⟩
  | cons c t ih =>
    obtain ⟨first, others, hsplit, ⟨b, hb, hfalse⟩, b', hb', htrue⟩ := ih
    rw [List.splitOnP_cons_eq_if_modifyHead, hsplit]
    cases hc : isSpace c with
    | false =>
      -- The character joins the first part, which is a word then.
      refine ⟨c :: first, others, rfl, ⟨b, hb, ?_⟩, b, hb, ?_⟩
      · rw [squeeze_cons_of_not_isSpace hc, hfalse]
        rfl
      · have hword : ((c :: first) :: others).filter (!·.isEmpty) =
            (c :: first) :: others.filter (!·.isEmpty) := rfl
        rw [squeeze_cons_of_not_isSpace hc, hfalse, hword, unwords_cons]
        rfl
    | true =>
      refine ⟨[], first :: others, rfl, ?_, b', hb', ?_⟩
      · rw [squeeze_false_cons_of_isSpace hc, htrue]
        -- The space stands before the first word, or at the end if there is none.
        cases hwords : (first :: others).filter (!·.isEmpty) with
        | nil => exact ⟨' ' :: b', hb', rfl⟩
        | cons w ws =>
          refine ⟨b', hb', ?_⟩
          rw [unwords_cons, List.flatMap_cons]
          simp
      · rw [squeeze_true_cons_of_isSpace hc, htrue]
        rfl

/-- **Squeezing is collapsing**, but for blanks at the end. -/
theorem exists_squeeze_eq (t : Text) : ∃ b, isBlank b ∧ squeeze true t = collapse t ++ b := by
  obtain ⟨first, others, hsplit, -, b, hb, hsqueeze⟩ := exists_squeeze_parts t
  refine ⟨b, hb, ?_⟩
  rw [hsqueeze, collapse, words, hsplit]

/-- A text that ends with a visible character when it is squeezed collapses to that. -/
theorem collapse_eq_squeeze (h : ∀ c, (squeeze true t).getLast? = some c → isSpace c = false) :
    collapse t = squeeze true t := by
  obtain ⟨b, hb, hsqueeze⟩ := exists_squeeze_eq t
  rcases List.eq_nil_or_concat b with rfl | ⟨b, c, rfl⟩
  · rw [hsqueeze, List.append_nil]
  · -- A blank at the end would be the last character.
    have hlast : (squeeze true t).getLast? = some c := by
      rw [hsqueeze]
      simp
    have hc : isSpace c = true := isBlank_iff.mp hb c (by simp)
    rw [h c hlast] at hc
    cases hc

end Bitext.Text
