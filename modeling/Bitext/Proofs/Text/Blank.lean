import Bitext.Text.Basic
import Mathlib.Data.List.TakeWhile
import Mathlib.Tactic.Common

/-!
# Blanks at the ends of texts

A text is its trimmed form between two texts without visible characters, and trimming takes away
exactly these. A text is trimmed if neither its first nor its last character is a blank.

## Main results

* `exists_eq_trim`: the blanks around the trimmed form
* `trim_append_blank`, `trim_blank_append`: blanks at an end do not change the trimmed form
* `trim_eq_self_iff`: the trimmed texts
-/

namespace Bitext.Text

variable {a b t : Text}

theorem isBlank_iff : isBlank t ↔ ∀ c ∈ t, isSpace c := by
  simp [isBlank]

theorem isBlank_append (ha : isBlank a) (hb : isBlank b) : isBlank (a ++ b) := by
  rw [isBlank, List.all_append]
  exact Bool.and_eq_true_iff.mpr ⟨ha, hb⟩

theorem isAlphanum_iff {c : Char} : c.isAlphanum = true ↔
    ((65 ≤ c.toNat ∧ c.toNat ≤ 90) ∨ (97 ≤ c.toNat ∧ c.toNat ≤ 122)) ∨
      (48 ≤ c.toNat ∧ c.toNat ≤ 57) := by
  have hrange {p q : Prop} [Decidable p] [Decidable q] :
      (decide p && decide q) = true ↔ p ∧ q :=
    Bool.and_eq_true_iff.trans (and_congr decide_eq_true_iff decide_eq_true_iff)
  refine Bool.or_eq_true_iff.trans (or_congr (Bool.or_eq_true_iff.trans (or_congr ?_ ?_)) ?_)
  · exact decide_eq_true_iff
  · exact hrange
  · exact hrange

/-- Letters and digits are visible. -/
theorem isSpace_of_isAlphanum {c : Char} (h : c.isAlphanum = true) : isSpace c = false := by
  have hranges := isAlphanum_iff.mp h
  rw [Bool.eq_false_iff]
  intro hs
  simp only [isSpace, Bool.or_eq_true, Bool.and_eq_true, decide_eq_true_eq, beq_iff_eq] at hs
  omega

/-- Neither the first nor the last character is a blank. -/
def IsTrimmed (t : Text) : Prop :=
  (∀ c, t.head? = some c → isSpace c = false) ∧ ∀ c, t.getLast? = some c → isSpace c = false

theorem trimStart_blank_append (h : isBlank a) : trimStart (a ++ t) = trimStart t :=
  List.dropWhile_append_of_pos (isBlank_iff.mp h)

theorem trimEnd_append_blank (h : isBlank b) : trimEnd (t ++ b) = trimEnd t := by
  -- Seen from its end, the text begins with the blanks.
  unfold trimEnd
  rw [List.reverse_append, List.dropWhile_append_of_pos]
  intro c hc
  exact isBlank_iff.mp h c (List.mem_reverse.mp hc)

theorem trimStart_eq_nil (h : isBlank t) : trimStart t = [] :=
  List.dropWhile_eq_nil_iff.mpr (isBlank_iff.mp h)

/-- The blanks at the start of a text, and the rest. -/
theorem exists_eq_trimStart (t : Text) : ∃ a, isBlank a ∧ t = a ++ trimStart t := by
  refine ⟨t.takeWhile isSpace, ?_, (List.takeWhile_append_dropWhile).symm⟩
  rw [isBlank_iff]
  intro c hc
  exact List.mem_takeWhile_imp hc

theorem trimStart_head (t : Text) : ∀ c, (trimStart t).head? = some c → isSpace c = false := by
  intro c hc
  have := List.head?_dropWhile_not isSpace t
  simp only [trimStart] at hc
  simpa [hc] using this

/-- The blanks at the end of a text, and what stands before them. -/
theorem exists_eq_trimEnd (t : Text) : ∃ b, isBlank b ∧ t = trimEnd t ++ b := by
  obtain ⟨a, ha, h⟩ := exists_eq_trimStart t.reverse
  refine ⟨a.reverse, ?_, ?_⟩
  · rw [isBlank_iff] at ha ⊢
    intro c hc
    exact ha c (List.mem_reverse.mp hc)
  · rw [trimEnd, ← List.reverse_append]
    rw [← List.reverse_inj, List.reverse_reverse]
    exact h

theorem trimEnd_getLast (t : Text) :
    ∀ c, (trimEnd t).getLast? = some c → isSpace c = false := by
  intro c hc
  rw [trimEnd, List.getLast?_reverse] at hc
  exact trimStart_head t.reverse c hc

/-- **A text is its trimmed form between blanks.** -/
theorem exists_eq_trim (t : Text) : ∃ a b, isBlank a ∧ isBlank b ∧ t = a ++ trim t ++ b := by
  obtain ⟨a, ha, hs⟩ := exists_eq_trimStart t
  obtain ⟨b, hb, he⟩ := exists_eq_trimEnd (trimStart t)
  refine ⟨a, b, ha, hb, ?_⟩
  rw [trim, List.append_assoc, ← he]
  exact hs

theorem isTrimmed_trim (t : Text) : IsTrimmed (trim t) := by
  refine ⟨?_, trimEnd_getLast (trimStart t)⟩
  intro c hc
  -- Trimming the end does not reach the first visible character.
  obtain ⟨b, -, he⟩ := exists_eq_trimEnd (trimStart t)
  apply trimStart_head t c
  rw [he]
  cases h : trimEnd (trimStart t) with
  | nil => simp [trim, h] at hc
  | cons d rest => simpa [trim, h] using hc

theorem trim_of_isTrimmed (h : IsTrimmed t) : trim t = t := by
  have hs : trimStart t = t := by
    cases t with
    | nil => rfl
    | cons c rest => exact List.dropWhile_cons_of_neg (by simp [h.1 c rfl])
  rw [trim, hs]
  rcases List.eq_nil_or_concat t with rfl | ⟨rest, c, rfl⟩
  · rfl
  · have hc := h.2 c (by simp)
    simp [trimEnd, List.dropWhile_cons_of_neg, hc]

theorem trim_eq_self_iff : trim t = t ↔ IsTrimmed t :=
  ⟨fun h => h ▸ isTrimmed_trim t, trim_of_isTrimmed⟩

@[simp] theorem trim_trim (t : Text) : trim (trim t) = trim t :=
  trim_of_isTrimmed (isTrimmed_trim t)

theorem trim_blank_append (h : isBlank a) : trim (a ++ t) = trim t := by
  rw [trim, trimStart_blank_append h, trim]

theorem trim_append_blank (h : isBlank b) : trim (t ++ b) = trim t := by
  -- Trimming the start of a blank text goes on into `b`, so that case is on its own.
  by_cases ht : isBlank t
  · rw [trim_blank_append ht]
    simp [trim, trimStart_eq_nil ht, trimStart_eq_nil h]
  · obtain ⟨a, ha, hs⟩ := exists_eq_trimStart t
    -- The visible character that stops the trimming at the start stands before `b`.
    have hstart : trimStart (t ++ b) = trimStart t ++ b := by
      conv_lhs => rw [hs, List.append_assoc, trimStart_blank_append ha]
      cases hc : trimStart t with
      | nil =>
        rw [hc, List.append_nil] at hs
        exact absurd (hs ▸ ha) ht
      | cons c rest =>
        have hv := trimStart_head t c (by rw [hc]; rfl)
        exact List.dropWhile_cons_of_neg (by simp [hv])
    rw [trim, hstart, trimEnd_append_blank h, trim]

theorem trim_between_blanks (ha : isBlank a) (hb : isBlank b) : trim (a ++ t ++ b) = trim t := by
  rw [trim_append_blank hb, trim_blank_append ha]

theorem trim_eq_of_between (ha : isBlank a) (hb : isBlank b) (ht : IsTrimmed t) :
    trim (a ++ t ++ b) = t := by
  rw [trim_between_blanks ha hb, trim_of_isTrimmed ht]

/-- Around a text that begins and ends with visible characters, trimming takes away the blanks at
the start of what precedes it and at the end of what follows it. -/
theorem trim_around (hhead : ∃ c, t.head? = some c ∧ isSpace c = false)
    (hlast : ∃ c, t.getLast? = some c ∧ isSpace c = false) :
    trim (a ++ t ++ b) = trimStart a ++ t ++ trimEnd b := by
  obtain ⟨a', ha, heqa⟩ := exists_eq_trimStart a
  obtain ⟨b', hb, heqb⟩ := exists_eq_trimEnd b
  have hmiddle : IsTrimmed (trimStart a ++ t ++ trimEnd b) := by
    constructor
    -- The first character is one of `trimStart a`, or the first one of `t`.
    · intro c hc
      rw [List.append_assoc, List.head?_append] at hc
      cases hs : (trimStart a).head? with
      | some d =>
        rw [hs] at hc
        cases hc
        exact trimStart_head a c hs
      | none =>
        obtain ⟨d, hd, hv⟩ := hhead
        rw [hs, Option.none_or, List.head?_append, hd] at hc
        cases hc
        exact hv
    -- The last character is one of `trimEnd b`, or the last one of `t`.
    · intro c hc
      rw [List.getLast?_append] at hc
      cases he : (trimEnd b).getLast? with
      | some d =>
        rw [he] at hc
        cases hc
        exact trimEnd_getLast b c he
      | none =>
        obtain ⟨d, hd, hv⟩ := hlast
        rw [he, Option.none_or, List.getLast?_append, hd] at hc
        cases hc
        exact hv
  conv_lhs => rw [heqa, heqb]
  rw [← trim_eq_of_between ha hb hmiddle]
  simp only [List.append_assoc]

theorem trim_eq_nil_iff : trim t = [] ↔ isBlank t := by
  constructor
  · intro h
    obtain ⟨a, b, ha, hb, ht⟩ := exists_eq_trim t
    rw [h, List.append_nil] at ht
    rw [ht]
    exact isBlank_append ha hb
  · intro h
    simp [trim, trimStart_eq_nil h, trimEnd]

theorem length_trim_le (t : Text) : (trim t).length ≤ t.length := by
  obtain ⟨a, b, -, -, ht⟩ := exists_eq_trim t
  have := congrArg List.length ht
  simp only [List.length_append] at this
  omega

theorem mem_of_mem_trim {c : Char} (h : c ∈ trim t) : c ∈ t := by
  obtain ⟨a, b, -, -, ht⟩ := exists_eq_trim t
  rw [ht]
  exact List.mem_append_left b (List.mem_append_right a h)

/-! ## Words -/

/-- A part between separators has characters of the text, and no separator. -/
theorem mem_of_mem_splitOnP {p : Char → Bool} {s : Text} {c : Char} (hs : s ∈ t.splitOnP p)
    (hc : c ∈ s) : c ∈ t ∧ p c = false := by
  induction t generalizing s with
  | nil =>
    rw [List.splitOnP_nil, List.mem_singleton] at hs
    rw [hs] at hc
    cases hc
  | cons d rest ih =>
    have hlater {s : Text} (hs : s ∈ rest.splitOnP p) (hc : c ∈ s) : c ∈ d :: rest ∧ p c = false :=
      (ih hs hc).imp_left (List.mem_cons_of_mem d)
    rw [List.splitOnP_cons_eq_if_modifyHead] at hs
    split at hs
    · rcases List.mem_cons.mp hs with rfl | hs
      · cases hc
      · exact hlater hs hc
    -- The character joins the first part of what follows it.
    · rename_i hd
      cases hsplit : rest.splitOnP p with
      | nil => exact absurd hsplit (List.splitOnP_ne_nil p rest)
      | cons first others =>
        rw [hsplit, List.modifyHead_cons] at hs
        rcases List.mem_cons.mp hs with rfl | hs
        · rcases List.mem_cons.mp hc with rfl | hc
          · exact ⟨List.mem_cons_self, Bool.eq_false_iff.mpr hd⟩
          · exact hlater (hsplit ▸ List.mem_cons_self) hc
        · exact hlater (hsplit ▸ List.mem_cons_of_mem first hs) hc

theorem mem_of_mem_unwords {ws : List Text} {c : Char} (h : c ∈ unwords ws) :
    c = ' ' ∨ ∃ w ∈ ws, c ∈ w := by
  induction ws with
  | nil => cases h
  | cons w rest ih =>
    cases rest with
    | nil =>
      rw [unwords, List.intercalate_singleton] at h
      exact Or.inr ⟨w, List.mem_cons_self, h⟩
    | cons w' rest =>
      rw [unwords, List.intercalate_cons_cons, List.mem_append, List.mem_append,
        List.mem_singleton] at h
      rcases h with (h | h) | h
      · exact Or.inr ⟨w, List.mem_cons_self, h⟩
      · exact Or.inl h
      · apply (ih h).imp_right
        rintro ⟨v, hv, hc⟩
        exact ⟨v, List.mem_cons_of_mem w hv, hc⟩

/-- Collapsing adds no character but spaces. -/
theorem mem_of_mem_collapse {c : Char} (h : c ∈ collapse t) : c = ' ' ∨ c ∈ t := by
  apply (mem_of_mem_unwords h).imp_right
  rintro ⟨w, hw, hc⟩
  exact (mem_of_mem_splitOnP (List.mem_filter.mp hw).1 hc).1

/-- Words that are joined are found again. -/
theorem words_unwords {ws : List Text} (h : ∀ w ∈ ws, w ≠ [] ∧ ∀ c ∈ w, isSpace c = false) :
    words (unwords ws) = ws := by
  induction ws with
  | nil => rfl
  | cons w rest ih =>
    obtain ⟨⟨hnil, hvisible⟩, hrest⟩ := List.forall_mem_cons.mp h
    have hkept (ws : List Text) : (w :: ws).filter (!·.isEmpty) = w :: ws.filter (!·.isEmpty) :=
      List.filter_cons_of_pos (by simpa using hnil)
    cases rest with
    | nil =>
      rw [unwords, List.intercalate_singleton, words,
        List.splitOnP_eq_singleton hvisible, hkept, List.filter_nil]
    | cons w' rest =>
      have hwords := ih hrest
      rw [unwords, words] at hwords
      rw [unwords, List.intercalate_cons_cons, List.append_assoc, List.singleton_append, words,
        List.splitOnP_append_cons_of_forall_mem hvisible ' ' rfl, hkept, hwords]

/-- **Collapsing twice is collapsing once.** -/
@[simp] theorem collapse_collapse (t : Text) : collapse (collapse t) = collapse t := by
  refine congrArg unwords (words_unwords fun w hw => ?_)
  obtain ⟨hsplit, hnil⟩ := List.mem_filter.mp hw
  exact ⟨by simpa using hnil, fun c hc => (mem_of_mem_splitOnP hsplit hc).2⟩

end Bitext.Text
