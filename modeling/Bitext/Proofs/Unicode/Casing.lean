import Bitext.Unicode.Casing
import Mathlib.Tactic.Common

/-!
# Lower case stays as it is

A lower-case form has nothing left to lower, and it has neither blanks nor hyphens that were not
there before.  Both are matters of the table: the characters that a run is mapped to are compared
with the runs themselves and with all blanks, run by run.

## Main definitions

* `CaseRun.avoids`: no character of the first run is mapped into the second one.
* `IsLowered`: the character is its own lower-case form.

## Main results

* `mem_lower`: what the characters of a lower-case form are
* `lower_of_isLowered`: a text of lower-case forms stays as it is
-/

namespace Bitext.Unicode

variable {c d : Char} {t before : Text} {run other : CaseRun} {n : Nat}

/-! ## Runs -/

/-- No character of the first run is mapped to one of the second run: the image is before it, behind
it, or has the other parity. -/
def CaseRun.avoids (run other : CaseRun) : Bool :=
  run.last + run.offset < other.first || other.last < run.first + run.offset ||
    (other.step == 2 && (run.step == 2 || run.first == run.last) &&
      (run.first + run.offset - other.first) % 2 == 1)

theorem CaseRun.not_holds_of_avoids (h : run.avoids other = true)
    (hpositive : 0 ≤ run.first + run.offset) (hn : run.holds n = true) :
    other.holds (n + run.offset).toNat = false := by
  simp only [avoids, Bool.or_eq_true, Bool.and_eq_true, decide_eq_true_eq, beq_iff_eq] at h
  simp only [holds, Bool.and_eq_true, decide_eq_true_eq, beq_iff_eq] at hn
  obtain ⟨⟨hfirst, hlast⟩, hstep⟩ := hn
  simp only [holds, Bool.and_eq_false_iff, decide_eq_false_iff_not, beq_eq_false_iff_ne]
  -- The image is in front of the second run, behind it, or between its characters.
  rcases h with (h | h) | ⟨⟨hother, hrun⟩, hparity⟩
  · omega
  · omega
  · rw [hother]
    rcases hrun with hrun | hrun
    · rw [hrun] at hstep
      omega
    · omega

/-- The image of the run is a range of characters. -/
def CaseRun.isMapped (run : CaseRun) : Bool :=
  0 ≤ run.first + run.offset &&
    (run.last + run.offset < 0xD800 ||
      (0xDFFF < run.first + run.offset && run.last + run.offset < 0x110000))

theorem CaseRun.toNat_ofNat (h : run.isMapped = true) (hn : run.holds n = true) :
    (Char.ofNat (n + run.offset).toNat).toNat = (n + run.offset).toNat := by
  simp only [isMapped, Bool.or_eq_true, Bool.and_eq_true, decide_eq_true_eq] at h
  simp only [holds, Bool.and_eq_true, decide_eq_true_eq, beq_iff_eq] at hn
  have hvalid : (n + run.offset).toNat.isValidChar := by
    unfold Nat.isValidChar
    omega
  rw [Char.ofNat, dif_pos hvalid]
  rfl

/-- The blanks, the hyphen and the underscore, as runs that are mapped to nothing else. -/
def separators : List CaseRun :=
  [⟨0x09, 0x0D, 1, 0⟩, ⟨0x20, 0x20, 1, 0⟩, ⟨0x85, 0x85, 1, 0⟩, ⟨0xA0, 0xA0, 1, 0⟩,
    ⟨0x1680, 0x1680, 1, 0⟩, ⟨0x2000, 0x200A, 1, 0⟩, ⟨0x2028, 0x2029, 1, 0⟩,
    ⟨0x202F, 0x202F, 1, 0⟩, ⟨0x205F, 0x205F, 1, 0⟩, ⟨0x3000, 0x3000, 1, 0⟩, ⟨0x2D, 0x2D, 1, 0⟩,
    ⟨0x5F, 0x5F, 1, 0⟩]

/-- The character is a blank, a hyphen or an underscore. -/
def isSeparator (c : Char) : Bool := Text.isSpace c || c == '-' || c == '_'

theorem isSeparator_eq_false (h : ∀ run ∈ separators, run.holds c.toNat = false) :
    isSeparator c = false := by
  simp [separators, CaseRun.holds] at h
  have hhyphen : c ≠ '-' := by
    rintro rfl
    simp at h
  have hunderscore : c ≠ '_' := by
    rintro rfl
    simp at h
  simp [isSeparator, Text.isSpace, hhyphen, hunderscore]
  omega

/-- The characters with an expansion, as runs. -/
def expanded : List CaseRun := lowerExpansions.map fun e => ⟨e.1, e.1, 1, 0⟩

/-- **The table lowers into characters that it does not lower**, and into none of the separators. -/
theorem lowerRuns_avoid : ∀ run ∈ lowerRuns, run.isMapped = true ∧
    ∀ other ∈ lowerRuns ++ expanded ++ separators, run.avoids other = true := by
  -- All pairs of runs are compared once, by the kernel.
  have htable : (lowerRuns.all fun run => run.isMapped &&
      (lowerRuns ++ expanded ++ separators).all run.avoids) = true := by
    decide +kernel
  intro run hrun
  have hruns := List.all_eq_true.mp htable run hrun
  rw [Bool.and_eq_true, List.all_eq_true] at hruns
  exact hruns

/-! ## Characters -/

/-- The character is its own lower-case form, and not the capital sigma. -/
def IsLowered (c : Char) : Prop := c ≠ 'Σ' ∧ mapCase lowerExpansions lowerRuns c = [c]

theorem mapCase_lower_of_not_holds (h : ∀ run ∈ lowerRuns ++ expanded, run.holds c.toNat = false) :
    mapCase lowerExpansions lowerRuns c = [c] := by
  have hexpansions : lowerExpansions.lookup c.toNat = none := by
    rw [List.lookup_eq_none_iff]
    intro e he
    have hother := h _ (List.mem_append_right _ (List.mem_map_of_mem he))
    simp only [CaseRun.holds, Bool.and_eq_false_iff, decide_eq_false_iff_not,
      beq_eq_false_iff_ne] at hother
    rw [bne_iff_ne]
    omega
  have hruns : lowerRuns.find? (·.holds c.toNat) = none := by
    rw [List.find?_eq_none]
    intro run hrun
    rw [h run (List.mem_append_left _ hrun)]
    exact Bool.false_ne_true
  simp only [mapCase, hexpansions, hruns]

/-- **What a run is mapped to** is lowered, and no separator. -/
theorem isLowered_of_run (hrun : run ∈ lowerRuns) (hc : run.holds c.toNat = true) :
    IsLowered (Char.ofNat (Int.toNat (c.toNat + run.offset))) ∧
      isSeparator (Char.ofNat (Int.toNat (c.toNat + run.offset))) = false := by
  obtain ⟨hmapped, havoids⟩ := lowerRuns_avoid run hrun
  have hpositive : 0 ≤ run.first + run.offset := by
    rw [CaseRun.isMapped, Bool.and_eq_true, decide_eq_true_eq] at hmapped
    exact hmapped.1
  have hnone : ∀ other ∈ lowerRuns ++ expanded ++ separators,
      other.holds (Char.ofNat (Int.toNat (c.toNat + run.offset))).toNat = false := by
    intro other hother
    rw [run.toNat_ofNat hmapped hc]
    exact CaseRun.not_holds_of_avoids (havoids other hother) hpositive hc
  refine ⟨⟨?_, mapCase_lower_of_not_holds fun other h => hnone other (List.mem_append_left _ h)⟩,
    isSeparator_eq_false fun other h => hnone other (List.mem_append_right _ h)⟩
  -- The capital sigma is lowered by a run, so it is no image of one.
  intro hsigma
  have hlisted : lowerRuns.any (·.holds ('Σ').toNat) = true := by decide +kernel
  obtain ⟨other, hother, hholds⟩ := List.any_eq_true.mp hlisted
  rw [← hsigma, hnone other (List.mem_append_left _ (List.mem_append_left _ hother))] at hholds
  cases hholds

instance (c : Char) : Decidable (IsLowered c) := inferInstanceAs (Decidable (_ ∧ _))

theorem isLowered_of_expansion : ∀ e ∈ lowerExpansions, ∀ n ∈ e.2,
    IsLowered (Char.ofNat n) ∧ isSeparator (Char.ofNat n) = false := by
  decide +kernel

/-- **What a character is mapped to** is lowered: either the character itself, or something that is
no separator. -/
theorem mem_mapCase_lower (hc : c ≠ 'Σ') (hd : d ∈ mapCase lowerExpansions lowerRuns c) :
    IsLowered d ∧ (d = c ∨ isSeparator d = false) := by
  -- Expansions come first, then the runs, and what has neither stays as it is.
  cases hlookup : lowerExpansions.lookup c.toNat with
  | some codes =>
    obtain ⟨before, after, hsplit, -⟩ := List.lookup_eq_some_iff.mp hlookup
    have hmem : (c.toNat, codes) ∈ lowerExpansions :=
      hsplit ▸ List.mem_append_right _ List.mem_cons_self
    simp only [mapCase, hlookup, List.mem_map] at hd
    obtain ⟨n, hn, rfl⟩ := hd
    obtain ⟨hlowered, hseparator⟩ := isLowered_of_expansion _ hmem n hn
    exact ⟨hlowered, .inr hseparator⟩
  | none =>
    cases hfind : lowerRuns.find? (·.holds c.toNat) with
    | some run =>
      simp only [mapCase, hlookup, hfind, List.mem_singleton] at hd
      have hholds : run.holds c.toNat = true := by simpa using List.find?_some hfind
      obtain ⟨hlowered, hseparator⟩ := isLowered_of_run (List.mem_of_find?_eq_some hfind) hholds
      exact ⟨hd ▸ hlowered, .inr (hd ▸ hseparator)⟩
    | none =>
      have hfixed : mapCase lowerExpansions lowerRuns c = [c] := by
        simp only [mapCase, hlookup, hfind]
      rw [hfixed, List.mem_singleton] at hd
      exact ⟨hd ▸ ⟨hc, hfixed⟩, .inl hd⟩

theorem mapCase_lower_ne_nil (c : Char) : mapCase lowerExpansions lowerRuns c ≠ [] := by
  have hexpansions : ∀ e ∈ lowerExpansions, e.2 ≠ [] := by decide
  cases hlookup : lowerExpansions.lookup c.toNat with
  | some codes =>
    obtain ⟨before, after, hsplit, -⟩ := List.lookup_eq_some_iff.mp hlookup
    have hmem : (c.toNat, codes) ∈ lowerExpansions :=
      hsplit ▸ List.mem_append_right _ List.mem_cons_self
    simp only [mapCase, hlookup]
    intro hnil
    exact hexpansions _ hmem (List.map_eq_nil_iff.mp hnil)
  | none =>
    simp only [mapCase, hlookup]
    split <;> exact List.cons_ne_nil _ _

/-! ## Texts -/

/-- The lower-case form of a character of a text, by what stands before and behind it. -/
def lowered (before : Text) (c : Char) (rest : Text) : Text :=
  if c == 'Σ' then
    if startsCased before && !startsCased rest then ['ς'] else ['σ']
  else mapCase lowerExpansions lowerRuns c

theorem lowerAfter_cons (before : Text) (c : Char) (t : Text) :
    lowerAfter before (c :: t) = lowered before c t ++ lowerAfter (c :: before) t := rfl

theorem mem_lowered (hd : d ∈ lowered before c t) :
    IsLowered d ∧ (d = c ∨ isSeparator d = false) := by
  unfold lowered at hd
  split at hd
  -- Either of the small sigmas.
  · have hfinal : IsLowered 'ς' ∧ isSeparator 'ς' = false := by decide +kernel
    have hinner : IsLowered 'σ' ∧ isSeparator 'σ' = false := by decide +kernel
    split at hd <;> rw [List.mem_singleton.mp hd]
    · exact ⟨hfinal.1, .inr hfinal.2⟩
    · exact ⟨hinner.1, .inr hinner.2⟩
  · rename_i hc
    exact mem_mapCase_lower (by simpa using hc) hd

theorem lowered_ne_nil (before : Text) (c : Char) (t : Text) : lowered before c t ≠ [] := by
  unfold lowered
  split
  · split <;> exact List.cons_ne_nil _ _
  · exact mapCase_lower_ne_nil c

theorem mem_lowerAfter (hd : d ∈ lowerAfter before t) :
    IsLowered d ∧ (d ∈ t ∨ isSeparator d = false) := by
  induction t generalizing before with
  | nil => cases hd
  | cons c t ih =>
    rw [lowerAfter_cons, List.mem_append] at hd
    rcases hd with hd | hd
    · obtain ⟨hlowered, rfl | hseparator⟩ := mem_lowered hd
      · exact ⟨hlowered, .inl List.mem_cons_self⟩
      · exact ⟨hlowered, .inr hseparator⟩
    · obtain ⟨hlowered, hmem | hseparator⟩ := ih hd
      · exact ⟨hlowered, .inl (List.mem_cons_of_mem c hmem)⟩
      · exact ⟨hlowered, .inr hseparator⟩

/-- **The characters of a lower-case form** are lowered, and its separators were there before. -/
theorem mem_lower (hd : d ∈ lower t) : IsLowered d ∧ (d ∈ t ∨ isSeparator d = false) :=
  mem_lowerAfter hd

theorem lowerAfter_of_isLowered (h : ∀ c ∈ t, IsLowered c) : lowerAfter before t = t := by
  induction t generalizing before with
  | nil => rfl
  | cons c t ih =>
    obtain ⟨hsigma, hfixed⟩ := h c List.mem_cons_self
    have hrest : lowerAfter (c :: before) t = t := ih fun d hd => h d (List.mem_cons_of_mem c hd)
    rw [lowerAfter_cons, hrest, lowered, beq_eq_false_iff_ne.mpr hsigma,
      if_neg Bool.false_ne_true, hfixed, List.singleton_append]

/-- **A text of lower-case forms has nothing left to lower.** -/
theorem lower_of_isLowered (h : ∀ c ∈ t, IsLowered c) : lower t = t := lowerAfter_of_isLowered h

/-- The first character of a lower-case form is no separator if the first character was none. -/
theorem head_lower (h : ∃ c, t.head? = some c ∧ isSeparator c = false) :
    ∃ c, (lower t).head? = some c ∧ isSeparator c = false := by
  obtain ⟨c, hc, hseparator⟩ := h
  obtain ⟨rest, rfl⟩ := List.head?_eq_some_iff.mp hc
  obtain ⟨d, more, hmore⟩ := List.exists_cons_of_ne_nil (lowered_ne_nil [] c rest)
  have hd : d ∈ lowered [] c rest := hmore ▸ List.mem_cons_self
  refine ⟨d, ?_, ?_⟩
  · rw [lower, lowerAfter_cons, hmore, List.cons_append, List.head?_cons]
  · obtain ⟨-, rfl | hother⟩ := mem_lowered hd
    · exact hseparator
    · exact hother

end Bitext.Unicode
