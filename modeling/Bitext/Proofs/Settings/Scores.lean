import Bitext.Proofs.Score.Exhaustive
import Bitext.Proofs.Score.Extended
import Bitext.Settings.Basic
import Mathlib.Data.Nat.Cast.Order.Ring

/-!
# Scores under settings that were checked

The checks of settings are to keep scores meaningful: a candidate may lose points, but it keeps a
score between zero and the one it came with, and better candidates stay better.  Most of the checks
ask for a range, and what is no number lies in none.  Penalties are only refused if they are
negative, which what is no number is not.  So there are settings that pass the checks and leave
candidates without a score; all others that pass keep scores meaningful, infinite penalties among
them.

## Main definitions

* `Settings.adjusted`: the score of a candidate under settings.
* `Settings.KeepsScores`: scores stay meaningful under settings.

## Main results

* `Penalties.IsSound.deduct_le`, `Penalties.IsSound.deduct_le_deduct`: what candidates lose
* `Settings.keepsScores_iff`: which of the settings that pass the checks keep scores meaningful
-/

namespace Bitext

variable {p : Penalties Extended} {preferences : Preferences} {fraction : Extended}
  {c d : Candidate Extended} {q : Rat}

/-- A score as candidates have it before anything is adjusted. -/
structure IsRaw {α : Type} [Score α] (x : α) : Prop where
  ge : Score.le (Score.ofNat 0) x
  le : Score.le x (Score.ofNat 100)

theorem IsRaw.exists_finite {x : Extended} (h : IsRaw x) : ∃ r, x = .finite r ∧ 0 ≤ r ∧ r ≤ 100 :=
  Extended.exists_finite_of_between h.ge h.le

/-! ## What candidates lose -/

namespace Penalties

section Deduction

variable {α : Type} [Score α]

/-- What is left of the score of a candidate outside the preferred domains. -/
def outside (p : Penalties α) (fraction score : α) : α :=
  score * (Score.ofNat 1 - fraction) - p.domain

/-- The score of a candidate, or what is left of it outside the preferred domains. -/
def suited (p : Penalties α) (preferences : Preferences) (fraction : α) (c : Candidate α) : α :=
  if preferences.suits c.unit then c.score else p.outside fraction c.score

/-- What is left of the score of a candidate, also below zero. -/
def deduct (p : Penalties α) (preferences : Preferences) (fraction : α) (c : Candidate α) : α :=
  if preferences.penalizeDirty && p.marksDirty c.unit then
    p.suited preferences fraction c - p.dirty
  else p.suited preferences fraction c

theorem adjust_eq (p : Penalties α) (preferences : Preferences) (fraction : α) (c : Candidate α) :
    p.adjust preferences fraction c =
      Score.clamp (Score.ofNat 0) (Score.ofNat 100) (p.deduct preferences fraction c) := rfl

end Deduction

/-- Penalties that only take points away: they are numbers and not negative, and the fraction is a
part of the whole. -/
structure IsSound (p : Penalties Extended) (fraction : Extended) : Prop where
  domain : Score.le (Score.ofNat 0) p.domain
  dirty : Score.le (Score.ofNat 0) p.dirty
  fraction_ge : Score.le (Score.ofNat 0) fraction
  fraction_le : Score.le fraction (Score.ofNat 1)

namespace IsSound

/-- Outside the preferred domains a part of the score is kept, less the penalty. -/
theorem exists_part (h : p.IsSound fraction) : ∃ part : Rat, 0 ≤ part ∧ part ≤ 1 ∧
    ∀ r, p.outside fraction (.finite r) = .finite (r * part) - p.domain := by
  obtain ⟨g, rfl, hg, hg1⟩ := Extended.exists_finite_of_between h.fraction_ge h.fraction_le
  rw [Nat.cast_zero] at hg
  rw [Nat.cast_one] at hg1
  refine ⟨1 - g, sub_nonneg.mpr hg1, sub_le_self 1 hg, fun r => ?_⟩
  rw [outside, Extended.ofNat_eq, Extended.finite_sub_finite, Extended.finite_mul_finite,
    Nat.cast_one]

theorem outside_le (h : p.IsSound fraction) (hc : IsRaw c.score) :
    Score.le (p.outside fraction c.score) c.score := by
  obtain ⟨part, -, hpart, houtside⟩ := h.exists_part
  obtain ⟨r, hr, hr0, -⟩ := hc.exists_finite
  rw [hr, houtside]
  apply Extended.sub_le _ h.domain
  exact Extended.finite_le_finite.mpr (mul_le_of_le_one_right hr0 hpart)

/-- Of two scores, the greater one stays the greater one outside the preferred domains. -/
theorem outside_le_outside (h : p.IsSound fraction) (hc : IsRaw c.score) (hd : IsRaw d.score)
    (hle : Score.le c.score d.score) :
    Score.le (p.outside fraction c.score) (p.outside fraction d.score) := by
  obtain ⟨part, hpart0, -, houtside⟩ := h.exists_part
  obtain ⟨r, hr, -⟩ := hc.exists_finite
  obtain ⟨r', hr', -⟩ := hd.exists_finite
  rw [hr, hr'] at hle ⊢
  rw [houtside, houtside]
  apply Extended.sub_le_sub _ (Extended.finite_le_finite.mpr (le_refl _)) h.domain
  apply Extended.finite_le_finite.mpr
  exact mul_le_mul_of_nonneg_right (Extended.finite_le_finite.mp hle) hpart0

/-- Before it may be found dirty, no candidate has gained points. -/
theorem suited_le (h : p.IsSound fraction) (preferences : Preferences) (hc : IsRaw c.score) :
    Score.le (p.suited preferences fraction c) c.score := by
  rw [suited]
  split
  · exact LawfulScore.le_left hc.le
  · exact h.outside_le hc

/-- **No candidate gains points.** -/
theorem deduct_le (h : p.IsSound fraction) (preferences : Preferences) (hc : IsRaw c.score) :
    Score.le (p.deduct preferences fraction c) c.score := by
  have hsuited := h.suited_le preferences hc
  obtain ⟨r, hr, -⟩ := hc.exists_finite
  rw [deduct]
  split
  · rw [hr] at hsuited ⊢
    exact Extended.sub_le hsuited h.dirty
  · exact hsuited

/-- **Better candidates stay better**, if they lose points for the same reasons. -/
theorem deduct_le_deduct (h : p.IsSound fraction) (hc : IsRaw c.score) (hd : IsRaw d.score)
    (hunit : c.unit = d.unit) (hle : Score.le c.score d.score) :
    Score.le (p.deduct preferences fraction c) (p.deduct preferences fraction d) := by
  have hsuited : Score.le (p.suited preferences fraction c) (p.suited preferences fraction d) := by
    rw [suited, suited, hunit]
    split
    · exact hle
    · exact h.outside_le_outside hc hd hle
  rw [deduct, deduct, hunit]
  split
  · have hbound := h.suited_le preferences hd
    obtain ⟨r, hr, -⟩ := hd.exists_finite
    rw [hr] at hbound
    exact Extended.sub_le_sub hsuited hbound h.dirty
  · exact hsuited

end IsSound

end Penalties

/-! ## Settings -/

namespace Settings

variable {s : Settings Extended}

/-- The score of a candidate under settings. -/
def adjusted {α : Type} [Score α] (s : Settings α) (preferences : Preferences)
    (c : Candidate α) : α :=
  s.penalties.adjust preferences s.mismatchPenalty c

/-- Scores stay meaningful under settings, whatever is preferred. -/
structure KeepsScores {α : Type} [Score α] (s : Settings α) : Prop where
  /-- A candidate keeps a score between zero and the one it came with. -/
  between : ∀ preferences c, IsRaw c.score →
    Score.le (Score.ofNat 0) (s.adjusted preferences c) ∧
      Score.le (s.adjusted preferences c) c.score
  /-- A candidate that suits and is not penalized as a dirty one loses nothing. -/
  unchanged : ∀ preferences c, IsRaw c.score → preferences.suits c.unit →
    ¬(preferences.penalizeDirty ∧ s.penalties.marksDirty c.unit) →
    s.adjusted preferences c = c.score
  /-- Of two candidates with the same unit, the better one stays the better one. -/
  monotone : ∀ preferences c d, IsRaw c.score → IsRaw d.score → c.unit = d.unit →
    Score.le c.score d.score →
    Score.le (s.adjusted preferences c) (s.adjusted preferences d)
  /-- The best match has a number for its score. -/
  isNumber : ∀ preferences candidates m, (∀ c ∈ candidates, IsRaw c.score) →
    s.penalties.bestMatch? preferences s.mismatchPenalty candidates = some m →
    Score.IsNumber m.score

theorem hundred : Score.le (Score.ofNat 0 : Extended) (Score.ofNat 100) :=
  Extended.finite_le_finite.mpr (Nat.cast_le.mpr (Nat.zero_le 100))

/-- What is not negative is at least zero, unless it is no number. -/
theorem ge_of_not_isNegative {x : Extended} (hx : Score.IsNumber x) (h : isNegative x = false) :
    Score.le (Score.ofNat 0) x :=
  Score.le_of_not_lt hx (Extended.isNumber_finite _) (Bool.eq_false_iff.mp h)

/-- What settings have that pass the checks. -/
theorem of_flaw?_eq_none (h : s.flaw? = none) :
    isBetween 0 1 s.mismatchPenalty = true ∧ isNegative s.domainPenalty = false ∧
      isNegative s.dirtyPenalty = false := by
  rw [flaw?] at h
  split at h
  · cases h
  · split at h
    · cases h
    · rename_i hfraction
      split at h
      · cases h
      · rename_i hpenalties
        rw [Bool.not_eq_true, Bool.not_eq_false'] at hfraction
        rw [Bool.not_eq_true, Bool.or_eq_false_iff] at hpenalties
        exact ⟨hfraction, hpenalties⟩

theorem isSound_of_flaw?_eq_none (h : s.flaw? = none) (hdomain : Score.IsNumber s.domainPenalty)
    (hdirty : Score.IsNumber s.dirtyPenalty) : s.penalties.IsSound s.mismatchPenalty := by
  obtain ⟨hfraction, hdomain', hdirty'⟩ := of_flaw?_eq_none h
  obtain ⟨hge, hle⟩ := Bool.and_eq_true_iff.mp hfraction
  exact ⟨ge_of_not_isNegative hdomain hdomain', ge_of_not_isNegative hdirty hdirty', hge, hle⟩

/-! ### Penalties that are no numbers -/

theorem clamp_noNumber (low high : Extended) : Score.clamp low high .noNumber = .noNumber := by
  have hlow : ¬Score.lt .noNumber low := fun hlt =>
    absurd (LawfulScore.le_left (Score.le_of_lt hlt)) Extended.not_isNumber
  have hhigh : ¬Score.lt high .noNumber := fun hlt =>
    absurd (LawfulScore.le_right (Score.le_of_lt hlt)) Extended.not_isNumber
  simp only [Score.clamp, if_neg hlow, if_neg hhigh]

/-- What has a score between zero and the one it came with has a number for it. -/
theorem KeepsScores.adjusted_ne (h : s.KeepsScores) (hc : IsRaw c.score) :
    s.adjusted preferences c ≠ .noNumber := by
  intro hnone
  obtain ⟨hge, -⟩ := h.between preferences c hc
  rw [hnone] at hge
  exact Extended.not_isNumber (LawfulScore.le_right hge)

/-- A candidate without a domain and without a point. -/
def unsuited (s : Settings Extended) : Candidate Extended where
  unit := {
    sourceText := "a".toList
    targetText := "b".toList
    sourceLanguage := "en".toList
    targetLanguage := "es".toList
    failedChecks? := some s.dirtyThreshold }
  score := Score.ofNat 0

theorem isRaw_unsuited : IsRaw s.unsuited.score := ⟨LawfulScore.le_left hundred, hundred⟩

/-- A domain penalty that is no number leaves no score outside the preferred domains. -/
theorem adjusted_unsuited (h : s.domainPenalty = .noNumber) :
    s.adjusted { domains? := some ["law".toList] } s.unsuited = .noNumber := by
  have hdeduct : s.penalties.deduct { domains? := some ["law".toList] } s.mismatchPenalty
      s.unsuited = s.unsuited.score * (Score.ofNat 1 - s.mismatchPenalty) - s.domainPenalty := rfl
  rw [adjusted, Penalties.adjust_eq, hdeduct, h, Extended.sub_noNumber, clamp_noNumber]

/-- A penalty for dirty units that is no number leaves no score of them. -/
theorem adjusted_dirty (h : s.dirtyPenalty = .noNumber) :
    s.adjusted { penalizeDirty := true } s.unsuited = .noNumber := by
  have hdirty : s.penalties.marksDirty s.unsuited.unit = true := decide_eq_true (Nat.le_refl _)
  have hdeduct : s.penalties.deduct { penalizeDirty := true } s.mismatchPenalty s.unsuited =
      s.unsuited.score - s.dirtyPenalty := if_pos hdirty
  rw [adjusted, Penalties.adjust_eq, hdeduct, h, Extended.sub_noNumber, clamp_noNumber]

/-- **Sound penalties keep scores meaningful.** -/
theorem keepsScores_of_isSound (h : s.penalties.IsSound s.mismatchPenalty) : s.KeepsScores where
  between := by
    intro preferences c hc
    have hle := h.deduct_le preferences hc
    rw [adjusted, Penalties.adjust_eq]
    exact ⟨Score.le_clamp hundred (LawfulScore.le_left hle), Score.clamp_le_of_le hundred hc.ge hle⟩
  unchanged := by
    intro preferences c hc hsuits hclean
    rw [← Bool.and_eq_true_iff] at hclean
    rw [adjusted, Penalties.adjust_eq, Penalties.deduct, if_neg hclean, Penalties.suited,
      if_pos hsuits]
    exact Score.clamp_eq_self hc.ge hc.le
  monotone := by
    intro preferences c d hc hd hunit hle
    rw [adjusted, adjusted, Penalties.adjust_eq, Penalties.adjust_eq]
    exact Score.clamp_le_clamp hundred (h.deduct_le_deduct hc hd hunit hle)
  isNumber := by
    intro preferences candidates m hcandidates hm
    have hnumber : ∀ c ∈ candidates,
        Score.IsNumber (s.penalties.adjust preferences s.mismatchPenalty c) := by
      intro c hc
      have hle := h.deduct_le preferences (hcandidates c hc)
      rw [Penalties.adjust_eq]
      exact LawfulScore.le_right (Score.le_clamp hundred (LawfulScore.le_left hle))
    rw [bestMatch?_eq_firstMaximum? _ _ _ hnumber] at hm
    obtain ⟨found, hfound, rfl⟩ := Option.map_eq_some_iff.mp hm
    exact hnumber found.2 (mem_of_firstMaximum? hfound)

/-- **Of the settings that pass the checks, those keep scores meaningful whose penalties are
numbers**, be they infinite or not. -/
theorem keepsScores_iff (h : s.flaw? = none) :
    s.KeepsScores ↔ Score.IsNumber s.domainPenalty ∧ Score.IsNumber s.dirtyPenalty := by
  constructor
  · intro hkeeps
    -- A penalty that is no number leaves a candidate without a score.
    constructor
    · apply Extended.isNumber_of_ne
      intro hdomain
      exact hkeeps.adjusted_ne isRaw_unsuited (adjusted_unsuited hdomain)
    · apply Extended.isNumber_of_ne
      intro hdirty
      exact hkeeps.adjusted_ne isRaw_unsuited (adjusted_dirty hdirty)
  · rintro ⟨hdomain, hdirty⟩
    exact keepsScores_of_isSound (isSound_of_flaw?_eq_none h hdomain hdirty)

/-- The standard settings, and with them settings under which everything outside the preferred
domains loses all its points. -/
theorem keepsScores_standard :
    (standard : Settings Extended).flaw? = none ∧ (standard : Settings Extended).KeepsScores ∧
      ({ standard with domainPenalty := .infinite false } : Settings Extended).KeepsScores := by
  have hstandard : (standard : Settings Extended).flaw? = none := by decide +kernel
  have hinfinite : ({ standard with domainPenalty := .infinite false } : Settings Extended).flaw? =
      none := by decide +kernel
  have hfive : Score.IsNumber (Score.ofNat 5 : Extended) := Extended.isNumber_finite _
  exact ⟨hstandard, (keepsScores_iff hstandard).mpr ⟨hfive, hfive⟩,
    (keepsScores_iff hinfinite).mpr ⟨Extended.isNumber_of_ne nofun, hfive⟩⟩

/-- Settings whose domain penalty is no number. -/
def unscored : Settings Extended := { standard with domainPenalty := .noNumber }

/-- **Settings can pass the checks and leave a candidate without a score**, and that candidate is
the best match. -/
theorem adjusted_unscored :
    unscored.flaw? = none ∧ IsRaw unscored.unsuited.score ∧
      unscored.adjusted { domains? := some ["law".toList] } unscored.unsuited = .noNumber ∧
      (unscored.penalties.bestMatch? { domains? := some ["law".toList] } unscored.mismatchPenalty
        [unscored.unsuited]).map (·.score) = some .noNumber ∧
      ¬unscored.KeepsScores := by
  have hadjusted : unscored.adjusted { domains? := some ["law".toList] } unscored.unsuited =
      .noNumber := adjusted_unsuited rfl
  refine ⟨by decide +kernel, isRaw_unsuited, hadjusted, ?_, ?_⟩
  · show some (unscored.adjusted { domains? := some ["law".toList] } unscored.unsuited) = _
    rw [hadjusted]
  · intro hkeeps
    exact hkeeps.adjusted_ne isRaw_unsuited hadjusted

end Settings

end Bitext
