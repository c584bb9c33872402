import Bitext.Job.ContentCheck
import Bitext.Job.Duplicates
import Bitext.Proofs.Memory.Scan
import Bitext.Proofs.Unit.Key
import Mathlib.Data.List.Forall2

/-!
# The direction in which units are stored

A memory turns a unit to face the pair of a request before it does anything else with it.  So it
makes no difference from which side a unit was stored: memories that differ in nothing else answer
every request alike, and so do the jobs that scan them.

A scan of the opposite pair turns the same units the other way round.  There is one exception.
Duplicates are found by their content keys, and a key is made of the texts with a zero byte between
them.  A text that has this byte itself can give two units a key in common from one side and
different keys from the other, and then the scans for duplicates differ.  Without such a text, and
without a collision of digests, they do not.

## Main definitions

* `Memory.Mirrors`: memories that differ in the direction of their units only.
* `Memory.AnswersAlike`: memories that answer every request for a pair alike.

## Main results

* `oriented?_reversed`, `oriented?_opposite`: units and pairs turned round
* `Mirrors.answersAlike`: the direction of storage makes no difference
* `scan_opposite_iff`: when a scan of the opposite pair has the same units
* `isRepeated_opposite`: it has them if no text has a zero byte and no digests collide
* `scan_opposite_separator`: a scan for duplicates that depends on the direction of the request
-/

namespace Bitext

variable {u v : TranslationUnit} {pair : LanguagePair} {filters : SearchFilters} {m m₁ m₂ : Memory}

/-! ## Units turned round -/

theorem LanguagePair.reversed_ne (hpair : pair.source ≠ pair.target) : pair.reversed ≠ pair :=
  fun heq => hpair (congrArg LanguagePair.target heq)

namespace TranslationUnit

theorem reversed_reversed (u : TranslationUnit) : u.reversed.reversed = u := rfl

theorem reversed_injective : Function.Injective reversed :=
  Function.LeftInverse.injective reversed_reversed

theorem pair_reversed (u : TranslationUnit) : u.reversed.pair = u.pair.reversed := rfl

theorem oriented?_of_pair_eq (hu : u.pair = pair) : u.oriented? pair = some u := if_pos hu

/-- A unit of the opposite pair is not a unit of the pair as well, so it is turned round. -/
theorem oriented?_of_pair_opposite (hpair : pair.source ≠ pair.target)
    (hu : u.pair = pair.reversed) : u.oriented? pair = some u.reversed := by
  rw [oriented?, hu, if_neg (LanguagePair.reversed_ne hpair)]
  exact if_pos rfl

theorem oriented?_of_pair_ne (hu : u.pair ≠ pair) (hopposite : u.pair ≠ pair.reversed) :
    u.oriented? pair = none := by
  rw [oriented?, if_neg hu, if_neg]
  rintro rfl
  exact hopposite rfl

/-- **A unit faces the pair in one way**, whichever way round it is stored. -/
theorem oriented?_reversed (u : TranslationUnit) (hpair : pair.source ≠ pair.target) :
    u.reversed.oriented? pair = u.oriented? pair := by
  by_cases hu : u.pair = pair
  · have hturned : u.reversed.pair = pair.reversed := by rw [pair_reversed, hu]
    rw [oriented?_of_pair_eq hu, oriented?_of_pair_opposite hpair hturned, reversed_reversed]
  · by_cases hopposite : u.pair = pair.reversed
    · have hturned : u.reversed.pair = pair := by
        rw [pair_reversed, hopposite]
        rfl
      rw [oriented?_of_pair_opposite hpair hopposite, oriented?_of_pair_eq hturned]
    · rw [oriented?_of_pair_ne hu hopposite, oriented?_of_pair_ne]
      · exact fun hturned => hopposite (congrArg LanguagePair.reversed hturned)
      · exact fun hturned => hu (congrArg LanguagePair.reversed hturned)

/-- A unit faces the opposite pair from its other side. -/
theorem oriented?_opposite (u : TranslationUnit) (hpair : pair.source ≠ pair.target) :
    u.oriented? pair.reversed = (u.oriented? pair).map reversed := by
  by_cases hu : u.pair = pair
  · have hopposite : u.pair = pair.reversed.reversed := hu
    rw [oriented?_of_pair_eq hu, oriented?_of_pair_opposite hpair.symm hopposite, Option.map_some]
  · by_cases hopposite : u.pair = pair.reversed
    · rw [oriented?_of_pair_opposite hpair hopposite, oriented?_of_pair_eq hopposite,
        Option.map_some, reversed_reversed]
    · rw [oriented?_of_pair_ne hu hopposite, oriented?_of_pair_ne hopposite hu, Option.map_none]

end TranslationUnit

theorem SearchFilters.accepts_reversed (filters : SearchFilters) (u : TranslationUnit) :
    filters.accepts u.reversed = filters.accepts u := rfl

theorem ScanCursor.advance_congr {s : ScanCursor} {us vs : List TranslationUnit}
    (h : List.Forall₂ (fun u v => s.yield? u = s.yield? v) us vs) (n : Nat) :
    s.advance n us = s.advance n vs := by
  induction h generalizing n with
  | nil => rfl
  | cons hfirst _ ih =>
    cases n with
    | zero => rfl
    | succ n => simp only [advance, hfirst, ih]

namespace Memory

/-! ## Memories that differ in direction only -/

/-- The memories have the same units in the same order, each of them stored one way round or the
other. -/
def Mirrors (m₁ m₂ : Memory) : Prop :=
  List.Forall₂ (fun u v => v = u ∨ v = u.reversed) m₁.units m₂.units

/-- The memories answer every request for the pair alike, and so do the jobs that scan them. -/
structure AnswersAlike (m₁ m₂ : Memory) (pair : LanguagePair) : Prop where
  search : ∀ {α : Type} [Score α] (query : Text) (filters : SearchFilters) (limit : Nat),
    (m₁.search query pair filters limit : List (Candidate α)) =
      m₂.search query pair filters limit
  scan : ∀ filters, m₁.scan pair filters = m₂.scan pair filters
  openScan : ∀ filters, m₁.openScan pair filters = m₂.openScan pair filters
  pull : ∀ s : ScanCursor, s.pair = pair → ∀ n, m₁.pull s n = m₂.pull s n
  fileNames : ∀ filters, m₁.fileNames pair filters = m₂.fileNames pair filters
  findDuplicates : ∀ {α : Type} [Score α] (filters : SearchFilters),
    Job.findDuplicates (m₁.backend : Backend α) pair filters =
      Job.findDuplicates (m₂.backend : Backend α) pair filters
  checkContent : ∀ {α : Type} [Score α] (domain : Text) (checker : Job.Checker) (batchSize : Nat),
    Job.checkContent (m₁.backend : Backend α) pair domain checker batchSize =
      Job.checkContent (m₂.backend : Backend α) pair domain checker batchSize

section Mirrors

variable (h : Mirrors m₁ m₂) (hpair : pair.source ≠ pair.target)
include h hpair

/-- The units face the pair alike, one by one. -/
theorem Mirrors.oriented :
    List.Forall₂ (fun u v => u.oriented? pair = v.oriented? pair) m₁.units m₂.units := by
  refine h.imp ?_
  rintro u v (rfl | rfl)
  · rfl
  · exact (u.oriented?_reversed hpair).symm

theorem Mirrors.matching_eq (filters : SearchFilters) :
    m₁.matching pair filters = m₂.matching pair filters := by
  refine congrArg (List.filter filters.accepts) ?_
  have horiented := h.oriented hpair
  generalize m₁.units = us at horiented
  generalize m₂.units = vs at horiented
  induction horiented with
  | nil => rfl
  | cons hfirst _ ih => rw [List.filterMap_cons, List.filterMap_cons, hfirst, ih]

theorem Mirrors.isRepeated_eq (filters : SearchFilters) :
    m₁.isRepeated pair filters = m₂.isRepeated pair filters := by
  unfold isRepeated
  rw [h.matching_eq hpair]

theorem Mirrors.scan_eq (filters : SearchFilters) :
    m₁.scan pair filters = m₂.scan pair filters := by
  rw [scan_eq_filter, scan_eq_filter, h.matching_eq hpair, h.isRepeated_eq hpair]

/-- A cursor goes through the units of either memory alike, wherever it stands. -/
theorem Mirrors.pull_eq {s : ScanCursor} (hs : s.pair = pair) (n : Nat) :
    m₁.pull s n = m₂.pull s n := by
  have hwaiting : List.Forall₂ (fun u v => s.yield? u = s.yield? v)
      (m₁.units.drop s.position) (m₂.units.drop s.position) := by
    refine List.Forall₂.imp ?_ (List.forall₂_drop s.position (h.oriented hpair))
    intro u v huv
    rw [ScanCursor.yield?, ScanCursor.yield?, hs, huv]
  rw [pull, ScanCursor.advance_congr hwaiting, pull]

/-- **The direction of storage makes no difference.** -/
theorem Mirrors.answersAlike : AnswersAlike m₁ m₂ pair where
  search query filters limit := by
    unfold search eligible
    rw [h.matching_eq hpair]
  scan := h.scan_eq hpair
  openScan filters := by
    rw [openScan, h.matching_eq hpair, openScan]
  pull _ hs := h.pull_eq hpair hs
  fileNames filters := by
    unfold fileNames
    rw [h.matching_eq hpair]
  findDuplicates filters := by
    unfold Job.findDuplicates backend
    simp only [h.scan_eq hpair]
  checkContent domain checker batchSize := by
    unfold Job.checkContent backend
    simp only [h.scan_eq hpair]

end Mirrors

/-! ## The opposite pair -/

theorem matching_opposite (m : Memory) (hpair : pair.source ≠ pair.target)
    (filters : SearchFilters) :
    m.matching pair.reversed filters = (m.matching pair filters).map (·.reversed) := by
  have horiented : m.units.filterMap (·.oriented? pair.reversed) =
      (m.units.filterMap (·.oriented? pair)).map (·.reversed) := by
    rw [List.map_filterMap]
    exact List.filterMap_congr fun u _ => u.oriented?_opposite hpair
  rw [matching, matching, horiented, List.filter_map]
  exact congrArg _ (List.filter_congr fun v _ => filters.accepts_reversed v)

/-- **A scan of the opposite pair** has the same units turned round, except that a scan for
duplicates has to find the same keys repeated from both sides. -/
theorem scan_opposite_iff (m : Memory) (hpair : pair.source ≠ pair.target)
    (filters : SearchFilters) :
    m.scan pair.reversed filters = (m.scan pair filters).map (·.reversed) ↔
      (filters.duplicatesOnly → ∀ v ∈ m.matching pair filters,
        m.isRepeated pair.reversed filters v.reversed = m.isRepeated pair filters v) := by
  rw [scan_eq_filter, scan_eq_filter, m.matching_opposite hpair, List.filter_map,
    (List.map_injective_iff.mpr TranslationUnit.reversed_injective).eq_iff]
  constructor
  · intro heq hduplicates v hv
    have hmem := congrArg (v ∈ ·) heq
    simp only [List.mem_filter, hv, true_and, hduplicates, Bool.not_true, Bool.false_or,
      Function.comp_apply, eq_iff_iff] at hmem
    exact Bool.eq_iff_iff.mpr hmem
  · intro h
    refine List.filter_congr fun v hv => ?_
    cases hduplicates : filters.duplicatesOnly with
    | false => rfl
    | true => exact h hduplicates v hv

/-- The same keys are repeated from both sides, if no text has a zero byte and the digests do not
collide: units with equal texts have equal texts from the other side too. -/
theorem isRepeated_opposite (m : Memory) (hpair : pair.source ≠ pair.target)
    {filters : SearchFilters} (hzero : ∀ u ∈ m.matching pair filters, u.IsZeroFree)
    (hcollision : CollisionFree (m.matching pair filters))
    (hopposite : CollisionFree (m.matching pair.reversed filters)) {v : TranslationUnit}
    (hv : v ∈ m.matching pair filters) :
    m.isRepeated pair.reversed filters v.reversed = m.isRepeated pair filters v := by
  rw [m.matching_opposite hpair] at hopposite
  rw [isRepeated, isRepeated, m.matching_opposite hpair, List.countP_map]
  refine congrArg (fun n : Nat => decide (2 ≤ n)) (List.countP_congr fun u hu => ?_)
  rw [Function.comp_apply, beq_iff_eq, beq_iff_eq, hcollision.contentKey_eq_iff hu hv (hzero u hu),
    hopposite.contentKey_eq_iff (List.mem_map_of_mem hu) (List.mem_map_of_mem hv)
      (hzero u hu).reversed]
  exact And.comm

/-- **The direction of storage makes no difference, and that of a request almost none**: memories
that differ in the direction of their units answer alike.  A scan of the opposite pair has the same
units turned round, exactly if a scan for duplicates finds the same keys repeated from both sides,
as it does where no text has a zero byte and no digests collide. -/
theorem answersAlike_and_scan_opposite (h : Mirrors m₁ m₂) (hpair : pair.source ≠ pair.target) :
    AnswersAlike m₁ m₂ pair ∧ ∀ filters,
      (m₁.scan pair.reversed filters = (m₁.scan pair filters).map (·.reversed) ↔
        (filters.duplicatesOnly → ∀ v ∈ m₁.matching pair filters,
          m₁.isRepeated pair.reversed filters v.reversed = m₁.isRepeated pair filters v)) ∧
      ((∀ u ∈ m₁.matching pair filters, u.IsZeroFree) →
        CollisionFree (m₁.matching pair filters) →
        CollisionFree (m₁.matching pair.reversed filters) →
        m₁.scan pair.reversed filters = (m₁.scan pair filters).map (·.reversed)) := by
  refine ⟨h.answersAlike hpair, fun filters => ⟨m₁.scan_opposite_iff hpair filters, ?_⟩⟩
  intro hzero hcollision hopposite
  refine (m₁.scan_opposite_iff hpair filters).mpr fun _ v hv => ?_
  exact m₁.isRepeated_opposite hpair hzero hcollision hopposite hv

/-! ### Texts with a zero byte -/

/-- Two units with different texts.  With a zero byte between the texts they are the same bytes. -/
def separatorMemory : Memory where
  units := [
    { sourceText := "a\x00b".toList, targetText := "c".toList
      sourceLanguage := "en".toList, targetLanguage := "es".toList },
    { sourceText := "a".toList, targetText := "b\x00c".toList
      sourceLanguage := "en".toList, targetLanguage := "es".toList }]

def separatorPair : LanguagePair := ⟨"en".toList, "es".toList⟩

/-- Turned round, the units answer as before, and all of them are seen from the other side too. -/
theorem answersAlike_and_scan_opposite_separator :
    AnswersAlike separatorMemory ⟨separatorMemory.units.map (·.reversed)⟩ separatorPair ∧
      separatorMemory.scan separatorPair.reversed {} =
        (separatorMemory.scan separatorPair {}).map (·.reversed) := by
  have hmirrors : Mirrors separatorMemory ⟨separatorMemory.units.map (·.reversed)⟩ :=
    .cons (.inr rfl) (.cons (.inr rfl) .nil)
  obtain ⟨halike, hopposite⟩ := answersAlike_and_scan_opposite hmirrors
    (by decide : separatorPair.source ≠ separatorPair.target)
  exact ⟨halike, (hopposite {}).1.mpr nofun⟩

/-- **A scan for duplicates depends on the direction of the request.**  The units have one key from
one side and two keys from the other. -/
theorem scan_opposite_separator :
    separatorPair.source ≠ separatorPair.target ∧
      separatorMemory.scan separatorPair { duplicatesOnly := true } = separatorMemory.units ∧
      separatorMemory.scan separatorPair.reversed { duplicatesOnly := true } = [] ∧
      separatorMemory.scan separatorPair.reversed { duplicatesOnly := true } ≠
        (separatorMemory.scan separatorPair { duplicatesOnly := true }).map (·.reversed) := by
  have hstraight : separatorMemory.scan separatorPair { duplicatesOnly := true } =
      separatorMemory.units := by
    decide +kernel
  have hopposite : separatorMemory.scan separatorPair.reversed { duplicatesOnly := true } = [] := by
    decide +kernel
  refine ⟨by decide, hstraight, hopposite, ?_⟩
  rw [hstraight, hopposite]
  exact (List.cons_ne_nil _ _).symm

end Memory

end Bitext
