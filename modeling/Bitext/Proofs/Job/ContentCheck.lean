import Bitext.Job.PersonalData
import Bitext.Proofs.Batch

/-!
# Content checks and their batches

A content check hands the texts of a batch to the checker in one list, source and target of one unit
after those of another, and takes the verdicts off two by two.  As long as there is one verdict for
each text, every unit is judged by the verdicts on its own two texts.  So a checker that judges each
text on its own makes the same summary of a memory, whatever the size of the batches.

## Main definitions

* `failures`: the number of texts of a unit that do not pass.
* `CheckSummary.ofUnits`: what single verdicts say about units.
* `Memory.ofBatches`: a memory in which batches of units have been stored.

## Main results

* `result_checkBatches`: a check ends with the first batch for which the verdicts are wrong in
  number
* `checkContent_spec`: checks of any memory in batches of any size
-/

namespace Bitext

/-! ## Memories and what they yield -/

variable {u v : TranslationUnit} {pair : LanguagePair} {batches : List (List TranslationUnit)}

/-- Seen from either side, a unit has something visible in both texts. -/
theorem TranslationUnit.isUsable_of_oriented? (h : u.oriented? pair = some v) :
    v.isUsable = u.isUsable := by
  unfold oriented? at h
  split at h
  · cases h
    rfl
  · split at h
    · cases h
      exact Bool.and_comm _ _
    · cases h

namespace Memory

/-- The memory in which batches of units have been stored, one after another. -/
def ofBatches (batches : List (List TranslationUnit)) : Memory := batches.foldl insert {}

/-- A memory stores usable units only. -/
theorem isUsable_of_mem_ofBatches (h : u ∈ (ofBatches batches).units) : u.isUsable = true := by
  have hinsert : ∀ (batches : List (List TranslationUnit)) (m : Memory),
      (∀ u ∈ m.units, u.isUsable = true) →
      ∀ u ∈ (batches.foldl insert m).units, u.isUsable = true := by
    intro batches
    induction batches with
    | nil => exact fun m hm => hm
    | cons batch batches ih =>
      intro m hm
      refine ih _ fun u hu => ?_
      rcases List.mem_append.mp hu with hu | hu
      · exact hm u hu
      · exact (List.mem_filter.mp hu).2
  exact hinsert batches {} (fun u hu => absurd hu List.not_mem_nil) u h

/-- What a scan yields is usable. -/
theorem isUsable_of_mem_scan {filters : SearchFilters}
    (h : v ∈ (ofBatches batches).scan pair filters) : v.isUsable = true := by
  obtain ⟨u, hu, hyield⟩ := List.mem_filterMap.mp h
  obtain ⟨horiented, -⟩ := Option.filter_eq_some_iff.mp hyield
  rw [TranslationUnit.isUsable_of_oriented? horiented]
  exact isUsable_of_mem_ofBatches hu

end Memory

namespace Job

variable {passes : Text → Bool} {units : List TranslationUnit} {checker : Checker}

/-! ## Verdicts on units -/

/-- How many of the two texts of a unit do not pass. -/
def failures (passes : Text → Bool) (u : TranslationUnit) : Nat :=
  [u.sourceText, u.targetText].countP (!passes ·)

theorem failures_le_two (passes : Text → Bool) (u : TranslationUnit) : failures passes u ≤ 2 :=
  List.countP_le_length

/-- The unit marked with its number of texts that do not pass. -/
def flag (passes : Text → Bool) (u : TranslationUnit) : TranslationUnit :=
  { u with failedChecks? := some (failures passes u) }

namespace CheckSummary

/-- What single verdicts say about units: how many units there are, how many have only texts that
pass, how many have others, and these units themselves, marked. -/
def ofUnits (passes : Text → Bool) (units : List TranslationUnit) : CheckSummary where
  checked := units.length
  passed := units.countP (failures passes · = 0)
  failed := units.countP (failures passes · ≠ 0)
  flagged := (units.filter (failures passes · ≠ 0)).map (flag passes)

theorem checked_ofUnits (passes : Text → Bool) (units : List TranslationUnit) :
    (ofUnits passes units).checked =
      (ofUnits passes units).passed + (ofUnits passes units).failed := by
  have hcount := List.length_eq_countP_add_countP (failures passes · = 0) (l := units)
  simpa [ofUnits] using hcount

theorem failed_ofUnits (passes : Text → Bool) (units : List TranslationUnit) :
    (ofUnits passes units).failed = (ofUnits passes units).flagged.length := by
  exact List.countP_eq_length_filter.trans (List.length_map _).symm

/-- A unit is flagged for one text or for both. -/
theorem failedChecks?_of_mem_flagged (h : u ∈ (ofUnits passes units).flagged) :
    u.failedChecks? = some 1 ∨ u.failedChecks? = some 2 := by
  obtain ⟨v, hv, rfl⟩ := List.mem_map.mp h
  have hpos : failures passes v ≠ 0 := by simpa using (List.mem_filter.mp hv).2
  have hle := failures_le_two passes v
  have hcases : failures passes v = 1 ∨ failures passes v = 2 := by omega
  exact hcases.imp (congrArg some) (congrArg some)

/-- A unit is judged by the verdicts on its own texts. -/
theorem ofUnits_add (units : List TranslationUnit) (u : TranslationUnit) :
    (ofUnits passes units).add u (passes u.sourceText) (passes u.targetText) =
      ofUnits passes (units ++ [u]) := by
  have hcount : [passes u.sourceText, passes u.targetText].count false = failures passes u := by
    cases hs : passes u.sourceText <;> cases ht : passes u.targetText <;> simp [failures, hs, ht]
  rw [add, hcount]
  by_cases h : failures passes u = 0
  · simp [ofUnits, h]
  · simp [ofUnits, h, flag]

/-- **Verdicts are taken off two by two**, so the units of a batch are judged one after another. -/
theorem ofUnits_addBatch (units batch : List TranslationUnit) :
    (ofUnits passes units).addBatch batch ((textsOf batch).map passes) =
      ofUnits passes (units ++ batch) := by
  induction batch generalizing units with
  | nil => rw [List.append_nil]; rfl
  | cons u batch ih =>
    have hverdicts : (textsOf (u :: batch)).map passes =
        passes u.sourceText :: passes u.targetText :: (textsOf batch).map passes := rfl
    rw [hverdicts, addBatch, ofUnits_add, ih, List.append_assoc]
    rfl

end CheckSummary

/-! ## Runs of a check -/

/-- The checker has a wrong number of verdicts on the texts of a batch. -/
def miscounts (checker : Checker) (batch : List TranslationUnit) : Bool :=
  (checker (textsOf batch)).length != (textsOf batch).length

/-- **A check ends with the first batch for which the verdicts are wrong in number**; otherwise it
has added all batches. -/
theorem result_checkBatches (checker : Checker) (job : Text) (done : CheckSummary)
    (batches : List (List TranslationUnit)) :
    (checkBatches checker job done batches).result =
      match batches.find? (miscounts checker) with
      | some batch =>
        .error (wrongVerdicts (checker (textsOf batch)).length (textsOf batch).length)
      | none => .ok (batches.foldl (fun s b => s.addBatch b (checker (textsOf b))) done) := by
  induction batches generalizing done with
  | nil => rfl
  | cons batch batches ih =>
    rw [checkBatches]
    by_cases h : (checker (textsOf batch)).length = (textsOf batch).length
    · have hright : ¬ miscounts checker batch = true := by simp [miscounts, h]
      rw [List.find?_cons_of_neg hright]
      simp only [h, ne_eq, not_true_eq_false, if_false]
      exact ih _
    · have hwrong : miscounts checker batch = true := by simp [miscounts, h]
      rw [List.find?_cons_of_pos hwrong]
      simp only [h, ne_eq, not_false_eq_true, if_true]

theorem foldl_addBatch (passes : Text → Bool) (units : List TranslationUnit)
    (batches : List (List TranslationUnit)) :
    batches.foldl (fun s b => s.addBatch b ((textsOf b).map passes))
        (CheckSummary.ofUnits passes units) =
      CheckSummary.ofUnits passes (units ++ batches.flatten) := by
  induction batches generalizing units with
  | nil => rw [List.flatten_nil, List.append_nil]; rfl
  | cons batch batches ih =>
    rw [List.foldl_cons, CheckSummary.ofUnits_addBatch, ih, List.append_assoc, List.flatten_cons]

/-- A checker that judges each text on its own is never wrong in number, and the batches are
checked as if they were one. -/
theorem result_checkBatches_map (passes : Text → Bool) (job : Text)
    (batches : List (List TranslationUnit)) :
    (checkBatches (List.map passes) job {} batches).result =
      .ok (.ofUnits passes batches.flatten) := by
  have hnone : batches.find? (miscounts (List.map passes)) = none := by
    rw [List.find?_eq_none]
    intro batch _
    simp [miscounts]
  rw [result_checkBatches, hnone]
  exact congrArg Except.ok (foldl_addBatch passes [] batches)

/-! ## Checks of a memory -/

variable {α : Type} [Score α] {m : Memory} {domain : Text}

/-- The result of a check of a memory is that of its batches. -/
theorem result_checkContent (m : Memory) (pair : LanguagePair) (domain : Text) (checker : Checker)
    (size : Nat) :
    (checkContent (m.backend : Backend α) pair domain checker size).result =
      (checkBatches checker ("content-check ".toList ++ pair.text ++ ' ' :: domain) {}
        (Batch.all (!·.isUsable) size (m.scan pair { domains := [domain] }))).result := rfl

/-- If the scan yields usable units, batches of any size hold all of them. -/
theorem result_checkContent_map
    (h : ∀ u ∈ m.scan pair { domains := [domain] }, u.isUsable = true) (passes : Text → Bool)
    (size : Nat) :
    (checkContent (m.backend : Backend α) pair domain (List.map passes) size).result =
      .ok (.ofUnits passes (m.scan pair { domains := [domain] })) := by
  have hkept := List.filter_eq_self.mpr fun u hu => (Bool.not_not _).trans (h u hu)
  rw [result_checkContent, result_checkBatches_map, Batch.flatten_all, hkept]

/-- **Content checks do not depend on the size of the batches.** For every memory, pair, domain and
checker that judges each text on its own, there is one summary that comes out with batches of any
size: it counts every unit of the scan, as passed or as failed, and it has the units with a text
that does not pass, in the order of the scan, marked with the number of such texts and otherwise as
they are.  With a checker of any kind, the check fails if the verdicts on some batch are wrong in
number. -/
theorem checkContent_spec (stored : List (List TranslationUnit)) (pair : LanguagePair)
    (domain : Text) :
    let m := Memory.ofBatches stored
    let units := m.scan pair { domains := [domain] }
    let result (checker : Checker) (size : Nat) :=
      (checkContent (m.backend : Backend α) pair domain checker size).result
    (∀ (checker : Checker) (passes : Text → Bool), (∀ texts, checker texts = texts.map passes) →
      ∃ summary : CheckSummary, (∀ size, result checker size = .ok summary) ∧
        summary.checked = units.length ∧ summary.checked = summary.passed + summary.failed ∧
        summary.flagged = (units.filter (failures passes · ≠ 0)).map (flag passes) ∧
        summary.failed = summary.flagged.length ∧
        ∀ u ∈ summary.flagged, u.failedChecks? = some 1 ∨ u.failedChecks? = some 2) ∧
      ∀ (checker : Checker) (size : Nat),
        (∃ batch ∈ Batch.all (!·.isUsable) size units,
          (checker (textsOf batch)).length ≠ (textsOf batch).length) →
        ∃ batch ∈ Batch.all (!·.isUsable) size units,
          (checker (textsOf batch)).length ≠ (textsOf batch).length ∧
          result checker size =
            .error (wrongVerdicts (checker (textsOf batch)).length (textsOf batch).length) := by
  intro m units result
  constructor
  · intro checker passes hchecker
    obtain rfl : checker = List.map passes := funext hchecker
    have husable : ∀ u ∈ units, u.isUsable = true := fun u hu => Memory.isUsable_of_mem_scan hu
    exact ⟨.ofUnits passes units, result_checkContent_map husable passes, rfl,
      CheckSummary.checked_ofUnits passes units, rfl, CheckSummary.failed_ofUnits passes units,
      fun u hu => CheckSummary.failedChecks?_of_mem_flagged hu⟩
  · rintro checker size ⟨batch, hbatch, hwrong⟩
    -- The run stops at the first batch of this kind.
    obtain ⟨first, hfirst⟩ := Option.isSome_iff_exists.mp (List.find?_isSome.mpr
      ⟨batch, hbatch, (by simpa [miscounts] using hwrong : miscounts checker batch = true)⟩)
    refine ⟨first, List.mem_of_find?_eq_some hfirst, ?_, ?_⟩
    · simpa [miscounts] using List.find?_some hfirst
    · simp only [result, result_checkContent, result_checkBatches]
      rw [hfirst]

/-! ### An example -/

/-- A unit of the domain `help`, from English into Spanish. -/
def helpUnit (source target : String) : TranslationUnit :=
  { sourceText := source.toList, targetText := target.toList, sourceLanguage := "en".toList,
    targetLanguage := "es".toList, domains := ["help".toList] }

/-- A blank unit, one with an address in one text, one seen from the other side with a number in
both, and one without personal data. -/
def helpUnits : List (List TranslationUnit) :=
  [[helpUnit "Call" " ", helpUnit "Ask me" "a@b.es"],
    [(helpUnit "T: 600 123 456" "N: 600 123 456").reversed, helpUnit "Thanks" "Gracias"]]

/-- Three units are checked, whatever the size of the batches, and two of them do not pass; a
checker that has one verdict on any texts makes the check fail. -/
theorem checkContent_spec_helpUnits :
    let result (checker : Checker) (size : Nat) :=
      (checkContent ((Memory.ofBatches helpUnits).backend : Backend Rat)
        ⟨"en".toList, "es".toList⟩ "help".toList checker size).result
    (∃ summary : CheckSummary, (∀ size, result (personalDataChecker []) size = .ok summary) ∧
        summary.checked = 3 ∧ summary.flagged =
          [{ helpUnit "Ask me" "a@b.es" with failedChecks? := some 1 },
            { helpUnit "T: 600 123 456" "N: 600 123 456" with failedChecks? := some 2 }]) ∧
      ∃ verdicts texts, verdicts ≠ texts ∧
        result (fun _ => [true]) 2 = .error (wrongVerdicts verdicts texts) := by
  intro result
  obtain ⟨hsingle, hwrong⟩ := checkContent_spec (α := Rat) helpUnits ⟨"en".toList, "es".toList⟩
    "help".toList
  constructor
  · obtain ⟨summary, hresult, hchecked, -, hflagged, -⟩ :=
      hsingle (personalDataChecker []) _ fun texts => rfl
    refine ⟨summary, hresult, hchecked.trans (by decide +kernel), hflagged.trans ?_⟩
    decide +kernel
  · obtain ⟨batch, -, hne, herror⟩ := hwrong (fun _ => [true]) 2 (by decide +kernel)
    exact ⟨_, _, hne, herror⟩

end Job

end Bitext
