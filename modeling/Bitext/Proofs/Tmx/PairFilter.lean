import Bitext.Proofs.Tmx.Header
import Mathlib.Data.List.Flatten

/-!
# Asking for one pair of languages

In a document whose header declares the source language, every record pairs its first side in that
language with all of its sides in other languages.  Asking for the declared language and one other
takes another way through the sides: the first one in each of the two languages.  So of each record
only the first unit between the two languages is read.  That loses nothing exactly if no record has
its text twice in the other language, and regional variants of one language are such a case, since
only the primary subtags of their codes are kept.

## Main definitions

* `translates`: the unit is between two given languages.

## Main results

* `sidePairs_pair`: what is taken of a record for the declared language and another one
* `Record.units_pair`: the units of a record for such a pair
* `Document.units_read_pair_eq_iff`: exactly when asking for a pair only selects
-/

namespace Bitext.Tmx

variable {l t : Text} {language? : Option Text}

/-! ## One record -/

/-- The unit translates from the first language of the pair into the second one. -/
def translates (pair : LanguagePair) (u : TranslationUnit) : Bool :=
  u.sourceLanguage == pair.source && u.targetLanguage == pair.target

/-- With a declared source language its first side goes with every side in another language. -/
theorem sidePairs_declared {sides : List Side} {a : Side} (ha : sideIn? sides l = some a) :
    sidePairs [] (some l) sides = (sides.filter (·.language ≠ l)).map (a, ·) := by
  simp only [sidePairs, List.isEmpty_nil, Bool.not_true, Bool.false_eq_true, if_false, ha,
    language_of_sideIn? ha]

theorem sidePairs_undeclared {sides : List Side} (ha : sideIn? sides l = none) :
    sidePairs [] (some l) sides = [] := by
  simp only [sidePairs, List.isEmpty_nil, Bool.not_true, Bool.false_eq_true, if_false, ha]

/-- The pairs between the declared language and another one. -/
theorem filter_sidePairs (hne : t ≠ l) (sides : List Side) :
    (sidePairs [] (some l) sides).filter (fun p => p.1.language == l && p.2.language == t) =
      (sideIn? sides l).toList.flatMap fun a =>
        (sides.filter (·.language == t)).map (a, ·) := by
  cases ha : sideIn? sides l with
  | none =>
    rw [sidePairs_undeclared ha]
    rfl
  | some a =>
    have hsource : a.language = l := language_of_sideIn? ha
    have hother (b : Side) :
        ((a.language == l && b.language == t) && decide (b.language ≠ l)) =
          (b.language == t) := by
      rw [hsource, beq_self_eq_true, Bool.true_and]
      by_cases hb : b.language = t
      · simp [hb, hne]
      · simp [hb]
    rw [sidePairs_declared ha, List.filter_map, List.filter_filter]
    simp only [Function.comp_apply, hother, Option.toList_some, List.flatMap_singleton]

/-- **Asking for the declared language and another one** takes the first pair between them. -/
theorem sidePairs_pair (hne : t ≠ l) (language? : Option Text) (sides : List Side) :
    sidePairs [⟨l, t⟩] language? sides =
      ((sidePairs [] (some l) sides).filter
        fun p => p.1.language == l && p.2.language == t).take 1 := by
  rw [filter_sidePairs hne]
  cases ha : sideIn? sides l with
  | none => simp [sidePairs, ha]
  | some a =>
    rw [Option.toList_some, List.flatMap_singleton, List.take_one, List.head?_map,
      List.head?_filter]
    cases hb : sides.find? (·.language == t) with
    | none => simp [sidePairs, sideIn?, hb]
    | some b =>
      have hb' : sideIn? sides t = some b := hb
      simp [sidePairs, ha, hb']

/-- The units of a record between two languages are made of its pairs between them. -/
theorem filter_units (request : Import) (fileName : Text) (r : Record) (pair : LanguagePair) :
    (r.units request fileName language?).filter (translates pair) =
      ((sidePairs request.pairs language? r.sides).filter fun p =>
        p.1.language == pair.source && p.2.language == pair.target).map fun (source, target) =>
          r.unit request fileName source target := by
  rw [Record.units, List.filter_map]
  rfl

/-- **Of each record the first unit** between the declared language and the other one is read. -/
theorem Record.units_pair (request : Import) (fileName : Text) (r : Record) (hne : t ≠ l) :
    r.units { request with pairs := [⟨l, t⟩] } fileName (some l) =
      ((r.units { request with pairs := [] } fileName (some l)).filter
        (translates ⟨l, t⟩)).take 1 := by
  rw [filter_units, ← List.map_take, ← sidePairs_pair hne (some l)]
  rfl

/-- Between two languages there are as many units as the record has sides in the second one, if it
has one in the first. -/
theorem Record.length_filter_units (request : Import) (fileName : Text) (r : Record)
    (hne : t ≠ l) :
    ((r.units { request with pairs := [] } fileName (some l)).filter
        (translates ⟨l, t⟩)).length =
      if ∃ a ∈ r.sides, a.language = l then r.sides.countP (·.language == t) else 0 := by
  rw [filter_units, List.length_map, filter_sidePairs hne]
  cases ha : sideIn? r.sides l with
  | none =>
    have hnone : ¬ ∃ a ∈ r.sides, a.language = l := by
      rintro ⟨a, hmem, hlanguage⟩
      exact absurd (beq_iff_eq.mpr hlanguage) (List.find?_eq_none.mp ha a hmem)
    rw [if_neg hnone]
    rfl
  | some a =>
    rw [if_pos ⟨a, List.mem_of_find?_eq_some ha, language_of_sideIn? ha⟩, Option.toList_some,
      List.flatMap_singleton, List.length_map, List.countP_eq_length_filter]

/-! ## Whole documents -/

/-- Taking the first element of each list loses nothing exactly if no list has more. -/
theorem flatMap_take_one_eq_iff {α β : Type} (f : α → List β) (xs : List α) :
    xs.flatMap (fun x => (f x).take 1) = xs.flatMap f ↔ ∀ x ∈ xs, (f x).length ≤ 1 := by
  induction xs with
  | nil => simp
  | cons x xs ih =>
    rw [List.flatMap_cons, List.flatMap_cons, List.forall_mem_cons, ← ih]
    constructor
    · intro heq
      -- Neither part is longer on the left, so both have the same length.
      have hlength := congrArg List.length heq
      have hrest : (xs.flatMap fun x => (f x).take 1).length ≤ (xs.flatMap f).length :=
        (List.Sublist.flatMap_right xs fun x _ => List.take_sublist 1 (f x)).length_le
      rw [List.length_append, List.length_append, List.length_take] at hlength
      have hfirst : (f x).length ≤ 1 := by omega
      rw [List.take_of_length_le hfirst] at heq
      exact ⟨hfirst, List.append_cancel_left heq⟩
    · rintro ⟨hfirst, hrest⟩
      rw [List.take_of_length_le hfirst, hrest]

/-- **Asking for a pair of languages**: if the last header of a document stands before all of its
records and declares the first language, then of each record the first unit between the two
languages is read.  These are all the units that are read between them when nothing is asked for
exactly if no record with a side in the first language has two sides in the second one. -/
theorem Document.units_read_pair_eq_iff (request : Import) (fileName : Text) {d : Data}
    (h : Document.IsHeaded l d) (hne : t ≠ l) :
    (Document.read ⟨{ request with pairs := [⟨l, t⟩] }, fileName⟩ d).units =
        (Document.records d).flatMap (fun c =>
          ((c.units ⟨{ request with pairs := [] }, fileName⟩).filter
            (translates ⟨l, t⟩)).take 1) ∧
      ((Document.read ⟨{ request with pairs := [⟨l, t⟩] }, fileName⟩ d).units =
          (Document.read ⟨{ request with pairs := [] }, fileName⟩ d).units.filter
            (translates ⟨l, t⟩) ↔
        ∀ c ∈ Document.records d, (∃ a ∈ c.record.sides, a.language = l) →
          c.record.sides.countP (·.language == t) ≤ 1) := by
  have hasked : (Document.read ⟨{ request with pairs := [⟨l, t⟩] }, fileName⟩ d).units =
      (Document.records d).flatMap fun c =>
        ((c.units ⟨{ request with pairs := [] }, fileName⟩).filter (translates ⟨l, t⟩)).take 1 := by
    rw [Document.units_read]
    refine List.flatMap_congr fun c hc => ?_
    rw [ClosedRecord.units, ClosedRecord.units, h.language?_of_mem_records c hc]
    exact Record.units_pair request fileName c.record hne
  refine ⟨hasked, ?_⟩
  rw [hasked, Document.units_read, List.filter_flatMap, flatMap_take_one_eq_iff]
  refine forall₂_congr fun c hc => ?_
  rw [ClosedRecord.units, h.language?_of_mem_records c hc,
    Record.length_filter_units request fileName c.record hne]
  split
  · rename_i hsource
    exact ⟨fun hfew _ => hfew, fun hfew => hfew hsource⟩
  · rename_i hnone
    exact iff_of_true (Nat.zero_le 1) fun hsource => absurd hsource hnone

/-- A record with an English text and two Spanish ones, in the variants of two regions. -/
def regionalVariants : List UInt8 :=
  Unicode.Utf8.encode <|
    "<tmx version=\"1.4\"><header srclang=\"en\"/><body><tu>".toList ++
      "<tuv xml:lang=\"en\"><seg>Car</seg></tuv>".toList ++
      "<tuv xml:lang=\"es-ES\"><seg>Coche</seg></tuv>".toList ++
      "<tuv xml:lang=\"es-MX\"><seg>Carro</seg></tuv></tu></body></tmx>".toList

theorem isHeaded_regionalVariants : Document.IsHeaded "en".toList regionalVariants := by
  decide +kernel

theorem units_read_pair_regionalVariants :
    Document.IsHeaded "en".toList regionalVariants ∧ "es".toList ≠ "en".toList ∧
      ((Document.read ⟨{ pairs := [⟨"en".toList, "es".toList⟩] }, []⟩ regionalVariants).units =
          (Document.read ⟨{ pairs := [] }, []⟩ regionalVariants).units.filter
            (translates ⟨"en".toList, "es".toList⟩) ↔
        ∀ c ∈ Document.records regionalVariants,
          (∃ a ∈ c.record.sides, a.language = "en".toList) →
            c.record.sides.countP (·.language == "es".toList) ≤ 1) := by
  have hne : "es".toList ≠ "en".toList := by decide
  obtain ⟨-, hiff⟩ := Document.units_read_pair_eq_iff {} [] isHeaded_regionalVariants hne
  exact ⟨isHeaded_regionalVariants, hne, hiff⟩

/-- Asking for English and Spanish loses one of the two texts. -/
theorem units_read_pair_ne_regionalVariants :
    Document.IsHeaded "en".toList regionalVariants ∧ "es".toList ≠ "en".toList ∧
      (Document.read ⟨{ pairs := [⟨"en".toList, "es".toList⟩] }, []⟩ regionalVariants).units.map
        (·.targetText) = ["Coche".toList] ∧
      ((Document.read ⟨{ pairs := [] }, []⟩ regionalVariants).units.filter
        (translates ⟨"en".toList, "es".toList⟩)).map (·.targetText) =
          ["Coche".toList, "Carro".toList] ∧
      (Document.read ⟨{ pairs := [⟨"en".toList, "es".toList⟩] }, []⟩ regionalVariants).units ≠
        (Document.read ⟨{ pairs := [] }, []⟩ regionalVariants).units.filter
          (translates ⟨"en".toList, "es".toList⟩) := by
  have hasked : (Document.read ⟨{ pairs := [⟨"en".toList, "es".toList⟩] }, []⟩
      regionalVariants).units.map (·.targetText) = ["Coche".toList] := by
    decide +kernel
  have hall : ((Document.read ⟨{ pairs := [] }, []⟩ regionalVariants).units.filter
      (translates ⟨"en".toList, "es".toList⟩)).map (·.targetText) =
        ["Coche".toList, "Carro".toList] := by
    decide +kernel
  refine ⟨isHeaded_regionalVariants, by decide, hasked, hall, ?_⟩
  intro heq
  rw [heq, hall] at hasked
  exact absurd hasked (by decide)

end Bitext.Tmx
