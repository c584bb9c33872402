import Bitext.Proofs.Tmx.Closings
import Bitext.Proofs.Tmx.Origin

/-!
# Asking for a pair that is listed

The pairs of an input are listed by the codes of its units, of which the primary subtag is taken
once more.  Asking for a pair compares codes as they are stored.  Both agree for codes without
blanks at their ends.  A code such as `en -GB` is stored with the blank behind its primary subtag,
which the list does not show, so the listed pair may be one that no record has.

Which records an input has does not depend on what is asked for, so what is lost can be said of the
records.

## Main definitions

* `contentsOf`, `recordsOf`: the documents of an input with their names, and their records.
* `ClosedRecord.Has`: the record has a side in each of two languages.

## Main results

* `readAll_eq_records`: the units of an input are those of its records
* `pair_eq_of_mem_readAll`: what is read for a listed pair is in it
* `documentsOf_listed`: exactly when something is read for a listed pair
-/

namespace Bitext.Tmx

variable {request : Import} {path : Text} {bytes : Bytes} {documents : List Opened}
  {u : TranslationUnit} {p : LanguagePair}

/-! ## The records of an input -/

/-- The documents of an input, with their names. -/
def contentsOf (path : Text) (bytes : Bytes) : List (Text × Data) :=
  if Archive.isArchive bytes then
    (((Archive.entries? bytes).getD []).filter (!·.isDirectory)).map fun e =>
      (baseName e.name, e.unpacked)
  else [((Path.fileName? path).getD [], bytes)]

/-- The records of an input, one after another. -/
def recordsOf (path : Text) (bytes : Bytes) : List (Text × ClosedRecord) :=
  (contentsOf path bytes).flatMap fun (name, content) =>
    (Document.records content).map (name, ·)

/-- What is read of an input are the units of its documents. -/
theorem readAll_eq_contents (h : documentsOf request path bytes = .ok documents) :
    (readAll documents).1 = (contentsOf path bytes).flatMap fun f =>
      (Document.read ⟨request, f.1⟩ f.2).units := by
  rw [readAll_eq, contentsOf]
  unfold documentsOf at h
  split at h
  · rename_i harchive
    rw [if_pos harchive]
    split at h
    · cases h
    · rename_i entries hentries
      simp only at h
      split at h
      · cases h
      · cases h
        rw [hentries, Option.getD_some, List.flatMap_map, List.flatMap_map]
        rfl
  · rename_i hplain
    cases h
    rw [if_neg hplain, List.flatMap_singleton, List.flatMap_singleton]
    rfl

/-- **The units of an input** are those that the request makes of its records. -/
theorem readAll_eq_records (h : documentsOf request path bytes = .ok documents) :
    (readAll documents).1 = (recordsOf path bytes).flatMap fun r => r.2.units ⟨request, r.1⟩ := by
  rw [readAll_eq_contents h, recordsOf, List.flatMap_assoc]
  refine List.flatMap_congr fun f _ => ?_
  rw [Document.units_read, List.flatMap_map]

/-- Whether an input can be opened does not depend on what is asked for. -/
theorem exists_documentsOf (h : documentsOf request path bytes = .ok documents)
    (request' : Import) : ∃ asked, documentsOf request' path bytes = .ok asked := by
  unfold documentsOf at h ⊢
  split at h
  · rename_i harchive
    rw [if_pos harchive]
    split at h
    · cases h
    · simp only at h
      split at h
      · cases h
      · rename_i hfaults
        simp only [hfaults]
        exact ⟨_, rfl⟩
  · rename_i hplain
    rw [if_neg hplain]
    exact ⟨_, rfl⟩

/-! ## One record -/

/-- The record has a side in each language of the pair. -/
def ClosedRecord.Has (c : ClosedRecord) (p : LanguagePair) : Prop :=
  (∃ a ∈ c.record.sides, a.language = p.source) ∧ ∃ b ∈ c.record.sides, b.language = p.target

theorem exists_sideIn?_iff {sides : List Side} {language : Text} :
    (∃ a, sideIn? sides language = some a) ↔ ∃ a ∈ sides, a.language = language := by
  simp [sideIn?, ← Option.isSome_iff_exists]

/-- For a single pair a record has a unit if it has a side in each of the two languages. -/
theorem ClosedRecord.units_ne_nil_iff (c : ClosedRecord) (request : Import) (name : Text) :
    c.units ⟨{ request with pairs := [p] }, name⟩ ≠ [] ↔ c.Has p := by
  have hpairs : sidePairs [p] c.language? c.record.sides =
      ((sideIn? c.record.sides p.source).bind fun a =>
        (sideIn? c.record.sides p.target).map (a, ·)).toList := by
    cases hsource : sideIn? c.record.sides p.source <;>
      cases htarget : sideIn? c.record.sides p.target <;>
        simp [sidePairs, hsource, htarget]
  rw [ClosedRecord.units, Record.units, ne_eq, List.map_eq_nil_iff, hpairs, ClosedRecord.Has,
    ← exists_sideIn?_iff, ← exists_sideIn?_iff]
  cases sideIn? c.record.sides p.source <;> cases sideIn? c.record.sides p.target <;> simp

/-- A record with a unit has a side in each of its two languages. -/
theorem ClosedRecord.has_of_mem_units {c : ClosedRecord} {reading : Reading}
    (hu : u ∈ c.units reading) : c.Has ⟨u.sourceLanguage, u.targetLanguage⟩ := by
  obtain ⟨⟨a, b⟩, hab, rfl⟩ := List.mem_map.mp hu
  obtain ⟨ha, hb⟩ := mem_sidePairs hab
  exact ⟨⟨a, ha, rfl⟩, ⟨b, hb, rfl⟩⟩

/-! ## Listed pairs -/

theorem mem_pairsOf_iff {units : List TranslationUnit} :
    p ∈ pairsOf units ↔ ∃ u ∈ units, u.pair = p := by
  rw [pairsOf, List.mem_eraseDups, List.mem_map]

/-- The code of a unit is listed without blanks at its ends, and no further change. -/
theorem primarySubtag_of_isCode {t : Text} (h : IsCode t) : primarySubtag t = Text.trim t := by
  obtain ⟨-, y, rfl⟩ := h
  exact primarySubtag_primarySubtag y

/-- Listing a listed code changes nothing. -/
theorem ofCodes_of_mem_pairsOf {units : List TranslationUnit} (h : ∀ u ∈ units, IsImported u)
    (hp : p ∈ pairsOf units) : LanguagePair.ofCodes p.source p.target = p := by
  obtain ⟨u, hu, rfl⟩ := mem_pairsOf_iff.mp hp
  obtain ⟨y, hy⟩ := (h u hu).sourceLanguage.2
  obtain ⟨z, hz⟩ := (h u hu).targetLanguage.2
  rw [TranslationUnit.pair, hy, hz, LanguagePair.ofCodes, LanguagePair.ofCodes,
    primarySubtag_twice, primarySubtag_twice]

/-- **What is read for a listed pair** is in that pair. -/
theorem pair_eq_of_mem_readAll (h : documentsOf { request with pairs := [p] } path bytes =
      .ok documents) (hp : LanguagePair.ofCodes p.source p.target = p)
    (hu : u ∈ (readAll documents).1) : u.pair = p := by
  rw [readAll_eq_records h] at hu
  obtain ⟨⟨name, c⟩, -, hmem⟩ := List.mem_flatMap.mp hu
  obtain ⟨sides, hsides, rfl⟩ := List.mem_map.mp hmem
  -- The stored codes are those asked for, and these do not change when they are listed.
  have hasked := (isChosen_of_mem_sidePairs hsides).asked (List.cons_ne_nil p [])
  have hlanguages := List.mem_singleton.mp hasked
  rw [← hlanguages] at hp ⊢
  exact hp

variable (request) in
/-- **Asking for a listed pair**: the input can be opened again, and every unit that is read then is
in the pair.  There is such a unit exactly if some record has a side in each of the two languages as
they are listed, and there is one whenever some unit of the pair is stored under codes without
blanks at their ends. -/
theorem documentsOf_listed
    (h : documentsOf { request with pairs := [] } path bytes = .ok documents)
    (hp : p ∈ pairsOf (readAll documents).1) :
    ∃ asked, documentsOf { request with pairs := [p] } path bytes = .ok asked ∧
      (∀ u ∈ (readAll asked).1, u.pair = p) ∧
      ((readAll asked).1 ≠ [] ↔ ∃ r ∈ recordsOf path bytes, r.2.Has p) ∧
      ((∃ u ∈ (readAll documents).1, u.pair = p ∧ Text.trim u.sourceLanguage = u.sourceLanguage ∧
          Text.trim u.targetLanguage = u.targetLanguage) → (readAll asked).1 ≠ []) := by
  obtain ⟨asked, hasked⟩ := exists_documentsOf h { request with pairs := [p] }
  have himported : ∀ u ∈ (readAll documents).1, IsImported u :=
    fun u hu => isImported_of_mem_readAll (isRead_of_mem_documentsOf h) hu
  have hsome : (readAll asked).1 ≠ [] ↔ ∃ r ∈ recordsOf path bytes, r.2.Has p := by
    rw [readAll_eq_records hasked, ne_eq, List.flatMap_eq_nil_iff]
    simp only [not_forall, exists_prop]
    exact exists_congr fun r => and_congr_right fun _ => r.2.units_ne_nil_iff request r.1
  refine ⟨asked, hasked, fun u => pair_eq_of_mem_readAll hasked
    (ofCodes_of_mem_pairsOf himported hp), hsome, ?_⟩
  rintro ⟨u, hu, rfl, hsource, htarget⟩
  -- The codes of the unit are the listed ones, and its record has sides in them.
  have hcodes : u.pair = ⟨u.sourceLanguage, u.targetLanguage⟩ := by
    rw [TranslationUnit.pair, LanguagePair.ofCodes,
      primarySubtag_of_isCode (himported u hu).sourceLanguage, hsource,
      primarySubtag_of_isCode (himported u hu).targetLanguage, htarget]
  rw [readAll_eq_records h] at hu
  obtain ⟨r, hr, hmem⟩ := List.mem_flatMap.mp hu
  rw [hsome, hcodes]
  exact ⟨r, hr, ClosedRecord.has_of_mem_units hmem⟩

/-- A record with a car in a given language and in Spanish. -/
def carIn (code : Text) : Bytes :=
  Unicode.Utf8.encode <|
    "<tmx version=\"1.4\"><header/><body><tu><tuv xml:lang=\"".toList ++ code ++
      "\"><seg>Car</seg></tuv><tuv xml:lang=\"es\"><seg>Coche</seg></tuv></tu></body></tmx>".toList

/-- From English into Spanish. -/
def englishSpanish : LanguagePair := ⟨"en".toList, "es".toList⟩

theorem documentsOf_listed_region :
    ∃ documents, documentsOf {} "a.tmx".toList (carIn "en-GB".toList) = .ok documents ∧
      englishSpanish ∈ pairsOf (readAll documents).1 ∧
      ∃ asked, documentsOf { pairs := [englishSpanish] } "a.tmx".toList (carIn "en-GB".toList) =
          .ok asked ∧
        (∀ u ∈ (readAll asked).1, u.pair = englishSpanish) ∧ (readAll asked).1 ≠ [] := by
  have hopened : documentsOf {} "a.tmx".toList (carIn "en-GB".toList) =
      .ok [.document (Document.read ⟨{}, "a.tmx".toList⟩ (carIn "en-GB".toList))] := by
    decide +kernel
  have hlisted : englishSpanish ∈ pairsOf (readAll [.document
      (Document.read ⟨{}, "a.tmx".toList⟩ (carIn "en-GB".toList))]).1 := by
    decide +kernel
  have hstored : ∃ u ∈ (readAll [.document
      (Document.read ⟨{}, "a.tmx".toList⟩ (carIn "en-GB".toList))]).1,
        u.pair = englishSpanish ∧ Text.trim u.sourceLanguage = u.sourceLanguage ∧
          Text.trim u.targetLanguage = u.targetLanguage := by
    decide +kernel
  obtain ⟨asked, hasked, hpair, -, hsome⟩ := documentsOf_listed {} hopened hlisted
  exact ⟨_, hopened, hlisted, asked, hasked, hpair, hsome hstored⟩

/-- With a blank in front of the region the pair is listed, and asking for it yields nothing. -/
theorem readAll_listed_blank :
    ∃ documents asked, documentsOf {} "a.tmx".toList (carIn "en -GB".toList) = .ok documents ∧
      pairsOf (readAll documents).1 = [englishSpanish] ∧
      documentsOf { pairs := [englishSpanish] } "a.tmx".toList (carIn "en -GB".toList) =
        .ok asked ∧
      (readAll asked).1 = [] := by
  refine ⟨[.document (Document.read ⟨{}, "a.tmx".toList⟩ (carIn "en -GB".toList))],
    [.document (Document.read ⟨{ pairs := [englishSpanish] }, "a.tmx".toList⟩
      (carIn "en -GB".toList))], ?_⟩
  decide +kernel

end Bitext.Tmx
