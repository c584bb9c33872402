import Bitext.Proofs.Tmx.Accounts
import Bitext.Proofs.Tmx.Imported

/-!
# Where units come from

A unit joins two different variants of one record: its texts are what is left of their segments when
these are cleaned, and its languages are theirs.  Which two variants are joined is decided when the
record closes, by the pairs that were asked for or else by the source language that the header has
declared by then.

## Main definitions

* `IsChosen`: what it takes for two sides of a record to make a unit.
* `Record.Joins`: the unit joins two different variants of the record.

## Main results

* `isChosen_of_mem_sidePairs`, `Record.joins_of_mem_units`: the units of one record
* `DocumentState.exists_passage_of_mem_run`: every unit of a document is yielded by a passage
* `exists_record_of_mem_readAll`: every unit of an input
-/

namespace Bitext.Tmx

variable {reading : Reading} {r : Record} {u : TranslationUnit} {wanted : List LanguagePair}
  {language? : Option Text} {sides : List Side}

/-! ## Chosen sides -/

/-- What it takes for two sides to make a unit: their languages are a wanted pair, or, if no pair is
wanted, they are different and the first one is the declared source language. -/
structure IsChosen (wanted : List LanguagePair) (language? : Option Text) (p : Side × Side) :
    Prop where
  asked : wanted ≠ [] → ⟨p.1.language, p.2.language⟩ ∈ wanted
  different : wanted = [] → p.1.language ≠ p.2.language
  declared : wanted = [] → ∀ l ∈ language?, p.1.language = l

theorem language_of_sideIn? {language : Text} {a : Side} (h : sideIn? sides language = some a) :
    a.language = language := by
  have hfound := List.find?_some h
  exact beq_iff_eq.mp hfound

theorem language_ne_of_mem_allPairs {p : Side × Side} (h : p ∈ allPairs sides) :
    p.1.language ≠ p.2.language := by
  induction sides with
  | nil => cases h
  | cons a sides ih =>
    rw [allPairs, List.mem_append] at h
    rcases h with h | h
    · obtain ⟨b, hb, rfl⟩ := List.mem_map.mp h
      exact (of_decide_eq_true (List.mem_filter.mp hb).2).symm
    · exact ih h

/-- **Only chosen sides are paired.** -/
theorem isChosen_of_mem_sidePairs {p : Side × Side} (h : p ∈ sidePairs wanted language? sides) :
    IsChosen wanted language? p := by
  unfold sidePairs at h
  split at h
  · rename_i hwanted
    have hne : wanted ≠ [] := by simpa using hwanted
    obtain ⟨pair, hpair, hfound⟩ := List.mem_filterMap.mp h
    simp only [Option.bind_eq_bind, Option.bind_eq_some_iff] at hfound
    obtain ⟨a, ha, b, hb, hab⟩ := hfound
    cases hab
    refine ⟨fun _ => ?_, fun hnil => absurd hnil hne, fun hnil => absurd hnil hne⟩
    rw [language_of_sideIn? ha, language_of_sideIn? hb]
    exact hpair
  · rename_i hwanted
    have hnil : wanted = [] := by simpa using hwanted
    -- With a declared source language its first side is paired with sides in other languages.
    split at h
    · split at h
      · rename_i a ha
        obtain ⟨b, hb, rfl⟩ := List.mem_map.mp h
        refine ⟨fun hne => absurd hnil hne, fun _ => ?_, fun _ l hl => ?_⟩
        · exact (of_decide_eq_true (List.mem_filter.mp hb).2).symm
        · cases hl
          exact language_of_sideIn? ha
      · cases h
    · exact ⟨fun hne => absurd hnil hne, fun _ => language_ne_of_mem_allPairs h, by simp⟩

/-! ## Units of a record -/

/-- The texts of the unit are those of two different variants of the record, cleaned, and its
languages are theirs. -/
def Record.Joins (r : Record) (u : TranslationUnit) : Prop :=
  ∃ (i j : Nat) (v w : Variant), i ≠ j ∧ r.variants[i]? = some v ∧ r.variants[j]? = some w ∧
    (v.segment?.map cleanSegment = some u.sourceText ∧ v.language = u.sourceLanguage) ∧
    w.segment?.map cleanSegment = some u.targetText ∧ w.language = u.targetLanguage

/-- A side has the visible text of its variant, cleaned, and a language. -/
theorem Variant.of_side? {v : Variant} {a : Side} (h : v.side? = some a) :
    v.segment?.map cleanSegment = some a.text ∧ v.language = a.language ∧
      IsVisible a.text ∧ a.language ≠ [] := by
  unfold Variant.side? at h
  split at h
  · cases h
  · rename_i raw hraw
    simp only at h
    split at h
    · cases h
    · rename_i hvisible
      simp only [Bool.or_eq_true, List.isEmpty_iff, not_or] at hvisible
      cases h
      refine ⟨by rw [hraw]; rfl, rfl, ⟨hvisible.1, ?_⟩, hvisible.2⟩
      exact Text.isTrimmed_trim _

theorem Record.exists_variant_of_mem_sides {a : Side} (h : a ∈ r.sides) :
    ∃ (i : Nat) (v : Variant), r.variants[i]? = some v ∧ v.side? = some a := by
  obtain ⟨v, hv, hside⟩ := List.mem_filterMap.mp h
  obtain ⟨i, hi⟩ := List.mem_iff_getElem?.mp hv
  exact ⟨i, v, hi, hside⟩

/-- What every unit of a record has, under the source language in force. -/
structure IsDrawn (request : Import) (language? : Option Text) (r : Record) (u : TranslationUnit) :
    Prop where
  sourceText : IsVisible u.sourceText
  targetText : IsVisible u.targetText
  sourceLanguage : u.sourceLanguage ≠ []
  targetLanguage : u.targetLanguage ≠ []
  asked : request.pairs ≠ [] → ⟨u.sourceLanguage, u.targetLanguage⟩ ∈ request.pairs
  different : request.pairs = [] → u.sourceLanguage ≠ u.targetLanguage
  declared : request.pairs = [] → ∀ l ∈ language?, u.sourceLanguage = l
  joins : r.Joins u

/-- **The units of a record** join two of its variants, which are different ones if no pair that was
asked for has the same language twice. -/
theorem Record.isDrawn_of_mem_units {request : Import} {fileName : Text}
    (hpairs : ∀ p ∈ request.pairs, p.source ≠ p.target)
    (hu : u ∈ r.units request fileName language?) : IsDrawn request language? r u := by
  obtain ⟨⟨a, b⟩, hab, rfl⟩ := List.mem_map.mp hu
  have hchosen := isChosen_of_mem_sidePairs hab
  obtain ⟨ha, hb⟩ := mem_sidePairs hab
  obtain ⟨i, v, hi, hv⟩ := r.exists_variant_of_mem_sides ha
  obtain ⟨j, w, hj, hw⟩ := r.exists_variant_of_mem_sides hb
  obtain ⟨hsource, hsourceLanguage, hsourceText, hsourceCode⟩ := Variant.of_side? hv
  obtain ⟨htarget, htargetLanguage, htargetText, htargetCode⟩ := Variant.of_side? hw
  have hlanguages : a.language ≠ b.language := by
    by_cases hnil : request.pairs = []
    · exact hchosen.different hnil
    · exact hpairs _ (hchosen.asked hnil)
  -- One variant has one language only.
  have hij : i ≠ j := by
    rintro rfl
    rw [hi, Option.some.injEq] at hj
    exact hlanguages (by rw [← hsourceLanguage, ← htargetLanguage, hj])
  exact ⟨hsourceText, htargetText, hsourceCode, htargetCode, hchosen.asked, hchosen.different,
    hchosen.declared, i, j, v, w, hij, hi, hj, ⟨hsource, hsourceLanguage⟩, htarget, htargetLanguage⟩

/-! ## Units of documents and inputs -/

/-- **Every unit of a document** is yielded by a passage. -/
theorem DocumentState.exists_passage_of_mem_run {s : DocumentState} {faults : Nat}
    {items : List Xml.Item} (hu : u ∈ (s.run reading faults items).2) :
    ∃ p ∈ s.allPassages reading items, u ∈ p.units := by
  induction items generalizing s faults with
  | nil => exact ⟨_, List.mem_singleton_self _, hu⟩
  | cons item rest ih =>
    have hlater {n : Nat} (h : u ∈ ((s.readItem reading item).1.run reading n rest).2) :
        ∃ p ∈ s.allPassages reading (item :: rest), u ∈ p.units := by
      obtain ⟨p, hp, hmem⟩ := ih h
      exact ⟨p, List.mem_cons_of_mem _ hp, hmem⟩
    cases item with
    | event e =>
      rw [run, List.mem_append] at hu
      rcases hu with hu | hu
      · exact ⟨_, List.mem_cons_self, hu⟩
      · exact hlater hu
    | illFormed | syntaxError =>
      -- A document that is given up here yields no more units.
      simp only [run] at hu
      split at hu
      · cases hu
      · exact hlater hu

/-- The passages of a document that is read from its data. -/
def Document.passages (reading : Reading) (d : Data) : List Passage :=
  DocumentState.allPassages reading {} (Document.items d)

/-- **Every unit of any input** has two visible texts and two languages, as they were asked for or
declared, and joins two different variants of the record that closes when it is yielded. -/
theorem exists_record_of_mem_readAll {request : Import} {path : Text} {bytes : Bytes}
    {documents : List Opened} (hpairs : ∀ p ∈ request.pairs, p.source ≠ p.target)
    (h : documentsOf request path bytes = .ok documents) (hu : u ∈ (readAll documents).1) :
    (u.sourceText ≠ [] ∧ Text.trim u.sourceText = u.sourceText) ∧
      (u.targetText ≠ [] ∧ Text.trim u.targetText = u.targetText) ∧ u.isUsable = true ∧
      u.sourceLanguage ≠ [] ∧ u.targetLanguage ≠ [] ∧
      (request.pairs = [] → u.sourceLanguage ≠ u.targetLanguage) ∧
      (request.pairs ≠ [] → ⟨u.sourceLanguage, u.targetLanguage⟩ ∈ request.pairs) ∧
      ∃ fileName content,
        .document (Document.read ⟨request, fileName⟩ content) ∈ documents ∧
          ∃ p ∈ Document.passages ⟨request, fileName⟩ content, u ∈ p.units ∧
            (request.pairs = [] → ∀ l ∈ p.closing.sourceLanguage?, u.sourceLanguage = l) ∧
            ∃ r, p.closing.closing? = some r ∧ r.Joins u := by
  obtain ⟨d, hd, hmem⟩ := mem_readAll hu
  obtain ⟨fileName, content, rfl⟩ := exists_read_of_mem_documentsOf h hd
  obtain ⟨p, hp, hpassage⟩ := DocumentState.exists_passage_of_mem_run hmem
  have hstart : ({} : DocumentState).IsNested := DocumentState.isNested_of_none rfl rfl
  have haccounts := DocumentState.accounts_of_mem_allPassages hstart hp
  obtain ⟨⟨r, hr, hunits⟩, -⟩ := haccounts.units (List.ne_nil_of_mem hpassage)
  have hmember : u ∈ r.units request fileName p.closing.sourceLanguage? := by
    rw [← hunits]
    exact hpassage
  have hdrawn := Record.isDrawn_of_mem_units hpairs hmember
  have husable : u.isUsable = true := by
    rw [TranslationUnit.isUsable, hdrawn.sourceText.isBlank_eq, hdrawn.targetText.isBlank_eq]
    rfl
  exact ⟨⟨hdrawn.sourceText.1, hdrawn.sourceText.trim_eq⟩,
    ⟨hdrawn.targetText.1, hdrawn.targetText.trim_eq⟩, husable, hdrawn.sourceLanguage,
    hdrawn.targetLanguage, hdrawn.different, hdrawn.asked, fileName, content, hd, p, hp, hpassage,
    hdrawn.declared, r, hr, hdrawn.joins⟩

/-- A record in three languages that is never closed, under a header for another pair. -/
def threeLanguages : Bytes :=
  Unicode.Utf8.encode <|
    "<tmx><header srclang=\"en-GB\"/><body><tu><tuv lang=\"EN\"><seg>Hello".toList ++
    "</seg><tuv xml:lang=\"es\"><seg>Hola</seg></tuv>".toList ++
    "<tuv xml:lang=\"fr\"><seg> <b>Bonjour</b></seg>".toList

/-- French to English is wanted. -/
def frenchToEnglish : Import := { pairs := [⟨"fr".toList, "en".toList⟩] }

theorem exists_record_of_threeLanguages :
    ∃ documents u, documentsOf frenchToEnglish "a.tmx".toList threeLanguages = .ok documents ∧
      u ∈ (readAll documents).1 ∧ u.isUsable = true ∧
      (⟨u.sourceLanguage, u.targetLanguage⟩ : LanguagePair) ∈ frenchToEnglish.pairs ∧
      ∃ fileName content, ∃ p ∈ Document.passages ⟨frenchToEnglish, fileName⟩ content,
        u ∈ p.units ∧ ∃ r, p.closing.closing? = some r ∧ r.Joins u := by
  have hopened : documentsOf frenchToEnglish "a.tmx".toList threeLanguages =
      .ok [.document (Document.read ⟨frenchToEnglish, "a.tmx".toList⟩ threeLanguages)] := by
    decide +kernel
  have hunits : (readAll [.document
      (Document.read ⟨frenchToEnglish, "a.tmx".toList⟩ threeLanguages)]).1 ≠ [] := by
    decide +kernel
  obtain ⟨u, hu⟩ := List.exists_mem_of_ne_nil _ hunits
  have hdifferent : ∀ p ∈ frenchToEnglish.pairs, p.source ≠ p.target := by decide
  obtain ⟨-, -, husable, -, -, -, hasked, fileName, content, -, p, hp, hmem, -, hjoins⟩ :=
    exists_record_of_mem_readAll hdifferent hopened hu
  exact ⟨_, u, hopened, hu, husable, hasked (by decide), fileName, content, p, hp, hmem, hjoins⟩

end Bitext.Tmx
