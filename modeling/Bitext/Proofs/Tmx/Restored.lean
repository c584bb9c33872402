import Bitext.Proofs.Tmx.Output
import Bitext.Proofs.Unit.Properties

/-!
# Units that come back

A unit whose texts are trimmed and whose languages are told apart is read back from its record as
one unit again.  Its texts and languages are the same; its properties are the same as well, except
that those with a place of their own in the unit are written from there.

## Main definitions

* `IsWritable`: what it takes for a unit to be read back from its record at all.
* `readUnit`: the unit that is read.
* `IsPortable`: what it takes for nothing to be lost but what documents have no place for.
* `restored`: what is left of a unit then.

## Main results

* `readUnits_of_isWritable`: a writable unit is read back as one unit
* `readUnit_of_isPortable`: a portable unit is restored
* `get?_keptProperties`: what each key has in the restored unit
-/

namespace Bitext.Tmx

variable {reading : Reading} {stamp : Stamp} {u : TranslationUnit} {t language : Text}
  {properties : Properties}

/-! ## Sides -/

/-- One side of a unit, as it is read. -/
def writtenSide (language : Text) (properties : Properties) (t : Text) : Side :=
  ⟨primarySubtag language, t, .ofList (properties.entries.map readEntry)⟩

theorem side?_writtenVariant (ht : Text.IsTrimmed t) (hne : t ≠ [])
    (hlanguage : primarySubtag language ≠ []) :
    (writtenVariant language properties t).side? = some (writtenSide language properties t) := by
  have hclean : cleanSegment (escapeSegment t) = t := cleanSegment_escapeSegment_of_isTrimmed ht
  have htext : t.isEmpty = false := List.isEmpty_eq_false_iff.mpr hne
  have hcode : (primarySubtag language).isEmpty = false := List.isEmpty_eq_false_iff.mpr hlanguage
  simp only [Variant.side?, writtenVariant, hclean, htext, hcode, Bool.or_self, Bool.false_eq_true,
    if_false, writtenSide]

/-- Two sides make one pair, in their order, unless another source language is declared. -/
theorem sidePairs_of_two {language? : Option Text} {a b : Side} (hab : a.language ≠ b.language)
    (hdeclared : ∀ l ∈ language?, l = a.language) : sidePairs [] language? [a, b] = [(a, b)] := by
  cases language? with
  | none => simp [sidePairs, allPairs, Ne.symm hab]
  | some l =>
    rw [hdeclared l rfl]
    simp [sidePairs, sideIn?, Ne.symm hab]

/-! ## Units -/

/-- What it takes for a unit to be read back from its record: texts and languages that are there
when they are read, and a source language that is the declared one. -/
structure IsWritable (stamp : Stamp) (u : TranslationUnit) : Prop where
  sourceText : u.sourceText ≠ []
  targetText : u.targetText ≠ []
  trimmedSource : Text.IsTrimmed u.sourceText
  trimmedTarget : Text.IsTrimmed u.targetText
  sourceLanguage : primarySubtag u.sourceLanguage ≠ []
  targetLanguage : primarySubtag u.targetLanguage ≠ []
  different : primarySubtag u.sourceLanguage ≠ primarySubtag u.targetLanguage
  declared : primarySubtag stamp.sourceLanguage = primarySubtag u.sourceLanguage

/-- The unit that is read of the record of a unit. -/
def readUnit (reading : Reading) (u : TranslationUnit) : TranslationUnit :=
  (writtenRecord u).unit reading.request reading.fileName
    (writtenSide u.sourceLanguage u.sourceProperties u.sourceText)
    (writtenSide u.targetLanguage u.targetProperties u.targetText)

/-- **A writable unit is read back as one unit.** -/
theorem readUnits_of_isWritable (h : IsWritable stamp u) (hpairs : reading.request.pairs = []) :
    readUnits reading stamp.language? u = [readUnit reading u] := by
  have hsides : (writtenRecord u).sides =
      [writtenSide u.sourceLanguage u.sourceProperties u.sourceText,
        writtenSide u.targetLanguage u.targetProperties u.targetText] := by
    rw [Record.sides, writtenRecord, List.filterMap_cons,
      side?_writtenVariant h.trimmedSource h.sourceText h.sourceLanguage, List.filterMap_cons,
      side?_writtenVariant h.trimmedTarget h.targetText h.targetLanguage, List.filterMap_nil]
  have hdeclared : ∀ l ∈ stamp.language?, l = primarySubtag u.sourceLanguage := by
    intro l hl
    rw [Stamp.language?, Option.mem_def, Option.filter_eq_some_iff, Option.some.injEq] at hl
    rw [← hl.1, h.declared]
  rw [readUnits, Record.units, hsides, hpairs, sidePairs_of_two h.different hdeclared]
  rfl

/-! ## Properties -/

/-- The values with a place of their own in the unit, as entries. -/
def classification (u : TranslationUnit) : List (Text × Text) :=
  u.industry?.toList.map (industryKey, ·) ++ u.kind?.toList.map (kindKey, ·) ++
    u.organization?.toList.map (organizationKey, ·)

/-- The properties that have no place of their own in the unit. -/
def otherProperties (u : TranslationUnit) : List (Text × Text) :=
  u.properties.entries.filter fun e => !ownKeys.contains e.1

/-- The properties of a unit as documents keep them. -/
def keptProperties (u : TranslationUnit) : Properties :=
  .ofList (classification u ++ otherProperties u)

theorem recordProperties_eq (u : TranslationUnit) : recordProperties u =
    u.fileName?.toList.map (fileNameKey, ·) ++ (classification u ++ otherProperties u) := by
  simp only [recordProperties, classification, otherProperties, List.append_assoc]

theorem mem_classification {e : Text × Text} (h : e ∈ classification u) :
    e.1 ∈ [industryKey, kindKey, organizationKey] := by
  simp only [classification, List.mem_append, List.mem_map] at h
  rcases h with (⟨v, -, rfl⟩ | ⟨v, -, rfl⟩) | ⟨v, -, rfl⟩ <;> simp

theorem mem_otherProperties {e : Text × Text} (h : e ∈ otherProperties u) :
    e ∈ u.properties.entries ∧ e.1 ∉ ownKeys := by
  simpa [otherProperties] using h

theorem ne_fileNameKey_of_mem {e : Text × Text} (h : e ∈ classification u ++ otherProperties u) :
    e.1 ≠ fileNameKey := by
  rcases List.mem_append.mp h with h | h
  · intro hkey
    have hown := mem_classification h
    rw [hkey] at hown
    exact absurd hown (by decide)
  · intro hkey
    exact (mem_otherProperties h).2 (hkey ▸ List.mem_cons_self)

/-- No key is written twice. -/
theorem nodup_keys (u : TranslationUnit) :
    ((classification u ++ otherProperties u).map Prod.fst).Nodup := by
  rw [List.map_append, List.nodup_append]
  refine ⟨?_, ?_, ?_⟩
  -- The keys with a place of their own are three different ones.
  · unfold classification
    cases u.industry? <;> cases u.kind? <;> cases u.organization? <;> simp <;> decide
  -- The others are in order, and strictly.
  · have hkeys : (u.properties.entries.map Prod.fst).Nodup := by
      rw [List.nodup_iff_pairwise_ne, List.pairwise_map]
      exact u.properties.increasing.imp fun hab => Ne.symm (Text.ne_of_precedes hab)
    exact hkeys.sublist (List.filter_sublist.map Prod.fst)
  -- None of the others has a place of its own.
  · intro a ha b hb hab
    obtain ⟨e, he, rfl⟩ := List.mem_map.mp ha
    obtain ⟨f, hf, rfl⟩ := List.mem_map.mp hb
    have hown : e.1 ∈ ownKeys := List.mem_cons_of_mem fileNameKey (mem_classification he)
    exact (mem_otherProperties hf).2 (hab ▸ hown)

theorem lookup_otherProperties (u : TranslationUnit) (key : Text) :
    (otherProperties u).lookup key = if key ∈ ownKeys then none else u.properties.get? key := by
  rw [otherProperties, Properties.get?]
  induction u.properties.entries with
  | nil => simp
  | cons e es ih =>
    rw [List.filter_cons]
    by_cases hown : e.1 ∈ ownKeys
    -- An entry that is dropped can only be looked up by a key that is dropped.
    · have hdropped : (!ownKeys.contains e.1) = false := by simpa using hown
      rw [hdropped, if_neg Bool.false_ne_true, ih, Properties.lookup_cons_eq]
      by_cases hkey : key ∈ ownKeys
      · rw [if_pos hkey, if_pos hkey]
      · have hne : key ≠ e.1 := fun h => hkey (h ▸ hown)
        rw [if_neg hkey, if_neg hkey, if_neg hne]
    · have hkept : (!ownKeys.contains e.1) = true := by simpa using hown
      rw [hkept, if_pos rfl, Properties.lookup_cons_eq, ih, Properties.lookup_cons_eq]
      by_cases hkey : key = e.1
      · rw [if_pos hkey, if_pos hkey, if_neg (hkey ▸ hown)]
      · rw [if_neg hkey, if_neg hkey]

theorem lookup_optional (own : Text) (value? : Option Text) (key : Text) :
    (value?.toList.map (own, ·)).lookup key = if key = own then value? else none := by
  cases value? with
  | none => exact (ite_self none).symm
  | some value =>
    rw [Option.toList_some, List.map_cons, Properties.lookup_cons_eq]
    rfl

/-- **What each key has in the properties that are kept**: the values with a place of their own come
from there, the name of the file is none of them, and everything else is as it was. -/
theorem get?_keptProperties (u : TranslationUnit) (key : Text) :
    (keptProperties u).get? key =
      if key = fileNameKey then none
      else if key = industryKey then u.industry?
      else if key = kindKey then u.kind?
      else if key = organizationKey then u.organization?
      else u.properties.get? key := by
  rw [keptProperties, Properties.get?_ofList (nodup_keys u), classification, List.lookup_append,
    List.lookup_append, List.lookup_append, lookup_optional, lookup_optional, lookup_optional,
    lookup_otherProperties]
  have hindustry : industryKey ≠ kindKey := by decide
  have hkinds : industryKey ≠ organizationKey ∧ kindKey ≠ organizationKey := by decide
  by_cases hother : key ∈ ownKeys
  · rw [if_pos hother, Option.or_none]
    simp only [ownKeys, List.mem_cons, List.not_mem_nil, or_false] at hother
    -- The lists are looked through in turn, and only one of them can have the key.
    rcases hother with rfl | rfl | rfl | rfl
    · rfl
    · rw [if_pos rfl, if_neg hindustry, if_neg hkinds.1, Option.or_none, Option.or_none]
      rfl
    · rw [if_neg (Ne.symm hindustry), if_pos rfl, if_neg hkinds.2, Option.or_none, Option.none_or]
      rfl
    · rfl
  · rw [if_neg hother]
    simp only [ownKeys, List.mem_cons, List.not_mem_nil, or_false, not_or] at hother
    rw [if_neg hother.2.1, if_neg hother.2.2.1, if_neg hother.2.2.2, if_neg hother.1,
      if_neg hother.2.1, if_neg hother.2.2.1, if_neg hother.2.2.2]
    rfl

/-! ## Portable units -/

/-- What it takes for a unit to come back from a document as it was. -/
structure IsPortable (stamp : Stamp) (u : TranslationUnit) : Prop where
  sourceLanguage : u.sourceLanguage ≠ [] ∧ primarySubtag u.sourceLanguage = u.sourceLanguage
  targetLanguage : u.targetLanguage ≠ [] ∧ primarySubtag u.targetLanguage = u.targetLanguage
  different : u.sourceLanguage ≠ u.targetLanguage
  declared : u.sourceLanguage = stamp.sourceLanguage
  sourceText : u.sourceText ≠ [] ∧ Text.trim u.sourceText = u.sourceText
  targetText : u.targetText ≠ [] ∧ Text.trim u.targetText = u.targetText
  fileName? : ∃ n, u.fileName? = some n ∧ ¬ Text.isBlank n ∧ Text.trim n = n
  identifier? : ∀ t ∈ u.identifier?, Text.trim t = t
  created? : ∀ t ∈ u.created?, Text.trim t = t
  changed? : ∀ t ∈ u.changed?, Text.trim t = t
  properties : ∀ e ∈ u.properties.entries, Text.trim e.1 = e.1
  sourceProperties : ∀ e ∈ u.sourceProperties.entries, Text.trim e.1 = e.1
  targetProperties : ∀ e ∈ u.targetProperties.entries, Text.trim e.1 = e.1

/-- What is left of a unit in a document that is read without any wishes.  Domains, users and failed
checks have no place there. -/
def restored (u : TranslationUnit) : TranslationUnit :=
  { u with
    domains := []
    properties := keptProperties u
    userName? := none
    failedChecks? := none }

theorem IsPortable.isWritable (h : IsPortable stamp u) : IsWritable stamp u where
  sourceText := h.sourceText.1
  targetText := h.targetText.1
  trimmedSource := Text.trim_eq_self_iff.mp h.sourceText.2
  trimmedTarget := Text.trim_eq_self_iff.mp h.targetText.2
  sourceLanguage := by rw [h.sourceLanguage.2]; exact h.sourceLanguage.1
  targetLanguage := by rw [h.targetLanguage.2]; exact h.targetLanguage.1
  different := by rw [h.sourceLanguage.2, h.targetLanguage.2]; exact h.different
  declared := by rw [h.declared]

theorem map_readEntry {es : List (Text × Text)} (h : ∀ e ∈ es, Text.trim e.1 = e.1) :
    es.map readEntry = es := by
  have hfixed : ∀ e ∈ es, readEntry e = e := fun e he => by rw [readEntry, h e he]
  rw [List.map_congr_left hfixed]
  exact List.map_id es

theorem map_trim {t? : Option Text} (h : ∀ t ∈ t?, Text.trim t = t) : t?.map Text.trim = t? := by
  cases t? with
  | none => rfl
  | some t => rw [Option.map_some, h t rfl]

/-- The properties of a record are those that were written. -/
theorem properties_writtenRecord (h : ∀ e ∈ u.properties.entries, Text.trim e.1 = e.1) :
    (writtenRecord u).properties = recordProperties u := by
  refine map_readEntry fun e he => ?_
  rw [recordProperties_eq, List.mem_append, List.mem_append] at he
  rcases he with he | he | he
  · obtain ⟨n, -, rfl⟩ := List.mem_map.mp he
    exact (by decide : Text.trim fileNameKey = fileNameKey)
  · have hown : ∀ k ∈ [industryKey, kindKey, organizationKey], Text.trim k = k := by decide
    exact hown _ (mem_classification he)
  · exact h e (mem_otherProperties he).1

theorem unitProperties_writtenRecord (h : ∀ e ∈ u.properties.entries, Text.trim e.1 = e.1) :
    (writtenRecord u).unitProperties = keptProperties u := by
  have hnames : (u.fileName?.toList.map (fileNameKey, ·)).filter (·.1 ≠ fileNameKey) = [] := by
    simp
  have hothers : (classification u ++ otherProperties u).filter (·.1 ≠ fileNameKey) =
      classification u ++ otherProperties u := by
    rw [List.filter_eq_self]
    exact fun e he => decide_eq_true (ne_fileNameKey_of_mem he)
  rw [Record.unitProperties, properties_writtenRecord h, recordProperties_eq, List.filter_append,
    hnames, hothers, List.nil_append, keptProperties]

/-- The file is named by its property. -/
theorem fileName?_writtenRecord (h : ∀ e ∈ u.properties.entries, Text.trim e.1 = e.1) {n : Text}
    (hname : u.fileName? = some n) (hvisible : ¬ Text.isBlank n) (htrim : Text.trim n = n) :
    (writtenRecord u).fileName? = some n := by
  have hne : n ≠ [] := by
    rintro rfl
    exact hvisible rfl
  have hothers : (classification u ++ otherProperties u).filter (·.1 == fileNameKey) = [] := by
    rw [List.filter_eq_nil_iff]
    exact fun e he hkey => ne_fileNameKey_of_mem he (beq_iff_eq.mp hkey)
  have hfile : [(fileNameKey, n)].filter (·.1 == fileNameKey) = [(fileNameKey, n)] := rfl
  have hkept : ([n].filter (!·.isEmpty)) = [n] := by
    simp [hne]
  simp only [Record.fileName?, properties_writtenRecord h, recordProperties_eq, hname,
    Option.toList_some, List.filter_append, hothers, hfile, List.append_nil, List.map_cons,
    List.map_nil, htrim, hkept, List.getLast?_singleton]

/-- **A portable unit is restored**: everything is as it was but for what documents do not keep. -/
theorem readUnit_of_isPortable (h : IsPortable stamp u) (hrequest : reading.request = {}) :
    readUnit reading u = restored u := by
  obtain ⟨n, hname, hvisible, htrim⟩ := h.fileName?
  have hkey (key : Text) := get?_keptProperties u key
  have hindustry : (keptProperties u).get? industryKey = u.industry? := hkey industryKey
  have hkind : (keptProperties u).get? kindKey = u.kind? := hkey kindKey
  have horganization : (keptProperties u).get? organizationKey = u.organization? :=
    hkey organizationKey
  have hidentifier : (writtenRecord u).identifier? = u.identifier? := map_trim h.identifier?
  have hcreated : (writtenRecord u).created? = u.created? := map_trim h.created?
  have hchanged : (writtenRecord u).changed? = u.changed? := map_trim h.changed?
  have hfile : some ((writtenRecord u).fileName?.getD reading.fileName) = u.fileName? := by
    rw [fileName?_writtenRecord h.properties hname hvisible htrim, Option.getD_some, hname]
  simp only [readUnit, Record.unit, writtenSide, unitProperties_writtenRecord h.properties,
    hfile, hrequest, hindustry, hkind, horganization, hidentifier, hcreated, hchanged,
    h.sourceLanguage.2, h.targetLanguage.2, map_readEntry h.sourceProperties,
    map_readEntry h.targetProperties, Properties.ofList_entries, Option.toList_none, restored]

end Bitext.Tmx
