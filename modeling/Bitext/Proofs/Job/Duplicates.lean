import Bitext.Proofs.List.Classes
import Bitext.Proofs.Memory.Direction

/-!
# Groups of duplicates

The units of a scan are grouped one after another, each by its content key.  What comes of it are
the classes of equal keys, in the order of their first units, and a report on each class that has
more than one unit.  A scan that is asked for duplicates only has found the same keys by counting
them.

A group is meant to be a class of equal texts.  It is one unless two units with different texts
have a key in common.  Collisions of digests apart, this takes a text with a zero byte, since such a
byte stands between both texts of a unit when its key is made.

## Main definitions

* `DuplicateGroup.ofMembers`: what is reported on the members of a group.
* `duplicateGroups`: the report on all classes with more than one unit.

## Main results

* `groupsOf_eq`: grouping one unit after another finds the classes of equal keys
* `scan_agrees_findDuplicates`: scanning for duplicates and grouping agree
* `findDuplicates_eq_iff`: exactly when the groups are the classes of equal texts
* `findDuplicates_separator`: two units with different texts in one group
-/

namespace Bitext

/-- Both texts of a unit. -/
def TranslationUnit.texts (u : TranslationUnit) : Text × Text := (u.sourceText, u.targetText)

/-- The key is made of the texts alone. -/
theorem TranslationUnit.contentKey_of_texts {u v : TranslationUnit} (h : u.texts = v.texts) :
    u.contentKey = v.contentKey := by
  obtain ⟨hsource, htarget⟩ := Prod.mk.inj h
  rw [contentKey, hsource, htarget, contentKey]

namespace Job

open List (classes)

variable {κ : Type} [BEq κ] [LawfulBEq κ] {f : TranslationUnit → κ} {u v : TranslationUnit}
  {us members : List TranslationUnit} {m : Memory} {pair : LanguagePair} {filters : SearchFilters}

/-! ## One group -/

/-- Texts that are added one after another are the distinct ones of all. -/
theorem addNew_eraseDups (known new : List Text) :
    addNew known.eraseDups new = (known ++ new).eraseDups := by
  induction new generalizing known with
  | nil => rw [List.append_nil, addNew, List.foldl_nil]
  | cons t new ih =>
    have hknown : known.eraseDups.contains t = known.elem t := by
      rw [Bool.eq_iff_iff, List.contains_iff_mem, List.mem_eraseDups, List.elem_iff]
    have hstep : addNew known.eraseDups (t :: new) = addNew (known ++ [t]).eraseDups new := by
      rw [addNew, List.foldl_cons, hknown, List.eraseDups_concat, addNew]
    rw [hstep, ih, List.append_assoc, List.singleton_append]

namespace DuplicateGroup

/-- What is reported on the members of a group: the key and the texts of the first one, their
number, and the distinct domains and file names of all, in the order in which they occur. -/
def ofMembers (members : List TranslationUnit) : DuplicateGroup where
  key := members.headI.contentKey
  sourceText := members.headI.sourceText
  targetText := members.headI.targetText
  count := members.length
  domains := (members.flatMap (·.domains)).eraseDups
  fileNames := (members.filterMap (·.fileName?)).eraseDups

theorem filterMap_fileName? (u : TranslationUnit) :
    [u].filterMap (·.fileName?) = u.fileName?.toList := by
  cases hname : u.fileName? <;> simp [hname]

theorem start_add (u : TranslationUnit) : (start u.contentKey u).add u = ofMembers [u] := by
  have hdomains := addNew_eraseDups [] u.domains
  have hfiles := addNew_eraseDups [] u.fileName?.toList
  simp only [List.eraseDups_nil, List.nil_append] at hdomains hfiles
  simp only [start, add, ofMembers, hdomains, hfiles, filterMap_fileName?,
    List.flatMap_singleton]
  rfl

/-- A member that is added is reported on behind the others. -/
theorem ofMembers_add (hmembers : members ≠ []) (u : TranslationUnit) :
    (ofMembers members).add u = ofMembers (members ++ [u]) := by
  obtain ⟨first, rest, rfl⟩ := List.exists_cons_of_ne_nil hmembers
  simp only [add, ofMembers, addNew_eraseDups, List.flatMap_append, List.flatMap_singleton,
    List.filterMap_append, filterMap_fileName?, List.length_append, List.length_singleton]
  rfl

theorem foldl_add (hmembers : members ≠ []) (us : List TranslationUnit) :
    us.foldl add (ofMembers members) = ofMembers (members ++ us) := by
  induction us generalizing members with
  | nil => rw [List.append_nil, List.foldl_nil]
  | cons u us ih =>
    have hmore : members ++ [u] ≠ [] := List.append_ne_nil_of_left_ne_nil hmembers [u]
    rw [List.foldl_cons, ofMembers_add hmembers, ih hmore, List.append_assoc,
      List.singleton_append]

end DuplicateGroup

open DuplicateGroup (ofMembers start_add foldl_add)

/-! ## All groups -/

/-- Units are added to the first group if they have its key, and to the other groups if not. -/
theorem foldl_addToGroup (g : DuplicateGroup) (gs : List DuplicateGroup)
    (us : List TranslationUnit) :
    us.foldl (fun gs u => addToGroup u.contentKey u gs) (g :: gs) =
      (us.filter (·.contentKey == g.key)).foldl DuplicateGroup.add g ::
        (us.filter fun u => !(u.contentKey == g.key)).foldl
          (fun gs u => addToGroup u.contentKey u gs) gs := by
  induction us generalizing g gs with
  | nil => rfl
  | cons u us ih =>
    rw [List.foldl_cons, addToGroup]
    by_cases hkey : g.key = u.contentKey
    · have hsame : (u.contentKey == g.key) = true := beq_iff_eq.mpr hkey.symm
      have hadd : (g.add u).key = g.key := rfl
      rw [if_pos hkey, ih, hadd]
      simp only [List.filter_cons, hsame, Bool.not_true, Bool.false_eq_true, if_true, if_false,
        List.foldl_cons]
    · have hother : (u.contentKey == g.key) = false := beq_eq_false_iff_ne.mpr (Ne.symm hkey)
      rw [if_neg hkey, ih]
      simp only [List.filter_cons, hother, Bool.not_false, Bool.false_eq_true, if_true, if_false,
        List.foldl_cons]

/-- **Grouping one unit after another finds the classes of equal keys.** -/
theorem groupsOf_eq (us : List TranslationUnit) :
    groupsOf us = (classes (·.contentKey) us).map ofMembers := by
  induction us using List.induction_classes TranslationUnit.contentKey with
  | nil => rfl
  | cons u us ih =>
    rw [groupsOf, List.foldl_cons, addToGroup, foldl_addToGroup, start_add,
      foldl_add (List.cons_ne_nil u []), List.singleton_append, List.classes_cons, List.map_cons,
      ← ih]
    rfl

/-- The report on all classes with more than one unit, in the order of their first units. -/
def duplicateGroups (f : TranslationUnit → κ) (us : List TranslationUnit) : List DuplicateGroup :=
  ((classes f us).filter (1 < ·.length)).map ofMembers

theorem result_findDuplicates {α : Type} [Score α] (m : Memory) (pair : LanguagePair)
    (filters : SearchFilters) :
    (findDuplicates (m.backend : Backend α) pair filters).result =
      .ok (duplicateGroups (·.contentKey) (m.scan pair filters)) := by
  have hfound : (findDuplicates (m.backend : Backend α) pair filters).result =
      .ok ((groupsOf (m.scan pair filters)).filter (1 < ·.count)) := rfl
  rw [hfound, groupsOf_eq, List.filter_map]
  rfl

/-- The key of a group is the one that its members share. -/
theorem key_ofMembers {key : Text} (hmembers : members ≠ [])
    (hkey : ∀ u ∈ members, u.contentKey = key) : (ofMembers members).key = key := by
  obtain ⟨first, rest, rfl⟩ := List.exists_cons_of_ne_nil hmembers
  exact hkey first List.mem_cons_self

/-- A class of equal keys is reported under this key. -/
theorem key_ofMembers_filter (hu : u ∈ us) :
    (ofMembers (us.filter (·.contentKey == u.contentKey))).key = u.contentKey := by
  refine key_ofMembers (List.ne_nil_of_mem (List.mem_filter.mpr ⟨hu, beq_self_eq_true _⟩)) ?_
  exact fun v hv => beq_iff_eq.mp (List.mem_filter.mp hv).2

/-! ## Scanning for duplicates -/

/-- A key that occurs more than once is the key of a group. -/
theorem contains_key_iff (hu : u ∈ us) :
    ((duplicateGroups (·.contentKey) us).map (·.key)).contains u.contentKey ↔
      1 < us.countP (·.contentKey == u.contentKey) := by
  rw [List.contains_iff_mem, duplicateGroups, List.map_map, List.mem_map,
    List.countP_eq_length_filter]
  constructor
  · rintro ⟨members, hmembers, hkey⟩
    obtain ⟨hclass, hmore⟩ := List.mem_filter.mp hmembers
    obtain ⟨v, hv, rfl⟩ := List.exists_of_mem_classes hclass
    rw [Function.comp_apply, key_ofMembers_filter hv] at hkey
    rw [← hkey]
    exact of_decide_eq_true hmore
  · intro hmore
    have hclass := List.filter_mem_classes (f := TranslationUnit.contentKey) hu
    exact ⟨_, List.mem_filter.mpr ⟨hclass, decide_eq_true hmore⟩, key_ofMembers_filter hu⟩

/-- Units that are alone in their class do not count. -/
theorem duplicateGroups_repeated (f : TranslationUnit → κ) (us : List TranslationUnit) :
    duplicateGroups f (us.filter fun u => 1 < us.countP (f · == f u)) = duplicateGroups f us := by
  rw [duplicateGroups, List.classes_repeated, List.filter_filter, duplicateGroups]
  simp only [Bool.and_self]

/-- All other ones are counted, each in one group. -/
theorem sum_count_duplicateGroups (f : TranslationUnit → κ) (us : List TranslationUnit) :
    ((duplicateGroups f us).map (·.count)).sum =
      (us.filter fun u => 1 < us.countP (f · == f u)).length := by
  rw [← List.sum_length_classes f, List.classes_repeated, duplicateGroups, List.map_map]
  rfl

theorem scan_repeated (m : Memory) (pair : LanguagePair) (filters : SearchFilters) :
    let all := m.scan pair { filters with duplicatesOnly := false }
    m.scan pair { filters with duplicatesOnly := true } =
      all.filter fun u => 1 < all.countP (·.contentKey == u.contentKey) := by
  have hall : m.scan pair { filters with duplicatesOnly := false } = m.matching pair filters := by
    rw [Memory.scan_eq_filter]
    exact List.filter_eq_self.mpr fun _ _ => rfl
  rw [hall, Memory.scan_eq_filter]
  rfl

/-- **Scanning for duplicates and grouping agree.**  A scan for duplicates has exactly the units
whose key is that of a group, the groups count all of these, and they are found among these just as
well as among all units. -/
theorem scan_agrees_findDuplicates {α : Type} [Score α] (m : Memory) (pair : LanguagePair)
    (filters : SearchFilters) :
    let all := { filters with duplicatesOnly := false }
    let repeated := { filters with duplicatesOnly := true }
    ∃ groups, (findDuplicates (m.backend : Backend α) pair all).result = .ok groups ∧
      m.scan pair repeated =
        (m.scan pair all).filter (fun u => (groups.map (·.key)).contains u.contentKey) ∧
      (groups.map (·.count)).sum = (m.scan pair repeated).length ∧
      (findDuplicates (m.backend : Backend α) pair repeated).result = .ok groups := by
  intro all repeated
  have hscan : m.scan pair repeated = (m.scan pair all).filter fun u =>
      1 < (m.scan pair all).countP (·.contentKey == u.contentKey) := scan_repeated m pair filters
  refine ⟨_, result_findDuplicates m pair all, ?_, ?_, ?_⟩
  · rw [hscan]
    refine List.filter_congr fun u hu => ?_
    rw [Bool.eq_iff_iff, decide_eq_true_eq]
    exact (contains_key_iff hu).symm
  · rw [sum_count_duplicateGroups, hscan]
  · rw [result_findDuplicates, hscan, duplicateGroups_repeated]

/-! ## Classes of equal texts -/

/-- A class of equal texts lies inside a class of equal keys. -/
theorem filter_texts_sublist (h : v.contentKey = u.contentKey) (us : List TranslationUnit) :
    (us.filter (·.texts == v.texts)).Sublist (us.filter (·.contentKey == u.contentKey)) := by
  refine List.monotone_filter_right us fun w hw => beq_iff_eq.mpr ?_
  exact (TranslationUnit.contentKey_of_texts (beq_iff_eq.mp hw)).trans h

/-- Where the groups by keys are those by texts, units with equal keys have equal texts: a class of
equal keys with several texts would be longer than the class of any of them. -/
theorem texts_eq_of_duplicateGroups
    (h : duplicateGroups (·.contentKey) us = duplicateGroups TranslationUnit.texts us)
    (hu : u ∈ us) (hv : v ∈ us) (hkey : u.contentKey = v.contentKey) : u.texts = v.texts := by
  by_contra hdifferent
  have hclass := List.filter_mem_classes (f := TranslationUnit.contentKey) hu
  have hmore : 1 < (us.filter (·.contentKey == u.contentKey)).length := by
    refine List.one_lt_length_of_ne (List.mem_filter.mpr ⟨hu, beq_self_eq_true _⟩)
      (List.mem_filter.mpr ⟨hv, beq_iff_eq.mpr hkey.symm⟩) ?_
    exact fun heq => hdifferent (congrArg TranslationUnit.texts heq)
  -- The report on the class of both units is that on a class of equal texts.
  have hreport : ofMembers (us.filter (·.contentKey == u.contentKey)) ∈
      duplicateGroups TranslationUnit.texts us := by
    rw [← h]
    exact List.mem_map_of_mem (List.mem_filter.mpr ⟨hclass, decide_eq_true hmore⟩)
  obtain ⟨others, hothers, hsame⟩ := List.mem_map.mp hreport
  obtain ⟨w, hw, rfl⟩ := List.exists_of_mem_classes (List.mem_filter.mp hothers).1
  have htexts : ∀ x ∈ us.filter (·.texts == w.texts), x.contentKey = w.contentKey := fun x hx =>
    TranslationUnit.contentKey_of_texts (beq_iff_eq.mp (List.mem_filter.mp hx).2)
  have hwkey : w.contentKey = u.contentKey := by
    have hwgroup := key_ofMembers
      (List.ne_nil_of_mem (List.mem_filter.mpr ⟨hw, beq_self_eq_true w.texts⟩)) htexts
    rw [← hwgroup, hsame, key_ofMembers_filter hu]
  -- Equal texts have equal keys, and the classes are equally long, so they are one class.
  have hone := (filter_texts_sublist hwkey us).eq_of_length (congrArg DuplicateGroup.count hsame)
  have hall : ∀ x ∈ us, x.contentKey = u.contentKey → x.texts = w.texts := by
    intro x hx hxkey
    have hmem : x ∈ us.filter (·.texts == w.texts) := by
      rw [hone]
      exact List.mem_filter.mpr ⟨hx, beq_iff_eq.mpr hxkey⟩
    exact beq_iff_eq.mp (List.mem_filter.mp hmem).2
  exact hdifferent ((hall u hu rfl).trans (hall v hv hkey.symm).symm)

/-- The groups are the classes of equal texts exactly if no two units with different texts have one
key. -/
theorem duplicateGroups_eq_iff :
    duplicateGroups (·.contentKey) us = duplicateGroups TranslationUnit.texts us ↔
      ∀ u ∈ us, ∀ v ∈ us, u.contentKey = v.contentKey → u.texts = v.texts := by
  constructor
  · exact fun h u hu v hv hkey => texts_eq_of_duplicateGroups h hu hv hkey
  · intro h
    rw [duplicateGroups, duplicateGroups, List.classes_congr fun u hu v hv =>
      ⟨h u hu v hv, TranslationUnit.contentKey_of_texts⟩]

/-- **When duplicates are found by their texts.**  As long as no digests collide, the groups are the
classes of equal texts with more than one unit, in the order of their first units, exactly if no
units with different texts are the same bytes once there is a zero byte between the texts.  So they
are if no text has a zero byte itself. -/
theorem findDuplicates_eq_iff {α : Type} [Score α]
    (hcollision : CollisionFree (m.scan pair filters)) :
    let units := m.scan pair filters
    let found := (findDuplicates (m.backend : Backend α) pair filters).result
    (found = .ok (duplicateGroups TranslationUnit.texts units) ↔
      ∀ u ∈ units, ∀ v ∈ units, u.keyBytes = v.keyBytes → u.texts = v.texts) ∧
    ((∀ u ∈ units, u.IsZeroFree) →
      found = .ok (duplicateGroups TranslationUnit.texts units)) := by
  intro units found
  have hiff : found = .ok (duplicateGroups TranslationUnit.texts units) ↔
      ∀ u ∈ units, ∀ v ∈ units, u.keyBytes = v.keyBytes → u.texts = v.texts := by
    have hfound : found = .ok (duplicateGroups (·.contentKey) units) :=
      result_findDuplicates m pair filters
    rw [hfound, Except.ok.injEq, duplicateGroups_eq_iff]
    constructor
    · exact fun h u hu v hv hbytes => h u hu v hv (congrArg Digest.sha256 hbytes)
    · exact fun h u hu v hv hkey => h u hu v hv (hcollision u hu v hv hkey)
  refine ⟨hiff, fun hzero => hiff.mpr fun u hu v hv hbytes => ?_⟩
  obtain ⟨hsource, htarget⟩ := (TranslationUnit.keyBytes_eq_iff (hzero u hu)).mp hbytes
  exact Prod.ext hsource htarget

/-! ### Examples -/

/-- A memory with one unit twice, stored from different sides and files, and another unit. -/
def twiceMemory : Memory where
  units := [
    { sourceText := "Call me".toList, targetText := "Llámame".toList
      sourceLanguage := "en".toList, targetLanguage := "es".toList
      domains := ["Support".toList], fileName? := some "a.tmx".toList },
    { sourceText := "Thanks".toList, targetText := "Gracias".toList
      sourceLanguage := "en".toList, targetLanguage := "es".toList
      domains := ["Support".toList], fileName? := some "b.tmx".toList },
    { sourceText := "Llámame".toList, targetText := "Call me".toList
      sourceLanguage := "es".toList, targetLanguage := "en".toList
      domains := ["Sales".toList, "Support".toList], fileName? := some "b.tmx".toList }]

/-- What is reported on the unit that is there twice. -/
def twiceGroup : DuplicateGroup where
  key := (twiceMemory.scan Memory.separatorPair {}).headI.contentKey
  sourceText := "Call me".toList
  targetText := "Llámame".toList
  count := 2
  domains := ["Support".toList, "Sales".toList]
  fileNames := ["a.tmx".toList, "b.tmx".toList]

theorem findDuplicates_eq_iff_twiceMemory :
    CollisionFree (twiceMemory.scan Memory.separatorPair {}) ∧
      (findDuplicates (twiceMemory.backend : Backend Rat) Memory.separatorPair {}).result =
        .ok [twiceGroup] := by
  have hcollision : CollisionFree (twiceMemory.scan Memory.separatorPair {}) := by
    unfold CollisionFree
    decide +kernel
  have hzero : ∀ u ∈ twiceMemory.scan Memory.separatorPair {},
      '\x00' ∉ u.sourceText ∧ '\x00' ∉ u.targetText := by
    decide +kernel
  have hgroups : duplicateGroups TranslationUnit.texts
      (twiceMemory.scan Memory.separatorPair {}) = [twiceGroup] := by
    decide +kernel
  obtain ⟨-, hfound⟩ := findDuplicates_eq_iff (α := Rat) hcollision
  exact ⟨hcollision, hgroups ▸ hfound fun u hu => ⟨(hzero u hu).1, (hzero u hu).2⟩⟩

/-- The unit that is there twice is scanned from both sides, and makes up the only group. -/
theorem scan_agrees_findDuplicates_twiceMemory :
    let found := fun filters =>
      (findDuplicates (twiceMemory.backend : Backend Rat) Memory.separatorPair filters).result
    found {} = .ok [twiceGroup] ∧ found { duplicatesOnly := true } = .ok [twiceGroup] ∧
      (twiceMemory.scan Memory.separatorPair { duplicatesOnly := true }).map (·.texts) =
        List.replicate 2 ("Call me".toList, "Llámame".toList) := by
  intro found
  obtain ⟨groups, hall, hscan, -, hrepeated⟩ :=
    scan_agrees_findDuplicates (α := Rat) twiceMemory Memory.separatorPair {}
  have hfound : found {} = .ok [twiceGroup] := by
    have hgroups : duplicateGroups (·.contentKey) (twiceMemory.scan Memory.separatorPair {}) =
        [twiceGroup] := by
      decide +kernel
    exact (result_findDuplicates _ _ _).trans (congrArg Except.ok hgroups)
  obtain rfl : groups = [twiceGroup] := Except.ok.inj (hall.symm.trans hfound)
  refine ⟨hfound, hrepeated, ?_⟩
  rw [hscan]
  decide +kernel

/-- **Two units with different texts in one group.**  Neither occurs more than once, and it takes no
collision of digests. -/
theorem findDuplicates_separator :
    let units := Memory.separatorMemory.scan Memory.separatorPair {}
    let found :=
      (findDuplicates (Memory.separatorMemory.backend : Backend Rat) Memory.separatorPair {}).result
    CollisionFree units ∧ (units.map (·.texts)).Nodup ∧
      found = .ok [ofMembers Memory.separatorMemory.units] ∧
      duplicateGroups TranslationUnit.texts units = [] ∧
      found ≠ .ok (duplicateGroups TranslationUnit.texts units) := by
  intro units found
  have hcollision : CollisionFree units := by
    unfold CollisionFree
    decide +kernel
  have hfound : found = .ok [ofMembers Memory.separatorMemory.units] := by
    have hgroups : duplicateGroups (·.contentKey) units =
        [ofMembers Memory.separatorMemory.units] := by
      decide +kernel
    exact (result_findDuplicates _ _ _).trans (congrArg Except.ok hgroups)
  have hnone : duplicateGroups TranslationUnit.texts units = [] := by
    decide +kernel
  refine ⟨hcollision, by decide +kernel, hfound, hnone, ?_⟩
  rw [hfound, hnone, ne_eq, Except.ok.injEq]
  exact List.cons_ne_nil _ _

end Job

end Bitext
