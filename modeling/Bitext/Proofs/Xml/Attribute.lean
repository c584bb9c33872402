import Bitext.Proofs.Xml.Entity
import Bitext.Proofs.Xml.Name
import Bitext.Xml.Attribute

/-!
# Attributes read back

Attributes that are written with a blank before them and their value escaped in double quotes are
read as they were written, whatever the values are, and the tag around them ends where it should.

## Main definitions

* `writtenAttributes`: attributes as they are written behind the name of a tag.

## Main results

* `isStretch_writtenAttributes`: no value hides the end of the tag
* `attributes_written`: the attributes of a written tag
* `attribute?_written`: the value of a key in a written tag
-/

namespace Bitext.Xml

open Bitext.Unicode (Glyph)

variable {key value name : Text} {seen : List (List Glyph)} {input rest : List Glyph}

/-! ## One attribute -/

/-- An attribute as it is written behind a name or another attribute. -/
def writtenAttribute (key value : Text) : Text :=
  ' ' :: (key ++ '=' :: '"' :: (escape value ++ ['"']))

theorem isStretch_writtenAttribute (h : IsName key) (value : Text) :
    IsStretch (writtenAttribute key value) := by
  -- The brackets of a value stand between its quotation marks, where they end nothing.
  have hblank : IsStretch [' '] := isStretch_singleton ⟨by decide, by decide, by decide⟩
  have hequals : IsStretch ['='] := isStretch_singleton ⟨by decide, by decide, by decide⟩
  have hquoted : IsStretch ('"' :: (escape value ++ ['"'])) :=
    isStretch_quoted fun c hc => (isPlain_of_mem_escape hc).2.2.2
  exact hblank.append (h.isTagName.isStretch.append (hequals.append hquoted))

theorem attributesFrom_of_nothing (h : input.dropWhile isTagSpace = []) :
    attributesFrom seen input = [] := by
  rw [attributesFrom]
  split
  · rfl
  · rename_i h'
    rw [h] at h'
    cases h'

theorem attributesFrom_of_step {first : Glyph} {more : List Glyph}
    (h : input.dropWhile isTagSpace = first :: more) :
    attributesFrom seen input =
      (attributeStep seen first more).attribute?.toList ++
        attributesFrom ((attributeStep seen first more).key?.toList ++ seen)
          (attributeStep seen first more).rest := by
  rw [attributesFrom]
  split
  · rename_i h'
    rw [h] at h'
    cases h'
  · rename_i h'
    rw [h] at h'
    cases h'
    rfl

theorem cutAt?_ofText {q : Char} {v : Text} (h : ∀ c ∈ v, c ≠ q) (rest : List Glyph) :
    cutAt? q (Glyph.ofText v ++ .char q :: rest) = some (Glyph.ofText v, rest) := by
  induction v with
  | nil => simp [cutAt?]
  | cons c v ih =>
    have hc := h c List.mem_cons_self
    rw [Glyph.ofText_cons, List.cons_append, cutAt?,
      ih fun d hd => h d (List.mem_cons_of_mem c hd)]
    simp [hc]

/-- A written attribute is read in one step. -/
theorem attributeStep_written {c : Char} {key : Text} (h : IsName (c :: key))
    (hnew : seen.contains (Glyph.ofText (c :: key)) = false) (value : Text) (rest : List Glyph) :
    attributeStep seen (.char c)
        (Glyph.ofText (key ++ '=' :: '"' :: (escape value ++ ['"'])) ++ rest) =
      ⟨some (Glyph.ofText (c :: key)), some ⟨Glyph.ofText (c :: key), Glyph.ofText (escape value)⟩,
        rest⟩ := by
  have hkey : ∀ g ∈ Glyph.ofText key, (!(g.is '=' || isTagSpace g)) = true := by
    intro g hg
    obtain ⟨d, hd, rfl⟩ := List.mem_map.mp hg
    have hmem := List.mem_cons_of_mem c hd
    -- The key ends at the first equals sign, which no name holds.
    have hequals : d ≠ '=' := by
      rintro rfl
      exact h.not_mem rfl hmem
    rw [h.isTagName.isTagSpace d hmem, Glyph.is_char, beq_eq_false_iff_ne.mpr hequals]
    rfl
  have hinput : Glyph.ofText (key ++ '=' :: '"' :: (escape value ++ ['"'])) ++ rest =
      Glyph.ofText key ++ .char '=' :: .char '"' :: (Glyph.ofText (escape value) ++
        .char '"' :: rest) := by
    simp
  have htake (more : List Glyph) :
      (Glyph.ofText key ++ .char '=' :: more).takeWhile (fun g => !(g.is '=' || isTagSpace g)) =
        Glyph.ofText key := by
    rw [List.takeWhile_append_of_pos hkey]
    simp
  have hdrop (more : List Glyph) :
      (Glyph.ofText key ++ .char '=' :: more).dropWhile (fun g => !(g.is '=' || isTagSpace g)) =
        .char '=' :: more := by
    rw [List.dropWhile_append_of_pos hkey]
    simp
  have hvalue : ∀ c ∈ escape value, c ≠ '"' := fun c hc => (isPlain_of_mem_escape hc).2.2.2
  have hequals (more : List Glyph) :
      (Glyph.char '=' :: more).dropWhile isTagSpace = .char '=' :: more := rfl
  have hquote (more : List Glyph) :
      (Glyph.char '"' :: more).dropWhile isTagSpace = .char '"' :: more := rfl
  rw [Glyph.ofText_cons] at hnew ⊢
  simp only [attributeStep, hinput, htake, hdrop, hequals, Glyph.is_char, beq_self_eq_true, if_true,
    hnew, Bool.false_eq_true, if_false, hquote, isQuoted, Bool.true_or, quoted?,
    cutAt?_ofText hvalue]

/-- **A written attribute is read as it was written**, and reading goes on behind it. -/
theorem attributesFrom_written (h : IsName key) (hnew : seen.contains (Glyph.ofText key) = false)
    (value : Text) (rest : List Glyph) :
    attributesFrom seen (Glyph.ofText (writtenAttribute key value) ++ rest) =
      ⟨Glyph.ofText key, Glyph.ofText (escape value)⟩ ::
        attributesFrom (Glyph.ofText key :: seen) rest := by
  obtain ⟨c, key, rfl⟩ := List.exists_cons_of_ne_nil h.1
  have hfirst : (Glyph.ofText (writtenAttribute (c :: key) value) ++ rest).dropWhile isTagSpace =
      .char c :: (Glyph.ofText (key ++ '=' :: '"' :: (escape value ++ ['"'])) ++ rest) := by
    rw [writtenAttribute, Glyph.ofText_cons, List.cons_append, List.dropWhile_cons_of_pos rfl,
      List.cons_append, Glyph.ofText_cons, List.cons_append,
      List.dropWhile_cons_of_neg (by simp [h.isTagName.isTagSpace c List.mem_cons_self])]
  rw [attributesFrom_of_step hfirst, attributeStep_written h hnew]
  rfl

/-! ## All attributes of a tag -/

/-- Attributes as they are written behind a name. -/
def writtenAttributes (kvs : List (Text × Text)) : Text :=
  kvs.flatMap fun (key, value) => writtenAttribute key value

/-- The keys of the attributes are names, and no two are the same. -/
def HasKeys (kvs : List (Text × Text)) : Prop :=
  (∀ kv ∈ kvs, IsName kv.1) ∧ kvs.Pairwise fun a b => a.1 ≠ b.1

theorem isStretch_writtenAttributes {kvs : List (Text × Text)} (h : ∀ kv ∈ kvs, IsName kv.1) :
    IsStretch (writtenAttributes kvs) := by
  induction kvs with
  | nil => exact isStretch_nil
  | cons kv kvs ih =>
    exact (isStretch_writtenAttribute (h kv List.mem_cons_self) kv.2).append
      (ih fun kv' hkv' => h kv' (List.mem_cons_of_mem kv hkv'))

theorem attributesFrom_writtenAttributes {kvs : List (Text × Text)} (h : HasKeys kvs)
    (hseen : ∀ kv ∈ kvs, seen.contains (Glyph.ofText kv.1) = false) :
    attributesFrom seen (Glyph.ofText (writtenAttributes kvs)) =
      kvs.map fun kv => ⟨Glyph.ofText kv.1, Glyph.ofText (escape kv.2)⟩ := by
  induction kvs generalizing seen with
  | nil => exact attributesFrom_of_nothing rfl
  | cons kv kvs ih =>
    obtain ⟨hfirst, hrest⟩ := List.pairwise_cons.mp h.2
    rw [writtenAttributes, List.flatMap_cons, Glyph.ofText_append,
      attributesFrom_written (h.1 kv List.mem_cons_self) (hseen kv List.mem_cons_self),
      List.map_cons]
    congr 1
    -- The key that was just seen is none of those that follow.
    refine ih ⟨fun kv' hkv' => h.1 kv' (List.mem_cons_of_mem kv hkv'), hrest⟩ ?_
    intro kv' hkv'
    have hne : Glyph.ofText kv'.1 ≠ Glyph.ofText kv.1 := by
      intro heq
      exact hfirst kv' hkv' (Glyph.ofText_injective heq).symm
    rw [List.contains_cons, hseen kv' (List.mem_cons_of_mem kv hkv'), Bool.or_false]
    exact beq_eq_false_iff_ne.mpr hne

/-- Behind the name of a tag the attributes begin with a blank. -/
theorem head?_writtenAttributes (kvs : List (Text × Text)) :
    ∀ c, (writtenAttributes kvs).head? = some c → isTagSpace (.char c) = true := by
  intro c hc
  cases kvs with
  | nil => cases hc
  | cons kv kvs =>
    cases hc
    rfl

theorem contentName_written (h : ∀ c ∈ name, isTagSpace (.char c) = false)
    (kvs : List (Text × Text)) :
    contentName (Glyph.ofText (name ++ writtenAttributes kvs)) = Glyph.ofText name :=
  contentName_append h (head?_writtenAttributes kvs)

/-- **The attributes of a written tag.** -/
theorem attributes_written (hname : ∀ c ∈ name, isTagSpace (.char c) = false)
    {kvs : List (Text × Text)} (h : HasKeys kvs) :
    attributes (Glyph.ofText (name ++ writtenAttributes kvs)) =
      kvs.map fun kv => ⟨Glyph.ofText kv.1, Glyph.ofText (escape kv.2)⟩ := by
  rw [attributes, contentName_written hname, Glyph.ofText_append, List.drop_left]
  exact attributesFrom_writtenAttributes h fun kv _ => rfl

/-- **The value of a key in a written tag** is the one that was written. -/
theorem attribute?_written (hname : ∀ c ∈ name, isTagSpace (.char c) = false)
    {kvs : List (Text × Text)} (h : HasKeys kvs) (key : Text) :
    attribute? key (Glyph.ofText (name ++ writtenAttributes kvs)) = kvs.lookup key := by
  rw [attribute?, attributes_written hname h]
  clear h
  induction kvs with
  | nil => rfl
  | cons kv kvs ih =>
    obtain ⟨k, v⟩ := kv
    rw [List.map_cons, List.lookup_cons]
    by_cases hk : key = k
    · subst hk
      rw [List.find?_cons_of_pos (by simp), Option.bind_some, Glyph.wellFormed?_ofText,
        Option.bind_some, unescape?_escape, beq_self_eq_true]
    · have hne : (Glyph.ofText k == Glyph.ofText key) = false := by
        refine beq_eq_false_iff_ne.mpr fun heq => hk (Glyph.ofText_injective heq).symm
      rw [List.find?_cons_of_neg (by simp [hne]), ih, beq_eq_false_iff_ne.mpr hk]

end Bitext.Xml
