import Bitext.Proofs.Markup.Outside

/-!
# Stripping more than once

Stripping takes out the tags of a text and leaves the brackets that belong to no tag.  A tag that
stands between two such brackets becomes a space between them, and the two brackets and the space
are a tag again.  This is the only way in which stripping leaves a tag; where there is no tag left,
stripping again changes nothing, and where there is one, stripping again takes it out.

## Main definitions

* `Encloses`: a tag between two brackets that belong to no tag.

## Main results

* `hasTags_iff_tagText`: a text has tags exactly if one is a part of it
* `count_open_strip`: every tag takes its opening bracket with it
* `strip_strip_iff`: exactly when stripping leaves a tag, and when it leaves nothing to strip
-/

namespace Bitext.Markup

variable {t : Text} {ps qs : List Piece}

/-- A tag stands between two brackets that belong to no tag, with no other such bracket between
them. -/
def Encloses (ps : List Piece) : Prop :=
  ∃ before inner after, ps = before ++ .char '<' :: (inner ++ .char '>' :: after) ∧
    (∃ body, .tag body ∈ inner) ∧ ∀ c, .char c ∈ inner → isAngle c = false

/-! ## Tags as parts of a text -/

/-- **A text has tags exactly if one is a part of it.** -/
theorem hasTags_iff_tagText : hasTags t ↔ ∃ body, IsTagBody body ∧ tagText body <:+: t := by
  rw [hasTags_iff]
  constructor
  · rintro ⟨body, hbody⟩
    obtain ⟨before, after, hpieces⟩ := List.append_of_mem hbody
    refine ⟨body, isTagBody_of_mem_pieces hbody, unparse before, unparse after, ?_⟩
    rw [← unparse_pieces t, hpieces, unparse_append, unparse_cons, List.append_assoc]
    rfl
  · rintro ⟨body, hbody, a, b, rfl⟩
    rw [List.append_assoc, pieces_append_tag hbody]
    exact ⟨body, List.mem_append_right _ List.mem_cons_self⟩

/-- Blanks decide nothing about whether there are tags. -/
theorem hasTags_collapse (t : Text) : hasTags (Text.collapse t) = hasTags t := by
  rw [Bool.eq_iff_iff, ← Bool.not_eq_false, ← Bool.not_eq_false, ← tags_eq_nil_iff,
    ← tags_eq_nil_iff, tags_collapse, List.map_eq_nil_iff]

/-! ## Tags replaced by spaces -/

/-- The character that a piece becomes when tags are replaced by spaces. -/
def Piece.plain : Piece → Char
  | .char c => c
  | .tag _ => ' '

theorem replaceTags_space (t : Text) :
    replaceTags (fun _ => [' ']) t = (pieces t).map Piece.plain := by
  rw [replaceTags]
  induction pieces t with
  | nil => rfl
  | cons p ps ih => cases p <;> exact congrArg (_ :: ·) ih

/-- Pieces without tags are the characters that they become. -/
theorem map_char_map_plain (h : ∀ body, .tag body ∉ ps) :
    (ps.map Piece.plain).map Piece.char = ps := by
  rw [List.map_map]
  refine (List.map_congr_left fun p hp => ?_).trans (List.map_id ps)
  cases p with
  | char c => rfl
  | tag body => exact absurd hp (h body)

theorem eq_char_of_plain {p : Piece} {c : Char} (h : p.plain = c) (hc : isAngle c = true) :
    p = .char c := by
  cases p with
  | char d => exact congrArg Piece.char h
  | tag body =>
    cases h
    cases hc

/-- What two brackets that belong to no tag have between them is nothing, or it has a tag or another
bracket. -/
theorem exists_tag_of_brackets (h : IsCut (.char '<' :: (ps ++ .char '>' :: qs))) (hps : ps ≠ [])
    (hangle : ∀ c, .char c ∈ ps → isAngle c = false) : ∃ body, .tag body ∈ ps := by
  by_contra hnone
  -- Without a tag between them the brackets would be cut as one themselves.
  have hchars := (map_char_map_plain fun body hbody => hnone ⟨body, hbody⟩).symm
  have hopen := (isCut_char_iff.mp h).2 rfl
  have hclose : closeTag (ps ++ .char '>' :: qs) = some (ps.map Piece.plain, qs) := by
    rw [hchars, closeTag_map_char, ← hchars]
    intro c hc
    rw [hchars] at hangle
    exact hangle c (List.mem_map_of_mem hc)
  exact hps (List.map_eq_nil_iff.mp (hopen _ _ hclose))

/-- **Replacing tags by spaces leaves a tag** exactly if a tag stands between two brackets that
belong to none. -/
theorem hasTags_map_plain (h : IsCut ps) : hasTags (ps.map Piece.plain) ↔ Encloses ps := by
  rw [hasTags_iff_tagText]
  constructor
  · rintro ⟨body, hbody, a, b, hmap⟩
    rw [tagText, List.append_assoc, List.cons_append, List.append_assoc, List.singleton_append,
      eq_comm] at hmap
    obtain ⟨before, rest, rfl, -, hrest⟩ := List.map_eq_append_iff.mp hmap
    obtain ⟨p, behind, rfl, hopen, hbehind⟩ := List.map_eq_cons_iff.mp hrest
    obtain ⟨inner, rest, rfl, hinner, hrest⟩ := List.map_eq_append_iff.mp hbehind
    obtain ⟨q, after, rfl, hclose, -⟩ := List.map_eq_cons_iff.mp hrest
    -- No tag becomes a bracket, so the brackets of the new tag were characters of their own.
    obtain rfl := eq_char_of_plain hopen rfl
    obtain rfl := eq_char_of_plain hclose rfl
    have hangle : ∀ c, .char c ∈ inner → isAngle c = false := fun c hc =>
      hbody.isAngle c (hinner ▸ List.mem_map_of_mem hc)
    have hne : inner ≠ [] := fun hnil =>
      hbody.ne_nil (hinner.symm.trans (congrArg (List.map Piece.plain) hnil))
    exact ⟨before, inner, after, rfl, exists_tag_of_brackets h.of_append hne hangle, hangle⟩
  · rintro ⟨before, inner, after, rfl, ⟨body, hbody⟩, hangle⟩
    refine ⟨inner.map Piece.plain, ⟨?_, ?_⟩, before.map Piece.plain, after.map Piece.plain, ?_⟩
    · exact mt List.map_eq_nil_iff.mp (List.ne_nil_of_mem hbody)
    · intro c hc
      obtain ⟨p, hp, rfl⟩ := List.mem_map.mp hc
      cases p with
      | char c => exact hangle c hp
      | tag body => rfl
    · simp [tagText, Piece.plain]

/-! ## Stripping -/

/-- A text without tags is only collapsed. -/
theorem strip_of_no_tags (h : hasTags t = false) : strip t = Text.collapse t := by
  have hnone : ∀ body, .tag body ∉ pieces t := fun body hbody =>
    Bool.eq_false_iff.mp h (hasTags_iff.mpr ⟨body, hbody⟩)
  have hchars := unparse_map_char ((pieces t).map Piece.plain)
  rw [map_char_map_plain hnone, unparse_pieces] at hchars
  rw [strip, replaceTags_space, ← hchars]

theorem count_open_visible (t : Text) : (Text.visible t).count '<' = t.count '<' :=
  List.count_filter rfl

theorem count_open_unparse (h : ∀ body, .tag body ∈ ps → IsTagBody body) :
    (ps.filterMap Piece.char?).count '<' + (ps.filterMap Piece.body?).length =
      (unparse ps).count '<' := by
  induction ps with
  | nil => rfl
  | cons p ps ih =>
    have hrest := ih fun body hbody => h body (List.mem_cons_of_mem p hbody)
    rw [unparse_cons, List.count_append, ← hrest]
    cases p with
    | char c =>
      have hchars : (Piece.char c :: ps).filterMap Piece.char? =
          [c] ++ ps.filterMap Piece.char? := rfl
      rw [hchars, filterMap_body?_char, List.count_append, Piece.text, Nat.add_assoc]
    | tag body =>
      have hbody : '<' ∉ body := fun hopen => (h body List.mem_cons_self).ne_open '<' hopen rfl
      have htag : (tagText body).count '<' = 1 := by
        simp [tagText, List.count_eq_zero.mpr hbody]
      rw [filterMap_char?_tag, filterMap_body?_tag, Piece.text, htag, List.length_cons]
      omega

/-- **Every tag takes its opening bracket with it.** -/
theorem count_open_strip (t : Text) : (strip t).count '<' + (tags t).length = t.count '<' := by
  have hcount := count_open_unparse fun body (h : .tag body ∈ pieces t) =>
    isTagBody_of_mem_pieces h
  rw [unparse_pieces] at hcount
  rw [← count_open_visible, visible_strip, count_open_visible, tags, List.length_map,
    tagBodies_eq]
  exact hcount

/-- **When stripping leaves a tag.** It does so exactly if a tag of the text stands between two
brackets that belong to no tag, with no other such bracket between them; and exactly then stripping
again makes a difference. -/
theorem strip_strip_iff (t : Text) :
    (hasTags (strip t) = true ↔ Encloses (pieces t)) ∧
      (strip (strip t) = strip t ↔ ¬ Encloses (pieces t)) := by
  have htags : hasTags (strip t) = true ↔ Encloses (pieces t) := by
    rw [strip, hasTags_collapse, replaceTags_space, hasTags_map_plain (isCut_pieces t)]
  refine ⟨htags, ?_⟩
  rw [← htags]
  constructor
  · intro hsame h
    have hcount := count_open_strip (strip t)
    rw [hsame] at hcount
    have hnil : tags (strip t) = [] := List.eq_nil_of_length_eq_zero (by omega)
    rw [tags_eq_nil_iff.mp hnil] at h
    cases h
  · intro h
    rw [strip_of_no_tags (Bool.eq_false_iff.mpr h), strip, Text.collapse_collapse]

/-- A tag between two brackets: what is left of it is a tag, which is gone the next time. -/
theorem strip_strip_enclosed :
    strip "<<b>>".toList = "< >".toList ∧ hasTags (strip "<<b>>".toList) = true ∧
      strip (strip "<<b>>".toList) = [] := by
  decide +kernel

end Bitext.Markup
