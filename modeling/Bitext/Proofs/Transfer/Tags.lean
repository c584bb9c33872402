import Bitext.Proofs.Markup.Tags
import Bitext.Transfer.Basic
import Mathlib.Data.List.Perm.Subperm

/-!
# No tag is dropped

Whatever tokenizers make of a text, every tag of the source is given a place in the target or goes
to its end.  A tag that is put into a text is found there, and dropping blanks afterwards leaves all
tags.  If both sides have equally many tags, those of the target are replaced one by one, and no
other tag comes to be.

## Main results

* `map_tag_placeTags`: every tag is given a place or goes to the end
* `subperm_tags_insertTags`, `perm_tags_insertTags`: the tags that are put into a text are there
* `tags_replaceInOrder`: tags that are replaced one by one
* `count_tags_transfer`: what becomes of the tags of the source
-/

namespace Bitext

open Markup (tags tagText pieces unparse bodiesFrom IsTag IsTagBody Piece unparse_cons
  bodiesFrom_tagText_append)

/-! ## Places for tags -/

/-- **Every tag is given a place or goes to the end**, in order. -/
theorem map_tag_placeTags (spans : List Span) (previous? : Option Text) (words : Nat)
    (left tokens : List Text) :
    (placeTags spans previous? words left tokens).map (·.tag) = left := by
  induction tokens generalizing previous? words left with
  | nil =>
    rw [placeTags, List.map_map]
    exact List.map_id left
  | cons token rest ih =>
    unfold placeTags
    split
    · exact ih _ _ _
    · split
      · cases left with
        | nil => rfl
        | cons tag left => exact congrArg (tag :: ·) (ih _ _ left)
      · exact ih _ _ _

/-! ## Tags put into a text -/

section Weave

variable {ps : List (Nat × Text)} {t : Text} (h : ∀ p ∈ ps, IsTag p.2) (cursor : Nat)
include h

/-- The tags are found where they were put, perhaps among others. -/
theorem sublist_tags_weave (t : Text) : (ps.map Prod.snd).Sublist (tags (weave cursor t ps)) := by
  induction ps generalizing cursor t with
  | nil => exact List.nil_sublist _
  | cons p ps ih =>
    obtain ⟨place, tag⟩ := p
    have hrest := ih (fun q hq => h q (List.mem_cons_of_mem _ hq)) place (t.drop (place - cursor))
    rw [weave, List.append_assoc, Markup.tags_append_tag (h _ List.mem_cons_self)]
    exact (hrest.cons_cons tag).trans (List.sublist_append_right _ _)

/-- In a text without tags there are no others. -/
theorem tags_weave (ht : tags t = []) : tags (weave cursor t ps) = ps.map Prod.snd := by
  induction ps generalizing cursor t with
  | nil => exact ht
  | cons p ps ih =>
    obtain ⟨place, tag⟩ := p
    rw [← List.take_append_drop (place - cursor) t] at ht
    obtain ⟨htake, hdrop⟩ := Markup.tags_eq_nil_of_append ht
    have hrest := ih (fun q hq => h q (List.mem_cons_of_mem _ hq)) place hdrop
    rw [weave, List.append_assoc, Markup.tags_append_tag (h _ List.mem_cons_self), htake, hrest]
    rfl

end Weave

/-- The tags with a place, in the order of their places. -/
def wovenTags (ps : List PlacedTag) : List (Nat × Text) :=
  (ps.filterMap fun p => p.place?.map (·, p.tag)).mergeSort fun a b => a.1 ≤ b.1

/-- The tags without a place. -/
def trailingTags (ps : List PlacedTag) : List Text := (ps.filter (·.place?.isNone)).map (·.tag)

section Insert

variable {ps : List PlacedTag} {t : Text}

theorem map_snd_placed (ps : List PlacedTag) :
    (ps.filterMap fun p => p.place?.map (·, p.tag)).map Prod.snd =
      (ps.filter (·.place?.isSome)).map (·.tag) := by
  induction ps with
  | nil => rfl
  | cons p ps ih =>
    obtain ⟨place?, tag⟩ := p
    cases place? with
    | none => exact ih
    | some place => exact congrArg (tag :: ·) ih

/-- The tags with a place and those without one are all tags. -/
theorem perm_woven_trailing (ps : List PlacedTag) :
    ((wovenTags ps).map Prod.snd ++ trailingTags ps).Perm (ps.map (·.tag)) := by
  have hsorted : ((wovenTags ps).map Prod.snd).Perm
      ((ps.filter (·.place?.isSome)).map (·.tag)) := by
    rw [← map_snd_placed]
    exact (List.mergeSort_perm _ _).map Prod.snd
  have htrailing : trailingTags ps = (ps.filter (!·.place?.isSome)).map (·.tag) := by
    simp only [trailingTags, Option.not_isSome]
  have hall := (List.filter_append_perm (·.place?.isSome) ps).map (·.tag)
  rw [List.map_append] at hall
  rw [htrailing]
  exact (hsorted.append_right _).trans hall

theorem isTag_woven (h : ∀ p ∈ ps, IsTag p.tag) : ∀ q ∈ wovenTags ps, IsTag q.2 := by
  intro q hq
  obtain ⟨p, hp, hplace⟩ := List.mem_filterMap.mp (List.mem_mergeSort.mp hq)
  obtain ⟨place, -, rfl⟩ := Option.map_eq_some_iff.mp hplace
  exact h p hp

theorem isTag_trailing (h : ∀ p ∈ ps, IsTag p.tag) : ∀ g ∈ trailingTags ps, IsTag g := by
  intro g hg
  obtain ⟨p, hp, rfl⟩ := List.mem_map.mp hg
  exact h p (List.mem_filter.mp hp).1

/-- The tags without a place stand behind those with one. -/
theorem insertTags_eq (t : Text) (ps : List PlacedTag) :
    insertTags t ps = weave 0 t (wovenTags ps) ++
      if (trailingTags ps).flatten.isEmpty then [] else ' ' :: (trailingTags ps).flatten := by
  rw [insertTags, trailingTags, ← List.flatMap_def]
  rfl

/-- The tags without a place are found at the end. -/
theorem tags_insertTags (h : ∀ p ∈ ps, IsTag p.tag) (t : Text) :
    tags (insertTags t ps) = tags (weave 0 t (wovenTags ps)) ++ trailingTags ps := by
  have htrailing := isTag_trailing h
  have hspace : ∀ c ∈ [' '], Markup.isAngle c = false := by
    intro c hc
    rw [List.mem_singleton.mp hc]
    rfl
  rw [insertTags_eq]
  split
  · rename_i hnone
    have hend := Markup.tags_append_flatten htrailing (weave 0 t (wovenTags ps))
    rw [List.isEmpty_iff.mp hnone] at hend
    exact hend
  · -- The space in front of the tags at the end belongs to no tag.
    rw [← Markup.tags_append_of_no_angle hspace (weave 0 t (wovenTags ps)),
      ← Markup.tags_append_flatten htrailing, List.append_assoc]
    rfl

/-- **The tags that are put into a text are found there.** -/
theorem subperm_tags_insertTags (h : ∀ p ∈ ps, IsTag p.tag) (t : Text) :
    (ps.map (·.tag)).Subperm (tags (insertTags t ps)) := by
  rw [tags_insertTags h]
  have hwoven := sublist_tags_weave (isTag_woven h) 0 t
  exact (perm_woven_trailing ps).symm.subperm.trans (hwoven.append_right _).subperm

/-- **In a text without tags no others are found.** -/
theorem perm_tags_insertTags (h : ∀ p ∈ ps, IsTag p.tag) (ht : tags t = []) :
    (tags (insertTags t ps)).Perm (ps.map (·.tag)) := by
  rw [tags_insertTags h, tags_weave (isTag_woven h) 0 ht]
  exact perm_woven_trailing ps

end Insert

namespace Transfer

/-! ## Tags replaced one by one -/

section Replace

variable {gs : List Text} {ps : List Piece} {t : Text}

/-- Tags that replace as many others are found in their places, and as many tags are found as
before. -/
theorem bodiesFrom_replaceInOrder (hgs : ∀ g ∈ gs, IsTag g)
    (hps : ∀ body, Piece.tag body ∈ ps → IsTagBody body)
    (hlength : gs.length = (ps.filterMap Piece.body?).length) (begun? : Option Text) :
    gs.Sublist ((bodiesFrom begun? (replaceInOrder gs ps)).map tagText) ∧
      (bodiesFrom begun? (replaceInOrder gs ps)).length =
        (bodiesFrom begun? (unparse ps)).length := by
  induction ps generalizing gs begun? with
  | nil =>
    obtain rfl := List.eq_nil_of_length_eq_zero hlength
    exact ⟨List.nil_sublist _, rfl⟩
  | cons p ps ih =>
    have hlater : ∀ body, Piece.tag body ∈ ps → IsTagBody body := by
      intro body hbody
      exact hps body (List.mem_cons_of_mem p hbody)
    cases p with
    | char c =>
      -- What the character completes, it completes in both texts.
      obtain ⟨left?, hc⟩ := Markup.exists_bodiesFrom_append begun? [c]
      obtain ⟨hsublist, hcount⟩ := ih hgs hlater hlength left?
      have hreplaced : bodiesFrom begun? (replaceInOrder gs (.char c :: ps)) =
          bodiesFrom begun? [c] ++ bodiesFrom left? (replaceInOrder gs ps) := hc _
      have hunparse : bodiesFrom begun? (unparse (.char c :: ps)) =
          bodiesFrom begun? [c] ++ bodiesFrom left? (unparse ps) := hc _
      rw [hreplaced, hunparse, List.length_append, List.length_append, hcount, List.map_append]
      exact ⟨hsublist.trans (List.sublist_append_right _ _), rfl⟩
    | tag body =>
      cases gs with
      | nil => cases hlength
      | cons g gs =>
        obtain ⟨new, hnew, rfl⟩ := hgs g List.mem_cons_self
        have hrest : gs.length = (ps.filterMap Piece.body?).length := Nat.succ.inj hlength
        obtain ⟨hsublist, hcount⟩ :=
          ih (fun k hk => hgs k (List.mem_cons_of_mem _ hk)) hlater hrest none
        have hbody := hps body List.mem_cons_self
        rw [replaceInOrder, unparse_cons, Piece.text, bodiesFrom_tagText_append hnew,
          bodiesFrom_tagText_append hbody, List.map_cons, List.length_cons, List.length_cons,
          hcount]
        exact ⟨hsublist.cons_cons _, rfl⟩

/-- **Tags that replace as many others** are the tags of the new text. -/
theorem tags_replaceInOrder (hgs : ∀ g ∈ gs, IsTag g) (hlength : gs.length = (tags t).length) :
    tags (replaceInOrder gs (pieces t)) = gs := by
  have hcount : gs.length = ((pieces t).filterMap Piece.body?).length := by
    rw [hlength, tags, List.length_map, Markup.tagBodies_eq]
  obtain ⟨hsublist, hsame⟩ :=
    bodiesFrom_replaceInOrder hgs (fun body => Markup.isTagBody_of_mem_pieces) hcount none
  rw [Markup.unparse_pieces, Markup.bodiesFrom_none t, Markup.tagBodies_eq, ← hcount] at hsame
  rw [Markup.tags_eq]
  exact (hsublist.eq_of_length (by rw [List.length_map, hsame])).symm

end Replace

/-! ## Transfer -/

variable {tokenizers : Tokenizers} {pair : LanguagePair} {source target result : Text}

/-- The tags of a target that is aligned are those that were put into it, collapsed. -/
theorem exists_tags_align (sourceTokenizer targetTokenizer : Tokenizer) (source target : Text) :
    ∃ ps : List PlacedTag, ps.map (·.tag) = tags source ∧
      (tags (align sourceTokenizer targetTokenizer source target)).map Text.collapse =
        (tags (insertTags (Markup.strip target) ps)).map Text.collapse := by
  let plain := Markup.strip target
  let spans := tokenSpans plain (Text.words (targetTokenizer plain))
  let marked := sourceTokenizer (Markup.replaceByWords (some Markup.spaceWord) source)
  refine ⟨placeTags spans none 0 (tags source) (Text.words marked), map_tag_placeTags .., ?_⟩
  rw [align, Markup.tags_tighten, Markup.tags_collapse, List.map_map]
  refine List.map_congr_left fun g hg => ?_
  obtain ⟨body, -, rfl⟩ := Markup.isTag_of_mem_tags hg
  exact Markup.collapse_collapse_tagText body

/-- **No tag of the source is dropped**, whatever the tokenizers do: but for the blanks in them, the
result has each tag at least as often.  If there is no tag in the plain target, the result has no
other tags. -/
theorem count_tags_transfer (h : transfer tokenizers pair source target = .ok result)
    (hs : tags source ≠ []) :
    (∀ tag, ((tags source).map Text.collapse).count tag ≤
        ((tags result).map Text.collapse).count tag) ∧
      (tags (Markup.strip target) = [] →
        ((tags result).map Text.collapse).Perm ((tags source).map Text.collapse)) := by
  have hsource : ∀ g ∈ tags source, IsTag g := fun g => Markup.isTag_of_mem_tags
  simp only [transfer, List.isEmpty_iff, if_neg hs] at h
  split at h
  · rename_i hlength
    cases h
    rw [tags_replaceInOrder hsource hlength]
    exact ⟨fun tag => Nat.le_refl _, fun _ => .refl _⟩
  · cases hsourceTokenizer : tokenizers.get pair.source with
    | error fault =>
      rw [hsourceTokenizer] at h
      cases h
    | ok sourceTokenizer =>
      cases htargetTokenizer : tokenizers.get pair.target with
      | error fault =>
        rw [hsourceTokenizer, htargetTokenizer] at h
        cases h
      | ok targetTokenizer =>
        rw [hsourceTokenizer, htargetTokenizer] at h
        cases h
        obtain ⟨ps, hps, hresult⟩ := exists_tags_align sourceTokenizer targetTokenizer source target
        have htags : ∀ p ∈ ps, IsTag p.tag := by
          intro p hp
          exact hsource p.tag (hps ▸ List.mem_map_of_mem hp)
        rw [hresult, ← hps]
        refine ⟨fun tag => ?_, fun hplain => ?_⟩
        · obtain ⟨gs, hperm, hsublist⟩ := subperm_tags_insertTags htags (Markup.strip target)
          rw [← (hperm.map Text.collapse).count_eq]
          exact (hsublist.map Text.collapse).count_le tag
        · exact (perm_tags_insertTags htags hplain).map Text.collapse

/-- A tokenizer that swallows every text. -/
def swallowing : Tokenizers := { fallback? := some fun _ => [] }

/-- Two tags, one with blanks in it, go into a target with stray brackets. -/
theorem count_tags_transfer_swallowing :
    ∃ result, transfer swallowing ⟨"en".toList, "es".toList⟩ "a <b\n x>b</b>".toList
        "c > <i>d < e".toList = .ok result ∧
      1 ≤ ((tags result).map Text.collapse).count "<b x>".toList ∧
      ((tags result).map Text.collapse).Perm ["<b x>".toList, "</b>".toList] := by
  have htransfer : transfer swallowing ⟨"en".toList, "es".toList⟩ "a <b\n x>b</b>".toList
      "c > <i>d < e".toList =
        .ok (align (fun _ => []) (fun _ => []) "a <b\n x>b</b>".toList "c > <i>d < e".toList) := by
    rfl
  obtain ⟨hcount, hperm⟩ := count_tags_transfer htransfer (by decide)
  have hsource : (tags "a <b\n x>b</b>".toList).map Text.collapse =
      ["<b x>".toList, "</b>".toList] := by
    decide
  rw [hsource] at hcount hperm
  exact ⟨_, htransfer, hcount "<b x>".toList, hperm (by decide)⟩

end Transfer

end Bitext
