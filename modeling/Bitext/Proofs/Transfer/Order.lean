import Bitext.Proofs.List.Stable
import Bitext.Proofs.Markup.Nesting
import Bitext.Proofs.Transfer.Tags
import Mathlib.Order.WithBot

/-!
# Tags stay in order

A tag stays with the word before it or with the word behind it, and the words of the target follow
one another as those of the source do.  So a tag overtakes another one in one case only: both stand
between the same two words, the first stays with the word behind it, the second with the word before
it, and in the target there is room between these words, or only the first of them is there.  If
tags that open or close pairs overtake tags of the same kind and name only, tags that nest in the
source nest in the target.

## Main definitions

* `Stand`: where a tag stands among the words of the source.
* `Stand.Crosses`: the one case in which a tag is overtaken.
* `Transfer.KeepsOrder`: no paired tag overtakes one of another kind or name.

## Main results

* `Stand.spot_placed_lt_iff`: a tag is overtaken if and only if it crosses another
* `Transfer.map_role_align`: the paired tags of an aligned target have the roles of those of the
  source, in order
* `Transfer.isNested_transfer`: tags that nest in the source nest in the target
* `Transfer.transfer_not_nested`: a closing tag in front of its opening tag
-/

namespace Bitext

open Markup (tags isPaired isNested role IsTag)

/-! ## The words of the target -/

/-- Spans that follow one another from a place on. -/
def Consecutive (cursor : Nat) : List Span → Prop
  | [] => True
  | span :: spans => cursor ≤ span.start ∧ span.start ≤ span.stop ∧ Consecutive span.stop spans

/-- Tokens are located one behind the other. -/
theorem consecutive_tokenSpansFrom (cursor : Nat) (t : Text) (tokens : List Text) :
    Consecutive cursor (tokenSpansFrom cursor t tokens) := by
  induction tokens generalizing cursor t with
  | nil => trivial
  | cons token tokens ih =>
    rw [tokenSpansFrom]
    split
    · exact ⟨Nat.le_add_right _ _, Nat.le_add_right _ _, ih _ _⟩
    · exact ⟨Nat.le_refl _, Nat.le_refl _, ih _ _⟩

/-- The place of an anchor; without one it is behind the end. -/
def Anchor.spot (spans : List Span) (words : Nat) (a : Anchor) : WithTop Nat :=
  a.place? spans words

/-- The place of a tag; without one it is behind the end. -/
def PlacedTag.spot (p : PlacedTag) : WithTop Nat := p.place?

section Spots

variable {cursor : Nat} {spans : List Span} (h : Consecutive cursor spans)
include h

theorem cursor_le_spot : WithTop.some cursor ≤ Anchor.next.spot spans 0 := by
  cases spans with
  | nil => exact le_top
  | cons span spans => exact WithTop.coe_le_coe.mpr h.1

/-- A word begins before it ends. -/
theorem next_le_previous (n : Nat) :
    Anchor.next.spot spans n ≤ Anchor.previous.spot spans (n + 1) := by
  induction spans generalizing cursor n with
  | nil => exact le_top
  | cons span spans ih =>
    obtain ⟨-, hspan, hspans⟩ := h
    cases n with
    | zero => exact WithTop.coe_le_coe.mpr hspan
    | succ n => exact ih hspans n

/-- A word ends before the next one begins. -/
theorem previous_le_next (n : Nat) :
    Anchor.previous.spot spans n ≤ Anchor.next.spot spans n := by
  cases n with
  | zero =>
    -- In front of the first word, what stays with the word before goes to the start of the text.
    exact (WithTop.coe_le_coe.mpr (Nat.zero_le cursor)).trans (cursor_le_spot h)
  | succ n =>
    induction spans generalizing cursor n with
    | nil => exact le_top
    | cons span spans ih =>
      obtain ⟨-, -, hspans⟩ := h
      cases n with
      | zero => exact cursor_le_spot hspans
      | succ n => exact ih hspans n

/-- Whatever stays with words further on is put further on. -/
theorem spot_le_spot {m n : Nat} (hmn : m < n) (a b : Anchor) :
    a.spot spans m ≤ b.spot spans n := by
  have hnext (k : Nat) : Anchor.next.spot spans k ≤ Anchor.next.spot spans (k + 1) :=
    (next_le_previous h k).trans (previous_le_next h (k + 1))
  have hstep (k : Nat) : Anchor.next.spot spans k ≤ b.spot spans (k + 1) := by
    cases b with
    | previous => exact next_le_previous h k
    | next => exact hnext k
  have hmono : Monotone (Anchor.next.spot spans) := monotone_nat_of_le_succ hnext
  obtain ⟨k, rfl⟩ := Nat.exists_eq_add_of_lt hmn
  calc a.spot spans m
      ≤ Anchor.next.spot spans m := by
        cases a with
        | previous => exact previous_le_next h m
        | next => exact le_rfl
    _ ≤ Anchor.next.spot spans (m + k) := hmono (Nat.le_add_right m k)
    _ ≤ b.spot spans (m + k + 1) := hstep (m + k)

end Spots

/-! ## The tags of the source -/

/-- A tag among the words of the source: how many words stand in front of it, and which word it
stays with, unless it has no placeholder. -/
structure Stand where
  words : Nat
  anchor? : Option Anchor
  tag : Text

/-- Where the tags that are left stand along the marked tokens of the source. -/
def stands (previous? : Option Text) (words : Nat) (left : List Text) : List Text → List Stand
  | [] => left.map fun tag => ⟨words, none, tag⟩
  | token :: rest =>
    if token = Markup.spaceWord then stands (some token) words left rest
    else if token = Markup.tagWord then
      match left with
      | [] => []
      | tag :: left =>
        ⟨words, some (Anchor.of previous? rest.head? tag), tag⟩ ::
          stands (some token) words left rest
    else stands (some token) (words + 1) left rest

namespace Stand

/-- The tag at its place among the words of the target. -/
def placed (spans : List Span) (s : Stand) : PlacedTag :=
  ⟨s.anchor?.bind (·.place? spans s.words), s.tag⟩

/-- Two tags between the same two words, of which the first stays with the word behind it and the
second with the word before it, although these words do not touch in the target. -/
def Crosses (spans : List Span) (s t : Stand) : Prop :=
  s.words = t.words ∧ s.anchor? = some .next ∧ t.anchor? = some .previous ∧
    Anchor.previous.place? spans t.words ≠ Anchor.next.place? spans s.words

instance (spans : List Span) (s t : Stand) : Decidable (s.Crosses spans t) :=
  inferInstanceAs (Decidable (_ ∧ _ ∧ _ ∧ _))

end Stand

variable {previous? : Option Text} {words : Nat} {left tokens : List Text} {s t : Stand}
  {spans : List Span}

theorem placeTags_eq (spans : List Span) (previous? : Option Text) (words : Nat)
    (left tokens : List Text) :
    placeTags spans previous? words left tokens =
      (stands previous? words left tokens).map (Stand.placed spans) := by
  induction tokens generalizing previous? words left with
  | nil =>
    rw [placeTags, stands, List.map_map]
    rfl
  | cons token rest ih =>
    unfold placeTags stands
    split
    · exact ih _ _ _
    · split
      · cases left with
        | nil => rfl
        | cons tag left => exact congrArg (_ :: ·) (ih _ _ left)
      · exact ih _ _ _

theorem words_le_of_mem_stands (h : s ∈ stands previous? words left tokens) : words ≤ s.words := by
  induction tokens generalizing previous? words left with
  | nil =>
    obtain ⟨tag, -, rfl⟩ := List.mem_map.mp h
    exact Nat.le_refl _
  | cons token rest ih =>
    unfold stands at h
    split at h
    · exact ih h
    · split at h
      · cases left with
        | nil => cases h
        | cons tag left =>
          rcases List.mem_cons.mp h with rfl | h
          · exact Nat.le_refl _
          · exact ih h
      · exact Nat.le_of_succ_le (ih h)

/-- Tags stand one behind the other, and those without a placeholder come last. -/
theorem pairwise_stands (previous? : Option Text) (words : Nat) (left tokens : List Text) :
    (stands previous? words left tokens).Pairwise fun s t =>
      s.words ≤ t.words ∧ (s.anchor? = none → t.anchor? = none) := by
  induction tokens generalizing previous? words left with
  | nil =>
    rw [stands, List.pairwise_map]
    exact List.pairwise_of_forall fun _ _ => ⟨Nat.le_refl _, fun _ => rfl⟩
  | cons token rest ih =>
    unfold stands
    split
    · exact ih _ _ _
    · split
      · cases left with
        | nil => exact .nil
        | cons tag left =>
          refine .cons (fun s hs => ⟨words_le_of_mem_stands hs, fun hnone => ?_⟩) (ih _ _ left)
          cases hnone
      · exact ih _ _ _

/-- **A tag is overtaken if and only if it crosses another.** -/
theorem Stand.spot_placed_lt_iff {cursor : Nat} (h : Consecutive cursor spans)
    (hwords : s.words ≤ t.words) (hnone : s.anchor? = none → t.anchor? = none) :
    (t.placed spans).spot < (s.placed spans).spot ↔ s.Crosses spans t := by
  obtain ⟨m, a?, g⟩ := s
  obtain ⟨n, b?, k⟩ := t
  cases b? with
  | none => exact ⟨fun hlt => absurd hlt not_top_lt, nofun⟩
  | some b =>
    cases a? with
    | none => cases hnone rfl
    | some a =>
      change b.spot spans n < a.spot spans m ↔ _
      rcases Nat.lt_or_eq_of_le hwords with hlt | rfl
      · -- A word stands between the tags, and neither gets past it.
        refine iff_of_false (spot_le_spot h hlt a b).not_gt ?_
        rintro ⟨heq, -⟩
        exact absurd heq hlt.ne
      · -- What stays with the word before comes first, if there is any difference.
        have hle := previous_le_next h m
        cases a with
        | previous =>
          refine iff_of_false (not_lt.mpr ?_) nofun
          cases b with
          | previous => exact le_rfl
          | next => exact hle
        | next =>
          cases b with
          | previous =>
            refine hle.lt_iff_ne.trans ⟨fun hne => ⟨rfl, rfl, rfl, hne⟩, ?_⟩
            rintro ⟨-, -, -, hne⟩
            exact hne
          | next => exact iff_of_false (lt_irrefl _) nofun

/-! ## Tags put into the target -/

section InOrder

variable {β : Type} {f : Text → β} {p : Text → Bool} {ps : List PlacedTag}
  (h : ps.Pairwise fun a b => p a.tag → p b.tag → a.spot ≤ b.spot ∨ f a.tag = f b.tag)
include h

/-- Sorting by place leaves the values of tags as they are if only tags of one value are not put in
order. -/
theorem map_filter_wovenTags : (((wovenTags ps).map Prod.snd).filter p).map f =
    ((ps.filter (p ·.tag)).filter (·.place?.isSome)).map (f ·.tag) := by
  have hplaced : ((ps.filterMap fun a => a.place?.map (·, a.tag)).filter (p ·.2)).Pairwise
      fun a b => decide (a.1 ≤ b.1) = true ∨ f a.2 = f b.2 := by
    rw [List.pairwise_filter, List.pairwise_filterMap]
    refine h.imp ?_
    rintro ⟨x?, g⟩ ⟨y?, k⟩ hle _ hx _ hy hg hk
    obtain ⟨x, rfl, rfl⟩ := Option.map_eq_some_iff.mp hx
    obtain ⟨y, rfl, rfl⟩ := Option.map_eq_some_iff.mp hy
    exact (hle hg hk).imp_left fun hle => decide_eq_true (WithTop.coe_le_coe.mp hle)
  have hsorted : ((wovenTags ps).filter (p ·.2)).map (f ·.2) =
      ((ps.filterMap fun a => a.place?.map (·, a.tag)).filter (p ·.2)).map (f ·.2) :=
    List.map_filter_mergeSort (by simpa using fun _ _ _ => Nat.le_trans)
      (by simpa using Nat.le_total) hplaced
  calc (((wovenTags ps).map Prod.snd).filter p).map f
      = ((wovenTags ps).filter (p ·.2)).map (f ·.2) := by
        rw [List.filter_map, List.map_map]
        rfl
    _ = (((ps.filterMap fun a => a.place?.map (·, a.tag)).map Prod.snd).filter p).map f := by
        rw [hsorted, List.filter_map, List.map_map]
        rfl
    _ = (((ps.filter (·.place?.isSome)).map (·.tag)).filter p).map f := by rw [map_snd_placed]
    _ = ((ps.filter (p ·.tag)).filter (·.place?.isSome)).map (f ·.tag) := by
        rw [List.filter_map, List.map_map, List.filter_comm]
        rfl

/-- Of tags that are put in order, but for some of one value, the values stay in order. -/
theorem map_filter_woven_append_trailing :
    (((wovenTags ps).map Prod.snd ++ trailingTags ps).filter p).map f =
      ((ps.map (·.tag)).filter p).map f := by
  have htrailing : ((trailingTags ps).filter p).map f =
      ((ps.filter (p ·.tag)).filter (!·.place?.isSome)).map (f ·.tag) := by
    rw [trailingTags, List.filter_map, List.map_map, List.filter_comm]
    simp only [Option.not_isSome]
    rfl
  -- A tag without a place is behind the end, so a tag with a place comes after it only if both have
  -- the same value.
  have hlast : (ps.filter (p ·.tag)).Pairwise fun a b =>
      (b.place?.isSome → a.place?.isSome) ∨ f a.tag = f b.tag := by
    rw [List.pairwise_filter]
    refine h.imp ?_
    rintro ⟨x?, g⟩ ⟨y?, k⟩ hle hg hk
    refine (hle hg hk).imp_left fun hle hy => ?_
    obtain ⟨y, rfl⟩ := Option.isSome_iff_exists.mp hy
    cases x? with
    | none => exact absurd hle (WithTop.not_top_le_coe y)
    | some x => rfl
  rw [List.filter_append, List.map_append, map_filter_wovenTags h, htrailing, ← List.map_append,
    List.map_filter_append_filter_not hlast, List.filter_map, List.map_map]
  rfl

end InOrder

namespace Transfer

/-- Where the tags of a source stand. -/
def sourceStands (tokenizer : Tokenizer) (source : Text) : List Stand :=
  stands none 0 (tags source)
    (Text.words (tokenizer (Markup.replaceByWords (some Markup.spaceWord) source)))

/-- The words of a plain target. -/
def targetSpans (tokenizer : Tokenizer) (target : Text) : List Span :=
  tokenSpans (Markup.strip target) (Text.words (tokenizer (Markup.strip target)))

/-- A tag that opens or closes a pair crosses such tags only that have the same kind and name. -/
def KeepsOrder (sourceTokenizer targetTokenizer : Tokenizer) (source target : Text) : Prop :=
  (sourceStands sourceTokenizer source).Pairwise fun s t =>
    isPaired s.tag → isPaired t.tag →
      s.Crosses (targetSpans targetTokenizer target) t → role s.tag = role t.tag

instance (sourceTokenizer targetTokenizer : Tokenizer) (source target : Text) :
    Decidable (KeepsOrder sourceTokenizer targetTokenizer source target) :=
  inferInstanceAs (Decidable (List.Pairwise _ _))

variable {sourceTokenizer targetTokenizer : Tokenizer} {tokenizers : Tokenizers}
  {pair : LanguagePair} {source target : Text}

/-- The tags at their places in a target that is aligned. -/
def placedTags (sourceTokenizer targetTokenizer : Tokenizer) (source target : Text) :
    List PlacedTag :=
  (sourceStands sourceTokenizer source).map (Stand.placed (targetSpans targetTokenizer target))

theorem align_eq (sourceTokenizer targetTokenizer : Tokenizer) (source target : Text) :
    align sourceTokenizer targetTokenizer source target =
      Markup.tighten (Text.collapse (insertTags (Markup.strip target)
        (placedTags sourceTokenizer targetTokenizer source target))) := by
  rw [align, placeTags_eq]
  rfl

theorem map_tag_placedTags (sourceTokenizer targetTokenizer : Tokenizer) (source target : Text) :
    (placedTags sourceTokenizer targetTokenizer source target).map (·.tag) = tags source := by
  rw [placedTags, sourceStands, ← placeTags_eq]
  exact map_tag_placeTags ..

/-- Tags that do not cross are put in order, and those that cross have one role. -/
theorem KeepsOrder.pairwise_placedTags
    (h : KeepsOrder sourceTokenizer targetTokenizer source target) :
    (placedTags sourceTokenizer targetTokenizer source target).Pairwise fun a b =>
      isPaired a.tag → isPaired b.tag → a.spot ≤ b.spot ∨ role a.tag = role b.tag := by
  have hspans : Consecutive 0 (targetSpans targetTokenizer target) :=
    consecutive_tokenSpansFrom 0 _ _
  have hstands : (sourceStands sourceTokenizer source).Pairwise _ := pairwise_stands none 0 _ _
  rw [placedTags, List.pairwise_map]
  refine (h.and hstands).imp ?_
  rintro s t ⟨hcross, hwords, hnone⟩ hs ht
  refine (le_or_gt _ _).imp_right fun hlt => ?_
  exact hcross hs ht ((Stand.spot_placed_lt_iff hspans hwords hnone).mp hlt)

/-- **Paired tags of an aligned target have the kinds and names of those of the source, in order**,
if none crosses one of another kind or name. -/
theorem map_role_align (hplain : tags (Markup.strip target) = [])
    (horder : KeepsOrder sourceTokenizer targetTokenizer source target) :
    ((tags (align sourceTokenizer targetTokenizer source target)).filter isPaired).map role =
      ((tags source).filter isPaired).map role := by
  let ps := placedTags sourceTokenizer targetTokenizer source target
  have hmap : ps.map (·.tag) = tags source := map_tag_placedTags ..
  have htags : ∀ p ∈ ps, IsTag p.tag := by
    intro p hp
    exact Markup.isTag_of_mem_tags (hmap ▸ List.mem_map_of_mem hp)
  have hinsert : tags (insertTags (Markup.strip target) ps) =
      (wovenTags ps).map Prod.snd ++ trailingTags ps := by
    rw [tags_insertTags htags, tags_weave (isTag_woven htags) 0 hplain]
  have hinserted : ∀ g ∈ tags (insertTags (Markup.strip target) ps), IsTag g :=
    fun _ => Markup.isTag_of_mem_tags
  calc ((tags (align sourceTokenizer targetTokenizer source target)).filter isPaired).map role
      = (((tags (insertTags (Markup.strip target) ps)).map Text.collapse).filter isPaired).map
          role := by
        rw [align_eq, Markup.tags_tighten, Markup.tags_collapse]
    _ = ((tags (insertTags (Markup.strip target) ps)).filter isPaired).map role := by
        rw [Markup.filter_isPaired_map_collapse hinserted, Markup.map_role_map_collapse
          fun g hg => hinserted g (List.mem_filter.mp hg).1]
    _ = ((tags source).filter isPaired).map role := by
        rw [hinsert, map_filter_woven_append_trailing horder.pairwise_placedTags, hmap]

/-- The tags of an aligned target nest as those of the source do, if no paired tag crosses one of
another kind or name. -/
theorem isNested_align (hplain : tags (Markup.strip target) = [])
    (horder : KeepsOrder sourceTokenizer targetTokenizer source target) :
    isNested (tags (align sourceTokenizer targetTokenizer source target)) =
      isNested (tags source) := by
  rw [← Markup.isNested_filter, Markup.isNested_congr (map_role_align hplain horder),
    Markup.isNested_filter]

/-- **Tags that nest in the source nest in the target**, if the paired tags of a target that is
aligned keep their order, but for tags of one kind and name.  A source without tags leaves the
target as it is. -/
theorem isNested_transfer (hsource : tokenizers.get pair.source = .ok sourceTokenizer)
    (htarget : tokenizers.get pair.target = .ok targetTokenizer)
    (hnested : isNested (tags source)) (hplain : tags (Markup.strip target) = [])
    (htagless : tags source = [] → isNested (tags target))
    (horder : (tags source).length ≠ (tags target).length →
      KeepsOrder sourceTokenizer targetTokenizer source target) :
    ∃ result, transfer tokenizers pair source target = .ok result ∧ isNested (tags result) := by
  by_cases hnone : tags source = []
  · -- Nothing is to be done for a source without tags.
    refine ⟨target, ?_, htagless hnone⟩
    simp only [transfer, hnone, List.isEmpty_nil, if_true]
  · by_cases hlength : (tags source).length = (tags target).length
    · -- The tags of the source take the places of as many others, in order.
      refine ⟨replaceInOrder (tags source) (Markup.pieces target), ?_, ?_⟩
      · simp only [transfer, List.isEmpty_iff, if_neg hnone, if_pos hlength]
      · rw [tags_replaceInOrder (fun _ => Markup.isTag_of_mem_tags) hlength]
        exact hnested
    · refine ⟨align sourceTokenizer targetTokenizer source target, ?_, ?_⟩
      · simp only [transfer, List.isEmpty_iff, if_neg hnone, if_neg hlength, hsource, htarget]
        rfl
      · rw [isNested_align hplain (horder hlength)]
        exact hnested

/-- From English to Spanish. -/
def enEs : LanguagePair := ⟨"en".toList, "es".toList⟩

/-- Three pairs of tags, two of which are closed between the same words: their closing tags change
places. -/
def threePairs : Text := "Click <b>here <b>now </b></b> to <i>continue</i>.".toList

/-- The pairs go into a target without tags. -/
theorem isNested_transfer_three_pairs :
    ∃ result, transfer .standard enEs threePairs "Haga clic aquí ahora para continuar.".toList =
      .ok result ∧ isNested (tags result) := by
  have hsource : Tokenizers.standard.get enEs.source = .ok .wordBoundaries := rfl
  have htarget : Tokenizers.standard.get enEs.target = .ok .wordBoundaries := rfl
  refine isNested_transfer hsource htarget ?_ ?_ (fun hnone => ?_) (fun _ => ?_)
  · decide +kernel
  · decide +kernel
  · exact absurd hnone (by decide +kernel)
  · decide +kernel

/-- **Nesting can be lost**: where a pair without content stands between two words, its closing tag
overtakes the opening one, and a target whose source has no tags may have anything in it. -/
theorem transfer_not_nested :
    (isNested (tags "one <b></b> two".toList) ∧ tags (Markup.strip "uno dos".toList) = [] ∧
      transfer .standard enEs "one <b></b> two".toList "uno dos".toList =
        .ok "uno</b> <b>dos".toList ∧
      isNested (tags "uno</b> <b>dos".toList) = false) ∧
    isNested (tags "one".toList) ∧ tags (Markup.strip "uno</b>".toList) = [] ∧
      transfer .standard enEs "one".toList "uno</b>".toList = .ok "uno</b>".toList ∧
      isNested (tags "uno</b>".toList) = false := by
  refine ⟨⟨by decide +kernel, by decide +kernel, ?_, by decide +kernel⟩, by decide +kernel,
    by decide +kernel, rfl, by decide +kernel⟩
  have hplaced : placedTags .wordBoundaries .wordBoundaries "one <b></b> two".toList
      "uno dos".toList = [⟨some 4, "<b>".toList⟩, ⟨some 3, "</b>".toList⟩] := by
    decide +kernel
  -- The opening tag goes in front of the second word, the closing one behind the first.
  have hwoven : wovenTags [⟨some 4, "<b>".toList⟩, ⟨some 3, "</b>".toList⟩] =
      [(3, "</b>".toList), (4, "<b>".toList)] := by
    simp [wovenTags, List.mergeSort]
  change Except.ok (align .wordBoundaries .wordBoundaries "one <b></b> two".toList
    "uno dos".toList) = _
  rw [align_eq, hplaced]
  change Except.ok (Markup.tighten (Text.collapse (weave 0 (Markup.strip "uno dos".toList)
    (wovenTags [⟨some 4, "<b>".toList⟩, ⟨some 3, "</b>".toList⟩]) ++ []))) = _
  rw [hwoven]
  exact congrArg Except.ok (by decide +kernel)

end Transfer

end Bitext
