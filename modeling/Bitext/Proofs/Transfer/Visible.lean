import Bitext.Proofs.Markup.Outside
import Bitext.Proofs.Transfer.Places

/-!
# A transfer touches tags and blanks

What is visible outside the tags of a target stays as it is: tags that are replaced one by one leave
every character in its place, and a target that is aligned loses and gains blanks only, if no tag is
left in its plain form.  A transfer fails for one reason: tags have to be aligned, and one of the
two languages has no tokenizer.

## Main definitions

* `Tokenizers.Lacks`: a language without a tokenizer.
* `Transfer.IsStuck`: tags that have to be aligned where a tokenizer is missing.

## Main results

* `Transfer.outside_replaceInOrder`, `Transfer.visible_outside_align`: the two ways to give tags
* `Transfer.transfer_of_plain`: when a transfer fails, and what it keeps otherwise
-/

namespace Bitext

open Markup (tags pieces unparse outside IsTag IsTagBody IsCut Piece)

/-! ## Languages without a tokenizer -/

namespace Tokenizers

variable {ts : Tokenizers} {code : Text}

/-- Neither the language itself nor a fallback has a tokenizer. -/
def Lacks (ts : Tokenizers) (code : Text) : Prop :=
  ts.entries.lookup (primarySubtag code) = Option.none ∧ ts.fallback? = Option.none

theorem get_of_lacks (h : ts.Lacks code) :
    ts.get code = .error (.noTokenizer (primarySubtag code)) := by
  simp only [get, h.1, h.2]
  rfl

theorem exists_get_of_not_lacks (h : ¬ ts.Lacks code) :
    ∃ tokenizer, ts.get code = .ok tokenizer := by
  cases hfound : ts.entries.lookup (primarySubtag code) with
  | some tokenizer =>
    refine ⟨tokenizer, ?_⟩
    simp only [get, hfound]
    rfl
  | none =>
    cases hfallback : ts.fallback? with
    | some tokenizer =>
      refine ⟨tokenizer, ?_⟩
      simp only [get, hfound, hfallback]
      rfl
    | none => exact absurd ⟨hfound, hfallback⟩ h

end Tokenizers

/-! ## Tags put into a text -/

section Insert

variable {ps : List PlacedTag} {t : Text}

/-- Tags that are put into a text without tags leave its characters where they are. -/
theorem outside_weave {tags : List (Nat × Text)} (h : ∀ p ∈ tags, IsTag p.2) (cursor : Nat)
    (ht : Markup.tags t = []) : outside (weave cursor t tags) = t := by
  -- A tag cuts the text in two, and neither part has a tag of its own.
  induction tags generalizing cursor t with
  | nil => exact Markup.outside_of_tags_eq_nil ht
  | cons p tags ih =>
    obtain ⟨place, tag⟩ := p
    rw [← List.take_append_drop (place - cursor) t] at ht
    obtain ⟨htake, hdrop⟩ := Markup.tags_eq_nil_of_append ht
    have hrest := ih (fun q hq => h q (List.mem_cons_of_mem _ hq)) place hdrop
    rw [weave, List.append_assoc, Markup.outside_append_tag (h _ List.mem_cons_self),
      Markup.outside_of_tags_eq_nil htake, hrest, List.take_append_drop]

theorem visible_outside_insertTags (h : ∀ p ∈ ps, IsTag p.tag) (ht : tags t = []) :
    Text.visible (outside (insertTags t ps)) = Text.visible t := by
  have hspace : ∀ c ∈ [' '], Markup.isAngle c = false := by
    intro c hc
    rw [List.mem_singleton.mp hc]
    rfl
  have hwoven := outside_weave (isTag_woven h) 0 ht
  rw [insertTags_eq]
  split
  · rw [List.append_nil, hwoven]
  · -- The space in front of the tags at the end is all that is added outside tags.
    rw [← List.singleton_append, ← List.append_assoc,
      Markup.outside_append_flatten (isTag_trailing h), Markup.outside_append_of_no_angle hspace,
      hwoven, Text.visible_append]
    exact List.append_nil _

end Insert

namespace Transfer

variable {tokenizers : Tokenizers} {pair : LanguagePair} {source target : Text}

/-! ## Tags replaced one by one -/

/-- Tags that are replaced by tags make pieces that differ in tags only. -/
theorem exists_pieces_replaceInOrder {gs : List Text} (hgs : ∀ g ∈ gs, IsTag g) {ps : List Piece}
    (hps : ∀ body, .tag body ∈ ps → IsTagBody body) :
    ∃ qs, unparse qs = replaceInOrder gs ps ∧ ps.map Piece.char? = qs.map Piece.char? ∧
      ∀ body, .tag body ∈ qs → IsTagBody body := by
  -- A character uses up no tag of the source, so the tags that are left are general.
  induction ps generalizing gs with
  | nil => exact ⟨[], rfl, rfl, hps⟩
  | cons p ps ih =>
    have hlater : ∀ body, .tag body ∈ ps → IsTagBody body := fun body hbody =>
      hps body (List.mem_cons_of_mem p hbody)
    have htag {gs : List Text} (hgs : ∀ g ∈ gs, IsTag g) {old new : Text} (hnew : IsTagBody new) :
        ∃ qs, unparse qs = Markup.tagText new ++ replaceInOrder gs ps ∧
          (Piece.tag old :: ps).map Piece.char? = qs.map Piece.char? ∧
            ∀ body, .tag body ∈ qs → IsTagBody body := by
      obtain ⟨qs, hunparse, hchars, hbodies⟩ := ih hgs hlater
      refine ⟨.tag new :: qs, ?_, congrArg (none :: ·) hchars, ?_⟩
      · rw [Markup.unparse_cons, hunparse]
        rfl
      · intro body hbody
        rcases List.mem_cons.mp hbody with heq | hbody
        · cases heq
          exact hnew
        · exact hbodies body hbody
    cases p with
    | char c =>
      obtain ⟨qs, hunparse, hchars, hbodies⟩ := ih hgs hlater
      refine ⟨.char c :: qs, congrArg (c :: ·) hunparse, congrArg (some c :: ·) hchars, ?_⟩
      intro body hbody
      exact hbodies body (List.mem_of_ne_of_mem (by nofun) hbody)
    | tag old =>
      cases gs with
      -- A tag that is left over stays.
      | nil => exact htag hgs (hps old List.mem_cons_self)
      | cons g gs =>
        obtain ⟨new, hnew, rfl⟩ := hgs g List.mem_cons_self
        exact htag (fun k hk => hgs k (List.mem_cons_of_mem _ hk)) hnew

/-- **Tags that are replaced leave every character in its place.** -/
theorem outside_replaceInOrder {gs : List Text} (hgs : ∀ g ∈ gs, IsTag g) (t : Text) :
    outside (replaceInOrder gs (pieces t)) = outside t := by
  obtain ⟨qs, hunparse, hchars, hbodies⟩ :=
    exists_pieces_replaceInOrder hgs fun body (hbody : .tag body ∈ pieces t) =>
      Markup.isTagBody_of_mem_pieces hbody
  have hcut : IsCut qs := (Markup.isCut_pieces t).of_map_char? hchars hbodies
  rw [← hunparse, hcut.outside_unparse, Markup.filterMap_char?_congr hchars.symm, outside]

/-! ## Tags put at new places -/

/-- **An aligned target keeps what is visible outside tags**, if no tag is left in its plain
form. -/
theorem visible_outside_align (sourceTokenizer targetTokenizer : Tokenizer) (source : Text)
    (hplain : tags (Markup.strip target) = []) :
    Text.visible (outside (align sourceTokenizer targetTokenizer source target)) =
      Text.visible (outside target) := by
  have htags : ∀ p ∈ placedTags sourceTokenizer targetTokenizer source target, IsTag p.tag := by
    intro p hp
    apply Markup.isTag_of_mem_tags (t := source)
    rw [← map_tag_placedTags sourceTokenizer targetTokenizer source target]
    exact List.mem_map_of_mem hp
  -- From the last step to the first: blanks go, tags come in, and before that all tags went out.
  rw [align_eq, Markup.visible_outside_tighten, Markup.visible_outside_collapse,
    visible_outside_insertTags htags hplain, Markup.visible_strip]

/-! ## Transfer -/

/-- The source has tags, the target has more or fewer of them, and one of the languages has no
tokenizer. -/
structure IsStuck (tokenizers : Tokenizers) (pair : LanguagePair) (source target : Text) :
    Prop where
  tags_ne_nil : tags source ≠ []
  length_ne : (tags source).length ≠ (tags target).length
  lacks : tokenizers.Lacks pair.source ∨ tokenizers.Lacks pair.target

theorem transfer_of_tags_eq_nil (h : tags source = []) :
    transfer tokenizers pair source target = .ok target := by
  simp only [transfer, h, List.isEmpty_nil, if_true]

theorem transfer_of_length_eq (hs : tags source ≠ [])
    (h : (tags source).length = (tags target).length) :
    transfer tokenizers pair source target =
      .ok (replaceInOrder (tags source) (pieces target)) := by
  simp only [transfer, List.isEmpty_iff, if_neg hs, if_pos h]

theorem transfer_of_length_ne (hs : tags source ≠ [])
    (h : (tags source).length ≠ (tags target).length) :
    transfer tokenizers pair source target = do
      let sourceTokenizer ← tokenizers.get pair.source
      let targetTokenizer ← tokenizers.get pair.target
      return align sourceTokenizer targetTokenizer source target := by
  simp only [transfer, List.isEmpty_iff, if_neg hs, if_neg h]

/-- **A transfer touches tags and blanks only, and fails only for want of a tokenizer.**  If it does
not fail, what is visible outside the tags of the target stays; if both sides have equally many tags
every character does, and if the source has none the whole target.  Places are found by bytes as
well, and no cut at them fails. -/
theorem transfer_of_plain (hplain : tags (Markup.strip target) = []) :
    (IsStuck tokenizers pair source target →
      (tokenizers.Lacks pair.source → transfer tokenizers pair source target =
        .error (.noTokenizer (primarySubtag pair.source))) ∧
      (¬ tokenizers.Lacks pair.source → transfer tokenizers pair source target =
        .error (.noTokenizer (primarySubtag pair.target)))) ∧
    (¬ IsStuck tokenizers pair source target →
      ∃ result, transfer tokenizers pair source target = .ok result ∧
        Text.visible (outside result) = Text.visible (outside target) ∧
        ((tags source).length = (tags target).length → outside result = outside target) ∧
        (tags source = [] → result = target)) ∧
    ∀ sourceTokenizer targetTokenizer,
      alignBytes? sourceTokenizer targetTokenizer source target =
        some (align sourceTokenizer targetTokenizer source target) := by
  refine ⟨?_, ?_, fun s t => alignBytes?_eq s t source target⟩
  · rintro ⟨hs, hlength, hlacks⟩
    rw [transfer_of_length_ne hs hlength]
    refine ⟨fun hsource => ?_, fun hsource => ?_⟩
    · rw [Tokenizers.get_of_lacks hsource]
      rfl
    · obtain ⟨sourceTokenizer, hget⟩ := Tokenizers.exists_get_of_not_lacks hsource
      rw [hget, Tokenizers.get_of_lacks (hlacks.resolve_left hsource)]
      rfl
  · intro hfree
    by_cases hs : tags source = []
    · exact ⟨target, transfer_of_tags_eq_nil hs, rfl, fun _ => rfl, fun _ => rfl⟩
    · by_cases hlength : (tags source).length = (tags target).length
      · have hsame : outside (replaceInOrder (tags source) (pieces target)) = outside target :=
          outside_replaceInOrder (fun _ => Markup.isTag_of_mem_tags) target
        exact ⟨_, transfer_of_length_eq hs hlength, congrArg Text.visible hsame, fun _ => hsame,
          fun hnone => absurd hnone hs⟩
      · -- Both tokenizers are there, or the transfer would be stuck.
        obtain ⟨hsource, htarget⟩ := not_or.mp fun hlacks => hfree ⟨hs, hlength, hlacks⟩
        obtain ⟨sourceTokenizer, hget⟩ := Tokenizers.exists_get_of_not_lacks hsource
        obtain ⟨targetTokenizer, hget'⟩ := Tokenizers.exists_get_of_not_lacks htarget
        refine ⟨align sourceTokenizer targetTokenizer source target, ?_,
          visible_outside_align _ _ source hplain, fun heq => absurd heq hlength,
          fun hnone => absurd hnone hs⟩
        rw [transfer_of_length_ne hs hlength, hget, hget']
        rfl

/-- Tokenizers for English only. -/
def englishOnly : Tokenizers := Tokenizers.none.register "en".toList .blanks

/-- Two tags go into a target with a stray bracket, letters of two bytes and one tag; without a
tokenizer for Spanish they go nowhere. -/
theorem transfer_of_plain_accents :
    (∃ result, transfer .standard enEs "a <b>c</b>".toList "é < <i>ñ ü".toList = .ok result ∧
      Text.visible (outside result) = "é<ñü".toList) ∧
    transfer englishOnly enEs "a <b>c</b>".toList "é < <i>ñ ü".toList =
      .error (.noTokenizer "es".toList) := by
  have hplain : tags (Markup.strip "é < <i>ñ ü".toList) = [] := by decide +kernel
  have hfree : ¬ IsStuck .standard enEs "a <b>c</b>".toList "é < <i>ñ ü".toList := by
    rintro ⟨-, -, hlacks⟩
    rcases hlacks with h | h <;> cases h.2
  have hlacks : englishOnly.Lacks enEs.target ∧ ¬ englishOnly.Lacks enEs.source := by
    refine ⟨⟨by decide +kernel, rfl⟩, fun h => ?_⟩
    exact absurd h.1 (by decide +kernel)
  have hstuck : IsStuck englishOnly enEs "a <b>c</b>".toList "é < <i>ñ ü".toList :=
    ⟨by decide, by decide, .inr hlacks.1⟩
  obtain ⟨-, hok, -⟩ := @transfer_of_plain .standard enEs "a <b>c</b>".toList _ hplain
  obtain ⟨result, hresult, hvisible, -⟩ := hok hfree
  obtain ⟨herror, -⟩ := @transfer_of_plain englishOnly enEs "a <b>c</b>".toList _ hplain
  refine ⟨⟨result, hresult, hvisible.trans (by decide +kernel)⟩, ?_⟩
  rw [(herror hstuck).2 hlacks.2]
  exact congrArg (fun code => Except.error (Error.noTokenizer code)) (by decide +kernel)

end Transfer

end Bitext
