import Bitext.Proofs.Text.Words
import Bitext.Proofs.Transfer.Places

/-!
# Tokens at their own places

Tokens are located one after another, each behind the one before it, so whatever the tokens are,
their spans follow each other inside the text and lie between characters.  A token could still be
found too early, inside something that it does not stand for.  The words of the parts of a text are
not: what a search passes over between one word and the next are blanks, in which no word begins.

## Main definitions

* `IsOrdered`: spans that follow each other between the characters of a text.
* `wordSpansFrom`, `partSpansFrom`: where the words of a text, or of its parts, stand.
* `Laid`: a text as tokens with blanks around them.

## Main results

* `isOrdered_tokenSpans`: spans of any tokens
* `Laid.tokenSpansFrom_eq`: tokens that are laid out are found where they stand
* `laid_words`: words are laid out in their text
* `tokenSpans_spec`: where tokens are located
-/

namespace Bitext

open Unicode (Utf8.size Utf8.byteOf Utf8.slice?)

variable {t u a rest : Text} {token : Text} {tokens : List Text} {s : Span} {spans : List Span}
  {cursor : Nat} {c : Char}

/-! ## Spans of any tokens -/

/-- A number of bytes with which a text can be cut. -/
def IsBoundary (t : Text) (n : Nat) : Prop := ∃ a b, t = a ++ b ∧ Utf8.size a = n

/-- Spans, by bytes, that lie inside a text, between its characters and one after another. -/
structure IsOrdered (t : Text) (spans : List Span) : Prop where
  start_le_stop : ∀ s ∈ spans, s.start ≤ s.stop
  isBoundary : ∀ s ∈ spans, IsBoundary t s.start ∧ IsBoundary t s.stop
  stop_le_start : spans.Pairwise fun s s' => s.stop ≤ s'.start

theorem length_tokenSpansFrom (cursor : Nat) (rest : Text) (tokens : List Text) :
    (tokenSpansFrom cursor rest tokens).length = tokens.length := by
  induction tokens generalizing cursor rest with
  | nil => rfl
  | cons token tokens ih =>
    rw [tokenSpansFrom]
    split <;> exact congrArg (· + 1) (ih _ _)

/-- No token is found in front of the cursor. -/
theorem le_start_of_mem_tokenSpansFrom (h : s ∈ tokenSpansFrom cursor rest tokens) :
    cursor ≤ s.start := by
  induction tokens generalizing cursor rest with
  | nil => cases h
  | cons token tokens ih =>
    rw [tokenSpansFrom] at h
    split at h
    · rcases List.mem_cons.mp h with rfl | h
      · exact Nat.le_add_right _ _
      · have hlater := ih h
        omega
    · rcases List.mem_cons.mp h with rfl | h
      · exact Nat.le_refl _
      · exact ih h

theorem pairwise_tokenSpansFrom (cursor : Nat) (rest : Text) (tokens : List Text) :
    (tokenSpansFrom cursor rest tokens).Pairwise fun s s' => s.stop ≤ s'.start := by
  -- Every token is searched from where the one before it stops.
  induction tokens generalizing cursor rest with
  | nil => exact .nil
  | cons token tokens ih =>
    rw [tokenSpansFrom]
    split
    · exact List.pairwise_cons.mpr ⟨fun s hs => le_start_of_mem_tokenSpansFrom hs, ih _ _⟩
    · exact List.pairwise_cons.mpr ⟨fun s hs => le_start_of_mem_tokenSpansFrom hs, ih _ _⟩

theorem isBoundary_byteOf (t : Text) (i : Nat) : IsBoundary t (Utf8.byteOf t i) :=
  ⟨t.take i, t.drop i, (List.take_append_drop i t).symm, rfl⟩

/-- **The spans of any tokens are in order**, inside the text and between its characters. -/
theorem isOrdered_tokenSpans (t : Text) (tokens : List Text) :
    IsOrdered t ((tokenSpans t tokens).map (Span.inBytes t)) where
  start_le_stop := by
    rintro _ hmem
    obtain ⟨s, hs, rfl⟩ := List.mem_map.mp hmem
    obtain ⟨hle, hstop⟩ := stop_le_of_mem_tokenSpans hs
    exact (Unicode.Utf8.byteOf_le_byteOf_iff (Nat.le_trans hle hstop) hstop).mpr hle
  isBoundary := by
    rintro _ hmem
    obtain ⟨s, hs, rfl⟩ := List.mem_map.mp hmem
    exact ⟨isBoundary_byteOf t s.start, isBoundary_byteOf t s.stop⟩
  stop_le_start := by
    rw [List.pairwise_map]
    refine (pairwise_tokenSpansFrom 0 t tokens).imp_of_mem ?_
    intro s s' hs hs' hle
    obtain ⟨hstart, hstop⟩ := stop_le_of_mem_tokenSpans hs'
    exact (Unicode.Utf8.byteOf_le_byteOf_iff (stop_le_of_mem_tokenSpans hs).2
      (Nat.le_trans hstart hstop)).mpr hle

/-! ## Where words stand -/

/-- Where words stand if one more visible character stands in front, at the cursor: it joins a word
that begins right behind it, and otherwise is a word of its own. -/
def spansFromVisible (cursor : Nat) : List Span → List Span
  | [] => [⟨cursor, cursor + 1⟩]
  | s :: spans =>
    if s.start = cursor + 1 then ⟨cursor, s.stop⟩ :: spans
    else ⟨cursor, cursor + 1⟩ :: s :: spans

/-- Where the words of a text stand that begins at a place. -/
def wordSpansFrom (cursor : Nat) : Text → List Span
  | [] => []
  | c :: rest =>
    if Text.isSpace c then wordSpansFrom (cursor + 1) rest
    else spansFromVisible cursor (wordSpansFrom (cursor + 1) rest)

/-- Where the words of parts stand that follow each other from a place on. -/
def partSpansFrom (cursor : Nat) : List Text → List Span
  | [] => []
  | part :: parts => wordSpansFrom cursor part ++ partSpansFrom (cursor + part.length) parts

/-! ## Tokens between blanks -/

/-- A text that begins at a place consists of tokens with the given spans and of blanks between and
around them. -/
inductive Laid : Nat → Text → List Text → List Span → Prop where
  | blank {cursor : Nat} {gap : Text} (hgap : Text.isBlank gap) : Laid cursor gap [] []
  | token {cursor : Nat} {gap token rest : Text} {tokens : List Text} {s : Span} {spans : List Span}
      (hgap : Text.isBlank gap) (hnil : token ≠ []) (hvisible : ∀ c ∈ token, Text.isSpace c = false)
      (hstart : s.start = cursor + gap.length) (hstop : s.stop = s.start + token.length)
      (h : Laid s.stop rest tokens spans) :
      Laid cursor (gap ++ (token ++ rest)) (token :: tokens) (s :: spans)

/-- No word begins in blanks. -/
theorem indexOf?_blank_append {gap : Text} (hgap : Text.isBlank gap) (hnil : token ≠ [])
    (hvisible : ∀ c ∈ token, Text.isSpace c = false) (rest : Text) :
    Text.indexOf? token (gap ++ (token ++ rest)) = some gap.length := by
  obtain ⟨c, token, rfl⟩ := List.exists_cons_of_ne_nil hnil
  induction gap with
  | nil =>
    have hbelow : (c :: token).isPrefixOf (c :: (token ++ rest)) = true :=
      List.isPrefixOf_iff_prefix.mpr (List.prefix_append (c :: token) rest)
    exact if_pos hbelow
  | cons d gap ih =>
    obtain ⟨hd, hgap⟩ := Bool.and_eq_true_iff.mp hgap
    have hne : c ≠ d := by
      rintro rfl
      rw [hvisible c List.mem_cons_self] at hd
      cases hd
    rw [List.cons_append, Text.indexOf?, List.isPrefixOf_cons_cons, beq_eq_false_iff_ne.mpr hne,
      Bool.false_and, if_neg Bool.false_ne_true, ih hgap, Option.map_some, List.length_cons]

namespace Laid

/-- **Tokens that are laid out are found where they stand.** -/
theorem tokenSpansFrom_eq (h : Laid cursor t tokens spans) :
    tokenSpansFrom cursor t tokens = spans := by
  induction h with
  | blank => rfl
  | @token cursor gap token rest tokens s spans hgap hnil hvisible hstart hstop _ ih =>
    have hdrop : (gap ++ (token ++ rest)).drop (gap.length + token.length) = rest := by
      rw [← List.append_assoc, ← List.length_append, List.drop_left]
    have hspan : (⟨cursor + gap.length, cursor + gap.length + token.length⟩ : Span) = s := by
      rw [← hstart, ← hstop]
    rw [tokenSpansFrom, indexOf?_blank_append hgap hnil hvisible]
    simp only [hdrop, hspan]
    rw [← hstart, ← hstop, ih]

/-- Blanks in front belong to no token. -/
theorem blank_append {gap : Text} (hgap : Text.isBlank gap)
    (h : Laid (cursor + gap.length) t tokens spans) : Laid cursor (gap ++ t) tokens spans := by
  cases h with
  | blank hblank => exact .blank (Text.isBlank_append hgap hblank)
  | token hblank hnil hvisible hstart hstop h =>
    rw [← List.append_assoc]
    apply Laid.token (Text.isBlank_append hgap hblank) hnil hvisible _ hstop h
    rw [hstart, List.length_append, Nat.add_assoc]

theorem append {tokens' : List Text} {spans' : List Span} (h : Laid cursor t tokens spans)
    (h' : Laid (cursor + t.length) u tokens' spans') :
    Laid cursor (t ++ u) (tokens ++ tokens') (spans ++ spans') := by
  induction h with
  | blank hgap => exact h'.blank_append hgap
  | token hgap hnil hvisible hstart hstop _ ih =>
    rw [List.append_assoc, List.append_assoc]
    apply Laid.token hgap hnil hvisible hstart hstop
    apply ih
    rw [List.length_append, List.length_append] at h'
    rwa [hstop, hstart, Nat.add_assoc, Nat.add_assoc]

/-- If no token stands right at the beginning, a blank does. -/
theorem isSpace_head (h : Laid cursor t tokens spans)
    (hfirst : ∀ s ∈ spans.head?, s.start ≠ cursor) :
    ∀ d, t.head? = some d → Text.isSpace d = true := by
  intro d hd
  cases h with
  | blank hgap => exact Text.isBlank_iff.mp hgap d (List.mem_of_head? hd)
  | token hgap hnil hvisible hstart hstop h =>
    rename_i gap token rest _ s _
    cases gap with
    | nil => exact absurd hstart (hfirst s rfl)
    | cons e gap =>
      cases hd
      exact Text.isBlank_iff.mp hgap d List.mem_cons_self

theorem exists_cons {s : Span} (h : Laid cursor t tokens (s :: spans)) :
    ∃ token tokens', tokens = token :: tokens' := by
  cases h
  exact ⟨_, _, rfl⟩

theorem exists_visible {s : Span} (h : Laid cursor t tokens (s :: spans))
    (hstart : s.start = cursor) :
    ∃ d rest, t = d :: rest ∧ Text.isSpace d = false := by
  cases h with
  | token hgap hnil hvisible hstart' hstop h =>
    rename_i gap token rest _
    have hnone : gap = [] := List.eq_nil_of_length_eq_zero (by omega)
    subst hnone
    obtain ⟨d, token, rfl⟩ := List.exists_cons_of_ne_nil hnil
    exact ⟨d, token ++ rest, rfl, hvisible d List.mem_cons_self⟩

/-- A visible character in front of a word joins it. -/
theorem cons_visible (hc : Text.isSpace c = false) {s : Span}
    (h : Laid (cursor + 1) t (token :: tokens) (s :: spans)) (hstart : s.start = cursor + 1) :
    Laid cursor (c :: t) ((c :: token) :: tokens) (⟨cursor, s.stop⟩ :: spans) := by
  cases h with
  | token hgap hnil hvisible hstart' hstop h =>
    rename_i gap rest
    -- The word begins at once, so there are no blanks in front of it.
    have hnone : gap = [] := List.eq_nil_of_length_eq_zero (by omega)
    subst hnone
    show Laid cursor ([] ++ ((c :: token) ++ rest)) _ _
    refine Laid.token rfl (List.cons_ne_nil c token) (List.forall_mem_cons.mpr ⟨hc, hvisible⟩) rfl
      ?_ h
    simp only [List.length_cons]
    omega

/-- A visible character that no word follows is a word. -/
theorem singleton (hc : Text.isSpace c = false) (h : Laid (cursor + 1) t tokens spans) :
    Laid cursor (c :: t) ([c] :: tokens) (⟨cursor, cursor + 1⟩ :: spans) := by
  show Laid cursor ([] ++ ([c] ++ t)) _ _
  exact Laid.token rfl (List.cons_ne_nil c []) (List.forall_mem_singleton.mpr hc) rfl rfl h

end Laid

theorem words_cons_of_visible (hc : Text.isSpace c = false) {d : Char} (hd : Text.isSpace d = false)
    (t : Text) : Text.words (c :: d :: t) = (Text.words (d :: t)).modifyHead (c :: ·) := by
  obtain ⟨first, others, hsplit⟩ := List.exists_cons_of_ne_nil (List.splitOnP_ne_nil Text.isSpace t)
  simp only [Text.words, List.splitOnP_cons_eq_if_modifyHead, hc, hd, Bool.false_eq_true, if_false,
    hsplit, List.modifyHead_cons]
  rfl

/-- **Words are laid out in their text.** -/
theorem laid_words (cursor : Nat) (t : Text) :
    Laid cursor t (Text.words t) (wordSpansFrom cursor t) := by
  induction t generalizing cursor with
  | nil => exact .blank rfl
  | cons c t ih =>
    have hrest := ih (cursor + 1)
    rw [wordSpansFrom]
    cases hc : Text.isSpace c with
    | true =>
      rw [if_pos rfl, Text.words_cons_of_isSpace hc]
      have hgap : Text.isBlank [c] = true := by
        rw [Text.isBlank, List.all_cons, hc]
        rfl
      exact hrest.blank_append hgap
    | false =>
      rw [if_neg Bool.false_ne_true]
      -- The character is a word of its own unless a word begins right behind it.
      have hsole (hfirst : ∀ s ∈ (wordSpansFrom (cursor + 1) t).head?, s.start ≠ cursor + 1) :
          Laid cursor (c :: t) (Text.words (c :: t))
            (⟨cursor, cursor + 1⟩ :: wordSpansFrom (cursor + 1) t) := by
        have hwords : Text.words ([c] ++ t) = [c] :: Text.words t :=
          Text.words_append_of_visible (List.cons_ne_nil c []) (List.forall_mem_singleton.mpr hc)
            (hrest.isSpace_head hfirst)
        rw [List.singleton_append] at hwords
        rw [hwords]
        exact hrest.singleton hc
      cases hspans : wordSpansFrom (cursor + 1) t with
      | nil =>
        rw [hspans] at hsole
        apply hsole
        intro s hs
        cases hs
      | cons s spans =>
        rw [hspans] at hrest hsole
        by_cases hstart : s.start = cursor + 1
        · obtain ⟨d, t, rfl, hd⟩ := hrest.exists_visible hstart
          rw [spansFromVisible, if_pos hstart, words_cons_of_visible hc hd]
          obtain ⟨token, tokens, hwords⟩ := hrest.exists_cons
          rw [hwords] at hrest ⊢
          exact hrest.cons_visible hc hstart
        · rw [spansFromVisible, if_neg hstart]
          apply hsole
          rintro _ ⟨⟩
          exact hstart

theorem laid_partSpans (cursor : Nat) (parts : List Text) :
    Laid cursor parts.flatten (parts.flatMap Text.words) (partSpansFrom cursor parts) := by
  induction parts generalizing cursor with
  | nil => exact .blank rfl
  | cons part parts ih =>
    rw [List.flatten_cons, List.flatMap_cons, partSpansFrom]
    exact (laid_words cursor part).append (ih _)

/-! ## What the spans of words cover -/

/-- The place is inside the span. -/
def Span.covers (s : Span) (i : Nat) : Bool := s.start ≤ i && i < s.stop

namespace Laid

/-- **Every span has its token.** -/
theorem slices (h : Laid cursor t tokens spans) (ha : a.length = cursor) :
    List.Forall₂ (fun s token => Utf8.slice? s.start s.stop (a ++ t) = some token)
      (spans.map (Span.inBytes (a ++ t))) tokens := by
  -- The induction carries what stands in front of the cursor.
  induction h generalizing a with
  | blank => exact .nil
  | @token cursor gap token rest tokens s spans hgap hnil hvisible hstart hstop _ ih =>
    have hbefore : (a ++ gap).length = s.start := by rw [List.length_append, ha, hstart]
    have htext : a ++ (gap ++ (token ++ rest)) = a ++ gap ++ (token ++ rest) := by
      rw [List.append_assoc]
    rw [htext, List.map_cons]
    apply List.Forall₂.cons
    · have hinside : s.stop ≤ (a ++ gap ++ (token ++ rest)).length := by
        rw [List.length_append, hbefore, List.length_append]
        omega
      have hslice := Unicode.Utf8.slice?_eq (by omega : s.start ≤ s.stop) hinside
      rw [← hbefore, List.drop_left, hstop, hbefore, Nat.add_sub_cancel_left,
        List.take_left] at hslice
      rw [Span.inBytes, hstop]
      exact hslice
    · have hlater : (a ++ gap ++ token).length = s.stop := by
        rw [List.length_append, hbefore, hstop]
      rw [← List.append_assoc (a ++ gap)]
      exact ih hlater

theorem le_start (h : Laid cursor t tokens spans) : ∀ s ∈ spans, cursor ≤ s.start := by
  induction h with
  | blank => exact fun _ hs => absurd hs List.not_mem_nil
  | token _ _ _ hstart hstop _ ih =>
    rintro s' hs'
    rcases List.mem_cons.mp hs' with rfl | hs'
    · omega
    · have hlater := ih s' hs'
      omega

/-- No token stands in front of the place where the text begins. -/
theorem countP_of_lt (h : Laid cursor t tokens spans) {i : Nat} (hi : i < cursor) :
    spans.countP (·.covers i) = 0 := by
  rw [List.countP_eq_zero]
  intro s hs hcovers
  rw [Span.covers, Bool.and_eq_true, decide_eq_true_eq] at hcovers
  have hle := h.le_start s hs
  omega

/-- **Spans cover the visible characters once**, and no blank. -/
theorem countP_covers (h : Laid cursor t tokens spans) {i : Nat} (hi : t[i]? = some c) :
    spans.countP (·.covers (cursor + i)) = if Text.isSpace c then 0 else 1 := by
  induction h generalizing i with
  | blank hgap =>
    rw [if_pos (Text.isBlank_iff.mp hgap c (List.mem_of_getElem? hi))]
    rfl
  | @token cursor gap token rest tokens s spans hgap hnil hvisible hstart hstop hrest ih =>
    have hcovers (hin : gap.length ≤ i ∧ i < gap.length + token.length) :
        s.covers (cursor + i) = true := by
      rw [Span.covers, Bool.and_eq_true, decide_eq_true_eq, decide_eq_true_eq]
      omega
    have hnot (hout : i < gap.length ∨ gap.length + token.length ≤ i) :
        s.covers (cursor + i) = false := by
      rw [Span.covers, Bool.and_eq_false_iff, decide_eq_false_iff_not, decide_eq_false_iff_not]
      omega
    have hcons : (s :: spans).countP (·.covers (cursor + i)) =
        spans.countP (·.covers (cursor + i)) + if s.covers (cursor + i) then 1 else 0 :=
      List.countP_cons
    rw [hcons]
    -- The character stands in the blanks, in the token or behind it.
    rcases Nat.lt_or_ge i gap.length with hgapped | hbehind
    · rw [List.getElem?_append_left hgapped] at hi
      rw [hnot (.inl hgapped), hrest.countP_of_lt (by omega),
        if_pos (Text.isBlank_iff.mp hgap c (List.mem_of_getElem? hi))]
      rfl
    · rw [List.getElem?_append_right hbehind] at hi
      rcases Nat.lt_or_ge (i - gap.length) token.length with hinside | hlater
      · rw [List.getElem?_append_left hinside] at hi
        rw [hcovers (by omega), hrest.countP_of_lt (by omega),
          hvisible c (List.mem_of_getElem? hi)]
        rfl
      · rw [List.getElem?_append_right hlater] at hi
        have hplace : s.stop + (i - gap.length - token.length) = cursor + i := by omega
        have hcount := ih hi
        rw [hplace] at hcount
        rw [hnot (.inr (by omega)), hcount]
        rfl

end Laid

/-! ## The tokenizers -/

theorem words_unwords_flatMap (parts : List Text) :
    Text.words (Text.unwords parts) = parts.flatMap Text.words := by
  induction parts with
  | nil => rfl
  | cons part parts ih =>
    cases parts with
    | nil =>
      rw [Text.unwords, List.intercalate_singleton, List.flatMap_cons, List.flatMap_nil,
        List.append_nil]
    | cons next parts =>
      rw [Text.unwords, List.intercalate_cons_cons, List.append_assoc, List.singleton_append,
        Text.words_append_cons rfl, List.flatMap_cons, ← ih, Text.unwords]

/-- Parts without a visible character have no words. -/
theorem flatMap_words_filter (parts : List Text) :
    (parts.filter (!Text.isBlank ·)).flatMap Text.words = parts.flatMap Text.words := by
  induction parts with
  | nil => rfl
  | cons part parts ih =>
    rw [List.filter_cons]
    split
    · rw [List.flatMap_cons, List.flatMap_cons, ih]
    · rename_i hblank
      rw [Bool.not_eq_true, Bool.not_eq_false'] at hblank
      rw [List.flatMap_cons, Text.words_of_isBlank hblank, List.nil_append, ih]

/-- The tokens that are cut at word boundaries. -/
theorem words_wordBoundaries (t : Text) :
    Text.words (Tokenizer.wordBoundaries t) = (Unicode.segments t).flatMap Text.words := by
  rw [Tokenizer.wordBoundaries, words_unwords_flatMap, flatMap_words_filter]

/-- The tokens that are cut at blanks only are the words of the text as one part. -/
theorem words_blanks (t : Text) : Text.words (Tokenizer.blanks t) = [t].flatMap Text.words := by
  rw [Tokenizer.blanks, Text.words_collapse, List.flatMap_singleton]

/-- **Where tokens are located.**  Whatever the tokens are, each has a span, and by bytes the spans
follow each other inside the text and between its characters.  If the tokens are the words of the
parts of a text, each is located where that word stands in its part, its span has the characters of
the token, and together the spans cover every visible character once and no blank.  So it is with
the tokens of both tokenizers. -/
theorem tokenSpans_spec (t : Text) :
    (∀ tokens : List Text, (tokenSpans t tokens).length = tokens.length ∧
      byteSpans? t 0 tokens = some ((tokenSpans t tokens).map (Span.inBytes t)) ∧
      IsOrdered t ((tokenSpans t tokens).map (Span.inBytes t))) ∧
    (∀ parts : List Text, parts.flatten = t →
      tokenSpans t (parts.flatMap Text.words) = partSpansFrom 0 parts ∧
      List.Forall₂ (fun s token => Utf8.slice? s.start s.stop t = some token)
        ((tokenSpans t (parts.flatMap Text.words)).map (Span.inBytes t))
        (parts.flatMap Text.words) ∧
      ∀ i c, t[i]? = some c →
        (tokenSpans t (parts.flatMap Text.words)).countP (·.covers i) =
          if Text.isSpace c then 0 else 1) ∧
    ((Unicode.segments t).flatten = t ∧
      Text.words (Tokenizer.wordBoundaries t) = (Unicode.segments t).flatMap Text.words) ∧
    [t].flatten = t ∧ Text.words (Tokenizer.blanks t) = [t].flatMap Text.words := by
  refine ⟨fun tokens => ⟨?_, ?_, isOrdered_tokenSpans t tokens⟩, ?_,
    ⟨Unicode.flatten_segments t, words_wordBoundaries t⟩, ?_, words_blanks t⟩
  · exact length_tokenSpansFrom 0 t tokens
  · exact byteSpans?_eq [] t tokens
  · rintro parts rfl
    have hlaid := laid_partSpans 0 parts
    have hspans : tokenSpans parts.flatten (parts.flatMap Text.words) = partSpansFrom 0 parts :=
      hlaid.tokenSpansFrom_eq
    refine ⟨hspans, ?_, ?_⟩
    · rw [hspans]
      exact hlaid.slices (a := []) rfl
    · intro i c hi
      have hcount := hlaid.countP_covers hi
      rwa [Nat.zero_add, ← hspans] at hcount
  · rw [List.flatten_cons, List.flatten_nil, List.append_nil]

/-- The last token is also part of the first one, which stands in front of it. -/
theorem tokenSpans_spec_nested :
    (["na".toList, "n a".toList] : List Text).flatten = "nan a".toList ∧
      "nan a".toList[4]? = some 'a' ∧
      tokenSpans "nan a".toList ["na".toList, "n".toList, "a".toList] = [⟨0, 2⟩, ⟨2, 3⟩, ⟨4, 5⟩] ∧
      (tokenSpans "nan a".toList ["na".toList, "n".toList, "a".toList]).countP (·.covers 4) = 1 := by
  obtain ⟨-, hparts, -⟩ := tokenSpans_spec "nan a".toList
  obtain ⟨hspans, -, hcovers⟩ := hparts ["na".toList, "n a".toList] (by decide)
  have hwords : (["na".toList, "n a".toList] : List Text).flatMap Text.words =
      ["na".toList, "n".toList, "a".toList] := by decide
  rw [hwords] at hspans hcovers
  exact ⟨by decide, by decide, hspans.trans (by decide), hcovers 4 'a' (by decide)⟩

end Bitext
