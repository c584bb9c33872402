import Bitext.Proofs.Transfer.Order
import Bitext.Proofs.Unicode.Slice

/-!
# Places of tags in the bytes of a target

Where tags go may be computed in bytes as well: tokens are searched among the bytes of the plain
target, and the target is cut at the bytes that were found.  A cut behind the end, inside a
character or in front of the cut before it would fail.  None does, whatever the tokenizers make of a
text, and the result is the same: every token is found between characters, no token is found in
front of an earlier one, and the tags are put in by the order of their places.

## Main definitions

* `byteSpans?`, `weaveBytes?`: tokens located and tags put in by bytes; nothing if a cut fails.
* `Transfer.alignBytes?`: an aligned target by bytes.

## Main results

* `byteSpans?_eq`, `weaveBytes?_eq`: the same by bytes and by characters
* `Transfer.alignBytes?_eq`: no cut fails
-/

namespace Bitext

open Unicode (Utf8.size Utf8.encode Utf8.byteOf Utf8.drop? Utf8.slice?)

variable {t : Text} {spans : List Span} {ps : List PlacedTag}

/-! ## Tokens -/

/-- The span of the same characters, counted in bytes. -/
def Span.inBytes (t : Text) (s : Span) : Span := ⟨Utf8.byteOf t s.start, Utf8.byteOf t s.stop⟩

/-- Locates tokens one after another among the bytes of a text from the byte `cursor` on; nothing if
that is no place in the text.  A token that is not found has an empty span at the cursor. -/
def byteSpans? (t : Text) (cursor : Nat) : List Text → Option (List Span)
  | [] => some []
  | token :: tokens =>
    (Utf8.drop? cursor t).bind fun rest =>
      match Unicode.Utf8.indexOf? (Utf8.encode token) (Utf8.encode rest) with
      | some ahead =>
        let stop := cursor + ahead + Utf8.size token
        (byteSpans? t stop tokens).map (⟨cursor + ahead, stop⟩ :: ·)
      | none => (byteSpans? t cursor tokens).map (⟨cursor, cursor⟩ :: ·)

/-- **Tokens are located by bytes where they are by characters.** -/
theorem byteSpans?_eq (a rest : Text) (tokens : List Text) :
    byteSpans? (a ++ rest) (Utf8.size a) tokens =
      some ((tokenSpansFrom a.length rest tokens).map (Span.inBytes (a ++ rest))) := by
  -- The induction carries the text as what was searched already and what is left.
  induction tokens generalizing a rest with
  | nil => rfl
  | cons token tokens ih =>
    rw [byteSpans?, Unicode.Utf8.drop?_size_append, Option.bind_some,
      Unicode.Utf8.indexOf?_encode, tokenSpansFrom]
    cases hfound : Text.indexOf? token rest with
    | none =>
      simp only [Option.map_none, ih, Option.map_some, List.map_cons, Span.inBytes,
        Unicode.Utf8.byteOf_length_append]
    | some i =>
      -- The search goes on behind the token, with what stands in front of that.
      obtain ⟨b, c, rfl, rfl⟩ := Text.exists_append_of_indexOf? hfound
      have hahead := Unicode.Utf8.byteOf_length_append b (token ++ c)
      have hrest := ih (a ++ (b ++ token)) c
      have hdrop : (b ++ (token ++ c)).drop (b.length + token.length) = c := by
        rw [← List.append_assoc, ← List.length_append, List.drop_left]
      have hstop : Utf8.byteOf (a ++ (b ++ (token ++ c))) (a.length + (b.length + token.length)) =
          Utf8.size a + (Utf8.size b + Utf8.size token) := by
        rw [Unicode.Utf8.byteOf_append, Unicode.Utf8.byteOf_append, Utf8.byteOf, List.take_left]
      have hstart : Utf8.byteOf (a ++ (b ++ (token ++ c))) (a.length + b.length) =
          Utf8.size a + Utf8.size b := by
        rw [Unicode.Utf8.byteOf_append, hahead]
      simp only [Unicode.Utf8.size_append, List.length_append, List.append_assoc] at hrest
      simp only [Option.map_some, hahead, hdrop, Nat.add_assoc, hrest, List.map_cons, Span.inBytes,
        hstart, hstop]

/-- No token is found behind the end. -/
theorem stop_le_of_mem_tokenSpansFrom {cursor : Nat} {rest : Text} {tokens : List Text} {s : Span}
    (h : s ∈ tokenSpansFrom cursor rest tokens) :
    s.start ≤ s.stop ∧ s.stop ≤ cursor + rest.length := by
  induction tokens generalizing cursor rest with
  | nil => cases h
  | cons token tokens ih =>
    rw [tokenSpansFrom] at h
    cases hfound : Text.indexOf? token rest with
    | none =>
      rw [hfound] at h
      rcases List.mem_cons.mp h with rfl | h
      · exact ⟨Nat.le_refl _, Nat.le_add_right _ _⟩
      · exact ih h
    | some i =>
      rw [hfound] at h
      obtain ⟨b, c, rfl, rfl⟩ := Text.exists_append_of_indexOf? hfound
      simp only [List.length_append]
      rcases List.mem_cons.mp h with rfl | h
      · constructor <;> (simp only; omega)
      · have hlater := ih h
        rw [List.length_drop, List.length_append, List.length_append] at hlater
        omega

/-- A token has its span inside the text. -/
theorem stop_le_of_mem_tokenSpans {tokens : List Text} {s : Span} (h : s ∈ tokenSpans t tokens) :
    s.start ≤ s.stop ∧ s.stop ≤ t.length := by
  have hbound := stop_le_of_mem_tokenSpansFrom h
  rwa [Nat.zero_add] at hbound

/-! ## Places -/

/-- The tag at the same place, counted in bytes. -/
def PlacedTag.inBytes (t : Text) (p : PlacedTag) : PlacedTag :=
  ⟨p.place?.map (Utf8.byteOf t), p.tag⟩

theorem place?_inBytes (t : Text) (spans : List Span) (words : Nat) (a : Anchor) :
    a.place? (spans.map (Span.inBytes t)) words = (a.place? spans words).map (Utf8.byteOf t) := by
  cases a with
  | next =>
    simp only [Anchor.place?, List.getElem?_map, Option.map_map]
    rfl
  | previous =>
    rw [Anchor.place?, Anchor.place?]
    split
    · rw [Option.map_some, Unicode.Utf8.byteOf_zero]
    · simp only [List.getElem?_map, Option.map_map]
      rfl

/-- Tags are given the same places by bytes. -/
theorem placeTags_inBytes (t : Text) (spans : List Span) (left tokens : List Text) :
    placeTags (spans.map (Span.inBytes t)) none 0 left tokens =
      (placeTags spans none 0 left tokens).map (PlacedTag.inBytes t) := by
  rw [placeTags_eq, placeTags_eq, List.map_map]
  refine List.map_congr_left fun s _ => ?_
  rw [Function.comp_apply, Stand.placed, Stand.placed, PlacedTag.inBytes, Option.map_bind]
  congr 2
  funext a
  exact place?_inBytes t spans s.words a

/-- Every place is one in the text, or its end. -/
theorem place_le_length {left tokens : List Text} {p : PlacedTag} {i : Nat}
    (hspans : ∀ s ∈ spans, s.start ≤ s.stop ∧ s.stop ≤ t.length)
    (hp : p ∈ placeTags spans none 0 left tokens) (hi : p.place? = some i) : i ≤ t.length := by
  rw [placeTags_eq] at hp
  obtain ⟨s, -, rfl⟩ := List.mem_map.mp hp
  obtain ⟨a, -, ha⟩ := Option.bind_eq_some_iff.mp hi
  -- The place is where a token starts or stops, or the start of the text.
  cases a with
  | next =>
    obtain ⟨span, hspan, rfl⟩ := Option.map_eq_some_iff.mp ha
    have hbounds := hspans span (List.mem_of_getElem? hspan)
    exact Nat.le_trans hbounds.1 hbounds.2
  | previous =>
    rw [Anchor.place?] at ha
    split at ha
    · cases ha
      exact Nat.zero_le _
    · obtain ⟨span, hspan, rfl⟩ := Option.map_eq_some_iff.mp ha
      exact (hspans span (List.mem_of_getElem? hspan)).2

/-! ## Cuts -/

/-- Puts tags into a text from the byte `last` on, each at its byte; nothing if the text cannot be
cut there. -/
def weaveBytes? (t : Text) (last : Nat) : List (Nat × Text) → Option Text
  | [] => Utf8.drop? last t
  | (place, tag) :: tags =>
    (Utf8.slice? last place t).bind fun part =>
      (weaveBytes? t place tags).map fun rest => part ++ tag ++ rest

/-- **Tags with increasing places in a text can be put in by bytes.** -/
theorem weaveBytes?_eq {tags : List (Nat × Text)} {cursor : Nat}
    (hcursor : ∀ p ∈ tags, cursor ≤ p.1) (hsorted : tags.Pairwise fun p q => p.1 ≤ q.1)
    (hinside : ∀ p ∈ tags, p.1 ≤ t.length) :
    weaveBytes? t (Utf8.byteOf t cursor) (tags.map fun p => (Utf8.byteOf t p.1, p.2)) =
      some (weave cursor (t.drop cursor) tags) := by
  induction tags generalizing cursor with
  | nil => exact Unicode.Utf8.drop?_byteOf t cursor
  | cons p tags ih =>
    obtain ⟨place, tag⟩ := p
    obtain ⟨hfirst, hlater⟩ := List.pairwise_cons.mp hsorted
    have hle : cursor ≤ place := hcursor _ List.mem_cons_self
    have hslice := Unicode.Utf8.slice?_eq hle (hinside _ List.mem_cons_self)
    have hrest := ih hfirst hlater fun q hq => hinside q (List.mem_cons_of_mem _ hq)
    have hdrop : (t.drop cursor).drop (place - cursor) = t.drop place := by
      rw [List.drop_drop, Nat.add_sub_cancel' hle]
    rw [List.map_cons, weaveBytes?, hslice, Option.bind_some, hrest, Option.map_some, weave, hdrop]

/-- Puts tags into a text by bytes: those with a place in the order of their places, the others
behind a space at the end. -/
def insertBytes? (t : Text) (tags : List PlacedTag) : Option Text :=
  (weaveBytes? t 0 (wovenTags tags)).map fun woven =>
    woven ++ if (trailingTags tags).flatten.isEmpty then [] else ' ' :: (trailingTags tags).flatten

theorem wovenTags_inBytes (h : ∀ p ∈ ps, ∀ i, p.place? = some i → i ≤ t.length) :
    wovenTags (ps.map (PlacedTag.inBytes t)) =
      (wovenTags ps).map fun p => (Utf8.byteOf t p.1, p.2) := by
  have hplaced : (ps.map (PlacedTag.inBytes t)).filterMap (fun p => p.place?.map (·, p.tag)) =
      (ps.filterMap fun p => p.place?.map (·, p.tag)).map fun p => (Utf8.byteOf t p.1, p.2) := by
    rw [List.filterMap_map, List.map_filterMap]
    refine List.filterMap_congr fun p _ => ?_
    rw [Function.comp_apply, PlacedTag.inBytes, Option.map_map, Option.map_map]
    rfl
  have hinside : ∀ q ∈ ps.filterMap (fun p => p.place?.map (·, p.tag)), q.1 ≤ t.length := by
    intro q hq
    obtain ⟨p, hp, hplace⟩ := List.mem_filterMap.mp hq
    obtain ⟨i, hi, rfl⟩ := Option.map_eq_some_iff.mp hplace
    exact h p hp i hi
  -- Bytes are in the order of characters, so sorting gives the same order.
  rw [wovenTags, wovenTags, hplaced]
  refine (List.map_mergeSort fun p hp q hq => ?_).symm
  exact decide_eq_decide.mpr
    (Unicode.Utf8.byteOf_le_byteOf_iff (hinside p hp) (hinside q hq)).symm

theorem trailingTags_inBytes (t : Text) (ps : List PlacedTag) :
    trailingTags (ps.map (PlacedTag.inBytes t)) = trailingTags ps := by
  rw [trailingTags, trailingTags, List.filter_map, List.map_map]
  have hnone : ((fun p : PlacedTag => p.place?.isNone) ∘ PlacedTag.inBytes t) =
      fun p => p.place?.isNone := by
    funext p
    exact Option.isNone_map
  rw [hnone]
  rfl

/-- Tags are put in by the order of their places. -/
theorem pairwise_wovenTags (ps : List PlacedTag) :
    (wovenTags ps).Pairwise fun p q => p.1 ≤ q.1 := by
  have hsorted : (wovenTags ps).Pairwise fun p q => decide (p.1 ≤ q.1) = true :=
    List.pairwise_mergeSort (by simpa using fun _ _ _ => Nat.le_trans)
      (by simpa using Nat.le_total) _
  exact hsorted.imp of_decide_eq_true

theorem insertBytes?_inBytes (h : ∀ p ∈ ps, ∀ i, p.place? = some i → i ≤ t.length) :
    insertBytes? t (ps.map (PlacedTag.inBytes t)) = some (insertTags t ps) := by
  have hinside : ∀ q ∈ wovenTags ps, q.1 ≤ t.length := by
    intro q hq
    obtain ⟨p, hp, hplace⟩ := List.mem_filterMap.mp (List.mem_mergeSort.mp hq)
    obtain ⟨i, hi, rfl⟩ := Option.map_eq_some_iff.mp hplace
    exact h p hp i hi
  have hweave := weaveBytes?_eq (fun p _ => Nat.zero_le p.1) (pairwise_wovenTags ps) hinside
  rw [Unicode.Utf8.byteOf_zero, List.drop_zero] at hweave
  rw [insertBytes?, wovenTags_inBytes h, trailingTags_inBytes, hweave, Option.map_some,
    insertTags_eq]

namespace Transfer

/-- The plain target with the tags of the source, computed by bytes; nothing if a cut fails. -/
def alignBytes? (sourceTokenizer targetTokenizer : Tokenizer) (source target : Text) :
    Option Text :=
  let marked := sourceTokenizer (Markup.replaceByWords (some Markup.spaceWord) source)
  let plain := Markup.strip target
  (byteSpans? plain 0 (Text.words (targetTokenizer plain))).bind fun spans =>
    (insertBytes? plain
      (placeTags spans none 0 (Markup.tags source) (Text.words marked))).map fun woven =>
        Markup.tighten (Text.collapse woven)

/-- **No cut fails**, whatever the tokenizers do, and by bytes the target is the same. -/
theorem alignBytes?_eq (sourceTokenizer targetTokenizer : Tokenizer) (source target : Text) :
    alignBytes? sourceTokenizer targetTokenizer source target =
      some (align sourceTokenizer targetTokenizer source target) := by
  have hspans (tokens : List Text) : byteSpans? (Markup.strip target) 0 tokens =
      some ((tokenSpans (Markup.strip target) tokens).map
        (Span.inBytes (Markup.strip target))) :=
    byteSpans?_eq [] _ tokens
  rw [alignBytes?, hspans, Option.bind_some, placeTags_inBytes,
    insertBytes?_inBytes fun p hp i hi =>
      place_le_length (fun s hs => stop_le_of_mem_tokenSpans hs) hp hi]
  rfl

end Transfer

end Bitext
