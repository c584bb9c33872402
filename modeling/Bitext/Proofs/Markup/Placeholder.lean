import Bitext.Markup.Placeholder
import Bitext.Proofs.Markup.Runs
import Bitext.Proofs.Text.Words

/-!
# Tags and the words that stand for them

A text is a run of characters, a tag, a run of characters, and so on.  Replacing the tags by words
leaves the words of the runs with a tag word between every two runs.  If blanks that touch a tag are
marked as well, a run between two tags says on either side whether it touches the tag there; a run
of blanks touches both tags with the same blanks, and says so once.  So every tag word can be traced
back to its tag, and tags put back into the labels of such tokens come out in their places.

## Main definitions

* `runTokens`, `tokensOf`: the tokens of a run, and of all runs.
* `LacksWords`: none of the words that stand for something occurs between the tags.
* `IsRestored`: labels with tags in their places.

## Main results

* `words_replaceByWords_none`, `words_replaceByWords_space`: the tokens of a text
* `touches_of_split`: a marked blank stands where a blank touches a tag
* `isRestored_restoreTags`, `restoreTags_of_few`: putting tags back
* `tagWords_match_tags`: all of it for the tokens of a text
-/

namespace Bitext.Markup

variable {t : Text} {ps : List Piece} {r : Text} {rs : List Text} {gs : List Text}

/-! ## Run by run -/

/-- Pieces are a last run of characters, or a run in front of a tag and more pieces. -/
theorem induction_runs {motive : List Piece → Prop} (last : ∀ r : Text, motive (r.map Piece.char))
    (tag : ∀ (r : Text) (body : Text) (ps : List Piece), motive ps →
      motive (r.map Piece.char ++ .tag body :: ps)) (ps : List Piece) : motive ps := by
  -- The characters that were passed belong to the run that is not finished yet.
  suffices h : ∀ r : Text, motive (r.map Piece.char ++ ps) from h []
  induction ps with
  | nil => exact fun r => (List.append_nil (r.map Piece.char)).symm ▸ last r
  | cons p ps ih =>
    intro r
    cases p with
    | tag body => exact tag r body ps (ih [])
    | char c =>
      have hrun := ih (r ++ [c])
      rwa [List.map_append, List.append_assoc] at hrun

theorem runs_map_char (r : Text) : runs (r.map Piece.char) = [r] := by
  have hruns := runs_map_char_append r []
  rw [List.append_nil] at hruns
  rw [hruns, runs, List.modifyHead_cons, List.append_nil]

theorem runs_append_tag (ps : List Piece) (body : Text) (qs : List Piece) :
    runs (ps ++ .tag body :: qs) = runs ps ++ runs qs := by
  induction ps with
  | nil => rfl
  | cons p ps ih =>
    rw [List.cons_append]
    cases p with
    | tag b => rw [runs, runs, ih, List.cons_append]
    | char c =>
      obtain ⟨first, others, hruns⟩ := exists_runs_eq_cons ps
      rw [runs, runs, ih, hruns, List.cons_append, List.modifyHead_cons, List.modifyHead_cons,
        List.cons_append]

theorem length_runs (ps : List Piece) :
    (runs ps).length = (ps.filterMap Piece.body?).length + 1 := by
  induction ps with
  | nil => rfl
  | cons p ps ih =>
    cases p with
    | char c => rw [runs, List.length_modifyHead, ih, filterMap_body?_char]
    | tag body => rw [runs, List.length_cons, ih, filterMap_body?_tag, List.length_cons]

/-! ## Words -/

theorem isSpace_eq_false_of_all {w : Text} (h : w.all (fun c => !Text.isSpace c) = true) :
    ∀ c ∈ w, Text.isSpace c = false :=
  fun c hc => (Bool.not_eq_true' _).mp (List.all_eq_true.mp h c hc)

theorem visible_tagWord : tagWord ≠ [] ∧ ∀ c ∈ tagWord, Text.isSpace c = false :=
  ⟨by decide, isSpace_eq_false_of_all (by decide)⟩

theorem visible_spaceWord : spaceWord ≠ [] ∧ ∀ c ∈ spaceWord, Text.isSpace c = false :=
  ⟨by decide, isSpace_eq_false_of_all (by decide)⟩

theorem spaceWord_ne_tagWord : spaceWord ≠ tagWord := by decide

/-- The word for blanks, if there are some. -/
def sideWords (touched : Bool) : List Text := if touched then [spaceWord] else []

@[simp] theorem sideWords_false : sideWords false = [] := rfl

/-- The text begins with a blank. -/
def beginsBlank (t : Text) : Bool := (t.head?.map Text.isSpace).getD false

/-- The tokens of a run.  `behind` and `before` say whether there is a tag in front of the run, and
one behind it. -/
def runTokens (behind before : Bool) (r : Text) : List Text :=
  if Text.isBlank r then sideWords ((behind || before) && !r.isEmpty)
  else
    sideWords (behind && beginsBlank r) ++ Text.words r ++
      sideWords (before && Text.endsBlank false r)

/-- The tokens of runs with a tag between every two of them. -/
def tokensOf (behind before : Bool) : List Text → List Text
  | [] => []
  | [r] => runTokens behind before r
  | r :: r' :: rs => runTokens behind true r ++ tagWord :: tokensOf true before (r' :: rs)

theorem trim_ne_nil (hr : Text.isBlank r = false) : Text.trim r ≠ [] := by
  rw [ne_eq, Text.trim_eq_nil_iff, hr]
  exact Bool.false_ne_true

theorem words_sideText_append (touched : Bool) (a t : Text) :
    Text.words (a ++ (sideText spaceWord touched ++ t)) =
      Text.words a ++ sideWords touched ++ Text.words t := by
  cases touched with
  | false => exact (Text.words_append_cons rfl a t).trans (by rw [sideWords]; simp)
  | true =>
    have hside : a ++ (sideText spaceWord true ++ t) = a ++ ' ' :: (spaceWord ++ ' ' :: t) := by
      simp [sideText]
    obtain ⟨hne, hvisible⟩ := visible_spaceWord
    rw [hside, Text.words_append_cons rfl, Text.words_append_cons rfl,
      Text.words_of_visible hne hvisible, List.append_assoc]
    rfl

theorem words_sideText (touched : Bool) (t : Text) :
    Text.words (sideText spaceWord touched ++ t) = sideWords touched ++ Text.words t :=
  words_sideText_append touched [] t

/-! ## Marked texts -/

section Marking

variable {space a b : Text} {fresh : Bool}

/-- Blanks are collected. -/
theorem markTouching_blank (hb : Text.isBlank b = true) (space : Text) (fresh : Bool) (run : Text)
    (ps : List Piece) :
    markTouching space fresh run (b.map Piece.char ++ ps) =
      markTouching space fresh (run ++ b) ps := by
  induction b generalizing run with
  | nil => rw [List.append_nil]; rfl
  | cons c b ih =>
    obtain ⟨hc, hb⟩ := Bool.and_eq_true_iff.mp hb
    rw [List.map_cons, List.cons_append, markTouching, if_pos hc, ih hb, List.append_assoc,
      List.singleton_append]

theorem markTouching_visible {c : Char} (hc : Text.isSpace c = false) (space : Text) (fresh : Bool)
    (run : Text) (ps : List Piece) :
    markTouching space fresh run (.char c :: ps) =
      (if fresh then sideText space (!run.isEmpty) else run) ++
        c :: markTouching space false [] ps := by
  rw [markTouching, hc, if_neg Bool.false_ne_true]

/-- Behind a character that belongs to no tag, a text up to a visible character stays as it is. -/
theorem markTouching_concat {c : Char} (hc : Text.isSpace c = false) (space run a : Text)
    (ps : List Piece) :
    markTouching space false run ((a ++ [c]).map Piece.char ++ ps) =
      run ++ (a ++ [c]) ++ markTouching space false [] ps := by
  induction a generalizing run with
  | nil => simp [markTouching_visible hc]
  | cons d a ih =>
    rw [List.cons_append, List.map_cons, List.cons_append]
    cases hd : Text.isSpace d with
    | true =>
      rw [markTouching, if_pos hd, ih]
      simp
    | false =>
      rw [markTouching_visible hd, ih]
      simp

/-- Between visible characters a text stays as it is. -/
theorem markTouching_trimmed (hne : a ≠ []) (ha : Text.IsTrimmed a) (space : Text) (fresh : Bool)
    (run : Text) (ps : List Piece) :
    markTouching space fresh run (a.map Piece.char ++ ps) =
      (if fresh then sideText space (!run.isEmpty) else run) ++ a ++
        markTouching space false [] ps := by
  obtain ⟨c, rest, rfl⟩ := List.exists_cons_of_ne_nil hne
  rw [List.map_cons, List.cons_append, markTouching_visible (ha.1 c rfl)]
  rcases List.eq_nil_or_concat' rest with rfl | ⟨inner, d, rfl⟩
  · simp
  · have hd := ha.2 d (by rw [← List.cons_append, List.getLast?_concat])
    rw [markTouching_concat hd]
    simp

/-- A run with visible characters, between its blanks. -/
theorem exists_eq_between (hr : Text.isBlank r = false) :
    ∃ a b, Text.isBlank a = true ∧ Text.isBlank b = true ∧ r = a ++ Text.trim r ++ b ∧
      beginsBlank r = !a.isEmpty ∧ Text.endsBlank false r = !b.isEmpty := by
  obtain ⟨a, b, ha, hb, hrun⟩ := Text.exists_eq_trim r
  obtain ⟨hfirst, hlast⟩ := Text.isTrimmed_trim r
  have hne := trim_ne_nil hr
  refine ⟨a, b, ha, hb, hrun, ?_, ?_⟩
  · rw [hrun]
    cases a with
    | cons c a => exact (Bool.and_eq_true_iff.mp ha).1
    | nil =>
      obtain ⟨c, rest, htrim⟩ := List.exists_cons_of_ne_nil hne
      rw [htrim]
      exact hfirst c (congrArg List.head? htrim)
  · rw [hrun, Text.endsBlank]
    rcases List.eq_nil_or_concat' b with rfl | ⟨b, c, rfl⟩
    · obtain ⟨rest, c, htrim⟩ := (List.eq_nil_or_concat' _).resolve_left hne
      have hc := hlast c (by rw [htrim, List.getLast?_concat])
      rw [List.append_nil, htrim, ← List.append_assoc, List.getLast?_concat]
      exact hc
    · have hc := Text.isBlank_iff.mp hb c (by simp)
      rw [← List.append_assoc, List.getLast?_concat, Option.map_some, Option.getD_some, hc,
        List.isEmpty_eq_false_iff.mpr (List.append_ne_nil_of_right_ne_nil _ (List.cons_ne_nil _ _))]
      rfl

/-- **A run with visible characters** stays as it is between its blanks.  Those in front are marked
if a tag stands before them, those behind are collected. -/
theorem markTouching_run (hr : Text.isBlank r = false) (space : Text) (fresh : Bool)
    (ps : List Piece) :
    ∃ a b, Text.isBlank a = true ∧ Text.isBlank b = true ∧ beginsBlank r = !a.isEmpty ∧
      Text.endsBlank false r = !b.isEmpty ∧
      markTouching space fresh [] (r.map Piece.char ++ ps) =
        (if fresh then sideText space (!a.isEmpty) else a) ++ Text.trim r ++
          markTouching space false b ps := by
  obtain ⟨a, b, ha, hb, hrun, hbegins, hends⟩ := exists_eq_between hr
  refine ⟨a, b, ha, hb, hbegins, hends, ?_⟩
  conv_lhs => rw [hrun]
  rw [List.map_append, List.map_append, List.append_assoc, List.append_assoc,
    markTouching_blank ha, List.nil_append,
    markTouching_trimmed (trim_ne_nil hr) (Text.isTrimmed_trim r), markTouching_blank hb,
    List.nil_append]

/-- Behind a tag there is a blank. -/
theorem exists_markTouching_fresh (space run : Text) (ps : List Piece) :
    ∃ t, markTouching space true run ps = ' ' :: t := by
  have hside (touched : Bool) (t : Text) : ∃ u, sideText space touched ++ t = ' ' :: u := by
    cases touched <;> exact ⟨_, rfl⟩
  induction ps generalizing run with
  | nil => exact (hside (!run.isEmpty) []).imp fun u hu => (List.append_nil _).symm.trans hu
  | cons p ps ih =>
    cases p with
    | tag body =>
      rw [markTouching, if_pos rfl, List.append_assoc, List.append_assoc]
      exact hside _ _
    | char c =>
      rw [markTouching]
      split
      · exact ih _
      · rw [if_pos rfl]
        exact hside _ _

/-- The tag word is a word of its own. -/
theorem words_tagWord_append (run : Text) (ps : List Piece) :
    Text.words (tagWord ++ markTouching spaceWord true run ps) =
      tagWord :: Text.words (markTouching spaceWord true run ps) := by
  obtain ⟨hne, hvisible⟩ := visible_tagWord
  obtain ⟨t, ht⟩ := exists_markTouching_fresh spaceWord run ps
  refine Text.words_append_of_visible hne hvisible fun c hc => ?_
  rw [ht] at hc
  obtain rfl := Option.some.inj hc
  rfl

/-- The words of a run with visible characters and of what follows it, behind a tag or not. -/
theorem words_front (fresh : Bool) {a : Text} (ha : Text.isBlank a = true) (r t : Text) :
    Text.words ((if fresh then sideText spaceWord (!a.isEmpty) else a) ++ r ++ t) =
      sideWords (fresh && !a.isEmpty) ++ Text.words (r ++ t) := by
  rw [List.append_assoc]
  cases fresh with
  | true => exact words_sideText _ _
  | false => exact Text.words_blank_append ha _

/-- The tokens of the last run. -/
theorem words_markTouching_last (fresh : Bool) (r : Text) :
    Text.words (markTouching spaceWord fresh [] (r.map Piece.char)) = runTokens fresh false r := by
  have hnil (run : Text) : markTouching spaceWord fresh run [] =
      if fresh then sideText spaceWord (!run.isEmpty) else run := rfl
  rw [← List.append_nil (r.map Piece.char), runTokens]
  cases hr : Text.isBlank r with
  | true =>
    rw [markTouching_blank hr, List.nil_append, hnil, if_pos rfl, Bool.or_false]
    have hwords := words_front fresh hr [] []
    rw [List.append_nil, List.append_nil] at hwords
    exact hwords.trans (List.append_nil _)
  | false =>
    obtain ⟨a, b, ha, hb, hbegins, hends, hmarked⟩ := markTouching_run hr spaceWord fresh []
    have hcollected : markTouching spaceWord false b [] = b := rfl
    rw [hmarked, hcollected, words_front fresh ha, Text.words_append_blank hb, Text.words_trim,
      hbegins, Bool.false_and, if_neg Bool.false_ne_true, sideWords_false, List.append_nil]

/-- The tokens of a run in front of a tag. -/
theorem words_markTouching_tag (fresh : Bool) (r body : Text) (ps : List Piece) :
    Text.words (markTouching spaceWord fresh [] (r.map Piece.char ++ .tag body :: ps)) =
      runTokens fresh true r ++ tagWord :: Text.words (markTouching spaceWord true [] ps) := by
  rw [runTokens]
  cases hr : Text.isBlank r with
  | true =>
    rw [markTouching_blank hr, List.nil_append, markTouching, if_pos rfl, Bool.or_true,
      Bool.true_and, List.append_assoc]
    -- Behind a tag another space follows, to which the words do not pay attention.
    cases fresh with
    | true =>
      rw [if_pos rfl, List.append_assoc, words_sideText, List.singleton_append,
        Text.words_cons_of_isSpace rfl, words_tagWord_append]
    | false => rw [if_neg Bool.false_ne_true, words_sideText, words_tagWord_append]
  | false =>
    obtain ⟨a, b, ha, hb, hbegins, hends, hmarked⟩ := markTouching_run hr spaceWord fresh
      (.tag body :: ps)
    have hcollected : markTouching spaceWord false b (.tag body :: ps) =
        sideText spaceWord (!b.isEmpty) ++ (tagWord ++ markTouching spaceWord true [] ps) := by
      simp [markTouching]
    rw [hmarked, hcollected, words_front fresh ha, words_sideText_append, Text.words_trim, hbegins,
      hends, words_tagWord_append]
    simp

end Marking

/-! ## The tokens of a text -/

theorem tokensOf_cons_of_ne_nil (hrs : rs ≠ []) (behind before : Bool) (r : Text) :
    tokensOf behind before (r :: rs) =
      runTokens behind true r ++ tagWord :: tokensOf true before rs := by
  obtain ⟨r', rs, rfl⟩ := List.exists_cons_of_ne_nil hrs
  rw [tokensOf]

theorem intercalate_words_cons (hrs : rs ≠ []) (r : Text) :
    [tagWord].intercalate ((r :: rs).map Text.words) =
      Text.words r ++ tagWord :: [tagWord].intercalate (rs.map Text.words) := by
  obtain ⟨r', rs, rfl⟩ := List.exists_cons_of_ne_nil hrs
  rw [List.map_cons, List.map_cons, List.intercalate_cons_cons, List.append_assoc]
  rfl

theorem words_markTouching (fresh : Bool) (ps : List Piece) :
    Text.words (markTouching spaceWord fresh [] ps) = tokensOf fresh false (runs ps) := by
  induction ps using induction_runs generalizing fresh with
  | last r => rw [words_markTouching_last, runs_map_char, tokensOf]
  | tag r body ps ih =>
    rw [words_markTouching_tag, ih, runs_append_tag, runs_map_char, List.singleton_append,
      tokensOf_cons_of_ne_nil (runs_ne_nil ps)]

theorem words_flatMap_tagWord (ps : List Piece) :
    Text.words (ps.flatMap fun
      | .char c => [c]
      | .tag _ => ' ' :: (tagWord ++ [' '])) =
        [tagWord].intercalate ((runs ps).map Text.words) := by
  obtain ⟨hne, hvisible⟩ := visible_tagWord
  have hchars (r : Text) : (r.map Piece.char).flatMap (fun
      | .char c => [c]
      | .tag _ => ' ' :: (tagWord ++ [' '])) = r := by
    rw [List.flatMap_map]
    exact List.flatMap_singleton' r
  induction ps using induction_runs with
  | last r => rw [hchars, runs_map_char, List.map_singleton, List.intercalate_singleton]
  | tag r body ps ih =>
    rw [List.flatMap_append, hchars, List.flatMap_cons, List.cons_append, List.append_assoc,
      List.singleton_append, Text.words_append_cons rfl, Text.words_append_cons rfl,
      Text.words_of_visible hne hvisible, ih, runs_append_tag, runs_map_char]
    exact (intercalate_words_cons (runs_ne_nil ps) r).symm

/-- **The tokens of a text without marked blanks**: the words of its runs with a tag word between
every two runs. -/
theorem words_replaceByWords_none (t : Text) :
    Text.words (replaceByWords none t) =
      [tagWord].intercalate ((runs (pieces t)).map Text.words) := by
  unfold replaceByWords
  split
  · rw [Text.words_collapse]
    exact words_flatMap_tagWord (pieces t)
  · rename_i htags
    rw [runs_pieces_of_no_tags (Bool.eq_false_iff.mpr htags), List.map_singleton,
      List.intercalate_singleton]

/-- **The tokens of a text with marked blanks.** -/
theorem words_replaceByWords_space (t : Text) :
    Text.words (replaceByWords (some spaceWord) t) = tokensOf false false (runs (pieces t)) := by
  unfold replaceByWords
  split
  · rw [Text.words_collapse]
    exact words_markTouching false (pieces t)
  · rename_i htags
    rw [runs_pieces_of_no_tags (Bool.eq_false_iff.mpr htags), tokensOf, runTokens, Bool.or_false,
      Bool.false_and, Bool.false_and, Bool.false_and, sideWords_false, List.nil_append,
      List.append_nil]
    split
    · rename_i hblank
      exact Text.words_of_isBlank hblank
    · rfl

/-! ## Marked blanks -/

/-- Neither the word for tags nor the word for blanks is among the words between the tags. -/
def LacksWords (t : Text) : Prop :=
  ∀ r ∈ runs (pieces t), tagWord ∉ Text.words r ∧ spaceWord ∉ Text.words r

instance (t : Text) : Decidable (LacksWords t) :=
  inferInstanceAs (Decidable (∀ r ∈ runs (pieces t), _))

theorem filter_sideWords (touched : Bool) : (sideWords touched).filter (· ≠ spaceWord) = [] := by
  cases touched <;> decide

/-- The words of a run are its tokens without the marks. -/
theorem filter_runTokens (hr : spaceWord ∉ Text.words r) (behind before : Bool) :
    (runTokens behind before r).filter (· ≠ spaceWord) = Text.words r := by
  unfold runTokens
  split
  · rename_i hblank
    rw [filter_sideWords, Text.words_of_isBlank hblank]
  · have hwords : (Text.words r).filter (· ≠ spaceWord) = Text.words r :=
      List.filter_eq_self.mpr fun w hw => decide_eq_true fun heq => hr (heq ▸ hw)
    rw [List.filter_append, List.filter_append, filter_sideWords, filter_sideWords, hwords,
      List.nil_append, List.append_nil]

theorem filter_tokensOf (hrs : ∀ r ∈ rs, spaceWord ∉ Text.words r) (behind before : Bool) :
    (tokensOf behind before rs).filter (· ≠ spaceWord) =
      [tagWord].intercalate (rs.map Text.words) := by
  induction rs generalizing behind with
  | nil => rfl
  | cons r rs ih =>
    obtain ⟨hr, hrest⟩ := List.forall_mem_cons.mp hrs
    cases rs with
    | nil =>
      rw [tokensOf, filter_runTokens hr, List.map_singleton, List.intercalate_singleton]
    | cons r' rs =>
      rw [tokensOf, List.filter_append, filter_runTokens hr, List.filter_cons_of_pos (by decide),
        ih hrest, intercalate_words_cons (List.cons_ne_nil r' rs)]

/-- There is one tag word for each place between two runs. -/
theorem count_intercalate (hrs : ∀ r ∈ rs, tagWord ∉ Text.words r) :
    ([tagWord].intercalate (rs.map Text.words)).count tagWord = rs.length - 1 := by
  induction rs with
  | nil => rfl
  | cons r rs ih =>
    obtain ⟨hr, hrest⟩ := List.forall_mem_cons.mp hrs
    cases rs with
    | nil =>
      rw [List.map_singleton, List.intercalate_singleton, List.count_eq_zero_of_not_mem hr]
      rfl
    | cons r' rs =>
      rw [intercalate_words_cons (List.cons_ne_nil r' rs), List.count_append, List.count_cons_self,
        ih hrest, List.count_eq_zero_of_not_mem hr]
      simp only [List.length_cons]
      omega

theorem count_filter_spaceWord (ws : List Text) :
    (ws.filter (· ≠ spaceWord)).count tagWord = ws.count tagWord :=
  List.count_filter (decide_eq_true spaceWord_ne_tagWord.symm)

/-- Behind a run that a tag follows there is a mark exactly if the run ends with a blank. -/
theorem getLast?_runTokens (hr : spaceWord ∉ Text.words r) (behind : Bool) :
    (runTokens behind true r).getLast? = some spaceWord ↔ Text.endsBlank false r = true := by
  unfold runTokens
  cases hblank : Text.isBlank r with
  | true =>
    rw [if_pos rfl, Bool.or_true, Bool.true_and, Text.endsBlank]
    rcases List.eq_nil_or_concat' r with rfl | ⟨a, c, rfl⟩
    · simp
    · have hc := Text.isBlank_iff.mp hblank c (by simp)
      rw [List.getLast?_concat, List.isEmpty_eq_false_iff.mpr (by simp)]
      exact iff_of_true rfl hc
  | false =>
    rw [if_neg Bool.false_ne_true, Bool.true_and]
    cases hends : Text.endsBlank false r with
    | true => exact iff_of_true List.getLast?_concat rfl
    | false =>
      -- The last token is a word of the run.
      rw [sideWords_false, List.append_nil,
        List.getLast?_append_of_ne_nil _ (Text.words_ne_nil hblank)]
      exact iff_of_false (fun h => hr (List.mem_of_getLast? h)) Bool.false_ne_true

/-- In front of a run that follows a tag there is a mark exactly if the run begins with a blank. -/
theorem head?_runTokens (hr : spaceWord ∉ Text.words r) (before : Bool) :
    (runTokens true before r).head? = some spaceWord ↔ beginsBlank r = true := by
  unfold runTokens
  cases hblank : Text.isBlank r with
  | true =>
    rw [if_pos rfl, Bool.true_or, Bool.true_and, beginsBlank]
    cases r with
    | nil => simp
    | cons c r => exact iff_of_true rfl (Bool.and_eq_true_iff.mp hblank).1
  | false =>
    rw [if_neg Bool.false_ne_true, Bool.true_and, List.append_assoc]
    cases hbegins : beginsBlank r with
    | true => exact iff_of_true rfl rfl
    | false =>
      obtain ⟨w, ws, hwords⟩ := List.exists_cons_of_ne_nil (Text.words_ne_nil hblank)
      rw [hwords] at hr ⊢
      rw [sideWords_false, List.nil_append, List.cons_append, List.head?_cons, Option.some.injEq]
      exact iff_of_false (fun h => hr (h ▸ List.mem_cons_self)) Bool.false_ne_true

theorem tokensOf_append (hps : rs ≠ []) {rs' : List Text} (hrs' : rs' ≠ []) (behind before : Bool) :
    tokensOf behind before (rs ++ rs') =
      tokensOf behind true rs ++ tagWord :: tokensOf true before rs' := by
  induction rs generalizing behind with
  | nil => exact absurd rfl hps
  | cons r rs ih =>
    cases rs with
    | nil => rw [List.singleton_append, tokensOf_cons_of_ne_nil hrs', tokensOf]
    | cons r' rs =>
      rw [List.cons_append, tokensOf_cons_of_ne_nil (by simp), ih (List.cons_ne_nil r' rs),
        tokensOf, List.append_assoc, List.cons_append]

/-- The piece at the end of pieces is a blank exactly if their last run ends with one. -/
theorem exists_runs_concat (ps : List Piece) : ∃ before r, runs ps = before ++ [r] ∧
    (Text.endsBlank false r = true ↔ ∃ p, ps.getLast? = some p ∧ p.isSpace = true) := by
  induction ps using induction_runs with
  | last r =>
    refine ⟨[], r, runs_map_char r, ?_⟩
    rw [List.getLast?_map, Text.endsBlank]
    cases r.getLast? with
    | none => simp
    | some c => simp [Piece.isSpace]
  | tag r body ps ih =>
    obtain ⟨before, last, hruns, hlast⟩ := ih
    refine ⟨r :: before, last, by rw [runs_append_tag, runs_map_char, hruns]; rfl, ?_⟩
    rw [hlast, List.getLast?_append_of_ne_nil _ (List.cons_ne_nil _ _)]
    cases ps with
    | nil => simp [Piece.isSpace]
    | cons p ps => rw [List.getLast?_cons_cons]

theorem exists_runs_cons (ps : List Piece) : ∃ r others, runs ps = r :: others ∧
    (beginsBlank r = true ↔ ∃ p, ps.head? = some p ∧ p.isSpace = true) := by
  cases ps with
  | nil => exact ⟨[], [], rfl, by simp [beginsBlank]⟩
  | cons p ps =>
    obtain ⟨first, others, hruns⟩ := exists_runs_eq_cons ps
    cases p with
    | tag body => exact ⟨[], runs ps, rfl, by simp [beginsBlank, Piece.isSpace]⟩
    | char c =>
      refine ⟨c :: first, others, by rw [runs, hruns, List.modifyHead_cons], ?_⟩
      simp [beginsBlank, Piece.isSpace]

/-- A list is cut in one way only at an occurrence with a given number of others before it. -/
theorem eq_of_append_cons_eq {α : Type} [BEq α] [LawfulBEq α] {x : α} {a b c d : List α}
    (h : a ++ x :: b = c ++ x :: d) (hcount : a.count x = c.count x) : a = c ∧ b = d := by
  induction a generalizing c with
  | nil =>
    cases c with
    | nil => exact ⟨rfl, (List.cons.inj h).2⟩
    | cons y c =>
      obtain ⟨rfl, -⟩ := List.cons.inj h
      rw [List.count_nil, List.count_cons_self] at hcount
      cases hcount
  | cons y a ih =>
    cases c with
    | nil =>
      obtain ⟨rfl, -⟩ := List.cons.inj h
      rw [List.count_nil, List.count_cons_self] at hcount
      cases hcount
    | cons z c =>
      obtain ⟨rfl, hrest⟩ := List.cons.inj h
      rw [List.count_cons, List.count_cons] at hcount
      obtain ⟨rfl, rfl⟩ := ih hrest (Nat.add_right_cancel hcount)
      exact ⟨rfl, rfl⟩

theorem getLast?_tokensOf (hr : spaceWord ∉ Text.words r) (behind : Bool) (rs : List Text) :
    (tokensOf behind true (rs ++ [r])).getLast? = some spaceWord ↔
      Text.endsBlank false r = true := by
  rw [← getLast?_runTokens hr true]
  cases rs with
  | nil => rw [getLast?_runTokens hr true]; exact getLast?_runTokens hr behind
  | cons r' rs =>
    rw [tokensOf_append (List.cons_ne_nil r' rs) (List.cons_ne_nil r []), tokensOf,
      List.getLast?_append_of_ne_nil _ (List.cons_ne_nil _ _)]
    -- Without a token for the run the last one is the word for the tag before it.
    cases runTokens true true r with
    | nil => exact iff_of_false (by decide) (by simp)
    | cons w ws => rw [List.getLast?_cons_cons]

theorem head?_tokensOf (hr : spaceWord ∉ Text.words r) (before : Bool) (rs : List Text) :
    (tokensOf true before (r :: rs)).head? = some spaceWord ↔ beginsBlank r = true := by
  cases rs with
  | nil => exact head?_runTokens hr before
  | cons r' rs =>
    rw [← head?_runTokens hr true, tokensOf]
    cases runTokens true true r with
    | nil =>
      exact iff_of_false (fun h => spaceWord_ne_tagWord (Option.some.inj h).symm) (by simp)
    | cons w ws => exact Iff.rfl

/-- **A marked blank stands where a blank touches a tag.**  Of a tag and of the tag word with as
many others in front of it, the blanks on either side are the same. -/
theorem touches_of_split (h : LacksWords t) {ps qs : List Piece} {body : Text}
    (hpieces : pieces t = ps ++ .tag body :: qs) {before after : List Text}
    (htokens : Text.words (replaceByWords (some spaceWord) t) = before ++ tagWord :: after)
    (hcount : before.count tagWord = (ps.filterMap Piece.body?).length) :
    (before.getLast? = some spaceWord ↔ ∃ p, ps.getLast? = some p ∧ p.isSpace = true) ∧
      (after.head? = some spaceWord ↔ ∃ p, qs.head? = some p ∧ p.isSpace = true) := by
  have hruns : runs (pieces t) = runs ps ++ runs qs := by rw [hpieces, runs_append_tag]
  rw [LacksWords, hruns] at h
  have hfirst := fun r hr => h r (List.mem_append_left _ hr)
  have hsecond := fun r hr => h r (List.mem_append_right _ hr)
  rw [words_replaceByWords_space, hruns, tokensOf_append (runs_ne_nil ps) (runs_ne_nil qs)]
    at htokens
  -- There are as many tag words in front of this one as there are tags in front of the tag.
  have hbefore : (tokensOf false true (runs ps)).count tagWord =
      (ps.filterMap Piece.body?).length := by
    rw [← count_filter_spaceWord, filter_tokensOf fun r hr => (hfirst r hr).2,
      count_intercalate fun r hr => (hfirst r hr).1, length_runs, Nat.add_sub_cancel]
  obtain ⟨rfl, rfl⟩ := eq_of_append_cons_eq htokens (hbefore.trans hcount.symm)
  constructor
  · obtain ⟨others, r, hps, hlast⟩ := exists_runs_concat ps
    rw [← hlast, hps]
    exact getLast?_tokensOf (hfirst r (by rw [hps]; simp)).2 false others
  · obtain ⟨r, others, hqs, hhead⟩ := exists_runs_cons qs
    rw [← hhead, hqs]
    exact head?_tokensOf (hsecond r (by rw [hqs]; simp)).2 false others

/-! ## Tags put back -/

/-- The labels of the tokens that are no tag words. -/
def labelsOf (tokens : List LabelledToken) : List Text :=
  (tokens.filter (·.token ≠ tagWord)).filterMap (·.label?)

/-- How many of the tokens are tag words. -/
def tagCount (tokens : List LabelledToken) : Nat := (tokens.map (·.token)).count tagWord

section Restoring

variable {x : LabelledToken} {tokens : List LabelledToken} {supplied used : Nat} {left : List Text}

theorem labelsOf_tagWord (hx : x.token = tagWord) (tokens : List LabelledToken) :
    labelsOf (x :: tokens) = labelsOf tokens := by
  rw [labelsOf, List.filter_cons_of_neg (by simp [hx]), labelsOf]

theorem labelsOf_other (hx : x.token ≠ tagWord) (tokens : List LabelledToken) :
    labelsOf (x :: tokens) = x.label?.toList ++ labelsOf tokens := by
  rw [labelsOf, List.filter_cons_of_pos (by simp [hx]), List.filterMap_cons, labelsOf]
  cases x.label? <;> rfl

theorem tagCount_tagWord (hx : x.token = tagWord) (tokens : List LabelledToken) :
    tagCount (x :: tokens) = tagCount tokens + 1 := by
  rw [tagCount, List.map_cons, hx, List.count_cons_self, tagCount]

theorem tagCount_other (hx : x.token ≠ tagWord) (tokens : List LabelledToken) :
    tagCount (x :: tokens) = tagCount tokens := by
  rw [tagCount, List.map_cons, List.count_cons_of_ne hx, tagCount]

theorem restoreFrom_tagWord (hx : x.token = tagWord) (tag : Text) :
    restoreFrom supplied used (tag :: left) (x :: tokens) =
      (restoreFrom supplied (used + 1) left tokens).map fun done =>
        { done with withTags := tag :: done.withTags } := by
  obtain ⟨token, label?⟩ := x
  obtain rfl : token = tagWord := hx
  rw [restoreFrom, if_pos (beq_self_eq_true tagWord)]
  cases restoreFrom supplied (used + 1) left tokens <;> rfl

theorem restoreFrom_none (hx : x.token = tagWord) :
    restoreFrom supplied used [] (x :: tokens) = .error (.tagsExhausted (used + 1) supplied) := by
  obtain ⟨token, label?⟩ := x
  obtain rfl : token = tagWord := hx
  rw [restoreFrom, if_pos (beq_self_eq_true tagWord)]

theorem restoreFrom_other (hx : x.token ≠ tagWord) :
    restoreFrom supplied used left (x :: tokens) =
      (restoreFrom supplied used left tokens).map fun done =>
        ⟨x.label?.toList ++ done.withTags, x.label?.toList ++ done.labelsOnly⟩ := by
  obtain ⟨token, label?⟩ := x
  rw [restoreFrom.eq_def]
  simp only [beq_eq_false_iff_ne.mpr hx, Bool.false_eq_true, if_false]
  cases restoreFrom supplied used left tokens <;> rfl

/-- The tags stand among the labels where their words stood. -/
structure IsRestored (tokens : List LabelledToken) (gs : List Text) (out : LabelSequence) :
    Prop where
  /-- All tags are there, in order. -/
  tags : gs.Sublist out.withTags
  labels : out.labelsOnly = labelsOf tokens
  /-- In front of a tag are the labels and the tags that belong to the tokens before its word. -/
  places : ∀ before x after, tokens = before ++ x :: after → x.token = tagWord →
    out.withTags[(labelsOf before).length + tagCount before]? = gs[tagCount before]?

theorem IsRestored.tagWord {out : LabelSequence} (h : IsRestored tokens gs out)
    (hx : x.token = tagWord) (tag : Text) :
    IsRestored (x :: tokens) (tag :: gs) { out with withTags := tag :: out.withTags } where
  tags := h.tags.cons_cons tag
  labels := h.labels.trans (labelsOf_tagWord hx tokens).symm
  places := by
    intro before y after heq hy
    cases before with
    | nil => rfl
    | cons z before =>
      obtain ⟨rfl, htokens⟩ := List.cons.inj heq
      rw [labelsOf_tagWord hx, tagCount_tagWord hx, ← Nat.add_assoc, List.getElem?_cons_succ,
        List.getElem?_cons_succ]
      exact h.places before y after htokens hy

theorem IsRestored.other {out : LabelSequence} (h : IsRestored tokens gs out)
    (hx : x.token ≠ Markup.tagWord) :
    IsRestored (x :: tokens) gs
      ⟨x.label?.toList ++ out.withTags, x.label?.toList ++ out.labelsOnly⟩ where
  tags := List.sublist_append_of_sublist_right h.tags
  labels := by rw [h.labels, labelsOf_other hx]
  places := by
    intro before y after heq hy
    cases before with
    | nil =>
      obtain ⟨rfl, -⟩ := List.cons.inj heq
      exact absurd hy hx
    | cons z before =>
      obtain ⟨rfl, htokens⟩ := List.cons.inj heq
      rw [labelsOf_other hx, tagCount_other hx, List.length_append, Nat.add_assoc,
        List.getElem?_append_right (Nat.le_add_right _ _), Nat.add_sub_cancel_left]
      exact h.places before y after htokens hy

/-- **As many tags as tag words are put back**, each in its place. -/
theorem exists_restoreFrom (h : tagCount tokens = left.length) :
    ∃ out, restoreFrom supplied used left tokens = .ok out ∧ IsRestored tokens left out := by
  induction tokens generalizing used left with
  | nil =>
    obtain rfl := List.eq_nil_of_length_eq_zero h.symm
    refine ⟨⟨[], []⟩, by rw [restoreFrom], List.nil_sublist _, rfl, ?_⟩
    intro before x after heq
    cases before <;> cases heq
  | cons x tokens ih =>
    by_cases hx : x.token = tagWord
    · rw [tagCount_tagWord hx] at h
      obtain ⟨tag, left, rfl⟩ := List.exists_cons_of_length_eq_add_one h.symm
      obtain ⟨out, hout, hrestored⟩ := @ih (used + 1) left (Nat.succ.inj h)
      refine ⟨_, ?_, hrestored.tagWord hx tag⟩
      rw [restoreFrom_tagWord hx, hout]
      rfl
    · rw [tagCount_other hx] at h
      obtain ⟨out, hout, hrestored⟩ := @ih used left h
      refine ⟨_, ?_, hrestored.other hx⟩
      rw [restoreFrom_other hx, hout]
      rfl

/-- With too few tags the first word without one is reported. -/
theorem restoreFrom_of_few (h : left.length < tagCount tokens) :
    restoreFrom supplied used left tokens =
      .error (.tagsExhausted (used + left.length + 1) supplied) := by
  induction tokens generalizing used left with
  | nil => cases h
  | cons x tokens ih =>
    by_cases hx : x.token = tagWord
    · rw [tagCount_tagWord hx] at h
      cases left with
      | nil => exact restoreFrom_none hx
      | cons tag left =>
        rw [restoreFrom_tagWord hx, ih (Nat.lt_of_succ_lt_succ h), List.length_cons,
          Nat.add_assoc used, Nat.add_comm 1]
        rfl
    · rw [tagCount_other hx] at h
      rw [restoreFrom_other hx, ih h]
      rfl

theorem restoreTags_of_few (h : gs.length < tagCount tokens) :
    restoreTags tokens gs = .error (.tagsExhausted (gs.length + 1) gs.length) := by
  rw [restoreTags, restoreFrom_of_few h, Nat.zero_add]

end Restoring

/-! ## Tags and tag words -/

theorem count_words_replaceByWords (h : LacksWords t) {space? : Option Text}
    (hspace : space? ∈ [none, some spaceWord]) :
    (Text.words (replaceByWords space? t)).count tagWord = (tags t).length := by
  have hcount : ([tagWord].intercalate ((runs (pieces t)).map Text.words)).count tagWord =
      (tags t).length := by
    rw [count_intercalate fun r hr => (h r hr).1, length_runs, Nat.add_sub_cancel, tags,
      List.length_map, tagBodies_eq]
  rcases List.mem_pair.mp hspace with rfl | rfl
  · rw [words_replaceByWords_none, hcount]
  · rw [words_replaceByWords_space, ← count_filter_spaceWord,
      filter_tokensOf fun r hr => (h r hr).2, hcount]

/-- **Tags and tag words correspond one to one.**  Let neither of the two words be among the words
between the tags of a text.  Then its tokens are the words of its runs, in order, with a tag word
for each tag; marks for blanks may stand among them, directly in front of a tag word or behind it
where a blank touches the tag.  However the tokens are labelled, the tags can be put back among the
labels, each in its place.  With fewer tags than tag words that always fails, at the first word for
which none is left. -/
theorem tagWords_match_tags (h : LacksWords t) :
    Text.words (replaceByWords none t) =
        [tagWord].intercalate ((runs (pieces t)).map Text.words) ∧
      (Text.words (replaceByWords (some spaceWord) t)).filter (· ≠ spaceWord) =
        [tagWord].intercalate ((runs (pieces t)).map Text.words) ∧
      (∀ ps body qs before after, pieces t = ps ++ .tag body :: qs →
        Text.words (replaceByWords (some spaceWord) t) = before ++ tagWord :: after →
        before.count tagWord = (ps.filterMap Piece.body?).length →
        (before.getLast? = some spaceWord ↔ ∃ p, ps.getLast? = some p ∧ p.isSpace = true) ∧
          (after.head? = some spaceWord ↔ ∃ p, qs.head? = some p ∧ p.isSpace = true)) ∧
      (∀ space? ∈ [none, some spaceWord],
        (Text.words (replaceByWords space? t)).count tagWord = (tags t).length ∧
          ∀ tokens : List LabelledToken,
            tokens.map (·.token) = Text.words (replaceByWords space? t) →
            ∃ out, restoreTags tokens (tags t) = .ok out ∧ IsRestored tokens (tags t) out) ∧
      ∀ (tokens : List LabelledToken) (gs : List Text), gs.length < tagCount tokens →
        restoreTags tokens gs = .error (.tagsExhausted (gs.length + 1) gs.length) := by
  refine ⟨words_replaceByWords_none t, ?_, ?_, ?_, fun tokens gs => restoreTags_of_few⟩
  · rw [words_replaceByWords_space, filter_tokensOf fun r hr => (h r hr).2]
  · intro ps body qs before after hpieces htokens hcount
    exact touches_of_split h hpieces htokens hcount
  · intro space? hspace
    have hcount := count_words_replaceByWords h hspace
    refine ⟨hcount, fun tokens htokens => exists_restoreFrom ?_⟩
    rw [tagCount, htokens, hcount]

/-- Tags that touch each other, tags with one blank between them, and brackets that belong to no
tag. -/
def touchingTags : Text := "So <b>\t<i>x</i></b> <br/>> <".toList

/-- The tokens of that text with some labels, one of them on a tag word. -/
def touchingTokens : List LabelledToken := [
  ⟨"So".toList, some "RB".toList⟩, ⟨spaceWord, none⟩, ⟨tagWord, none⟩,
  ⟨spaceWord, some "SP".toList⟩, ⟨tagWord, some "XX".toList⟩, ⟨"x".toList, some "NN".toList⟩,
  ⟨tagWord, none⟩, ⟨tagWord, none⟩, ⟨spaceWord, none⟩, ⟨tagWord, none⟩, ⟨">".toList, none⟩,
  ⟨"<".toList, some "SYM".toList⟩]

theorem tagWords_match_touchingTags :
    LacksWords touchingTags ∧
      touchingTokens.map (·.token) = Text.words (replaceByWords (some spaceWord) touchingTags) ∧
      (∃ out, restoreTags touchingTokens (tags touchingTags) = .ok out ∧
        IsRestored touchingTokens (tags touchingTags) out) ∧
      restoreTags touchingTokens ["<b>".toList] = .error (.tagsExhausted 2 1) := by
  have hlacks : LacksWords touchingTags := by decide +kernel
  have htokens : touchingTokens.map (·.token) =
      Text.words (replaceByWords (some spaceWord) touchingTags) := by decide +kernel
  obtain ⟨-, -, -, hrestored, hfails⟩ := tagWords_match_tags hlacks
  have hmember : some spaceWord ∈ [none, some spaceWord] := by simp
  exact ⟨hlacks, htokens, (hrestored _ hmember).2 _ htokens, hfails _ _ (by decide)⟩

end Bitext.Markup
