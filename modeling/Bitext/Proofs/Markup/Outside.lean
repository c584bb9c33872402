import Bitext.Markup.Piece
import Bitext.Proofs.Markup.Tags

/-!
# The characters outside tags

A text says the same as another one if the same visible characters stand outside its tags.  Whoever
changes the pieces of a text has to make sure that the result is cut into the new pieces again: a
bracket outside tags must not find a closing one.  That depends on the characters up to the next tag
only, so tags may be replaced by other tags, and blanks may be dropped.

## Main definitions

* `outside`: the characters of a text outside its tags.
* `IsCut`: pieces that are those of the text they make.

## Main results

* `IsCut.of_map_char?`: tags replaced by other tags
* `pieces_append_tag`: a tag inside a text
* `visible_outside_collapse`, `visible_outside_tighten`: blanks dropped
* `visible_strip`: tags taken out
-/

namespace Bitext.Text

variable {c : Char} {t u : Text}

@[simp] theorem visible_nil : visible [] = [] := rfl

@[simp] theorem visible_append (t u : Text) : visible (t ++ u) = visible t ++ visible u :=
  List.filter_append ..

theorem visible_flatten (ts : List Text) : visible ts.flatten = ts.flatMap visible := by
  induction ts with
  | nil => rfl
  | cons t ts ih => rw [List.flatten_cons, visible_append, ih, List.flatMap_cons]

theorem visible_cons_of_isSpace (h : isSpace c = true) (t : Text) :
    visible (c :: t) = visible t :=
  List.filter_cons_of_neg (by simp [h])

theorem visible_cons_of_not_isSpace (h : isSpace c = false) (t : Text) :
    visible (c :: t) = c :: visible t :=
  List.filter_cons_of_pos (by simp [h])

theorem visible_eq_nil_iff : visible t = [] ↔ isBlank t := by
  simp [visible, isBlank_iff]

theorem visible_squeeze (behind : Bool) (t : Text) : visible (squeeze behind t) = visible t := by
  induction t generalizing behind with
  | nil => rfl
  | cons c t ih =>
    cases hc : isSpace c with
    | false =>
      rw [squeeze_cons_of_not_isSpace hc, visible_cons_of_not_isSpace hc,
        visible_cons_of_not_isSpace hc, ih]
    | true =>
      rw [visible_cons_of_isSpace hc]
      cases behind with
      | false => rw [squeeze_false_cons_of_isSpace hc, visible_cons_of_isSpace rfl, ih]
      | true => rw [squeeze_true_cons_of_isSpace hc, ih]

/-- Collapsing drops blanks only. -/
theorem visible_collapse (t : Text) : visible (collapse t) = visible t := by
  obtain ⟨b, hb, hsqueeze⟩ := exists_squeeze_eq t
  rw [← visible_squeeze true t, hsqueeze, visible_append, visible_eq_nil_iff.mpr hb,
    List.append_nil]

/-- Trimming drops blanks only. -/
theorem visible_trim (t : Text) : visible (trim t) = visible t := by
  obtain ⟨a, b, ha, hb, ht⟩ := exists_eq_trim t
  conv_rhs => rw [ht]
  rw [visible_append, visible_append, visible_eq_nil_iff.mpr ha, visible_eq_nil_iff.mpr hb,
    List.append_nil, List.nil_append]

end Bitext.Text

namespace Bitext.Markup

variable {a b t u g body : Text} {c : Char} {ps qs after : List Piece}

/-- The character that a piece is, unless it is a tag. -/
def Piece.char? : Piece → Option Char
  | .char c => some c
  | .tag _ => none

/-- The characters of a text outside its tags. -/
def outside (t : Text) : Text := (pieces t).filterMap Piece.char?

@[simp] theorem filterMap_char?_map_char (t : Text) :
    (t.map Piece.char).filterMap Piece.char? = t := by
  rw [List.filterMap_map]
  exact List.filterMap_some

theorem filterMap_char?_tag (body : Text) (ps : List Piece) :
    (Piece.tag body :: ps).filterMap Piece.char? = ps.filterMap Piece.char? := rfl

theorem filterMap_char?_congr (h : ps.map Piece.char? = qs.map Piece.char?) :
    ps.filterMap Piece.char? = qs.filterMap Piece.char? := by
  have hchars := congrArg (List.filterMap id) h
  rwa [List.filterMap_map, List.filterMap_map] at hchars

theorem mem_outside : c ∈ outside t ↔ .char c ∈ pieces t := by
  rw [outside, List.mem_filterMap]
  constructor
  · rintro ⟨p, hp, hc⟩
    cases p with
    | char d =>
      cases hc
      exact hp
    | tag body => cases hc
  · exact fun h => ⟨_, h, rfl⟩

/-! ## Pieces that are cut again -/

/-- Pieces that are those of the text they make. -/
def IsCut (ps : List Piece) : Prop := pieces (unparse ps) = ps

/-- No tag closes behind an opening bracket in front of the pieces. -/
def LeavesOpen (ps : List Piece) : Prop :=
  ∀ body after, closeTag ps = some (body, after) → body = []

theorem isCut_nil : IsCut [] := rfl

theorem isCut_pieces (t : Text) : IsCut (pieces t) := congrArg pieces (unparse_pieces t)

theorem IsCut.outside_unparse (h : IsCut ps) : outside (unparse ps) = ps.filterMap Piece.char? :=
  congrArg (List.filterMap Piece.char?) h

theorem isCut_tag_iff : IsCut (.tag body :: ps) ↔ IsTagBody body ∧ IsCut ps := by
  constructor
  · intro h
    have hbody : IsTagBody body := isTagBody_of_mem_pieces (h ▸ List.mem_cons_self)
    rw [IsCut, unparse_cons, Piece.text, pieces_tagText_append hbody] at h
    exact ⟨hbody, (List.cons.inj h).2⟩
  · rintro ⟨hbody, hps⟩
    rw [IsCut, unparse_cons, Piece.text, pieces_tagText_append hbody, hps]

theorem pieces_open_append (h : LeavesOpen (pieces t)) :
    pieces ('<' :: t) = .char '<' :: pieces t := by
  simp only [pieces, beq_self_eq_true, if_true]
  split
  · rename_i hfound
    cases h _ _ hfound
  · rfl

/-- An opening bracket is a character of its own if it finds no closing one. -/
theorem isCut_char_iff : IsCut (.char c :: ps) ↔ IsCut ps ∧ (c = '<' → LeavesOpen ps) := by
  by_cases hc : c = '<'
  · subst hc
    constructor
    · intro h
      rw [IsCut, unparse_cons, Piece.text, List.singleton_append, pieces] at h
      simp only [beq_self_eq_true, if_true] at h
      split at h
      · cases h
      · rename_i hnone
        have hps : pieces (unparse ps) = ps := (List.cons.inj h).2
        rw [hps] at hnone
        refine ⟨hps, fun _ body after hfound => ?_⟩
        cases body with
        | nil => rfl
        | cons d body => exact absurd hfound (hnone d body after)
    · rintro ⟨hps, hopen⟩
      have hopen' : LeavesOpen (pieces (unparse ps)) := hps.symm ▸ hopen rfl
      rw [IsCut, unparse_cons, Piece.text, List.singleton_append, pieces_open_append hopen', hps]
  · rw [IsCut, unparse_cons, Piece.text, List.singleton_append, pieces_cons_of_ne_open hc,
      List.cons.injEq]
    exact ⟨fun h => ⟨h.2, fun heq => absurd heq hc⟩, fun h => ⟨rfl, h.1⟩⟩

/-- The last pieces of a text are cut again on their own. -/
theorem IsCut.of_append (h : IsCut (ps ++ qs)) : IsCut qs := by
  induction ps with
  | nil => exact h
  | cons p ps ih =>
    cases p with
    | char c => exact ih (isCut_char_iff.mp h).1
    | tag body => exact ih (isCut_tag_iff.mp h).2

/-- A text without opening brackets may stand anywhere. -/
theorem IsCut.map_char_append (hps : IsCut ps) (h : ∀ c ∈ a, c ≠ '<') :
    IsCut (a.map Piece.char ++ ps) := by
  rw [IsCut, unparse_append, unparse_map_char, pieces_append_of_no_open h, hps]

/-! ## Tags replaced -/

theorem map_fst_closeTag_char (c : Char)
    (h : (closeTag ps).map Prod.fst = (closeTag qs).map Prod.fst) :
    (closeTag (.char c :: ps)).map Prod.fst = (closeTag (.char c :: qs)).map Prod.fst := by
  simp only [closeTag]
  split
  · rfl
  · split
    · rfl
    · have hbodies := congrArg (Option.map (c :: ·)) h
      rw [Option.map_map, Option.map_map] at hbodies ⊢
      exact hbodies

/-- What closes behind a bracket is found among the characters up to the next tag. -/
theorem closeTag_of_map_char? (h : ps.map Piece.char? = qs.map Piece.char?) :
    (closeTag ps).map Prod.fst = (closeTag qs).map Prod.fst := by
  induction ps generalizing qs with
  | nil =>
    cases qs with
    | nil => rfl
    | cons q qs => cases h
  | cons p ps ih =>
    cases qs with
    | nil => cases h
    | cons q qs =>
      obtain ⟨hpq, hrest⟩ := List.cons.inj h
      cases p with
      | tag body =>
        cases q with
        | tag other => rfl
        | char d => cases hpq
      | char c =>
        cases q with
        | tag other => cases hpq
        | char d =>
          cases hpq
          exact map_fst_closeTag_char c (ih hrest)

theorem LeavesOpen.of_map_fst (h : LeavesOpen ps)
    (hclose : (closeTag qs).map Prod.fst = (closeTag ps).map Prod.fst) : LeavesOpen qs := by
  intro body after hfound
  rw [hfound, Option.map_some] at hclose
  obtain ⟨⟨body', after'⟩, hfound', heq⟩ := Option.map_eq_some_iff.mp hclose.symm
  exact heq.symm.trans (h body' after' hfound')

/-- **Tags may be replaced by other tags.** -/
theorem IsCut.of_map_char? (hps : IsCut ps) (h : ps.map Piece.char? = qs.map Piece.char?)
    (hbodies : ∀ body, .tag body ∈ qs → IsTagBody body) : IsCut qs := by
  -- A bracket outside tags looks at the characters up to the next tag, and these have not changed.
  induction ps generalizing qs with
  | nil =>
    cases qs with
    | nil => exact isCut_nil
    | cons q qs => cases h
  | cons p ps ih =>
    cases qs with
    | nil => cases h
    | cons q qs =>
      obtain ⟨hpq, hrest⟩ := List.cons.inj h
      have hlater : ∀ body, .tag body ∈ qs → IsTagBody body := fun body hbody =>
        hbodies body (List.mem_cons_of_mem q hbody)
      cases q with
      | tag other =>
        cases p with
        | char c => cases hpq
        | tag body =>
          exact isCut_tag_iff.mpr ⟨hbodies other List.mem_cons_self,
            ih (isCut_tag_iff.mp hps).2 hrest hlater⟩
      | char d =>
        cases p with
        | tag body => cases hpq
        | char c =>
          cases hpq
          obtain ⟨hcut, hopen⟩ := isCut_char_iff.mp hps
          exact isCut_char_iff.mpr ⟨ih hcut hrest hlater, fun hc =>
            (hopen hc).of_map_fst (closeTag_of_map_char? hrest).symm⟩

/-! ## A tag inside a text -/

theorem closeTag_append_tag (ps : List Piece) (body : Text) (qs : List Piece) :
    closeTag (ps ++ .tag body :: qs) =
      (closeTag ps).map fun found => (found.1, found.2 ++ .tag body :: qs) := by
  induction ps with
  | nil => rfl
  | cons p ps ih =>
    cases p with
    | tag other => rfl
    | char c =>
      simp only [List.cons_append, closeTag, ih]
      split
      · rfl
      · split
        · rfl
        · cases closeTag ps <;> rfl

/-- **A tag inside a text is one piece**, between the pieces of what stands before and behind it. -/
theorem pieces_append_tag (h : IsTagBody body) (a t : Text) :
    pieces (a ++ (tagText body ++ t)) = pieces a ++ .tag body :: pieces t := by
  -- No bracket in front of the tag can reach past the one with which the tag begins.
  induction a with
  | nil => exact pieces_tagText_append h t
  | cons c a ih =>
    simp only [List.cons_append, pieces, ih, closeTag_append_tag]
    split
    · cases closeTag (pieces a) with
      | none => rfl
      | some found =>
        obtain ⟨inner, after⟩ := found
        cases inner <;> rfl
    · rfl

theorem outside_append_tag (h : IsTag g) (a t : Text) :
    outside (a ++ (g ++ t)) = outside a ++ outside t := by
  obtain ⟨body, hbody, rfl⟩ := h
  rw [outside, pieces_append_tag hbody, List.filterMap_append, outside, outside]
  rfl

theorem outside_append_of_no_angle (h : ∀ c ∈ b, isAngle c = false) (t : Text) :
    outside (t ++ b) = outside t ++ b := by
  rw [outside, pieces_append_of_no_angle h, List.filterMap_append, filterMap_char?_map_char,
    outside]

/-- Tags at the end of a text add nothing. -/
theorem outside_append_flatten {gs : List Text} (h : ∀ g ∈ gs, IsTag g) (t : Text) :
    outside (t ++ gs.flatten) = outside t := by
  induction gs generalizing t with
  | nil => rw [List.flatten_nil, List.append_nil]
  | cons g gs ih =>
    have hrest := ih (fun k hk => h k (List.mem_cons_of_mem g hk)) []
    rw [List.nil_append] at hrest
    rw [List.flatten_cons, outside_append_tag (h g List.mem_cons_self), hrest]
    exact List.append_nil _

/-! ## Trimmed texts -/

/-- Trimming takes away characters outside tags. -/
theorem exists_pieces_eq_trim (t : Text) : ∃ a b, Text.isBlank a = true ∧ Text.isBlank b = true ∧
    pieces t = a.map Piece.char ++ (pieces (Text.trim t) ++ b.map Piece.char) := by
  obtain ⟨a, b, ha, hb, ht⟩ := Text.exists_eq_trim t
  have hopen : ∀ c ∈ a, c ≠ '<' := ne_open_of_no_angle (isAngle_of_isBlank ha)
  refine ⟨a, b, ha, hb, ?_⟩
  conv_lhs => rw [ht]
  rw [List.append_assoc, pieces_append_of_no_open hopen,
    pieces_append_of_no_angle (isAngle_of_isBlank hb)]

theorem tags_trim (t : Text) : tags (Text.trim t) = tags t := by
  obtain ⟨a, b, -, -, hpieces⟩ := exists_pieces_eq_trim t
  rw [tags, tags, tagBodies_eq, tagBodies_eq, hpieces, List.filterMap_append,
    List.filterMap_append, filterMap_body?_map_char, filterMap_body?_map_char, List.append_nil,
    List.nil_append]

theorem visible_outside_trim (t : Text) :
    Text.visible (outside (Text.trim t)) = Text.visible (outside t) := by
  obtain ⟨a, b, ha, hb, hpieces⟩ := exists_pieces_eq_trim t
  rw [outside, outside, hpieces, List.filterMap_append, List.filterMap_append,
    filterMap_char?_map_char, filterMap_char?_map_char, Text.visible_append, Text.visible_append,
    Text.visible_eq_nil_iff.mpr ha, Text.visible_eq_nil_iff.mpr hb, List.append_nil,
    List.nil_append]

/-! ## Texts without tags -/

theorem tags_eq_nil_iff : tags t = [] ↔ hasTags t = false := by
  simp [tags, hasTags]

/-- A text without tags is nothing but characters outside tags. -/
theorem outside_of_tags_eq_nil (h : tags t = []) : outside t = t := by
  have hchars : ∀ p ∈ pieces t, ∃ c, p = .char c := by
    intro p hp
    cases p with
    | char c => exact ⟨c, rfl⟩
    | tag body =>
      have htags := hasTags_iff.mpr ⟨body, hp⟩
      rw [tags_eq_nil_iff.mp h] at htags
      cases htags
  have hunparse : ∀ qs : List Piece, (∀ p ∈ qs, ∃ c, p = .char c) →
      qs.filterMap Piece.char? = unparse qs := by
    intro qs hqs
    induction qs with
    | nil => rfl
    | cons q qs ih =>
      obtain ⟨c, rfl⟩ := hqs q List.mem_cons_self
      exact congrArg (c :: ·) (ih fun p hp => hqs p (List.mem_cons_of_mem _ hp))
  rw [outside, hunparse _ hchars, unparse_pieces]

/-- If tags are replaced by blanks, or by nothing, no visible character outside them is lost. -/
theorem visible_replaceTags {replacement : Text → Text}
    (h : ∀ body, Text.visible (replacement body) = []) (t : Text) :
    Text.visible (replaceTags replacement t) = Text.visible (outside t) := by
  rw [replaceTags, outside]
  induction pieces t with
  | nil => rfl
  | cons p ps ih =>
    rw [List.flatMap_cons, Text.visible_append, ih]
    cases p with
    | char c => exact (Text.visible_append [c] _).symm
    | tag body => rw [h body]; rfl

/-- **The plain text has the visible characters outside tags.** -/
theorem visible_strip (t : Text) : Text.visible (strip t) = Text.visible (outside t) := by
  rw [strip, Text.visible_collapse]
  exact visible_replaceTags (fun _ => rfl) t

/-! ## Blanks dropped anywhere -/

theorem closeTag_map_char_append (h : ∀ c ∈ a, isAngle c = false) (ps : List Piece) :
    closeTag (a.map Piece.char ++ ps) = (closeTag ps).map fun found => (a ++ found.1, found.2) := by
  induction a with
  | nil => simp
  | cons c a ih =>
    have hc := h c List.mem_cons_self
    simp only [isAngle, Bool.or_eq_false_iff] at hc
    rw [List.map_cons, List.cons_append, closeTag, hc.1, hc.2,
      ih fun d hd => h d (List.mem_cons_of_mem c hd)]
    simp only [Bool.false_eq_true, if_false, Option.map_map]
    rfl

/-- Pieces in which every run of blanks is one space, also inside tags. -/
def squeezePieces (behind : Bool) : List Piece → List Piece
  | [] => []
  | .char c :: ps => (Text.squeeze behind [c]).map .char ++ squeezePieces (Text.isSpace c) ps
  | .tag body :: ps => .tag (Text.squeeze false body) :: squeezePieces false ps

theorem unparse_squeezePieces (behind : Bool) (ps : List Piece) :
    unparse (squeezePieces behind ps) = Text.squeeze behind (unparse ps) := by
  induction ps generalizing behind with
  | nil => rfl
  | cons p ps ih =>
    cases p with
    | char c =>
      rw [squeezePieces, unparse_append, unparse_map_char, ih]
      exact (Text.squeeze_cons behind c _).symm
    | tag body =>
      have htag : Text.squeeze behind (tagText body) = tagText (Text.squeeze false body) := by
        rw [tagText, Text.squeeze_cons_of_not_isSpace rfl, Text.squeeze_append,
          Text.squeeze_cons_of_not_isSpace rfl]
        rfl
      have hends : Text.endsBlank behind (tagText body) = false := by
        simp [Text.endsBlank, tagText, List.getLast?_cons, Text.isSpace]
      rw [squeezePieces, unparse_cons, ih, unparse_cons, Piece.text, Piece.text,
        Text.squeeze_append, htag, hends]

theorem closeTag_squeezePieces (behind : Bool) (ps : List Piece) :
    closeTag (squeezePieces behind ps) =
      (closeTag ps).map fun found =>
        (Text.squeeze behind found.1, squeezePieces false found.2) := by
  induction ps generalizing behind with
  | nil => rfl
  | cons p ps ih =>
    cases p with
    | tag body => rfl
    | char c =>
      rcases angle_cases c with rfl | rfl | hc
      · rw [squeezePieces, Text.squeeze_cons_of_not_isSpace rfl]
        rfl
      · rw [squeezePieces, Text.squeeze_cons_of_not_isSpace rfl]
        rfl
      · have hchar : closeTag (.char c :: ps) =
            (closeTag ps).map fun found => (c :: found.1, found.2) := by
          have hsole : ∀ d ∈ [c], isAngle d = false := by simpa using hc
          exact closeTag_map_char_append hsole ps
        rw [squeezePieces, closeTag_map_char_append (isAngle_of_mem_squeeze hc), ih, hchar,
          Option.map_map, Option.map_map]
        congr 1
        funext found
        simp only [Function.comp_apply, Text.squeeze_cons behind c found.1]

theorem IsTagBody.squeeze (h : IsTagBody body) : IsTagBody (Text.squeeze false body) := by
  refine ⟨mt Text.squeeze_false_eq_nil_iff.mp h.ne_nil, ?_⟩
  intro c hc
  rcases Text.mem_of_mem_squeeze hc with rfl | hc
  · rfl
  · exact h.isAngle c hc

theorem IsCut.squeezePieces (h : IsCut ps) (behind : Bool) : IsCut (squeezePieces behind ps) := by
  induction ps generalizing behind with
  | nil => exact isCut_nil
  | cons p ps ih =>
    cases p with
    | tag body =>
      obtain ⟨hbody, hps⟩ := isCut_tag_iff.mp h
      exact isCut_tag_iff.mpr ⟨hbody.squeeze, ih hps false⟩
    | char c =>
      obtain ⟨hps, hopen⟩ := isCut_char_iff.mp h
      have hrest := ih hps (Text.isSpace c)
      by_cases hc : c = '<'
      · subst hc
        rw [Markup.squeezePieces, Text.squeeze_cons_of_not_isSpace rfl]
        refine isCut_char_iff.mpr ⟨hrest, fun _ body after hfound => ?_⟩
        -- What closes is the squeezed form of what closed before.
        change closeTag (Markup.squeezePieces false ps) = some (body, after) at hfound
        rw [closeTag_squeezePieces] at hfound
        obtain ⟨⟨body', after'⟩, hfound', heq⟩ := Option.map_eq_some_iff.mp hfound
        cases heq
        rw [hopen rfl body' after' hfound']
        rfl
      · refine hrest.map_char_append fun d hd => ?_
        rcases Text.mem_of_mem_squeeze hd with rfl | hd
        · decide
        · rwa [List.mem_singleton.mp hd]

theorem visible_squeezePieces (behind : Bool) (ps : List Piece) :
    Text.visible ((squeezePieces behind ps).filterMap Piece.char?) =
      Text.visible (ps.filterMap Piece.char?) := by
  induction ps generalizing behind with
  | nil => rfl
  | cons p ps ih =>
    cases p with
    | tag body => exact ih false
    | char c =>
      rw [squeezePieces, List.filterMap_append, filterMap_char?_map_char, Text.visible_append, ih,
        Text.visible_squeeze]
      exact (Text.visible_append [c] _).symm

/-- **Collapsing keeps the visible characters outside tags.** -/
theorem visible_outside_collapse (t : Text) :
    Text.visible (outside (Text.collapse t)) = Text.visible (outside t) := by
  obtain ⟨b, hb, hsqueeze⟩ := Text.exists_squeeze_eq t
  -- The squeezed pieces make the collapsed text and blanks behind it.
  have hcut := (isCut_pieces t).squeezePieces true
  have houtside := hcut.outside_unparse
  rw [unparse_squeezePieces, unparse_pieces, hsqueeze,
    outside_append_of_no_angle (isAngle_of_isBlank hb)] at houtside
  have hvisible := congrArg Text.visible houtside
  rwa [Text.visible_append, Text.visible_eq_nil_iff.mpr hb, List.append_nil,
    visible_squeezePieces] at hvisible

/-! ## Blanks dropped inside pairs -/

theorem pairAfter?_eq {content : Text} (h : pairAfter? ps = some (content, body, after)) :
    ps = content.map Piece.char ++ .tag body :: after ∧ ∀ c ∈ content, isAngle c = false := by
  have hrun (ps : List Piece) : ps = (plainRun ps).1.map Piece.char ++ (plainRun ps).2 := by
    induction ps with
    | nil => rfl
    | cons p ps ih =>
      cases p with
      | tag body => rfl
      | char c =>
        rw [plainRun]
        split
        · rfl
        · exact congrArg (.char c :: ·) ih
  have hangle := (unparse_plainRun ps).2
  have hps := hrun ps
  unfold pairAfter? at h
  split at h
  · cases h
  · rename_i hfound
    split at h
    · cases h
      rw [hfound] at hps hangle
      exact ⟨hps, hangle⟩
    · cases h
  · cases h

/-- What tightening makes of pieces that are cut is cut as well, with the same visible characters
outside tags, and no bracket finds a closing one that found none before. -/
theorem exists_cut_tightenPieces (h : IsCut ps) : ∃ qs, unparse qs = tightenPieces ps ∧ IsCut qs ∧
    Text.visible (qs.filterMap Piece.char?) = Text.visible (ps.filterMap Piece.char?) ∧
    (closeTag qs).map Prod.fst = (closeTag ps).map Prod.fst := by
  fun_induction tightenPieces ps with
  | case1 => exact ⟨[], rfl, isCut_nil, rfl, rfl⟩
  | case2 c rest ih =>
    obtain ⟨hrest, hopen⟩ := isCut_char_iff.mp h
    obtain ⟨qs, hunparse, hcut, hvisible, hclose⟩ := ih hrest
    refine ⟨.char c :: qs, ?_, ?_, ?_, map_fst_closeTag_char c hclose⟩
    · rw [unparse_cons, hunparse]
      rfl
    · exact isCut_char_iff.mpr ⟨hcut, fun hc => (hopen hc).of_map_fst hclose⟩
    · exact (Text.visible_append [c] _).trans
        ((congrArg _ hvisible).trans (Text.visible_append [c] _).symm)
  -- A tag that opens no pair stays as it is.
  | case3 body rest hslash ih | case5 body rest hslash hfound ih =>
    obtain ⟨hbody, hrest⟩ := isCut_tag_iff.mp h
    obtain ⟨qs, hunparse, hcut, hvisible, -⟩ := ih hrest
    refine ⟨.tag body :: qs, ?_, isCut_tag_iff.mpr ⟨hbody, hcut⟩, hvisible, rfl⟩
    rw [unparse_cons, hunparse]
    rfl
  | case4 body rest hslash content closing after hfound kept ih =>
    obtain ⟨hbody, hrest⟩ := isCut_tag_iff.mp h
    obtain ⟨rfl, hangle⟩ := pairAfter?_eq hfound
    have hopen : ∀ c ∈ content, c ≠ '<' := ne_open_of_no_angle hangle
    obtain ⟨hclosing, hafter⟩ := isCut_tag_iff.mp hrest.of_append
    obtain ⟨qs, hunparse, hcut, hvisible, -⟩ := ih hafter
    -- Trimming the content drops blanks and brings no bracket in.
    have hkept : Text.visible kept = Text.visible content ∧ ∀ c ∈ kept, c ∈ content := by
      simp only [kept]
      split
      · exact ⟨rfl, fun c hc => hc⟩
      · exact ⟨Text.visible_trim content, fun c => Text.mem_of_mem_trim⟩
    refine ⟨.tag body :: (kept.map .char ++ .tag closing :: qs), ?_, ?_, ?_, rfl⟩
    · rw [unparse_cons, unparse_append, unparse_map_char, unparse_cons, hunparse]
      simp only [Piece.text, List.append_assoc]
    · refine isCut_tag_iff.mpr ⟨hbody, ?_⟩
      exact (isCut_tag_iff.mpr ⟨hclosing, hcut⟩).map_char_append fun c hc =>
        hopen c (hkept.2 c hc)
    · have hchars (x : Text) (ps : List Piece) :
          (Piece.tag body :: (x.map .char ++ .tag closing :: ps)).filterMap Piece.char? =
            x ++ ps.filterMap Piece.char? := by
        rw [filterMap_char?_tag, List.filterMap_append, filterMap_char?_map_char,
          filterMap_char?_tag]
      rw [hchars, hchars, Text.visible_append, Text.visible_append, hkept.1, hvisible]

/-- **Tightening keeps the visible characters outside tags.** -/
theorem visible_outside_tighten (t : Text) :
    Text.visible (outside (tighten t)) = Text.visible (outside t) := by
  obtain ⟨qs, hunparse, hcut, hvisible, -⟩ := exists_cut_tightenPieces (isCut_pieces t)
  rw [tighten, ← hunparse, hcut.outside_unparse, hvisible, outside]

end Bitext.Markup
