import Bitext.Markup.Spacing
import Bitext.Proofs.Markup.Outside

/-!
# Tightened pairs

A pair is an opening tag and a closing tag with no bracket between them.  Tightening a text takes
out the blanks at both ends of what its pairs enclose and nothing else, and it passes over no pair:
a closing tag never opens another pair, and a self-closing tag opens none.  So all pairs are tight
afterwards, and a text whose pairs are tight is left alone.

## Main definitions

* `OpensPair`, `ClosesPair`: the tags of a pair.
* `Tightens`: a text with blanks taken out next to the tags of pairs.
* `IsTight`: no pair has a blank next to one of its tags.

## Main results

* `tightens_tighten`: what tightening takes out
* `isTight_tighten`: what it leaves
* `tighten_of_isTight`: what it leaves alone
* `tighten_spec`: the laws of tightening
-/

namespace Bitext.Markup

variable {t u body closing content : Text} {c : Char} {ps rest after : List Piece}

/-- The tag with the body may open a pair: it neither starts nor ends with a slash. -/
structure OpensPair (body : Text) : Prop where
  isTagBody : IsTagBody body
  kind : TagKind.of body = .opening

/-- The tag with the body may close a pair: it starts with a slash and goes on. -/
structure ClosesPair (body : Text) : Prop where
  isTagBody : IsTagBody body
  closes : closesPair body = true

/-- The second text is the first one with blanks taken out, and each of them touched the opening or
the closing tag of a pair from inside. -/
inductive Tightens : Text → Text → Prop where
  | nil : Tightens [] []
  | char {t u : Text} (c : Char) (h : Tightens t u) : Tightens (c :: t) (c :: u)
  | pair {body before content behind closing t u : Text} (hbody : OpensPair body)
      (hclosing : ClosesPair closing) (hbefore : Text.isBlank before)
      (hcontent : ∀ c ∈ content, isAngle c = false) (hbehind : Text.isBlank behind)
      (h : Tightens t u) :
      Tightens (tagText body ++ (before ++ content ++ behind ++ (tagText closing ++ t)))
        (tagText body ++ (content ++ (tagText closing ++ u)))

/-- Whatever a pair of the text encloses neither starts nor ends with a blank. -/
def IsTight (t : Text) : Prop :=
  ∀ front body content closing back,
    t = front ++ (tagText body ++ (content ++ (tagText closing ++ back))) →
    OpensPair body → ClosesPair closing → (∀ c ∈ content, isAngle c = false) →
    Text.IsTrimmed content

/-! ## The tags of a pair -/

theorem kind_ne_opening (h : (body.head? == some '/') = true) : TagKind.of body ≠ .opening := by
  rw [TagKind.of, if_pos h]
  split <;> exact fun hkind => nomatch hkind

/-- A closing tag opens no pair. -/
theorem kind_ne_opening_of_closes (h : closesPair body = true) : TagKind.of body ≠ .opening := by
  rw [closesPair, Bool.and_eq_true] at h
  exact kind_ne_opening h.1

theorem opening_of_head (hslash : ¬(body.head? == some '/') = true)
    (hkind : TagKind.of body ≠ .selfClosing) : TagKind.of body = .opening := by
  unfold TagKind.of at hkind ⊢
  split
  · rename_i hends
    rw [if_pos hends] at hkind
    exact absurd rfl hkind
  · rfl

/-! ## Pairs among the pieces -/

theorem plainRun_map_char_append (h : ∀ c ∈ content, isAngle c = false) (ps : List Piece) :
    plainRun (content.map Piece.char ++ .tag closing :: ps) =
      (content, .tag closing :: ps) := by
  induction content with
  | nil => rfl
  | cons c content ih =>
    obtain ⟨hc, hcontent⟩ := List.forall_mem_cons.mp h
    rw [List.map_cons, List.cons_append, plainRun, if_neg (by rw [hc]; exact Bool.false_ne_true),
      ih hcontent]

/-- A pair is found where there is one. -/
theorem pairAfter?_pair (hnil : content ≠ []) (h : ∀ c ∈ content, isAngle c = false)
    (hclosing : closesPair closing = true) (ps : List Piece) :
    pairAfter? (content.map Piece.char ++ .tag closing :: ps) = some (content, closing, ps) := by
  rw [pairAfter?, plainRun_map_char_append h]
  obtain ⟨c, content, rfl⟩ := List.exists_cons_of_ne_nil hnil
  exact if_pos hclosing

/-- What is found closes a pair. -/
theorem closesPair_of_pairAfter? (h : pairAfter? ps = some (content, closing, after)) :
    closesPair closing = true := by
  unfold pairAfter? at h
  split at h
  · cases h
  · split at h
    · rename_i hcloses
      cases h
      exact hcloses
    · cases h
  · cases h

/-! ## What tightening takes out -/

namespace Tightens

theorem append_left (h : Tightens t u) (a : Text) : Tightens (a ++ t) (a ++ u) := by
  induction a with
  | nil => exact h
  | cons c a ih => exact .char c ih

/-- The rest of the text stays in order. -/
theorem sublist (h : Tightens t u) : u.Sublist t := by
  induction h with
  | nil => exact .slnil
  | char c _ ih => exact ih.cons_cons c
  | pair _ _ _ _ _ _ ih =>
    apply List.Sublist.append_left
    apply List.Sublist.append
    · rw [List.append_assoc]
      exact (List.sublist_append_left ..).trans (List.sublist_append_right ..)
    · exact ih.append_left _

/-- Nothing but blanks is taken out. -/
theorem visible_eq (h : Tightens t u) : Text.visible u = Text.visible t := by
  induction h with
  | nil => rfl
  | char c _ ih =>
    show Text.visible ([c] ++ _) = Text.visible ([c] ++ _)
    rw [Text.visible_append, Text.visible_append, ih]
  | pair _ _ hbefore _ hbehind _ ih =>
    simp only [Text.visible_append, ih, Text.visible_eq_nil_iff.mpr hbefore,
      Text.visible_eq_nil_iff.mpr hbehind, List.nil_append, List.append_nil]

end Tightens

theorem tightens_tightenPieces (h : ∀ body, .tag body ∈ ps → IsTagBody body) :
    Tightens (unparse ps) (tightenPieces ps) := by
  fun_induction tightenPieces ps with
  | case1 => exact .nil
  | case2 c rest ih => exact .char c (ih fun body hbody => h body (List.mem_cons_of_mem _ hbody))
  -- A tag that opens no pair stays, and so does everything in front of the next tag.
  | case3 body rest hslash ih | case5 body rest hslash hfound ih =>
    exact (ih fun body hbody => h body (List.mem_cons_of_mem _ hbody)).append_left (tagText body)
  | case4 body rest hslash content closing after hfound kept ih =>
    obtain ⟨rfl, hangle⟩ := pairAfter?_eq hfound
    have hafter : Tightens (unparse after) (tightenPieces after) := by
      apply ih
      intro body hbody
      exact h body (List.mem_cons_of_mem _ (List.mem_append_right _ (List.mem_cons_of_mem _ hbody)))
    rw [unparse_cons, unparse_append, unparse_map_char, unparse_cons, Piece.text, Piece.text,
      List.append_assoc, List.append_assoc]
    by_cases hkind : TagKind.of body = .selfClosing
    · have hkept : kept = content := if_pos hkind
      rw [hkept]
      exact ((hafter.append_left (tagText closing)).append_left content).append_left (tagText body)
    · have hkept : kept = Text.trim content := if_neg hkind
      obtain ⟨before, behind, hbefore, hbehind, hcontent⟩ := Text.exists_eq_trim content
      have hopens : OpensPair body := ⟨h body List.mem_cons_self, opening_of_head hslash hkind⟩
      have hcloses : ClosesPair closing :=
        ⟨h closing (List.mem_cons_of_mem _ (List.mem_append_right _ List.mem_cons_self)),
          closesPair_of_pairAfter? hfound⟩
      have hpair := Tightens.pair hopens hcloses hbefore
        (fun c hc => hangle c (Text.mem_of_mem_trim hc)) hbehind hafter
      rw [← hcontent] at hpair
      rw [hkept]
      exact hpair

/-- **Tightening takes out blanks only**, and only such as touch a tag of a pair from inside. -/
theorem tightens_tighten (t : Text) : Tightens t (tighten t) := by
  have hbodies : ∀ body, .tag body ∈ pieces t → IsTagBody body := by
    intro body hbody
    exact isTagBody_of_mem_pieces hbody
  have h := tightens_tightenPieces hbodies
  rwa [unparse_pieces] at h

/-! ## What tightening leaves -/

theorem pieces_tightenPieces_char (h : IsCut (.char c :: rest)) :
    pieces (tightenPieces (.char c :: rest)) = .char c :: pieces (tightenPieces rest) := by
  obtain ⟨hrest, hopen⟩ := isCut_char_iff.mp h
  obtain ⟨qs, hunparse, hcut, -, hclose⟩ := exists_cut_tightenPieces hrest
  have hqs : IsCut (.char c :: qs) :=
    isCut_char_iff.mpr ⟨hcut, fun hc => (hopen hc).of_map_fst hclose⟩
  rw [tightenPieces, ← hunparse, hcut]
  exact hqs

/-- A tag stays where it is. -/
theorem exists_pieces_tightenPieces_tag (h : IsTagBody body) (rest : List Piece) :
    ∃ qs, pieces (tightenPieces (.tag body :: rest)) = .tag body :: qs := by
  rw [tightenPieces]
  split
  · exact ⟨_, pieces_tagText_append h _⟩
  · split
    · rw [List.append_assoc, List.append_assoc]
      exact ⟨_, pieces_tagText_append h _⟩
    · exact ⟨_, pieces_tagText_append h _⟩

/-- What stands in front of the first tag stays. -/
theorem exists_eq_of_pieces_tightenPieces {back : List Piece} (h : IsCut ps)
    (heq : pieces (tightenPieces ps) = content.map Piece.char ++ .tag closing :: back) :
    ∃ back', ps = content.map Piece.char ++ .tag closing :: back' := by
  induction content generalizing ps with
  | nil =>
    cases ps with
    | nil =>
      rw [tightenPieces] at heq
      cases heq
    | cons p rest =>
      cases p with
      | char c =>
        rw [pieces_tightenPieces_char h] at heq
        cases heq
      | tag body =>
        obtain ⟨qs, hqs⟩ := exists_pieces_tightenPieces_tag (isCut_tag_iff.mp h).1 rest
        rw [hqs] at heq
        cases heq
        exact ⟨rest, rfl⟩
  | cons c content ih =>
    cases ps with
    | nil =>
      rw [tightenPieces] at heq
      cases heq
    | cons p rest =>
      cases p with
      | char d =>
        rw [pieces_tightenPieces_char h] at heq
        obtain ⟨hd, heq⟩ := List.cons.inj heq
        obtain ⟨back', rfl⟩ := ih (isCut_char_iff.mp h).1 heq
        cases hd
        exact ⟨back', rfl⟩
      | tag body =>
        obtain ⟨qs, hqs⟩ := exists_pieces_tightenPieces_tag (isCut_tag_iff.mp h).1 rest
        rw [hqs] at heq
        cases heq

/-- Tightness of the pairs among pieces. -/
def IsTightCut (ps : List Piece) : Prop :=
  ∀ front body content closing back,
    ps = front ++ .tag body :: (content.map Piece.char ++ .tag closing :: back) →
    TagKind.of body = .opening → closesPair closing = true →
    (∀ c ∈ content, isAngle c = false) → Text.IsTrimmed content

namespace IsTightCut

theorem nil : IsTightCut [] := by
  intro front body content closing back heq
  cases front <;> cases heq

theorem char (c : Char) (h : IsTightCut ps) : IsTightCut (.char c :: ps) := by
  intro front body content closing back heq
  cases front with
  | nil => cases heq
  | cons p front => exact h front body content closing back (List.cons.inj heq).2

/-- A tag in front may open one pair more. -/
theorem tag (h : IsTightCut ps)
    (hpair : TagKind.of body = .opening → ∀ content closing back,
      ps = content.map Piece.char ++ .tag closing :: back → closesPair closing = true →
      (∀ c ∈ content, isAngle c = false) → Text.IsTrimmed content) :
    IsTightCut (.tag body :: ps) := by
  intro front other content closing back heq hopens
  cases front with
  | nil =>
    obtain ⟨hbody, hps⟩ := List.cons.inj heq
    cases hbody
    exact hpair hopens content closing back hps
  | cons p front => exact h front other content closing back (List.cons.inj heq).2 hopens

theorem of_cons {p : Piece} (h : IsTightCut (p :: ps)) : IsTightCut ps := by
  intro front body content closing back heq
  exact h (p :: front) body content closing back (congrArg (p :: ·) heq)

theorem of_append {qs : List Piece} (h : IsTightCut (qs ++ ps)) : IsTightCut ps := by
  induction qs with
  | nil => exact h
  | cons q qs ih => exact ih h.of_cons

theorem map_char_append (h : IsTightCut ps) (a : Text) :
    IsTightCut (a.map Piece.char ++ ps) := by
  induction a with
  | nil => exact h
  | cons c a ih => exact ih.char c

end IsTightCut

theorem isTightCut_tightenPieces (h : IsCut ps) : IsTightCut (pieces (tightenPieces ps)) := by
  fun_induction tightenPieces ps with
  | case1 => exact .nil
  | case2 c rest ih =>
    have heq := pieces_tightenPieces_char h
    rw [tightenPieces] at heq
    rw [heq]
    exact (ih (isCut_char_iff.mp h).1).char c
  | case3 body rest hslash ih =>
    obtain ⟨hbody, hrest⟩ := isCut_tag_iff.mp h
    rw [pieces_tagText_append hbody]
    apply (ih hrest).tag
    -- A tag that starts with a slash opens no pair.
    exact fun hopens => absurd hopens (kind_ne_opening hslash)
  | case4 body rest hslash content closing after hfound kept ih =>
    obtain ⟨hbody, hrest⟩ := isCut_tag_iff.mp h
    obtain ⟨rfl, hangle⟩ := pairAfter?_eq hfound
    have hopen : ∀ c ∈ content, c ≠ '<' := ne_open_of_no_angle hangle
    obtain ⟨hclosing, hafter⟩ := isCut_tag_iff.mp hrest.of_append
    have hkept : ∀ c ∈ kept, c ∈ content := by
      intro c hc
      simp only [kept] at hc
      split at hc
      · exact hc
      · exact Text.mem_of_mem_trim hc
    rw [List.append_assoc, List.append_assoc, pieces_tagText_append hbody,
      pieces_append_of_no_open fun c hc => hopen c (hkept c hc), pieces_tagText_append hclosing]
    apply IsTightCut.tag
    · apply IsTightCut.map_char_append
      apply (ih hafter).tag
      -- Nor does the closing tag.
      exact fun hopens =>
        absurd hopens (kind_ne_opening_of_closes (closesPair_of_pairAfter? hfound))
    · intro hopens other closing' back heq hcloses hother
      -- The pair that the tag opens is the one that was found.
      have hruns := congrArg plainRun heq
      rw [plainRun_map_char_append fun c hc => hangle c (hkept c hc),
        plainRun_map_char_append hother] at hruns
      have hsame : kept = other := (Prod.mk.inj hruns).1
      have htrim : kept = Text.trim content := by
        apply if_neg
        rw [hopens]
        exact fun hkind => nomatch hkind
      rw [← hsame, htrim]
      exact Text.isTrimmed_trim content
  | case5 body rest hslash hfound ih =>
    obtain ⟨hbody, hrest⟩ := isCut_tag_iff.mp h
    rw [pieces_tagText_append hbody]
    apply (ih hrest).tag
    intro _ content closing back heq hcloses hcontent
    obtain ⟨back', rfl⟩ := exists_eq_of_pieces_tightenPieces hrest heq
    -- With something between the tags there would have been a pair.
    by_cases hnil : content = []
    · rw [hnil]
      exact Text.isTrimmed_trim []
    · rw [pairAfter?_pair hnil hcontent hcloses] at hfound
      cases hfound

theorem isTight_of_isTightCut (h : IsTightCut (pieces t)) : IsTight t := by
  rintro front body content closing back rfl hopens hcloses hcontent
  refine h (pieces front) body content closing (pieces back) ?_ hopens.kind hcloses.closes hcontent
  have hopen : ∀ c ∈ content, c ≠ '<' := ne_open_of_no_angle hcontent
  rw [pieces_append_tag hopens.isTagBody, pieces_append_of_no_open hopen,
    pieces_tagText_append hcloses.isTagBody]

/-- **Every pair is tight afterwards.** -/
theorem isTight_tighten (t : Text) : IsTight (tighten t) :=
  isTight_of_isTightCut (isTightCut_tightenPieces (isCut_pieces t))

/-! ## What tightening leaves alone -/

theorem tightenPieces_of_isTightCut (h : IsTightCut ps) : tightenPieces ps = unparse ps := by
  fun_induction tightenPieces ps with
  | case1 => rfl
  | case2 c rest ih => exact congrArg (c :: ·) (ih h.of_cons)
  | case3 body rest hslash ih | case5 body rest hslash hfound ih =>
    exact congrArg (tagText body ++ ·) (ih h.of_cons)
  | case4 body rest hslash content closing after hfound kept ih =>
    obtain ⟨rfl, hangle⟩ := pairAfter?_eq hfound
    have hkept : kept = content := by
      simp only [kept]
      split
      · rfl
      · rename_i hkind
        have hcloses := closesPair_of_pairAfter? hfound
        apply Text.trim_of_isTrimmed
        exact h [] body content closing after rfl (opening_of_head hslash hkind) hcloses hangle
    rw [hkept, ih h.of_cons.of_append.of_cons, unparse_cons, unparse_append, unparse_map_char,
      unparse_cons]
    simp only [Piece.text, List.append_assoc]

theorem isTightCut_pieces (h : IsTight t) : IsTightCut (pieces t) := by
  intro front body content closing back heq hopens hcloses hcontent
  have hmem (b : Text) (hb : .tag b ∈ pieces t) : IsTagBody b := isTagBody_of_mem_pieces hb
  rw [heq] at hmem
  refine h (unparse front) body content closing (unparse back) ?_ ⟨?_, hopens⟩ ⟨?_, hcloses⟩
    hcontent
  · rw [← unparse_pieces t, heq]
    simp only [unparse_append, unparse_cons, unparse_map_char, Piece.text]
  · exact hmem body (List.mem_append_right _ List.mem_cons_self)
  · apply hmem closing
    exact List.mem_append_right _ (List.mem_cons_of_mem _
      (List.mem_append_right _ List.mem_cons_self))

/-- **A text whose pairs are tight is left alone.** -/
theorem tighten_of_isTight (h : IsTight t) : tighten t = t := by
  rw [tighten, tightenPieces_of_isTightCut (isTightCut_pieces h), unparse_pieces]

/-- **The laws of tightening.**  It keeps the tags of a text.  It takes out blanks and nothing else,
each of them next to the opening or the closing tag of a pair, inside the pair.  It leaves no such
blank, so tightening again changes nothing. -/
theorem tighten_spec (t : Text) :
    tags (tighten t) = tags t ∧
      Tightens t (tighten t) ∧ (tighten t).Sublist t ∧
      Text.visible (tighten t) = Text.visible t ∧
      IsTight (tighten t) ∧
      tighten (tighten t) = tighten t :=
  ⟨tags_tighten t, tightens_tighten t, (tightens_tighten t).sublist,
    (tightens_tighten t).visible_eq,
    isTight_tighten t, tighten_of_isTight (isTight_tighten t)⟩

example : tighten "<a/> x </a><b> y </b> <b> </b>".toList =
    "<a/> x </a><b>y</b> <b></b>".toList := by
  decide +kernel

end Bitext.Markup
