import Bitext.Proofs.Markup.Content
import Bitext.Proofs.Markup.Nesting

/-!
# Nesting seen through canonical names

The strict reading of a text with canonical names succeeds exactly if the canonical tags nest: the
names of the elements that are open are the stack of the nesting check.  Renaming has a stack of its
own, of the tags that are open by their original names, and gives a closing tag the canonical name
of one of them.  Tags that nest are renamed to tags that nest.  The converse needs different
canonical names for different tags, which tags have whose names are identifiers; all other tags are
called alike, so that broken nesting among them may disappear.

## Main definitions

* `tagsAmong`: the tags among pieces.
* `Renaming.IsFresh`: the open tags have different canonical names.

## Main results

* `isSome_treeOf?_canonical`: a strict reading succeeds if the canonical tags nest
* `children_ne_nil_of_treeOf?`: a text with tags becomes a tree with elements
* `Renaming.nestsIn_run`, `Renaming.nestsIn_run_eq`: nesting before and behind renaming
* `normalize_eq_unmarked_iff`: which broken nesting is found
-/

namespace Bitext.Markup

open Bitext.Unicode (Glyph)
open Bitext.Xml (IsName)

variable {name body t : Text} {names : List Text} {ps : List Piece} {reading : Reading}

/-! ## The tags among pieces -/

/-- The tags among pieces. -/
def tagsAmong (ps : List Piece) : List Text := (ps.filterMap Piece.body?).map tagText

@[simp] theorem tagsAmong_nil : tagsAmong [] = [] := rfl

@[simp] theorem tagsAmong_char (c : Char) (ps : List Piece) :
    tagsAmong (.char c :: ps) = tagsAmong ps := rfl

@[simp] theorem tagsAmong_tag (body : Text) (ps : List Piece) :
    tagsAmong (.tag body :: ps) = tagText body :: tagsAmong ps := rfl

theorem tagsAmong_map_char_append (a : Text) (ps : List Piece) :
    tagsAmong (a.map Piece.char ++ ps) = tagsAmong ps := by
  rw [tagsAmong, List.filterMap_append, filterMap_body?_map_char, List.nil_append, tagsAmong]

theorem tags_eq_tagsAmong (t : Text) : tags t = tagsAmong (pieces t) := rfl

theorem tagsAmong_dropMark (ps : List Piece) : tagsAmong (dropMark ps) = tagsAmong ps := by
  rw [tagsAmong, filterMap_body?_dropMark, tagsAmong]

theorem tags_canonical (t : Text) : tags (canonical t) = tagsAmong (renamed (pieces t)) := by
  rw [tags_eq_tagsAmong, pieces_canonical]

/-- In front of the first tag there is only text. -/
theorem exists_chars_append (ps : List Piece) :
    ∃ (a : Text) (rest : List Piece), ps = a.map Piece.char ++ rest ∧
      (rest = [] ∨ ∃ body rest', rest = .tag body :: rest') := by
  induction ps with
  | nil => exact ⟨[], [], rfl, .inl rfl⟩
  | cons p ps ih =>
    cases p with
    | tag body => exact ⟨[], _, rfl, .inr ⟨body, ps, rfl⟩⟩
    | char c =>
      obtain ⟨a, rest, rfl, hrest⟩ := ih
      exact ⟨c :: a, rest, rfl, hrest⟩

/-! ## Nesting of canonical tags -/

theorem nestsIn_name (h : IsName name) (names gs : List Text) :
    nestsIn names (tagText name :: gs) = nestsIn (name :: names) gs := by
  rw [nestsIn_of_opening, inside_tagText, tagName_opening h]
  rw [inside_tagText, kind_opening h]

theorem nestsIn_name_slash (h : IsName name) (names gs : List Text) :
    nestsIn names (tagText (name ++ ['/']) :: gs) = nestsIn names gs := by
  rw [nestsIn_of_selfClosing]
  rw [inside_tagText, kind_empty h]

theorem nestsIn_nil_slash_name (h : IsName name) (gs : List Text) :
    nestsIn [] (tagText ('/' :: name) :: gs) = false := by
  rw [nestsIn_nil_of_closing]
  rw [inside_tagText, kind_closing h]

theorem nestsIn_cons_slash_name (h : IsName name) (top : Text) (outer gs : List Text) :
    nestsIn (top :: outer) (tagText ('/' :: name) :: gs) = (top == name && nestsIn outer gs) := by
  rw [nestsIn_cons_of_closing, inside_tagText, tagName_closing h]
  rw [inside_tagText, kind_closing h]

/-! ## Strict readings -/

namespace TreeBuilder

variable {b b' : TreeBuilder} {e parent : Unclosed} {outer : List Unclosed}

@[simp] theorem openNames_root (e : Unclosed) : openNames ⟨e, []⟩ = [] := rfl

@[simp] theorem openNames_cons (e parent : Unclosed) (outer : List Unclosed) :
    openNames ⟨e, parent :: outer⟩ = e.name :: openNames ⟨parent, outer⟩ := rfl

/-- What is read inside an element does not matter. -/
theorem openNames_congr {e' : Unclosed} (h : e.name = e'.name) (around : List Unclosed) :
    openNames ⟨e, around⟩ = openNames ⟨e', around⟩ := by
  cases around with
  | nil => rfl
  | cons parent outer => rw [openNames_cons, openNames_cons, h]

theorem openNames_addText (e : Unclosed) (a : Text) (around : List Unclosed) :
    openNames ⟨e.addText a, around⟩ = openNames ⟨e, around⟩ := by
  have hname : (e.addText a).name = e.name := by
    unfold Unclosed.addText
    split <;> rfl
  exact openNames_congr hname around

theorem openNames_addChild (e child : Unclosed) (around : List Unclosed) :
    openNames ⟨e.addChild child, around⟩ = openNames ⟨e, around⟩ :=
  openNames_congr (show (e.addChild child).name = e.name from rfl) around

theorem close_strict_root (e : Unclosed) (name : Text) :
    TreeBuilder.close .strict name ⟨e, []⟩ = none := rfl

theorem close_strict_cons (e parent : Unclosed) (outer : List Unclosed) (name : Text) :
    TreeBuilder.close .strict name ⟨e, parent :: outer⟩ =
      if e.name = name then some ⟨parent.addChild e, outer⟩ else none := by
  split
  · rename_i hname
    rw [← hname]
    exact close_top ⟨parent, outer⟩ e
  · rename_i hname
    have hfound : (openNames ⟨e, parent :: outer⟩).idxOf? name ≠ some 0 := by
      rw [openNames_cons]
      simp [List.idxOf?, List.findIdx?_cons, hname]
    unfold TreeBuilder.close
    split
    · rename_i hzero
      exact absurd hzero hfound
    · rfl
    · rename_i hreading _
      cases hreading
    · rename_i hreading _
      cases hreading

/-- **A strict reading of canonical tags succeeds if they nest** in the elements that are open. -/
theorem isSome_readPieces (h : ∀ body, .tag body ∈ ps → IsCanonicalBody body) (b : TreeBuilder) :
    ((b.readPieces .strict ps).bind (finish .strict)).isSome =
      nestsIn b.openNames (tagsAmong ps) := by
  -- The names of the open elements are the stack of the check, before and behind every piece.
  induction ps generalizing b with
  -- Both fail at the end if an element is still open.
  | nil =>
    obtain ⟨top, around⟩ := b
    cases around <;> rfl
  | cons p ps ih =>
    have hrest := ih fun body hbody => h body (List.mem_cons_of_mem p hbody)
    cases p with
    | char c =>
      rw [readPieces_char, hrest, tagsAmong_char, openNames_addText]
    | tag body =>
      rw [readPieces_cons, tagsAmong_tag]
      cases h body List.mem_cons_self with
      | opening hname =>
        rw [readPiece_name hname.isTagName, Option.bind_some, hrest, nestsIn_name hname]
        rfl
      | empty hname =>
        rw [readPiece_name_slash hname.isTagName, Option.bind_some, hrest, nestsIn_name_slash hname,
          openNames_addChild]
      -- Both compare the closing tag with the innermost element.
      | closing hname =>
        obtain ⟨top, around⟩ := b
        rw [readPiece_slash_name hname.isTagName]
        cases around with
        | nil =>
          rw [close_strict_root, openNames_root, nestsIn_nil_slash_name hname]
          rfl
        | cons parent outer =>
          rw [close_strict_cons, openNames_cons, nestsIn_cons_slash_name hname]
          split
          · rename_i htop
            rw [Option.bind_some, hrest, htop, beq_self_eq_true, Bool.true_and, openNames_addChild]
          · rename_i htop
            rw [beq_eq_false_iff_ne.mpr htop]
            rfl

/-! ## Elements -/

/-- **A tag that is read strictly where nothing is open** begins an element. -/
theorem exists_outline_of_readTag (h : IsCanonicalBody body)
    (hread : readPiece .strict ⟨e, []⟩ (.tag body) = some b') :
    ∃ name, (Piece.tag body).outline = [.tag name] := by
  cases h with
  | opening hname =>
    rw [Piece.outline, hname.isTagName.tagEvent_sole]
    exact ⟨_, rfl⟩
  | empty hname =>
    rw [Piece.outline, hname.isTagName.tagEvent_sole_empty]
    exact ⟨_, rfl⟩
  | closing hname =>
    rw [readPiece_slash_name hname.isTagName, close_strict_root] at hread
    cases hread

end TreeBuilder

/-- **The strict reading of a text with canonical names** succeeds exactly if its tags nest. -/
theorem isSome_treeOf?_canonical (h : '<' ∉ outside t) :
    (treeOf? .strict (Xml.items (Glyph.ofText (canonical t)))).isSome =
      isNested (tags (canonical t)) := by
  have htags : tagsAmong (renamed (dropMark (pieces t))) = tagsAmong (renamed (pieces t)) := by
    rw [renamed, renamed, ← dropMark_run, tagsAmong_dropMark]
  rw [treeOf?_canonical h,
    TreeBuilder.isSome_readPieces fun body hbody => isCanonicalBody_of_mem_renamed hbody,
    tags_canonical, htags]
  rfl

/-! ## Names that were given -/

namespace Renaming

variable {state : Renaming} {top tag : OpenedTag} {below opened : List OpenedTag} {n : Nat}

theorem run_tag_cons (state : Renaming) (body : Text) (ps : List Piece) :
    state.run (.tag body :: ps) = .tag (state.step body).1 :: (state.step body).2.run ps := rfl

theorem length_tagsAmong_run (state : Renaming) (ps : List Piece) :
    (tagsAmong (state.run ps)).length = (tagsAmong ps).length := by
  induction ps generalizing state with
  | nil => rfl
  | cons p ps ih =>
    cases p with
    | char c => exact ih state
    | tag body => exact congrArg (· + 1) (ih _)

/-! ## One tag -/

/-- A tag that closes nothing does the same to both stacks. -/
theorem nestsIn_step (h : TagKind.of body ≠ .closing) (state : Renaming) (gs : List Text) :
    nestsIn (state.opened.map OpenedTag.name) (tagText body :: gs) =
        nestsIn ((state.step body).2.opened.map OpenedTag.name) gs ∧
      nestsIn (state.opened.map OpenedTag.canonical) (tagText (state.step body).1 :: gs) =
        nestsIn ((state.step body).2.opened.map OpenedTag.canonical) gs := by
  cases hkind : TagKind.of body with
  | closing => exact absurd hkind h
  | opening =>
    rw [step_of_opening hkind]
    refine ⟨?_, nestsIn_name (isName_canonicalName _ _) _ _⟩
    rw [nestsIn_of_opening (by rw [inside_tagText, hkind]), inside_tagText]
    rfl
  | selfClosing =>
    rw [step_of_selfClosing hkind]
    refine ⟨?_, nestsIn_name_slash (isName_canonicalName _ _) _ _⟩
    rw [nestsIn_of_selfClosing (by rw [inside_tagText, hkind])]

/-- **Tags that nest are renamed to tags that nest.** -/
theorem nestsIn_run (hnames : HasNames state.opened)
    (h : nestsIn (state.opened.map OpenedTag.name) (tagsAmong ps) = true) :
    nestsIn (state.opened.map OpenedTag.canonical) (tagsAmong (state.run ps)) = true := by
  -- The two checks have the same tags on their stacks, each under the names that it compares.
  induction ps generalizing state with
  | nil =>
    obtain ⟨opened, given⟩ := state
    cases opened with
    | nil => rfl
    | cons => cases h
  | cons p ps ih =>
    cases p with
    | char c => exact ih hnames h
    | tag body =>
      rw [tagsAmong_tag] at h
      rw [run_tag_cons, tagsAmong_tag]
      by_cases hkind : TagKind.of body = .closing
      · have hinside : TagKind.of (inside (tagText body)) = .closing := by
          rw [inside_tagText, hkind]
        obtain ⟨opened, given⟩ := state
        cases opened with
        | nil =>
          rw [List.map_nil, nestsIn_nil_of_closing hinside] at h
          cases h
        | cons top below =>
          rw [List.map_cons, nestsIn_cons_of_closing hinside, inside_tagText,
            Bool.and_eq_true, beq_iff_eq] at h
          obtain ⟨hname, hrest⟩ := h
          obtain ⟨htop, hbelow⟩ := List.forall_mem_cons.mp hnames
          -- The tag closes the innermost open one, so it gets the name that stands on the stack.
          rw [step_of_closing hkind, close_cons_of_eq hname, List.map_cons,
            nestsIn_cons_slash_name htop, beq_self_eq_true, Bool.true_and]
          have hafter : HasNames (Renaming.mk below given).opened := hbelow
          exact ih hafter hrest
      · rw [(nestsIn_step hkind state _).2]
        rw [(nestsIn_step hkind state _).1] at h
        exact ih (hnames.step body).2 h

/-! ## Different names -/

/-- The open tags have different names among those that were given. -/
structure IsFresh (state : Renaming) : Prop where
  numbered : ∀ tag ∈ state.opened, ∃ k ≤ state.given, tag.canonical = numberedName k
  distinct : state.opened.Pairwise fun a b => a.canonical ≠ b.canonical

theorem IsFresh.hasNames (h : state.IsFresh) : HasNames state.opened := by
  intro tag htag
  obtain ⟨k, -, hk⟩ := h.numbered tag htag
  rw [hk]
  exact isName_numberedName k

theorem IsFresh.step (h : state.IsFresh) (hkind : TagKind.of body ≠ .closing)
    (hname : TagKind.of body = .opening → isIdentifier (tagName body) = true) :
    (state.step body).2.IsFresh := by
  have hkept : ∀ tag ∈ state.opened, ∃ k ≤ state.given + 1, tag.canonical = numberedName k := by
    intro tag htag
    obtain ⟨k, hk, htag⟩ := h.numbered tag htag
    exact ⟨k, Nat.le_succ_of_le hk, htag⟩
  cases hopening : TagKind.of body with
  | closing => exact absurd hopening hkind
  | selfClosing =>
    rw [step_of_selfClosing hopening]
    exact ⟨hkept, h.distinct⟩
  | opening =>
    have hnew : canonicalName (tagName body) (state.given + 1) =
        numberedName (state.given + 1) := by
      rw [canonicalName, if_pos (hname hopening), numberedName]
    rw [step_of_opening hopening, hnew]
    refine ⟨List.forall_mem_cons.mpr ⟨⟨_, Nat.le_refl _, rfl⟩, hkept⟩,
      List.pairwise_cons.mpr ⟨?_, h.distinct⟩⟩
    -- The new number is greater than all those given before.
    intro tag htag heq
    obtain ⟨k, hk, hcanonical⟩ := h.numbered tag htag
    have hsame := numberedName_injective (heq.trans hcanonical)
    omega

/-- A closing tag that is not the one of the innermost open tag does not get its name. -/
theorem IsFresh.close_ne (h : IsFresh ⟨top :: below, n⟩) (hname : top.name ≠ name) :
    top.canonical ≠ (close name (top :: below)).1 := by
  obtain ⟨k, -, hk⟩ := h.numbered top List.mem_cons_self
  rcases (close_cons_of_ne hname below).2 with hletter | ⟨tag, htag, hcanonical⟩
  · rw [hletter, hk]
    exact numberedName_ne_tagLetter k
  · rw [hcanonical]
    exact (List.pairwise_cons.mp h.distinct).1 tag htag

/-- **Tags whose names are identifiers** nest exactly if they nest under their new names. -/
theorem nestsIn_run_eq (h : state.IsFresh) (hps : ∀ body, .tag body ∈ ps →
      TagKind.of body = .opening → isIdentifier (tagName body) = true) :
    nestsIn (state.opened.map OpenedTag.canonical) (tagsAmong (state.run ps)) =
      nestsIn (state.opened.map OpenedTag.name) (tagsAmong ps) := by
  -- A closing tag is compared with one name on each side, and different names on one side are
  -- different on the other: that is what fresh names are for.
  induction ps generalizing state with
  | nil =>
    obtain ⟨opened, given⟩ := state
    cases opened <;> rfl
  | cons p ps ih =>
    have hlater := fun body hbody => hps body (List.mem_cons_of_mem p hbody)
    cases p with
    | char c => exact ih h hlater
    | tag body =>
      rw [run_tag_cons, tagsAmong_tag, tagsAmong_tag]
      by_cases hkind : TagKind.of body = .closing
      · have hinside : TagKind.of (inside (tagText body)) = .closing := by
          rw [inside_tagText, hkind]
        obtain ⟨opened, given⟩ := state
        rw [step_of_closing hkind]
        have hclosed := (h.hasNames.close (tagName body)).1
        cases opened with
        | nil => rw [List.map_nil, nestsIn_nil_slash_name hclosed, List.map_nil,
            nestsIn_nil_of_closing hinside]
        | cons top below =>
          rw [List.map_cons, List.map_cons, nestsIn_cons_slash_name hclosed,
            nestsIn_cons_of_closing hinside, inside_tagText]
          by_cases hname : top.name = tagName body
          · have hbelow : IsFresh ⟨below, given⟩ :=
              ⟨(List.forall_mem_cons.mp h.numbered).2, (List.pairwise_cons.mp h.distinct).2⟩
            rw [close_cons_of_eq hname, hname, beq_self_eq_true, beq_self_eq_true,
              Bool.true_and, Bool.true_and]
            exact ih hbelow hlater
          -- Both checks compare two names that differ.
          · rw [beq_eq_false_iff_ne.mpr (h.close_ne hname), beq_eq_false_iff_ne.mpr hname,
              Bool.false_and, Bool.false_and]
      · rw [(nestsIn_step hkind state _).1, (nestsIn_step hkind state _).2]
        exact ih (h.step hkind (hps body List.mem_cons_self)) hlater

end Renaming

/-! ## Broken nesting -/

theorem isNested_canonical (h : isNested (tags t) = true) :
    isNested (tags (canonical t)) = true := by
  have hnames : Renaming.HasNames [] := fun _ htag => absurd htag List.not_mem_nil
  rw [tags_canonical]
  exact @Renaming.nestsIn_run (pieces t) ⟨[], 0⟩ hnames h

theorem isNested_canonical_eq
    (h : ∀ body ∈ tagBodies t, TagKind.of body = .opening → isIdentifier (tagName body) = true) :
    isNested (tags (canonical t)) = isNested (tags t) := by
  have hfresh : Renaming.IsFresh ⟨[], 0⟩ :=
    ⟨fun _ htag => absurd htag List.not_mem_nil, List.Pairwise.nil⟩
  rw [tags_canonical]
  refine Renaming.nestsIn_run_eq hfresh fun body hbody => h body ?_
  exact List.mem_filterMap.mpr ⟨_, hbody, rfl⟩

/-- A text with tags becomes a tree with elements. -/
theorem children_ne_nil_of_treeOf? {root : Element} (htags : hasTags t = true)
    (hopen : '<' ∉ outside t)
    (htree : treeOf? .strict (Xml.items (Glyph.ofText (canonical t))) = some root) :
    root.children ≠ .nil := by
  -- There are as many tags as before, so there is a first one.
  have hlength : (tagsAmong (renamed (dropMark (pieces t)))).length = (tags t).length := by
    rw [renamed, Renaming.length_tagsAmong_run, tagsAmong_dropMark, tags_eq_tagsAmong]
  obtain ⟨a, rest, hpieces, hrest⟩ := exists_chars_append (renamed (dropMark (pieces t)))
  rw [hpieces, tagsAmong_map_char_append] at hlength
  rcases hrest with rfl | ⟨body, rest, rfl⟩
  · have hnone := tags_eq_nil_iff.mp (List.eq_nil_of_length_eq_zero hlength.symm)
    rw [htags] at hnone
    cases hnone
  · have hbody : .tag body ∈ renamed (dropMark (pieces t)) :=
      hpieces ▸ List.mem_append_right _ List.mem_cons_self
    have hnames := root.filterMap_body?_outline
    rw [outline_of_treeOf?_canonical hopen htree, hpieces] at hnames
    rw [treeOf?_canonical hopen, hpieces] at htree
    obtain ⟨b, hread, -⟩ := Option.bind_eq_some_iff.mp htree
    rw [TreeBuilder.readPieces_chars] at hread
    obtain ⟨next, hnext, -⟩ := Option.bind_eq_some_iff.mp hread
    obtain ⟨name, hname⟩ :=
      TreeBuilder.exists_outline_of_readTag (isCanonicalBody_of_mem_renamed hbody) hnext
    intro hnil
    rw [hnil] at hnames
    simp [hname, filterMap_body?_tag, List.filterMap_append, Forest.names] at hnames

/-- Reduction and numbering leave an element. -/
theorem NormalForm.forest_ofTree_ne_nil {root : Element} (htags : hasTags t = true)
    (hopen : '<' ∉ outside t)
    (htree : treeOf? .strict (Xml.items (Glyph.ofText (canonical t))) = some root) :
    (ofTree htree).forest ≠ .nil :=
  Forest.renumber_ne_nil (Forest.reduce_ne_nil (children_ne_nil_of_treeOf? htags hopen htree))

/-- A text that becomes a tree keeps tags. -/
theorem hasTags_normalize (htags : hasTags t = true) (hopen : '<' ∉ outside t)
    (h : isNested (tags (canonical t)) = true) : hasTags (normalize t) = true := by
  rw [← isSome_treeOf?_canonical hopen] at h
  obtain ⟨root, htree⟩ := Option.isSome_iff_exists.mp h
  rw [normalize_of_tree htags htree]
  exact NormalForm.hasTags_markup _ (NormalForm.forest_ofTree_ne_nil htags hopen htree)

/-- The text without its tags has none. -/
theorem hasTags_unmarked (htags : hasTags t = true) (hopen : '<' ∉ outside t) :
    hasTags (unmarked t) = false := by
  apply hasTags_eq_false_of_no_open
  rintro c hc rfl
  exact hopen (mem_outside.mpr (char_mem_of_open_mem_unmarked htags hc))

/-- **Which broken nesting is found.**  Normalization drops the tags of a text exactly if its
canonical tags do not nest.  Tags that nest are kept; broken nesting is found if the names of all
opening tags are identifiers. -/
theorem normalize_eq_unmarked_iff (htags : hasTags t = true) (hopen : '<' ∉ outside t) :
    (normalize t = unmarked t ↔ isNested (tags (canonical t)) = false) ∧
      (isNested (tags t) = true → hasTags (normalize t) = true) ∧
      ((∀ body ∈ tagBodies t, TagKind.of body = .opening → isIdentifier (tagName body) = true) →
        isNested (tags t) = false → normalize t = unmarked t) := by
  -- A tree keeps tags, and the text without its tags has none: the two outcomes differ.
  have hiff : normalize t = unmarked t ↔ isNested (tags (canonical t)) = false := by
    cases hnested : isNested (tags (canonical t)) with
    | true =>
      refine iff_of_false (fun heq => ?_) (by decide)
      have htagged := hasTags_normalize htags hopen hnested
      rw [heq, hasTags_unmarked htags hopen] at htagged
      cases htagged
    | false =>
      rw [← isSome_treeOf?_canonical hopen, Option.isSome_eq_false_iff, Option.isNone_iff_eq_none]
        at hnested
      exact iff_of_true (normalize_of_no_tree htags hnested) rfl
  refine ⟨hiff, fun h => hasTags_normalize htags hopen (isNested_canonical h), fun hnames h => ?_⟩
  rw [hiff, isNested_canonical_eq hnames, h]

theorem normalize_eq_unmarked_crossing :
    hasTags "<b><i>x</b></i>".toList = true ∧ '<' ∉ outside "<b><i>x</b></i>".toList ∧
      normalize "<b><i>x</b></i>".toList = unmarked "<b><i>x</b></i>".toList :=
  ⟨by decide, by decide,
    (normalize_eq_unmarked_iff (by decide) (by decide)).2.2 (by decide) (by decide)⟩

/-- Names that are no identifiers all become the same name, under which two tags that cross look
like two that nest. -/
theorem normalize_ne_unmarked_digits :
    isNested (tags "<1><2>x</1></2>".toList) = false ∧
      normalize "<1><2>x</1></2>".toList = "<T1>x</T1>".toList ∧
      unmarked "<1><2>x</1></2>".toList = "x".toList := by
  decide +kernel

end Bitext.Markup
