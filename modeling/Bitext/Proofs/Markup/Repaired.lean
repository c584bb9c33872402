import Bitext.Proofs.Markup.Recovering

/-!
# Repaired markup

Simplification and renaming write the tree that the recovering reading makes of a text, numbered in
document order, the latter after it has reduced the tree.  What they write can be read back, so both
of them leave it alone, but for a byte order mark at its start.

Simplification reads the text with canonical names.  Every canonical tag that is no closing tag
begins an element, whatever closes it, and characters outside tags stay where they are.  So nothing
is lost of a text in which no opening bracket stands outside tags.

## Main results

* `IsLegible.simplify_eq`, `NormalForm.rename_eq`: what both functions leave alone
* `simplify_rename_canonical`: what both functions write, and that they leave it alone
* `count_of_treeOf?_canonical`: the elements of a text with canonical names
* `simplify_keeps_text_and_elements`: what simplification keeps
-/

namespace Bitext.Markup

open Bitext.Unicode (Glyph)

variable {t body : Text} {f : Forest} {reading : Reading} {root : Element} {ps : List Piece}

/-! ## What is written -/

theorem simplify_of_no_tags (h : hasTags t = false) : simplify t = t := by
  rw [simplify, h]
  rfl

theorem simplify_of_tree (htags : hasTags t = true)
    (h : parse .recovering (canonical t) = .tree root) :
    simplify t = root.text ++ (root.children.renumber tagLetter 0).1.print := by
  rw [simplify, if_pos htags, h]
  rfl

theorem rename_of_tree (htags : hasTags t = true)
    (h : treeOf? .recovering (Xml.items (Glyph.ofText t)) = some root) :
    rename t = (NormalForm.ofTree h).markup := by
  rw [rename, if_pos htags, parse_eq_tree_iff.mpr h]
  rfl

/-- What can be read back is simple, if it does not begin with a byte order mark. -/
theorem IsLegible.simplify_eq (h : IsLegible t f) (hmark : (t ++ f.print).head? ≠ some '\uFEFF') :
    simplify (t ++ f.print) = t ++ f.print := by
  cases htags : hasTags (t ++ f.print) with
  | false => exact simplify_of_no_tags htags
  | true =>
    have hparse := h.parse_eq .recovering
    rw [(withoutMark_eq_self_iff_append_print t f).mpr hmark, ← h.canonical_eq] at hparse
    rw [simplify_of_tree htags hparse]
    exact congrArg (t ++ ·.print) h.isNumbered

theorem NormalForm.rename_eq (m : NormalForm) (hmark : m.markup.head? ≠ some '\uFEFF') :
    rename m.markup = m.markup := by
  cases htags : hasTags m.markup with
  | false =>
    rw [rename, htags]
    rfl
  | true =>
    have hparse : parse .recovering m.markup = _ := m.isLegible.parse_eq .recovering
    rw [(withoutMark_eq_self_iff_append_print m.text m.forest).mpr hmark] at hparse
    rw [rename, if_pos htags, hparse]
    simp only [Element.markup, Element.renumber, Element.reduce]
    rw [Forest.reduce_of_isReduced m.isReduced, m.isNumbered, markup]

/-- What can be read back is read strictly as a tree that is numbered in document order. -/
theorem IsLegible.parse_strict_eq (h : IsLegible t f)
    (hmark : (t ++ f.print).head? ≠ some '\uFEFF') :
    parse .strict (t ++ f.print) = .tree ⟨[], t, f, []⟩ ∧
      f.names = (List.range' 1 f.count).map numberedName := by
  have hparse := h.parse_eq .strict
  rw [(withoutMark_eq_self_iff_append_print t f).mpr hmark] at hparse
  exact ⟨hparse, Forest.names_of_isNumbered h.isNumbered⟩

/-- **Both functions write canonical markup and leave it alone.**  Let a text have tags and be read
in recovery as a tree, and let what the function writes not begin with a byte order mark.  Then that
is read strictly as a tree whose elements are numbered in document order and which, behind renaming,
reduction leaves unchanged; and the function, applied once more, changes nothing. -/
theorem simplify_rename_canonical (htags : hasTags t = true) :
    (∀ root, parse .recovering (canonical t) = .tree root →
        (simplify t).head? ≠ some '\uFEFF' →
        (∃ tree, parse .strict (simplify t) = .tree tree ∧
          tree.children.names = (List.range' 1 tree.count).map numberedName) ∧
        simplify (simplify t) = simplify t) ∧
      ∀ root, parse .recovering t = .tree root → (rename t).head? ≠ some '\uFEFF' →
        (∃ tree, parse .strict (rename t) = .tree tree ∧
          tree.children.names = (List.range' 1 tree.count).map numberedName ∧
          tree.reduce = tree) ∧
        rename (rename t) = rename t := by
  refine ⟨fun root hroot hmark => ?_, fun root hroot hmark => ?_⟩
  · have hlegible := isLegible_of_treeOf? (parse_eq_tree_iff.mp hroot)
    rw [simplify_of_tree htags hroot] at hmark ⊢
    obtain ⟨hparse, hnames⟩ := hlegible.parse_strict_eq hmark
    exact ⟨⟨_, hparse, hnames⟩, hlegible.simplify_eq hmark⟩
  · have htree := parse_eq_tree_iff.mp hroot
    rw [rename_of_tree htags htree] at hmark ⊢
    generalize NormalForm.ofTree htree = m at hmark
    obtain ⟨hparse, hnames⟩ := m.isLegible.parse_strict_eq hmark
    refine ⟨⟨_, hparse, hnames, ?_⟩, m.rename_eq hmark⟩
    rw [Element.reduce, Forest.reduce_of_isReduced m.isReduced]

/-- A closing tag that closes two elements, one that closes none, and a comment, which
simplification takes for a tag that is never closed. -/
def brokenTags : Text := "a <i><b x='1'>p</i> q</b><!-- n --> <c/>".toList

theorem simplify_rename_canonical_brokenTags :
    hasTags brokenTags = true ∧
      ((∃ tree, parse .strict (simplify brokenTags) = .tree tree ∧
          tree.children.names = (List.range' 1 tree.count).map numberedName) ∧
        simplify (simplify brokenTags) = simplify brokenTags) ∧
      (∃ tree, parse .strict (rename brokenTags) = .tree tree ∧
          tree.children.names = (List.range' 1 tree.count).map numberedName ∧
          tree.reduce = tree) ∧
        rename (rename brokenTags) = rename brokenTags := by
  have htags : hasTags brokenTags = true := by decide +kernel
  have hcanonical : parse .recovering (canonical brokenTags) =
      .tree ⟨[], ['a', ' '],
        .cons ['T', '1'] [] (.cons ['T', '2'] ['p'] .nil [] .nil) [' ', 'q']
          (.cons ['T'] [' '] (.cons ['T', '4'] [] .nil [] .nil) [] .nil), []⟩ := by
    decide +kernel
  have hread : parse .recovering brokenTags =
      .tree ⟨[], ['a', ' '],
        .cons ['i'] [] (.cons ['b'] ['p'] .nil [] .nil) [' ', 'q', ' ']
          (.cons ['c'] [] .nil [] .nil), []⟩ := by
    decide +kernel
  have hsimple : (simplify brokenTags).head? ≠ some '\uFEFF' := by
    rw [simplify_of_tree htags hcanonical]
    simp
  have hrenamed : (rename brokenTags).head? ≠ some '\uFEFF' := by
    rw [rename_of_tree htags (parse_eq_tree_iff.mp hread)]
    simp [NormalForm.markup, NormalForm.ofTree]
  exact ⟨htags, (simplify_rename_canonical htags).1 _ hcanonical hsimple,
    (simplify_rename_canonical htags).2 _ hread hrenamed⟩

/-! ## Canonical tags and elements -/

/-- Renaming keeps the kind of a tag. -/
theorem Renaming.kind_step {state : Renaming} (h : HasNames state.opened) (body : Text) :
    TagKind.of (state.step body).1 = TagKind.of body := by
  cases hkind : TagKind.of body with
  | selfClosing =>
    rw [step_of_selfClosing hkind]
    exact kind_empty (isName_canonicalName _ _)
  | closing =>
    rw [step_of_closing hkind]
    exact kind_closing (h.close _).1
  | opening =>
    rw [step_of_opening hkind]
    exact kind_opening (isName_canonicalName _ _)

theorem Renaming.map_kind_run {state : Renaming} (h : HasNames state.opened) (ps : List Piece) :
    ((state.run ps).filterMap Piece.body?).map TagKind.of =
      (ps.filterMap Piece.body?).map TagKind.of := by
  induction ps generalizing state with
  | nil => rfl
  | cons p ps ih =>
    cases p with
    | char c => exact ih h
    | tag body =>
      rw [run, filterMap_body?_tag, filterMap_body?_tag, List.map_cons, List.map_cons,
        ih (h.step body).2, kind_step h body]

/-- A canonical tag begins an element unless it is a closing tag. -/
theorem IsCanonicalBody.isSome_name? (h : IsCanonicalBody body) :
    (Xml.tagEvent (Glyph.ofText body)).name?.isSome = (TagKind.of body != .closing) := by
  cases h with
  | opening hname =>
    rw [hname.isTagName.tagEvent_sole, kind_opening hname]
    rfl
  | empty hname =>
    rw [hname.isTagName.tagEvent_sole_empty, kind_empty hname]
    rfl
  | closing hname =>
    rw [kind_closing hname]
    rfl

theorem length_names_flatMap_outline (h : ∀ body, .tag body ∈ ps → IsCanonicalBody body) :
    ((ps.flatMap Piece.outline).filterMap Piece.body?).length =
      (ps.filterMap Piece.body?).countP fun body => TagKind.of body != .closing := by
  induction ps with
  | nil => rfl
  | cons p ps ih =>
    have hrest := ih fun body hbody => h body (List.mem_cons_of_mem p hbody)
    rw [List.flatMap_cons, List.filterMap_append, List.length_append, hrest]
    cases p with
    | char c => exact Nat.zero_add _
    | tag body =>
      have hname := (h body List.mem_cons_self).isSome_name?
      rw [Piece.outline, Xml.Event.filterMap_body?_outline, filterMap_body?_tag, List.countP_cons,
        ← hname, Nat.add_comm]
      cases (Xml.tagEvent (Glyph.ofText body)).name? <;> rfl

theorem Forest.count_renumber (stem : Text) (n : Nat) (f : Forest) :
    (f.renumber stem n).1.count = f.count := by
  rw [← length_names, names_renumber, List.length_map, List.length_range']

/-- **The elements of a text with canonical names**: one for each tag that is no closing tag. -/
theorem count_of_treeOf?_canonical (hopen : '<' ∉ outside t)
    (h : treeOf? reading (Xml.items (Glyph.ofText (canonical t))) = some root) :
    root.count = (tagBodies t).countP fun body => TagKind.of body != .closing := by
  have hnames := root.filterMap_body?_outline
  rw [outline_of_treeOf?_canonical hopen h, filterMap_body?_tag] at hnames
  obtain ⟨-, hchildren⟩ := List.cons.inj hnames
  -- The names are as many as the tags that begin elements, and renaming keeps the kinds of tags.
  have hkinds : ((renamed (dropMark (pieces t))).filterMap Piece.body?).map TagKind.of =
      (tagBodies t).map TagKind.of := by
    rw [renamed, Renaming.map_kind_run (fun _ htag => absurd htag List.not_mem_nil),
      filterMap_body?_dropMark, tagBodies_eq]
  have hcount := congrArg (List.countP (· != .closing)) hkinds
  rw [List.countP_map, List.countP_map] at hcount
  rw [Element.count, ← Forest.length_names, ← hchildren,
    length_names_flatMap_outline fun body hbody => isCanonicalBody_of_mem_renamed hbody]
  exact hcount

/-! ## What simplification keeps -/

/-- Canonical names never keep a text from being read in recovery. -/
theorem exists_treeOf?_canonical (hopen : '<' ∉ outside t) :
    ∃ root, treeOf? .recovering (Xml.items (Glyph.ofText (canonical t))) = some root := by
  obtain ⟨b, hread⟩ :=
    TreeBuilder.initial.exists_readPieces_recovering (renamed (dropMark (pieces t)))
  rw [treeOf?_canonical hopen, hread]
  exact ⟨_, rfl⟩

/-- What simplification makes of a text in which no opening bracket stands outside tags. -/
theorem exists_simplify_eq (hopen : '<' ∉ outside t) (hmark : t.head? ≠ some '\uFEFF') :
    ∃ u f, IsLegible u f ∧ simplify t = u ++ f.print ∧ u ++ f.content = outside t ∧
      f.count = (tagBodies t).countP fun body => TagKind.of body != .closing := by
  cases htags : hasTags t with
  | false =>
    have hnone := tags_eq_nil_iff.mpr htags
    have hplain := outside_of_tags_eq_nil hnone
    have hno : ∀ c ∈ t, c ≠ '<' := by
      rintro c hc rfl
      exact hopen (hplain.symm ▸ hc)
    refine ⟨t, .nil, ⟨hno, trivial, rfl⟩, ?_, ?_, ?_⟩
    · rw [simplify_of_no_tags htags, Forest.print, List.append_nil]
    · rw [Forest.content, List.append_nil, hplain]
    · rw [List.map_eq_nil_iff.mp hnone]
      rfl
  | true =>
    obtain ⟨root, htree⟩ := exists_treeOf?_canonical hopen
    refine ⟨root.text, (root.children.renumber tagLetter 0).1, isLegible_of_treeOf? htree,
      simplify_of_tree htags (parse_eq_tree_iff.mpr htree), ?_, ?_⟩
    · rw [Forest.content_renumber, ← Element.content, content_of_treeOf? hopen htree,
        dropMark_pieces hmark, outside]
    · rw [Forest.count_renumber, ← Element.count, count_of_treeOf?_canonical hopen htree]

/-- **Simplification loses no text and no element**, however badly the tags nest, of a text that
neither has an opening bracket outside its tags nor starts with a byte order mark.  Outside its tags
the result has the same characters, blanks included, and it is read, in both readings, as a tree
with as many elements as the text has tags that are no closing tags. -/
theorem simplify_keeps_text_and_elements (hopen : '<' ∉ outside t)
    (hmark : t.head? ≠ some '\uFEFF') :
    outside (simplify t) = outside t ∧
      ∀ reading, ∃ root, parse reading (simplify t) = .tree root ∧
        root.count = (tagBodies t).countP fun body => TagKind.of body != .closing := by
  obtain ⟨u, f, hlegible, hsimple, hcontent, hcount⟩ := exists_simplify_eq hopen hmark
  rw [hsimple]
  refine ⟨?_, fun reading => ⟨_, hlegible.parse_eq reading, hcount⟩⟩
  rw [hlegible.outside_eq, hcontent]

/-- A closing tag in front of one for an element further inside, which is never closed, and behind
them a tag that is never closed either. -/
def crossedTags : Text := "x > <i>a<b></i></b> y<u> z".toList

theorem simplify_keeps_crossedTags :
    '<' ∉ outside crossedTags ∧ crossedTags.head? ≠ some '\uFEFF' ∧
      outside (simplify crossedTags) = outside crossedTags ∧
      ∀ reading, ∃ root, parse reading (simplify crossedTags) = .tree root ∧
        root.count = (tagBodies crossedTags).countP fun body => TagKind.of body != .closing := by
  have hopen : '<' ∉ outside crossedTags := by decide
  have hmark : crossedTags.head? ≠ some '\uFEFF' := by decide
  exact ⟨hopen, hmark, simplify_keeps_text_and_elements hopen hmark⟩

end Bitext.Markup
