import Bitext.Proofs.Markup.Strict

/-!
# Normalization as a projection

Normalization leads into the texts that it leaves alone: those without tags, and those whose tags
write a tree that is reduced and numbered in document order.  What is written of such a tree is read
as the same tree again, so neither reduction nor numbering finds anything to do.

Only a byte order mark could be in the way, which the reader drops at the start of a text.  Nothing
in front of the text of a tree is ever removed, so the mark comes to the start only if it was there.

## Main results

* `Forest.names_renumber`: numbering counts the elements in document order
* `head?_text_of_treeOf?`: the text of a tree starts as the text it was read from
* `normalize_projects`: what normalization leads to, and that it leaves that alone
-/

namespace Bitext.Markup

open Bitext.Unicode (Glyph)

variable {t : Text}

/-! ## Names in document order -/

namespace Forest

variable {f : Forest} {n : Nat}

theorem renumber_snd (stem : Text) (n : Nat) (f : Forest) :
    (f.renumber stem n).2 = n + f.count := by
  induction f generalizing n with
  | nil => rfl
  | cons name text children tail rest ihc ihr =>
    simp only [renumber, ihc, ihr, count]
    omega

/-- **Numbering counts the elements in document order.** -/
theorem names_renumber (stem : Text) (n : Nat) (f : Forest) :
    (f.renumber stem n).1.names =
      (List.range' (n + 1) f.count).map fun k => stem ++ Text.ofNat k := by
  induction f generalizing n with
  | nil => rfl
  | cons name text children tail rest ihc ihr =>
    -- The element comes first, then what is inside it, and its siblings go on from there.
    have hsplit : List.range' (n + 1) (1 + children.count + rest.count) =
        (n + 1) :: (List.range' (n + 1 + 1) children.count ++
          List.range' (n + 1 + children.count + 1) rest.count) := by
      rw [Nat.add_assoc, Nat.add_comm 1, List.range'_succ, Nat.add_right_comm (n + 1),
        List.range'_append_1]
    simp only [renumber, names, ihc, ihr, renumber_snd, count, hsplit, List.map_cons,
      List.map_append]

theorem names_of_isNumbered (h : f.IsNumbered n) :
    f.names = (List.range' (n + 1) f.count).map numberedName := by
  have hnames := names_renumber tagLetter n f
  rwa [h] at hnames

end Forest

/-! ## The start of a text -/

theorem head?_canonical (t : Text) : (canonical t).head? = t.head? := by
  have htext := unparse_pieces t
  rw [canonical]
  cases hpieces : pieces t with
  | nil =>
    rw [← htext, hpieces]
    rfl
  | cons p ps =>
    rw [← htext, hpieces]
    cases p <;> rfl

/-- **The text of a tree starts as the text it was read from**, which does not start with a byte
order mark. -/
theorem head?_text_of_treeOf? {root : Element} (hopen : '<' ∉ outside t)
    (hmark : t.head? ≠ some '\uFEFF')
    (htree : treeOf? .strict (Xml.items (Glyph.ofText (canonical t))) = some root) :
    root.text.head? ≠ some '\uFEFF' := by
  have houtline := outline_of_treeOf?_canonical hopen htree
  rw [dropMark_pieces hmark] at houtline
  obtain ⟨-, hsame⟩ := List.cons.inj houtline
  rw [treeOf?_canonical hopen, dropMark_pieces hmark] at htree
  obtain ⟨b, hread, -⟩ := Option.bind_eq_some_iff.mp htree
  intro hhead
  have hfirst : ((renamed (pieces t)).flatMap Piece.outline).head? = some (.char '\uFEFF') := by
    rw [← hsame, List.head?_append, List.head?_map, hhead]
    rfl
  have hcanonical : canonical t = unparse (renamed (pieces t)) := rfl
  cases hpieces : renamed (pieces t) with
  | nil =>
    rw [hpieces] at hfirst
    cases hfirst
  | cons p ps =>
    rw [hpieces] at hfirst hread hcanonical
    cases p with
    | char c =>
      cases hfirst
      rw [← head?_canonical, hcanonical] at hmark
      exact hmark rfl
    -- If a tag comes first, the outline begins with the name of an element.
    | tag body =>
      have hbody : .tag body ∈ renamed (pieces t) := hpieces ▸ List.mem_cons_self
      obtain ⟨next, hnext, -⟩ := Option.bind_eq_some_iff.mp hread
      obtain ⟨name, hname⟩ :=
        TreeBuilder.exists_outline_of_readTag (isCanonicalBody_of_mem_renamed hbody) hnext
      rw [List.flatMap_cons, hname] at hfirst
      cases hfirst

/-! ## Projection -/

/-- A normal form that does not start with a byte order mark is read as the tree that it writes. -/
theorem NormalForm.parse_markup (m : NormalForm) (hmark : m.text.head? ≠ some '\uFEFF') :
    parse .strict m.markup = .tree ⟨[], m.text, m.forest, []⟩ := by
  have hparse : parse .strict m.markup = .tree ⟨[], withoutMark m.text, m.forest, []⟩ :=
    m.isLegible.parse_eq .strict
  rwa [withoutMark_of_head?_ne hmark] at hparse

/-- **Normalization is a projection onto canonical markup**, for texts that neither have an opening
bracket outside their tags nor start with a byte order mark.  What it leads to has no tags, or it is
read strictly as a tree whose elements are numbered in document order and that reduction leaves
unchanged; and normalizing once more changes nothing. -/
theorem normalize_projects (hopen : '<' ∉ outside t) (hmark : t.head? ≠ some '\uFEFF') :
    (hasTags (normalize t) = false ∨
      ∃ root, parse .strict (normalize t) = .tree root ∧
        root.children.names = (List.range' 1 root.count).map numberedName ∧
        root.reduce = root) ∧
      normalize (normalize t) = normalize t := by
  have hplain {u : Text} (h : hasTags u = false) : normalize u = u := by
    rw [normalize, h]
    rfl
  cases htags : hasTags t with
  | false =>
    rw [hplain htags]
    exact ⟨.inl htags, hplain htags⟩
  | true =>
    cases htree : treeOf? .strict (Xml.items (Glyph.ofText (canonical t))) with
    | none =>
      have hunmarked := hasTags_unmarked htags hopen
      rw [normalize_of_no_tree htags htree]
      exact ⟨.inl hunmarked, hplain hunmarked⟩
    | some root =>
      rw [normalize_of_tree htags htree]
      -- The normal form is written, and what is written is read as the same normal form.
      have helement := NormalForm.forest_ofTree_ne_nil htags hopen htree
      have htext : (NormalForm.ofTree htree).text.head? ≠ some '\uFEFF' :=
        head?_text_of_treeOf? hopen hmark htree
      generalize NormalForm.ofTree htree = m at helement htext
      refine ⟨.inr ⟨_, m.parse_markup htext, Forest.names_of_isNumbered m.isNumbered, ?_⟩, ?_⟩
      · rw [Element.reduce, Forest.reduce_of_isReduced m.isReduced]
      · rw [m.normalize_markup helement, withoutMark_of_head?_ne htext, NormalForm.markup]

/-- Tags that reduction drops, around and between tags that it keeps. -/
def redundantTags : Text := "a > b<b> <i>x<br/></i></b><p></p> <q/>".toList

theorem normalize_projects_redundant :
    normalize redundantTags = "a > b<T1>x<T2/></T1><T3/> ".toList ∧
      (∃ root, parse .strict "a > b<T1>x<T2/></T1><T3/> ".toList = .tree root ∧
        root.children.names = ["T1".toList, "T2".toList, "T3".toList] ∧ root.reduce = root) ∧
      normalize "a > b<T1>x<T2/></T1><T3/> ".toList = "a > b<T1>x<T2/></T1><T3/> ".toList := by
  have hopen : '<' ∉ outside redundantTags := by decide
  have hmark : redundantTags.head? ≠ some '\uFEFF' := by decide
  have hnormal : normalize redundantTags = "a > b<T1>x<T2/></T1><T3/> ".toList := by
    decide +kernel
  obtain ⟨hcanonical, hfixed⟩ := normalize_projects hopen hmark
  rw [hnormal] at hcanonical hfixed
  refine ⟨hnormal, ?_, hfixed⟩
  rcases hcanonical with hplain | ⟨root, hparse, -, hreduced⟩
  · exact absurd hplain (by decide)
  · have hread : parse .strict "a > b<T1>x<T2/></T1><T3/> ".toList =
        .tree ⟨[], "a > b".toList,
          .cons "T1".toList ['x'] (.cons "T2".toList [] .nil [] .nil) []
            (.cons "T3".toList [] .nil [' '] .nil), []⟩ := by
      decide +kernel
    refine ⟨root, hparse, ?_, hreduced⟩
    rw [hread] at hparse
    cases hparse
    rfl

end Bitext.Markup
