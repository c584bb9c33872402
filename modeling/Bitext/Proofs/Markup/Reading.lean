import Bitext.Proofs.Markup.Normal
import Bitext.Proofs.Markup.Outside

/-!
# Reading a text with canonical names

Renaming replaces the tags of a text by others, so the text is cut into the same pieces but for
their names.  The reader takes canonical tags for what they are, and so it reads a text with
canonical names piece by piece, unless an opening bracket stands outside its tags.

## Main definitions

* `IsCanonicalBody`: what renaming leaves between the brackets of a tag.
* `renamed`: pieces with canonical names.

## Main results

* `pieces_canonical`: the pieces of a text with canonical names
* `treeOf?_canonical`: reading such a text
* `normalize_of_tree`, `normalize_of_no_tree`: the two outcomes of normalization
-/

namespace Bitext.Markup

open Bitext.Unicode (Glyph)
open Bitext.Xml (IsName)

variable {name t a body : Text} {reading : Reading} {p : Piece} {ps : List Piece}

/-! ## Tags with canonical names -/

/-- What renaming leaves between the brackets of a tag: a name, and at most one slash. -/
inductive IsCanonicalBody : Text → Prop
  | opening {name : Text} (h : IsName name) : IsCanonicalBody name
  | empty {name : Text} (h : IsName name) : IsCanonicalBody (name ++ ['/'])
  | closing {name : Text} (h : IsName name) : IsCanonicalBody ('/' :: name)

theorem IsCanonicalBody.isTagBody (h : IsCanonicalBody body) : IsTagBody body := by
  cases h with
  | opening hname => exact isTagBody_name hname.isTagName
  | empty hname => exact isTagBody_empty hname.isTagName
  | closing hname => exact isTagBody_closing hname.isTagName

theorem IsCanonicalBody.isSimple (h : IsCanonicalBody body) : (Piece.tag body).IsSimple := by
  cases h with
  | opening hname => exact isSimple_name hname.isTagName
  | empty hname => exact isSimple_name_slash hname.isTagName
  | closing hname => exact isSimple_slash_name hname.isTagName

theorem isName_tagLetter : IsName tagLetter := by decide

theorem isName_canonicalName (name : Text) (n : Nat) : IsName (Renaming.canonicalName name n) := by
  unfold Renaming.canonicalName
  split
  · exact isName_numberedName n
  · exact isName_tagLetter

namespace Renaming

variable {state : Renaming} {opened : List OpenedTag}

/-- The open tags have names that a tag can hold. -/
def HasNames (opened : List OpenedTag) : Prop := ∀ tag ∈ opened, IsName tag.canonical

theorem HasNames.close (h : HasNames opened) (name : Text) :
    IsName (close name opened).1 ∧ HasNames (close name opened).2 := by
  cases opened with
  | nil => exact ⟨isName_tagLetter, h⟩
  | cons top below =>
    obtain ⟨htop, hbelow⟩ := List.forall_mem_cons.mp h
    rw [Renaming.close]
    split
    · exact ⟨htop, hbelow⟩
    · split
      · rename_i tag hfound
        exact ⟨hbelow tag (List.mem_of_find?_eq_some hfound), h⟩
      · exact ⟨isName_tagLetter, h⟩

/-- Renaming a tag leaves a canonical one. -/
theorem HasNames.step (h : HasNames state.opened) (body : Text) :
    IsCanonicalBody (state.step body).1 ∧ HasNames (state.step body).2.opened := by
  unfold Renaming.step
  cases TagKind.of body with
  | selfClosing => exact ⟨.empty (isName_canonicalName _ _), h⟩
  | closing => exact ⟨.closing (h.close _).1, (h.close _).2⟩
  | opening =>
    exact ⟨.opening (isName_canonicalName _ _),
      List.forall_mem_cons.mpr ⟨isName_canonicalName _ _, h⟩⟩

theorem HasNames.run (h : HasNames state.opened) (ps : List Piece) :
    ∀ body, .tag body ∈ state.run ps → IsCanonicalBody body := by
  induction ps generalizing state with
  | nil => exact fun body hbody => absurd hbody List.not_mem_nil
  | cons p ps ih =>
    intro body hbody
    cases p with
    | char c =>
      rcases List.mem_cons.mp hbody with heq | hbody
      · cases heq
      · exact ih h body hbody
    | tag other =>
      rcases List.mem_cons.mp hbody with heq | hbody
      · cases heq
        exact (h.step other).1
      · exact ih (h.step other).2 body hbody

/-- Renaming changes no character outside tags. -/
theorem map_char?_run (state : Renaming) (ps : List Piece) :
    (state.run ps).map Piece.char? = ps.map Piece.char? := by
  induction ps generalizing state with
  | nil => rfl
  | cons p ps ih =>
    cases p with
    | char c => exact congrArg (some c :: ·) (ih state)
    | tag body => exact congrArg (none :: ·) (ih _)

end Renaming

/-- The pieces of a text with canonical names for tags. -/
def renamed (ps : List Piece) : List Piece := Renaming.run ⟨[], 0⟩ ps

@[simp] theorem filterMap_char?_renamed (ps : List Piece) :
    (renamed ps).filterMap Piece.char? = ps.filterMap Piece.char? :=
  filterMap_char?_congr (Renaming.map_char?_run _ _)

theorem isCanonicalBody_of_mem_renamed (h : .tag body ∈ renamed ps) : IsCanonicalBody body :=
  Renaming.HasNames.run (fun _ htag => absurd htag List.not_mem_nil) ps body h

/-- **The tags of a text with canonical names** are those that were renamed. -/
theorem pieces_canonical (t : Text) : pieces (canonical t) = renamed (pieces t) := by
  have hcut : IsCut (renamed (pieces t)) :=
    -- Tags were replaced by tags and nothing else has changed, so the cut is the same.
    (isCut_pieces t).of_map_char? (Renaming.map_char?_run _ _).symm fun body hbody =>
      (isCanonicalBody_of_mem_renamed hbody).isTagBody
  exact hcut

/-! ## The byte order mark -/

/-- The pieces behind a byte order mark. -/
def dropMark : List Piece → List Piece
  | .char c :: ps => if c = '\uFEFF' then ps else .char c :: ps
  | ps => ps

theorem withoutMark_unparse (ps : List Piece) :
    withoutMark (unparse ps) = unparse (dropMark ps) := by
  cases ps with
  | nil => rfl
  | cons p ps =>
    cases p with
    | tag body => exact withoutMark_of_head?_ne (by simp [Piece.text, tagText])
    | char c =>
      rw [unparse_cons, Piece.text, List.singleton_append, withoutMark, dropMark]
      split <;> rfl

theorem dropMark_run (state : Renaming) (ps : List Piece) :
    dropMark (state.run ps) = state.run (dropMark ps) := by
  cases ps with
  | nil => rfl
  | cons p ps =>
    cases p with
    | tag body => rfl
    | char c =>
      rw [Renaming.run, dropMark, dropMark]
      split <;> rfl

theorem dropMark_pieces (h : t.head? ≠ some '\uFEFF') : dropMark (pieces t) = pieces t := by
  have htext := unparse_pieces t
  cases hpieces : pieces t with
  | nil => rfl
  | cons p ps =>
    cases p with
    | tag body => rfl
    | char c =>
      -- The first piece is the first character of the text.
      rw [dropMark, if_neg]
      rintro rfl
      rw [hpieces] at htext
      rw [← htext] at h
      exact h rfl

/-- A byte order mark is no tag. -/
theorem filterMap_body?_dropMark (ps : List Piece) :
    (dropMark ps).filterMap Piece.body? = ps.filterMap Piece.body? := by
  unfold dropMark
  split
  · split <;> rfl
  · rfl

theorem dropMark_suffix (ps : List Piece) : dropMark ps <:+ ps := by
  unfold dropMark
  split
  · split
    · exact List.suffix_cons _ _
    · exact List.suffix_refl _
  · exact List.suffix_refl _

/-- **A text with canonical names is read piece by piece**, if no opening bracket stands outside its
tags; the reader drops a byte order mark at the start. -/
theorem treeOf?_canonical (h : '<' ∉ outside t) :
    treeOf? reading (Xml.items (Glyph.ofText (canonical t))) =
      (TreeBuilder.initial.readPieces reading (renamed (dropMark (pieces t)))).bind
        (TreeBuilder.finish reading) := by
  have hsimple : ∀ p ∈ renamed (dropMark (pieces t)), p.IsSimple := by
    intro p hp
    cases p with
    | tag body => exact (isCanonicalBody_of_mem_renamed hp).isSimple
    | char c =>
      rintro rfl
      -- Renaming moves no character, so the bracket stands outside the tags of the text.
      have hchar : '<' ∈ (renamed (dropMark (pieces t))).filterMap Piece.char? :=
        List.mem_filterMap.mpr ⟨_, hp, rfl⟩
      rw [filterMap_char?_renamed] at hchar
      exact h (((dropMark_suffix _).sublist.filterMap _).subset hchar)
  rw [treeOf?, items_ofText, canonical, withoutMark_unparse, dropMark_run]
  exact congrArg (Option.bind · _) (TreeBuilder.run_unparse hsimple _)

/-! ## The two outcomes of normalization -/

theorem normalize_of_tree {root : Element} (htags : hasTags t = true)
    (htree : treeOf? .strict (Xml.items (Glyph.ofText (canonical t))) = some root) :
    normalize t = (NormalForm.ofTree htree).markup := by
  rw [normalize, if_pos htags, parse, htree]
  rfl

theorem normalize_of_no_tree (htags : hasTags t = true)
    (htree : treeOf? .strict (Xml.items (Glyph.ofText (canonical t))) = none) :
    normalize t = unmarked t := by
  rw [normalize, if_pos htags, parse, htree]

end Bitext.Markup
