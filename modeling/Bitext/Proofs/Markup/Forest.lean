import Bitext.Markup.Forest
import Bitext.Proofs.Markup.Pieces
import Bitext.Proofs.Xml.Name

/-!
# Forests, their names and their written form

A forest can be read back from its written form if no text in it holds an opening bracket and its
elements have names that a tag can hold.  Numbering gives them such names.  The tail of the last
element stands at the very end of the written form, so it can be exchanged without touching the
rest.

## Main definitions

* `Forest.append`: the siblings of two forests.
* `Forest.IsReadable`: no text of the forest holds an opening bracket.
* `Forest.IsNamed`: every element has a name that a tag can hold.
* `Forest.IsNumbered`: the elements are numbered in document order.
* `Forest.pieces`: the written form cut at its tags.

## Main results

* `Forest.pieces_print_append`: the pieces of the written form
* `Forest.renumber_renumber`: numbering twice is numbering once
* `Forest.exists_eq_extendTail`: the last tail can be split off
-/

namespace Bitext.Markup

open Bitext.Xml (IsName IsTagName)

/-! ## Names -/

/-- The name of the element with a number. -/
def numberedName (n : Nat) : Text := tagLetter ++ Text.ofNat n

theorem isDigit_of_mem_ofNat {n : Nat} {c : Char} (h : c ∈ Text.ofNat n) : c.isDigit = true := by
  rw [Text.ofNat, Nat.toList_repr] at h
  exact Nat.isDigit_of_mem_toDigits (by decide) (by decide) h

theorem isName_numberedName (n : Nat) : IsName (numberedName n) := by
  refine ⟨List.cons_ne_nil _ _, ?_⟩
  rw [numberedName, List.all_append, Bool.and_eq_true]
  refine ⟨rfl, ?_⟩
  rw [List.all_eq_true]
  intro c hc
  rw [Xml.isNameChar, Char.isAlphanum, isDigit_of_mem_ofNat hc, Bool.or_true, Bool.true_or,
    Bool.true_or]

theorem numberedName_injective {m n : Nat} (h : numberedName m = numberedName n) : m = n := by
  have hdigits : (Nat.repr m).toList = (Nat.repr n).toList := List.append_cancel_left h
  rw [Nat.toList_repr, Nat.toList_repr] at hdigits
  rw [← @Nat.ofDigitChars_ten_toDigits m, hdigits, Nat.ofDigitChars_ten_toDigits]

theorem numberedName_ne_tagLetter (n : Nat) : numberedName n ≠ tagLetter := by
  intro h
  have hdigits : (Nat.repr n).toList = [] := (List.cons.inj h).2
  rw [Nat.toList_repr] at hdigits
  exact Nat.toDigits_ne_nil hdigits

variable {name : Text}

theorem isTagBody_name (h : IsTagName name) : IsTagBody name := by
  refine ⟨h.ne_nil, ?_⟩
  intro c hc
  rw [isAngle, Bool.or_eq_false_iff, beq_eq_false_iff_ne, beq_eq_false_iff_ne]
  constructor <;> (rintro rfl; exact h.not_mem _ (by decide) hc)

theorem isTagBody_empty (h : IsTagName name) : IsTagBody (name ++ ['/']) := by
  refine ⟨by simp, ?_⟩
  intro c hc
  rcases List.mem_append.mp hc with hc | hc
  · exact (isTagBody_name h).isAngle c hc
  · rw [List.mem_singleton.mp hc]
    rfl

theorem isTagBody_closing (h : IsTagName name) : IsTagBody ('/' :: name) := by
  refine ⟨List.cons_ne_nil _ _, ?_⟩
  intro c hc
  rcases List.mem_cons.mp hc with rfl | hc
  · rfl
  · exact (isTagBody_name h).isAngle c hc

namespace Forest

variable {f g : Forest} {n : Nat} {extra : Text}

/-! ## Siblings -/

/-- The siblings of a forest, and then those of another one. -/
def append : Forest → Forest → Forest
  | nil, g => g
  | cons name text children tail rest, g => cons name text children tail (rest.append g)

@[simp] theorem append_nil (f : Forest) : f.append nil = f := by
  induction f with
  | nil => rfl
  | cons name text children tail rest _ ih => rw [append, ih]

theorem append_assoc (f g h : Forest) : (f.append g).append h = f.append (g.append h) := by
  induction f with
  | nil => rfl
  | cons name text children tail rest _ ih => rw [append, append, append, ih]

theorem snoc_eq_append (f : Forest) (name text : Text) (children : Forest) :
    f.snoc name text children = f.append (cons name text children [] nil) := by
  induction f with
  | nil => rfl
  | cons _ _ _ _ rest _ ih => rw [snoc, append, ih]

@[simp] theorem isNil_eq_true : f.isNil = true ↔ f = nil := by
  cases f with
  | nil => exact ⟨fun _ => rfl, fun _ => rfl⟩
  | cons => exact ⟨fun h => (by cases h), fun h => (by cases h)⟩

@[simp] theorem isNil_snoc (f : Forest) (name text : Text) (children : Forest) :
    (f.snoc name text children).isNil = false := by
  cases f <;> rfl

/-! ## The last tail -/

@[simp] theorem extendTail_sole (name text : Text) (children : Forest) (tail extra : Text) :
    (cons name text children tail nil).extendTail extra =
      cons name text children (tail ++ extra) nil := rfl

theorem extendTail_cons {rest : Forest} (h : rest ≠ nil) (name text : Text) (children : Forest)
    (tail extra : Text) :
    (cons name text children tail rest).extendTail extra =
      cons name text children tail (rest.extendTail extra) := by
  cases rest with
  | nil => exact absurd rfl h
  | cons => rfl

@[simp] theorem extendTail_eq_nil : f.extendTail extra = nil ↔ f = nil := by
  cases f with
  | nil => exact Iff.rfl
  | cons name text children tail rest => cases rest <;> simp [extendTail]

theorem extendTail_nil (f : Forest) : f.extendTail [] = f := by
  induction f with
  | nil => rfl
  | cons name text children tail rest _ ih =>
    by_cases hrest : rest = nil
    · rw [hrest, extendTail_sole, List.append_nil]
    · rw [extendTail_cons hrest, ih]

theorem extendTail_extendTail (f : Forest) (a b : Text) :
    (f.extendTail a).extendTail b = f.extendTail (a ++ b) := by
  induction f with
  | nil => rfl
  | cons name text children tail rest _ ih =>
    by_cases hrest : rest = nil
    · rw [hrest, extendTail_sole, extendTail_sole, extendTail_sole, List.append_assoc]
    · have hextended : rest.extendTail a ≠ nil := mt extendTail_eq_nil.mp hrest
      rw [extendTail_cons hrest, extendTail_cons hextended, extendTail_cons hrest, ih]

theorem extendTail_append_sole (f : Forest) (name text : Text) (children : Forest)
    (tail extra : Text) :
    (f.append (cons name text children tail nil)).extendTail extra =
      f.append (cons name text children (tail ++ extra) nil) := by
  induction f with
  | nil => rfl
  | cons _ _ _ _ rest _ ih =>
    rw [append, append, ← ih]
    cases rest <;> rfl

theorem print_extendTail (h : f ≠ nil) (extra : Text) :
    (f.extendTail extra).print = f.print ++ extra := by
  induction f with
  | nil => exact absurd rfl h
  | cons name text children tail rest _ ih =>
    by_cases hrest : rest = nil
    · simp [hrest, print]
    · simp [extendTail_cons hrest, print, ih hrest]

/-- The last tail can be split off; what is left ends with a bracket. -/
theorem exists_eq_extendTail (h : f ≠ nil) :
    ∃ g tail, f = g.extendTail tail ∧ g ≠ nil ∧ g.print.getLast? = some '>' := by
  induction f with
  | nil => exact absurd rfl h
  | cons name text children tail rest _ ih =>
    by_cases hrest : rest = nil
    -- The last element of all has the tail.
    · subst hrest
      refine ⟨cons name text children [] nil, tail, rfl, by simp, ?_⟩
      simp only [print, List.append_nil]
      split <;> simp [tagText, List.getLast?_cons]
    · obtain ⟨g, last, rfl, hg, hlast⟩ := ih hrest
      refine ⟨cons name text children tail g, last, ?_, by simp, ?_⟩
      · rw [extendTail_cons hg]
      · rw [print, List.getLast?_append, hlast, Option.some_or]

theorem head?_print (h : f ≠ nil) : f.print.head? = some '<' := by
  cases f with
  | nil => exact absurd rfl h
  | cons name text children tail rest =>
    simp only [print]
    split <;> simp [tagText]

/-! ## Readable forests -/

/-- No text and no tail holds an opening bracket. -/
def IsReadable : Forest → Prop
  | nil => True
  | cons _ text children tail rest =>
    (∀ c ∈ text, c ≠ '<') ∧ children.IsReadable ∧ (∀ c ∈ tail, c ≠ '<') ∧ rest.IsReadable

theorem isReadable_append : (f.append g).IsReadable ↔ f.IsReadable ∧ g.IsReadable := by
  induction f with
  | nil => simp [append, IsReadable]
  | cons _ _ _ _ rest _ ih => simp [append, IsReadable, ih, and_assoc]

theorem isReadable_extendTail (h : f ≠ nil) :
    (f.extendTail extra).IsReadable ↔ f.IsReadable ∧ ∀ c ∈ extra, c ≠ '<' := by
  induction f with
  | nil => exact absurd rfl h
  | cons name text children tail rest _ ih =>
    by_cases hrest : rest = nil
    · simp only [hrest, extendTail_sole, IsReadable, List.mem_append, or_imp, forall_and]
      tauto
    · simp only [extendTail_cons hrest, IsReadable, ih hrest]
      tauto

/-! ## Numbered forests -/

/-- The elements have the numbers after `n`, in document order. -/
def IsNumbered (n : Nat) (f : Forest) : Prop := (f.renumber tagLetter n).1 = f

theorem renumber_renumber (stem : Text) (n : Nat) (f : Forest) :
    (f.renumber stem n).1.renumber stem n = f.renumber stem n := by
  induction f generalizing n with
  | nil => rfl
  | cons name text children tail rest ihc ihr => simp only [renumber, ihc, ihr]

theorem isNumbered_renumber (n : Nat) (f : Forest) : (f.renumber tagLetter n).1.IsNumbered n :=
  congrArg Prod.fst (renumber_renumber tagLetter n f)

theorem renumber_extendTail (stem extra : Text) (n : Nat) (f : Forest) :
    (f.extendTail extra).renumber stem n =
      ((f.renumber stem n).1.extendTail extra, (f.renumber stem n).2) := by
  induction f generalizing n with
  | nil => rfl
  | cons name text children tail rest _ ih =>
    by_cases hrest : rest = nil
    · rw [hrest]
      rfl
    · -- Numbering keeps the siblings, so the tail still belongs to the last of them.
      have hnumbered : (rest.renumber stem (children.renumber stem (n + 1)).2).1 ≠ nil := by
        cases rest with
        | nil => exact absurd rfl hrest
        | cons => simp [renumber]
      simp only [extendTail_cons hrest, renumber, ih, extendTail_cons hnumbered]

theorem IsNumbered.extendTail (h : f.IsNumbered n) (extra : Text) :
    (f.extendTail extra).IsNumbered n := by
  unfold IsNumbered at h ⊢
  rw [renumber_extendTail, h]

theorem extendTail_injective (h : f.extendTail extra = g.extendTail extra) : f = g := by
  induction f generalizing g with
  | nil => exact (extendTail_eq_nil.mp h.symm).symm
  | cons name text children tail rest _ ih =>
    cases g with
    | nil => exact extendTail_eq_nil.mp h
    | cons n t k tl rest' =>
      -- Forests with siblings left on one side only differ in length.
      by_cases hrest : rest = nil <;> by_cases hrest' : rest' = nil
      · simpa [hrest, hrest'] using h
      · rw [hrest, extendTail_sole, extendTail_cons hrest'] at h
        exact absurd (extendTail_eq_nil.mp (cons.inj h).2.2.2.2.symm) hrest'
      · rw [hrest', extendTail_sole, extendTail_cons hrest] at h
        exact absurd (extendTail_eq_nil.mp (cons.inj h).2.2.2.2) hrest
      · rw [extendTail_cons hrest, extendTail_cons hrest'] at h
        obtain ⟨rfl, rfl, rfl, rfl, hsame⟩ := cons.inj h
        rw [ih hsame]

theorem IsNumbered.of_extendTail (h : (f.extendTail extra).IsNumbered n) : f.IsNumbered n := by
  unfold IsNumbered at h ⊢
  rw [renumber_extendTail] at h
  exact extendTail_injective h

theorem isReadable_renumber (stem : Text) :
    (f.renumber stem n).1.IsReadable ↔ f.IsReadable := by
  induction f generalizing n with
  | nil => exact Iff.rfl
  | cons name text children tail rest ihc ihr => simp only [renumber, IsReadable, ihc, ihr]

/-- The first element of a numbered forest and its inside and the siblings after it. -/
theorem IsNumbered.cons_iff {text tail : Text} {children rest : Forest} :
    (cons name text children tail rest).IsNumbered n ↔
      name = numberedName (n + 1) ∧ children.IsNumbered (n + 1) ∧
        rest.IsNumbered (children.renumber tagLetter (n + 1)).2 := by
  simp only [IsNumbered, renumber, cons.injEq, true_and]
  constructor
  · rintro ⟨hname, hchildren, hrest⟩
    exact ⟨hname.symm, hchildren, hrest⟩
  · rintro ⟨hname, hchildren, hrest⟩
    exact ⟨hname.symm, hchildren, hrest⟩

/-! ## Names of elements -/

/-- Every element has a name that a tag can hold. -/
def IsNamed : Forest → Prop
  | nil => True
  | cons name _ children _ rest => IsTagName name ∧ children.IsNamed ∧ rest.IsNamed

/-- Numbering gives every element such a name. -/
theorem IsNumbered.isNamed (h : f.IsNumbered n) : f.IsNamed := by
  induction f generalizing n with
  | nil => trivial
  | cons name text children tail rest ihc ihr =>
    obtain ⟨rfl, hchildren, hrest⟩ := IsNumbered.cons_iff.mp h
    exact ⟨(isName_numberedName (n + 1)).isTagName, ihc hchildren, ihr hrest⟩

/-! ## Pieces -/

/-- The written form cut at its tags. -/
def pieces : Forest → List Piece
  | nil => []
  | cons name text children tail rest =>
    (if text.isEmpty && children.isNil then [.tag (name ++ ['/'])]
      else .tag name :: (text.map .char ++ (children.pieces ++ [.tag ('/' :: name)]))) ++
    (tail.map .char ++ rest.pieces)

theorem unparse_pieces (f : Forest) : unparse f.pieces = f.print := by
  induction f with
  | nil => rfl
  | cons name text children tail rest ihc ihr =>
    rw [pieces, print, unparse_append, unparse_append, unparse_map_char, ihr, List.append_assoc]
    congr 1
    split
    · simp [Piece.text]
    · simp [Piece.text, ihc]

/-- **The written form of a readable forest is cut at the tags of its elements.** -/
theorem pieces_print_append (hr : f.IsReadable) (hn : f.IsNamed) (t : Text) :
    Markup.pieces (f.print ++ t) = f.pieces ++ Markup.pieces t := by
  induction f generalizing t with
  | nil => rfl
  | cons name text children tail rest ihc ihr =>
    obtain ⟨htext, hrc, htail, hrr⟩ := hr
    obtain ⟨hname, hnc, hnr⟩ := hn
    have hrest := ihr hrr hnr t
    rw [print, pieces]
    split
    -- An element without content is one tag, any other one stands between two.
    · simp only [List.append_assoc]
      rw [pieces_tagText_append (isTagBody_empty hname), pieces_append_of_no_open htail, hrest]
      rfl
    · simp only [List.append_assoc, List.cons_append]
      rw [pieces_tagText_append (isTagBody_name hname), pieces_append_of_no_open htext, ihc hrc hnc,
        pieces_tagText_append (isTagBody_closing hname), pieces_append_of_no_open htail, hrest]
      rfl

end Forest

end Bitext.Markup
