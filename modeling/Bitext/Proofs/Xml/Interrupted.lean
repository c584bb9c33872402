import Bitext.Proofs.Xml.Items

/-!
# Interrupted input

What is read in front of an interruption is what would be read of the whole input.  A construct ends
with a closing bracket, so one that is complete is read in the same way whatever follows it, and
one that is not complete does not become so by symbols that are no brackets.  Only the last item
that is read of the beginning of an input may be a different one: there the fault stands.

## Main definitions

* `Extends`: what is found in the beginning of an input is found in the whole of it.
* `IsUnclosed`: symbols without a closing bracket.

## Main results

* `extends_construct?`, `construct?_append_unclosed`: one construct, and what follows it
* `dropLast_interrupted_items`: all items
-/

namespace Bitext.Xml

open Bitext.Unicode (Glyph)

variable {x t seen closing : List Glyph} {quote : Option Char} {depth least : Nat}

/-! ## What is found, and what follows it -/

/-- What is found, with more behind it. -/
def followedBy {α : Type} (t : List Glyph) (found : α × List Glyph) : α × List Glyph :=
  (found.1, found.2 ++ t)

/-- What is found in the beginning of an input is found in the whole of it. -/
def Extends {α : Type} (t : List Glyph) (found later : Option (α × List Glyph)) : Prop :=
  found.isSome → later = found.map (followedBy t)

section Bind

variable {α β : Type} {found later : Option (α × List Glyph)}
  {f : α × List Glyph → Option (β × List Glyph)}

theorem map_followedBy_bind (hf : ∀ p, f (followedBy t p) = (f p).map (followedBy t)) :
    (found.map (followedBy t)).bind f = (found.bind f).map (followedBy t) := by
  cases found with
  | none => rfl
  | some p => exact hf p

theorem Extends.bind (h : Extends t found later)
    (hf : ∀ p, f (followedBy t p) = (f p).map (followedBy t)) :
    Extends t (found.bind f) (later.bind f) := by
  cases found with
  | none => exact nofun
  | some p =>
    rw [h rfl]
    exact fun _ => map_followedBy_bind hf

theorem Extends.map (h : Extends t found later) (f : α → β) :
    Extends t (found.map fun p => (f p.1, p.2)) (later.map fun p => (f p.1, p.2)) := by
  intro hfound
  rw [Option.isSome_map] at hfound
  rw [h hfound, Option.map_map, Option.map_map]
  rfl

theorem followedBy_if (P : Prop) [Decidable P] (a : α) (rest : List Glyph) :
    (if P then some (a, rest ++ t) else none) =
      (if P then some (a, rest) else none).map (followedBy t) := by
  split <;> rfl

end Bind

/-! ## Ends that are found -/

theorem extends_tagEnd? (x t : List Glyph) (quote : Option Char) :
    Extends t (tagEnd? quote x) (tagEnd? quote (x ++ t)) := by
  induction x generalizing quote with
  | nil => exact nofun
  | cons g x ih =>
    intro hfound
    cases quote with
    | some q =>
      simp only [List.cons_append, tagEnd?, Option.isSome_map] at hfound ⊢
      rw [ih _ hfound, Option.map_map, Option.map_map]
      rfl
    | none =>
      simp only [List.cons_append, tagEnd?] at hfound ⊢
      split
      · rfl
      · rename_i hopen
        rw [if_neg hopen, Option.isSome_map] at hfound
        rw [ih _ hfound, Option.map_map, Option.map_map]
        rfl

theorem extends_markedEnd? (closing : List Glyph) (least : Nat) (seen x t : List Glyph) :
    Extends t (markedEnd? closing least seen x) (markedEnd? closing least seen (x ++ t)) := by
  induction x generalizing seen with
  | nil => exact nofun
  | cons g x ih =>
    intro hfound
    simp only [List.cons_append, markedEnd?] at hfound ⊢
    split
    · rfl
    · rename_i hinside
      rw [if_neg hinside] at hfound
      exact ih _ hfound

theorem extends_balancedEnd? (depth : Nat) (x t : List Glyph) :
    Extends t (balancedEnd? depth x) (balancedEnd? depth (x ++ t)) := by
  induction x generalizing depth with
  | nil => exact nofun
  | cons g x ih =>
    intro hfound
    simp only [List.cons_append, balancedEnd?] at hfound ⊢
    split
    · rfl
    · rename_i hinside
      rw [if_neg hinside, Option.isSome_map] at hfound
      rw [ih _ hfound, Option.map_map, Option.map_map]
      rfl

/-! ## Ends that are missing -/

/-- There is no closing bracket. -/
def IsUnclosed (t : List Glyph) : Prop := ∀ g ∈ t, g.is '>' = false

theorem tagEnd?_eq_none (h : IsUnclosed t) : tagEnd? quote t = none := by
  induction t generalizing quote with
  | nil => rfl
  | cons g t ih =>
    have hrest {q : Option Char} : tagEnd? q t = none := ih fun g' hg => h g' (.tail _ hg)
    cases quote with
    | some q => simp only [tagEnd?, hrest, Option.map_none]
    | none => simp only [tagEnd?, h g (.head _), hrest, Option.map_none, Bool.false_eq_true, if_false]

theorem markedEnd?_eq_none (h : IsUnclosed t) : markedEnd? closing least seen t = none := by
  induction t generalizing seen with
  | nil => rfl
  | cons g t ih =>
    simp only [markedEnd?, h g (.head _), Bool.false_and, Bool.false_eq_true, if_false]
    exact ih fun g' hg => h g' (.tail _ hg)

theorem balancedEnd?_eq_none (h : IsUnclosed t) : balancedEnd? depth t = none := by
  induction t generalizing depth with
  | nil => rfl
  | cons g t ih =>
    have hrest {n : Nat} : balancedEnd? n t = none := ih fun g' hg => h g' (.tail _ hg)
    simp only [balancedEnd?, h g (.head _), hrest, Bool.false_and, Bool.false_eq_true, if_false,
      Option.map_none]

theorem tagEnd?_append_unclosed (h : IsUnclosed t) (quote : Option Char) (x : List Glyph) :
    tagEnd? quote (x ++ t) = (tagEnd? quote x).map (followedBy t) := by
  induction x generalizing quote with
  | nil => exact tagEnd?_eq_none h
  | cons g x ih =>
    cases quote with
    | some q =>
      simp only [List.cons_append, tagEnd?, ih, Option.map_map]
      rfl
    | none =>
      simp only [List.cons_append, tagEnd?]
      split
      · rfl
      · rw [ih, Option.map_map, Option.map_map]
        rfl

theorem markedEnd?_append_unclosed (h : IsUnclosed t) (closing : List Glyph) (least : Nat)
    (seen x : List Glyph) :
    markedEnd? closing least seen (x ++ t) =
      (markedEnd? closing least seen x).map (followedBy t) := by
  induction x generalizing seen with
  | nil => exact markedEnd?_eq_none h
  | cons g x ih =>
    simp only [List.cons_append, markedEnd?]
    split
    · rfl
    · exact ih _

theorem balancedEnd?_append_unclosed (h : IsUnclosed t) (depth : Nat) (x : List Glyph) :
    balancedEnd? depth (x ++ t) = (balancedEnd? depth x).map (followedBy t) := by
  induction x generalizing depth with
  | nil => exact balancedEnd?_eq_none h
  | cons g x ih =>
    simp only [List.cons_append, balancedEnd?]
    split
    · rfl
    · rw [ih, Option.map_map, Option.map_map]
      rfl

/-! ## Constructs -/

theorem extends_declaration? (x t : List Glyph) :
    Extends t (declaration? x) (declaration? (x ++ t)) := by
  match x with
  | [] | [_] => exact nofun
  | b :: g :: x =>
    -- Which end is looked for depends on the first two symbols, which are the same in both inputs.
    have hmarked (closing : List Glyph) (least : Nat) :=
      extends_markedEnd? closing least [] (b :: g :: x) t
    have hbalanced := extends_balancedEnd? 0 (b :: g :: x) t
    simp only [List.cons_append] at hmarked hbalanced ⊢
    simp only [declaration?, List.drop_succ_cons, List.drop_zero]
    split_ifs
    · exact (hmarked _ _).bind fun _ => followedBy_if _ _ _
    · exact (hmarked _ _).bind fun _ => followedBy_if _ _ _
    · exact hbalanced.bind fun _ => followedBy_if _ _ _
    · exact nofun

/-- **A construct that is complete is read in the same way whatever follows it.** -/
theorem extends_construct? (x t : List Glyph) :
    Extends t (construct? x) (construct? (x ++ t)) := by
  match x with
  | [] => exact nofun
  | g :: x =>
    have hdeclaration := extends_declaration? (g :: x) t
    have hmarked := extends_markedEnd? (word "?") 0 [] (g :: x) t
    have htag := extends_tagEnd? (g :: x) t none
    simp only [List.cons_append] at hdeclaration hmarked htag ⊢
    simp only [construct?]
    split_ifs
    · exact hdeclaration
    · exact hmarked.bind fun _ => followedBy_if _ _ _
    · exact htag.map fun content => Item.event (tagEvent content)

theorem declaration?_eq_none (h : IsUnclosed x) : declaration? x = none := by
  unfold declaration?
  split
  · rfl
  · simp only [markedEnd?_eq_none h, balancedEnd?_eq_none h, Option.bind_none, ite_self]

theorem declaration?_append_unclosed (ht : IsUnclosed t) {b : Glyph} (hb : b.is '>' = false)
    (x : List Glyph) :
    declaration? (b :: x ++ t) = (declaration? (b :: x)).map (followedBy t) := by
  match x with
  | [] => exact declaration?_eq_none (List.forall_mem_cons.mpr ⟨hb, ht⟩)
  | g :: x =>
    have hmarked (closing : List Glyph) (least : Nat) :=
      markedEnd?_append_unclosed ht closing least [] (b :: g :: x)
    have hbalanced := balancedEnd?_append_unclosed ht 0 (b :: g :: x)
    simp only [List.cons_append] at hmarked hbalanced ⊢
    simp only [declaration?, List.drop_succ_cons, List.drop_zero, hmarked, hbalanced]
    split_ifs
    · exact map_followedBy_bind fun _ => followedBy_if _ _ _
    · exact map_followedBy_bind fun _ => followedBy_if _ _ _
    · exact map_followedBy_bind fun _ => followedBy_if _ _ _
    · rfl

theorem construct?_eq_none (h : IsUnclosed x) : construct? x = none := by
  unfold construct?
  split
  · rfl
  · simp only [declaration?_eq_none h, instruction?, markedEnd?_eq_none h, tagEnd?_eq_none h,
      Option.bind_none, Option.map_none, ite_self]

/-- **A construct that is not complete** does not become so without a closing bracket. -/
theorem construct?_append_unclosed (h : IsUnclosed t) (x : List Glyph) :
    construct? (x ++ t) = (construct? x).map (followedBy t) := by
  match x with
  | [] => exact construct?_eq_none h
  | g :: x =>
    have hdeclaration (hg : g.is '!' = true) :
        declaration? (g :: x ++ t) = (declaration? (g :: x)).map (followedBy t) := by
      obtain rfl : g = .char '!' := beq_iff_eq.mp hg
      exact declaration?_append_unclosed h rfl x
    have hmarked := markedEnd?_append_unclosed h (word "?") 0 [] (g :: x)
    have htag := tagEnd?_append_unclosed h none (g :: x)
    simp only [List.cons_append] at hdeclaration hmarked htag ⊢
    simp only [construct?, instruction?, hmarked, htag]
    split_ifs with hg
    · exact hdeclaration hg
    · exact map_followedBy_bind fun _ => followedBy_if _ _ _
    · rw [Option.map_map, Option.map_map]
      rfl

/-! ## All items -/

theorem interrupted_ne_nil (items : List Item) : interrupted items ≠ [] := by
  fun_cases interrupted items <;> simp

/-- The fault stands at the end. -/
theorem interrupted_eq_dropLast_append (items : List Item) :
    interrupted items = (interrupted items).dropLast ++ [.syntaxError] := by
  fun_induction interrupted items with
  | case1 | case2 | case3 => rfl
  | case4 item rest _ _ ih =>
    rw [List.dropLast_cons_of_ne_nil (interrupted_ne_nil rest), List.cons_append, ← ih]

/-- An item at the end may be the one that is interrupted; any other stays. -/
theorem dropLast_interrupted_cons (item : Item) (items : List Item) :
    (interrupted (item :: items)).dropLast <+: item :: (interrupted items).dropLast := by
  rw [interrupted.eq_def]
  split
  · exact List.nil_prefix
  · exact List.nil_prefix
  · exact List.nil_prefix
  · rename_i heq
    cases heq
    exact (List.dropLast_cons_of_ne_nil (interrupted_ne_nil _)).symm ▸ List.prefix_rfl

theorem dropLast_interrupted_append (first items : List Item) :
    (interrupted (first ++ items)).dropLast <+: first ++ (interrupted items).dropLast := by
  induction first with
  | nil => exact List.prefix_rfl
  | cons item first ih =>
    exact (dropLast_interrupted_cons item (first ++ items)).trans
      ((List.prefix_cons_inj item).mpr ih)

/-- A text that is interrupted is not read. -/
theorem dropLast_interrupted_of_no_markup (h : ∀ g ∈ x, g.is '<' = false) :
    (interrupted (itemsFrom x)).dropLast = [] := by
  have hnone : x.dropWhile (!Glyph.is '<' ·) = [] :=
    List.dropWhile_eq_nil_iff.mpr fun g hg => by rw [h g hg]; rfl
  rw [itemsFrom_of_no_markup hnone, textItem]
  split <;> rfl

/-- Where markup begins, the text in front of it is complete. -/
theorem takeWhile_append_of_markup {g : Glyph} {inside : List Glyph}
    (h : x.dropWhile (!Glyph.is '<' ·) = g :: inside) (y : List Glyph) :
    (x ++ y).takeWhile (!Glyph.is '<' ·) = x.takeWhile (!Glyph.is '<' ·) ∧
      (x ++ y).dropWhile (!Glyph.is '<' ·) = g :: (inside ++ y) := by
  have hdrop : (x ++ y).dropWhile (!Glyph.is '<' ·) = g :: (inside ++ y) := by
    rw [List.dropWhile_append, h]
    rfl
  have hwhole := List.takeWhile_append_dropWhile (p := (!Glyph.is '<' ·)) (l := x ++ y)
  have hpart := List.takeWhile_append_dropWhile (p := (!Glyph.is '<' ·)) (l := x)
  rw [hdrop] at hwhole
  rw [h] at hpart
  have hsplit : x ++ y = x.takeWhile (!Glyph.is '<' ·) ++ g :: (inside ++ y) := by
    rw [← List.cons_append, ← List.append_assoc, hpart]
  exact ⟨List.append_cancel_right (hwhole.trans hsplit), hdrop⟩

/-- **What is read of the beginning of an input** up to the interruption is what is read of the
whole input there, also if the beginning ends within a symbol that is no bracket. -/
theorem dropLast_interrupted_itemsFrom (ht : ∀ g ∈ t, g.is '<' = false ∧ g.is '>' = false)
    (x y : List Glyph) :
    (interrupted (itemsFrom (x ++ t))).dropLast <+: itemsFrom (x ++ y) := by
  have hclosed : IsUnclosed t := fun g hg => (ht g hg).2
  induction x using itemsFrom.induct with
  | case1 x ih =>
    cases hdrop : x.dropWhile (!Glyph.is '<' ·) with
    | nil =>
      -- There is one text at most, and that is interrupted.
      have hnone : ∀ g ∈ x ++ t, g.is '<' = false := by
        intro g hg
        rcases List.mem_append.mp hg with hg | hg
        · simpa using List.dropWhile_eq_nil_iff.mp hdrop g hg
        · exact (ht g hg).1
      rw [dropLast_interrupted_of_no_markup hnone]
      exact List.nil_prefix
    | cons g inside =>
      obtain ⟨htake, hbehind⟩ := takeWhile_append_of_markup hdrop t
      obtain ⟨htake', hbehind'⟩ := takeWhile_append_of_markup hdrop y
      cases hc : construct? inside with
      | none =>
        -- The first construct is interrupted, and only the text in front of it is read.
        have hnone : construct? (inside ++ t) = none := by
          rw [construct?_append_unclosed hclosed, hc, Option.map_none]
        have hlost : (interrupted [.syntaxError]).dropLast = [] := rfl
        rw [itemsFrom_of_fault hbehind hnone, htake, ← htake']
        refine (dropLast_interrupted_append _ _).trans ?_
        rw [hlost, List.append_nil, itemsFrom]
        exact List.prefix_append _ _
      | some found =>
        -- The first construct is complete: it is read from either input, and so is what follows it.
        have hsome : construct? (inside ++ t) = some (found.1, found.2 ++ t) := by
          rw [construct?_append_unclosed hclosed, hc]
          rfl
        have hsome' : construct? (inside ++ y) = some (found.1, found.2 ++ y) := by
          rw [extends_construct? inside y (by rw [hc]; rfl), hc]
          rfl
        rw [itemsFrom_of_construct hbehind hsome, itemsFrom_of_construct hbehind' hsome', htake,
          htake']
        refine (dropLast_interrupted_append _ _).trans ((List.prefix_append_right_inj _).mpr ?_)
        exact (dropLast_interrupted_cons _ _).trans
          ((List.prefix_cons_inj _).mpr (ih g inside hdrop found.1 found.2 hc))

theorem dropLast_interrupted_items (ht : ∀ g ∈ t, g.is '<' = false ∧ g.is '>' = false)
    (x y : List Glyph) :
    (interrupted (items (x ++ t))).dropLast <+: items (x ++ y) := by
  cases x with
  | nil =>
    have hnone : (interrupted (items t)).dropLast = [] := by
      cases t with
      | nil => rfl
      | cons g t =>
        rw [items]
        split
        · exact dropLast_interrupted_of_no_markup fun g' hg => (ht g' (.tail _ hg)).1
        · exact dropLast_interrupted_of_no_markup fun g' hg => (ht g' hg).1
    rw [List.nil_append, hnone]
    exact List.nil_prefix
  | cons g x =>
    simp only [List.cons_append, items]
    split
    · exact dropLast_interrupted_itemsFrom ht x y
    · exact dropLast_interrupted_itemsFrom ht (g :: x) y

end Bitext.Xml
