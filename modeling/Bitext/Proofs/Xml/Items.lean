import Bitext.Proofs.Unicode.Utf8
import Bitext.Xml.Event
import Mathlib.Data.List.TakeWhile

/-!
# Items of written markup

What the reader makes of a stream that was written piece by piece: a text without opening brackets
is one item if markup or nothing follows it, and a tag is one item if its brackets stand around a
stretch that hides no other end of a tag.

## Main definitions

* `StartsMarkup`: nothing follows, or an opening bracket.
* `IsStretch`: a part of a tag in which every quotation mark is closed, without a closing bracket
  outside quotes.

## Main results

* `itemsFrom_text_append`, `itemsFrom_tag`: the two equations
* `tagEvent_start`, `tagEvent_empty`, `tagEvent_stop`: the event for what stands in a tag
* `no_open_of_text_mem`: text never holds an opening bracket
-/

namespace Bitext.Xml

open Bitext.Unicode (Glyph)

variable {a x y name content : Text} {input rest inside raw : List Glyph} {g : Glyph} {item : Item}

/-! ## Text -/

/-- Nothing follows, or an opening bracket. -/
def StartsMarkup (input : List Glyph) : Prop := ∀ g, input.head? = some g → g.is '<' = true

@[simp] theorem startsMarkup_nil : StartsMarkup [] := by
  intro g hg
  cases hg

@[simp] theorem startsMarkup_open (rest : List Glyph) : StartsMarkup (.char '<' :: rest) := by
  intro g hg
  cases hg
  rfl

/-! ## The three ways to go on -/

theorem itemsFrom_of_no_markup (h : input.dropWhile (!Glyph.is '<' ·) = []) :
    itemsFrom input = textItem (input.takeWhile (!Glyph.is '<' ·)) := by
  rw [itemsFrom]
  split
  · rw [List.append_nil]
  · rename_i h'
    rw [h] at h'
    cases h'

theorem itemsFrom_of_construct (h : input.dropWhile (!Glyph.is '<' ·) = g :: inside)
    (hc : construct? inside = some (item, rest)) :
    itemsFrom input =
      textItem (input.takeWhile (!Glyph.is '<' ·)) ++ item :: itemsFrom rest := by
  rw [itemsFrom]
  split
  · rename_i h'
    rw [h] at h'
    cases h'
  · rename_i h'
    rw [h] at h'
    cases h'
    split
    · rename_i found
      rw [hc] at found
      cases found
      rfl
    · rename_i found
      rw [hc] at found
      cases found

theorem itemsFrom_of_fault (h : input.dropWhile (!Glyph.is '<' ·) = g :: inside)
    (hc : construct? inside = none) :
    itemsFrom input = textItem (input.takeWhile (!Glyph.is '<' ·)) ++ [.syntaxError] := by
  rw [itemsFrom]
  split
  · rename_i h'
    rw [h] at h'
    cases h'
  · rename_i h'
    rw [h] at h'
    cases h'
    split
    · rename_i found
      rw [hc] at found
      cases found
    · rfl

@[simp] theorem itemsFrom_nil : itemsFrom [] = [] :=
  itemsFrom_of_no_markup rfl

theorem itemsFrom_open (h : construct? inside = some (item, rest)) :
    itemsFrom (.char '<' :: inside) = item :: itemsFrom rest :=
  itemsFrom_of_construct rfl h

theorem takeWhile_text (h : ∀ c ∈ a, c ≠ '<') (hrest : StartsMarkup rest) :
    (Glyph.ofText a ++ rest).takeWhile (!Glyph.is '<' ·) = Glyph.ofText a := by
  induction a with
  | nil =>
    cases rest with
    | nil => rfl
    | cons g rest =>
      have := hrest g rfl
      simp [this]
  | cons c a ih =>
    have hc := h c List.mem_cons_self
    simp [hc, ih fun d hd => h d (List.mem_cons_of_mem c hd)]

theorem dropWhile_text (h : ∀ c ∈ a, c ≠ '<') (hrest : StartsMarkup rest) :
    (Glyph.ofText a ++ rest).dropWhile (!Glyph.is '<' ·) = rest := by
  have hsplit := List.takeWhile_append_dropWhile (p := (!Glyph.is '<' ·))
    (l := Glyph.ofText a ++ rest)
  rw [takeWhile_text h hrest] at hsplit
  exact List.append_cancel_left hsplit

/-- **A text up to the next markup is one item.** -/
theorem itemsFrom_text_append (h : ∀ c ∈ a, c ≠ '<') (hrest : StartsMarkup rest) :
    itemsFrom (Glyph.ofText a ++ rest) = textItem (Glyph.ofText a) ++ itemsFrom rest := by
  have htake := takeWhile_text h hrest
  have hdrop := dropWhile_text h hrest
  cases rest with
  | nil => rw [itemsFrom_of_no_markup hdrop, htake, itemsFrom_nil, List.append_nil]
  | cons g inside =>
    have hg : g = .char '<' := by simpa [Glyph.is] using hrest g rfl
    subst hg
    cases hc : construct? inside with
    | none =>
      have hfault : itemsFrom (.char '<' :: inside) = [.syntaxError] := itemsFrom_of_fault rfl hc
      rw [itemsFrom_of_fault hdrop hc, htake, hfault]
    | some found => rw [itemsFrom_of_construct hdrop hc, htake, itemsFrom_open hc]

/-! ## Tags -/

/-- Every quotation mark is closed, and no closing bracket stands outside quotes: the end of a tag
around the text is not found inside it. -/
def IsStretch (x : Text) : Prop :=
  ∀ rest, tagEnd? none (Glyph.ofText x ++ rest) =
    (tagEnd? none rest).map fun found => (Glyph.ofText x ++ found.1, found.2)

theorem IsStretch.append (hx : IsStretch x) (hy : IsStretch y) : IsStretch (x ++ y) := by
  intro rest
  rw [Glyph.ofText_append, List.append_assoc, hx, hy, Option.map_map]
  simp [Function.comp_def]

theorem isStretch_nil : IsStretch [] := by
  intro rest
  simp

theorem isStretch_singleton {c : Char} (h : c ≠ '>' ∧ c ≠ '\'' ∧ c ≠ '"') : IsStretch [c] := by
  intro rest
  simp only [Glyph.ofText_cons, Glyph.ofText_nil, List.cons_append, List.nil_append, tagEnd?,
    Glyph.is_char, beq_iff_eq, h, ↓reduceIte]

/-- A text without quotation marks and closing brackets is a stretch. -/
theorem isStretch_of_plain (h : ∀ c ∈ x, c ≠ '>' ∧ c ≠ '\'' ∧ c ≠ '"') : IsStretch x := by
  induction x with
  | nil => exact isStretch_nil
  | cons c x ih =>
    have hfirst := isStretch_singleton (h c List.mem_cons_self)
    exact hfirst.append (ih fun d hd => h d (List.mem_cons_of_mem c hd))

theorem tagEnd?_quoted {q : Char} {v : Text} (h : ∀ c ∈ v, c ≠ q) (rest : List Glyph) :
    tagEnd? (some q) (Glyph.ofText v ++ .char q :: rest) =
      (tagEnd? none rest).map fun found => (Glyph.ofText v ++ .char q :: found.1, found.2) := by
  induction v with
  | nil => simp [tagEnd?]
  | cons c v ih =>
    have hc := h c List.mem_cons_self
    simp only [Glyph.ofText_cons, List.cons_append, tagEnd?, Glyph.is_char, beq_iff_eq, hc,
      if_false]
    rw [ih fun d hd => h d (List.mem_cons_of_mem c hd), Option.map_map]
    rfl

/-- A text in quotes is a stretch, whatever brackets it holds. -/
theorem isStretch_quoted {v : Text} (h : ∀ c ∈ v, c ≠ '"') :
    IsStretch ('"' :: (v ++ ['"'])) := by
  intro rest
  rw [Glyph.ofText_cons, Glyph.ofText_append, List.cons_append, List.append_assoc]
  have := tagEnd?_quoted h rest
  simp only [tagEnd?, Glyph.is_char, Glyph.ofText_cons, Glyph.ofText_nil, List.cons_append,
    List.nil_append]
  simp [this, Function.comp_def]

theorem tagEnd?_stretch (h : IsStretch x) (rest : List Glyph) :
    tagEnd? none (Glyph.ofText x ++ .char '>' :: rest) = some (Glyph.ofText x, rest) := by
  rw [h]
  simp [tagEnd?]

/-- What may begin a tag: anything but the marks of declarations and instructions. -/
def BeginsTag (content : Text) : Prop :=
  ∃ c rest, content = c :: rest ∧ c ≠ '!' ∧ c ≠ '?'

theorem BeginsTag.append (h : BeginsTag x) (y : Text) : BeginsTag (x ++ y) := by
  obtain ⟨c, rest, rfl, hc⟩ := h
  exact ⟨c, rest ++ y, rfl, hc⟩

/-- **A written tag is one item.** -/
theorem itemsFrom_tag (hb : BeginsTag content) (hs : IsStretch content) (rest : List Glyph) :
    itemsFrom (Glyph.ofText ('<' :: (content ++ ['>'])) ++ rest) =
      .event (tagEvent (Glyph.ofText content)) :: itemsFrom rest := by
  have hinput : Glyph.ofText ('<' :: (content ++ ['>'])) ++ rest =
      .char '<' :: (Glyph.ofText content ++ .char '>' :: rest) := by
    simp
  rw [hinput]
  apply itemsFrom_open
  have hend := tagEnd?_stretch hs rest
  obtain ⟨c, tail, rfl, hmark, hquestion⟩ := hb
  rw [Glyph.ofText_cons, List.cons_append] at hend ⊢
  simp only [construct?, Glyph.is_char, beq_iff_eq, hmark, hquestion, if_false, hend,
    Option.map_some]

/-! ## Events of tags -/

theorem tagEvent_stop (h : ∀ c ∈ name, isTagSpace (.char c) = false) :
    tagEvent (Glyph.ofText ('/' :: name)) = .stop (Glyph.ofText name) := by
  have hkept : (Glyph.ofText name).reverse.dropWhile isTagSpace = (Glyph.ofText name).reverse := by
    cases hr : (Glyph.ofText name).reverse with
    | nil => rfl
    | cons g rest =>
      have hg : g ∈ Glyph.ofText name := by
        rw [← List.mem_reverse, hr]
        exact List.mem_cons_self
      obtain ⟨c, hc, rfl⟩ := List.mem_map.mp hg
      exact List.dropWhile_cons_of_neg (by simp [h c hc])
  have hstop : stopName (Glyph.ofText name) = Glyph.ofText name := by
    simp only [stopName, hkept, List.reverse_reverse]
    split <;> rfl
  simp only [Glyph.ofText_cons, tagEvent, Glyph.is_char, beq_self_eq_true, if_true, hstop]

theorem tagEvent_empty {c : Char} (hc : c ≠ '/') (x : Text) :
    tagEvent (Glyph.ofText (c :: (x ++ ['/']))) = .empty (Glyph.ofText (c :: x)) := by
  have hlast : (Glyph.ofText (c :: (x ++ ['/']))).getLast? = some (.char '/') := by
    simp [List.getLast?_cons]
  have hdrop : (Glyph.ofText (c :: (x ++ ['/']))).dropLast = Glyph.ofText (c :: x) := by
    rw [← List.cons_append, Glyph.ofText_append]
    exact List.dropLast_concat
  rw [tagEvent.eq_def]
  simp only [Glyph.ofText_cons] at hlast hdrop ⊢
  simp only [Glyph.is_char, beq_iff_eq, hc, if_false, hlast, hdrop, Option.any_some,
    beq_self_eq_true, if_true]

theorem tagEvent_start {c : Char} (hc : c ≠ '/') (hlast : (c :: x).getLast? ≠ some '/') :
    tagEvent (Glyph.ofText (c :: x)) = .start (Glyph.ofText (c :: x)) := by
  have hlast' : (Glyph.ofText (c :: x)).getLast?.any (Glyph.is '/') = false := by
    rw [Glyph.ofText, List.getLast?_map]
    cases h : (c :: x).getLast? with
    | none => rfl
    | some d =>
      rw [h] at hlast
      simpa using hlast
  rw [tagEvent.eq_def]
  simp only [Glyph.ofText_cons] at hlast' ⊢
  simp only [Glyph.is_char, beq_iff_eq, hc, if_false, hlast', Bool.false_eq_true]

/-- The name of a tag ends at the first blank. -/
theorem contentName_append (h : ∀ c ∈ name, isTagSpace (.char c) = false)
    (hx : ∀ c, x.head? = some c → isTagSpace (.char c) = true) :
    contentName (Glyph.ofText (name ++ x)) = Glyph.ofText name := by
  induction name with
  | nil =>
    cases x with
    | nil => rfl
    | cons c x => simp [contentName, hx c rfl]
  | cons d name ih =>
    have := ih fun c hc => h c (List.mem_cons_of_mem d hc)
    rw [contentName] at this ⊢
    rw [List.cons_append, Glyph.ofText_cons, List.takeWhile_cons_of_pos, this]
    · rfl
    · simp [h d List.mem_cons_self]

theorem contentName_of_no_space (h : ∀ c ∈ name, isTagSpace (.char c) = false) :
    contentName (Glyph.ofText name) = Glyph.ofText name := by
  have := contentName_append (x := []) h (by simp)
  rwa [List.append_nil] at this

/-! ## What text can hold -/

theorem declaration?_ne_text (h : declaration? inside = some (item, rest)) :
    item ≠ .event (.text raw) := by
  rintro rfl
  unfold declaration? at h
  split at h
  · cases h
  split at h
  · simp only [Option.bind_eq_some_iff, Prod.exists] at h
    obtain ⟨c, r, -, h⟩ := h
    split at h <;> simp at h
  split at h
  · simp only [Option.bind_eq_some_iff, Prod.exists] at h
    obtain ⟨c, r, -, h⟩ := h
    split at h <;> simp at h
  split at h
  · simp only [Option.bind_eq_some_iff, Prod.exists] at h
    obtain ⟨c, r, -, h⟩ := h
    split at h
    · simp only [Option.some.injEq, Prod.mk.injEq] at h
      split at h <;> simp at h
    · simp at h
  · cases h

theorem instruction?_ne_text (h : instruction? inside = some (item, rest)) :
    item ≠ .event (.text raw) := by
  rintro rfl
  unfold instruction? at h
  simp only [Option.bind_eq_some_iff, Prod.exists] at h
  obtain ⟨c, r, -, h⟩ := h
  split at h <;> simp at h

theorem tagEvent_ne_text (content : List Glyph) : tagEvent content ≠ .text raw := by
  unfold tagEvent
  split
  · simp
  split
  · simp
  split <;> simp

theorem construct?_ne_text (h : construct? inside = some (item, rest)) :
    item ≠ .event (.text raw) := by
  unfold construct? at h
  split at h
  · cases h
  split at h
  · exact declaration?_ne_text h
  split at h
  · exact instruction?_ne_text h
  · obtain ⟨⟨content, behind⟩, -, heq⟩ := Option.map_eq_some_iff.mp h
    obtain ⟨rfl, -⟩ := Prod.mk.inj heq
    intro heq
    exact tagEvent_ne_text content (Item.event.inj heq)

theorem no_open_of_mem_textItem {t : List Glyph} (ht : ∀ g ∈ t, g.is '<' = false)
    (h : .event (.text raw) ∈ textItem t) : ∀ g ∈ raw, g.is '<' = false := by
  unfold textItem at h
  split at h
  · cases h
  · rw [List.mem_singleton] at h
    cases h
    exact ht

/-- **Text between markup holds no opening bracket.** -/
theorem no_open_of_text_mem (h : .event (.text raw) ∈ itemsFrom input) :
    ∀ g ∈ raw, g.is '<' = false := by
  induction input using itemsFrom.induct with
  | case1 input ih =>
    have htake : ∀ g ∈ input.takeWhile (!Glyph.is '<' ·), g.is '<' = false := by
      intro g hg
      simpa using List.mem_takeWhile_imp hg
    cases hdrop : input.dropWhile (!Glyph.is '<' ·) with
    | nil =>
      rw [itemsFrom_of_no_markup hdrop] at h
      exact no_open_of_mem_textItem htake h
    | cons g inside =>
      cases hc : construct? inside with
      | none =>
        rw [itemsFrom_of_fault hdrop hc] at h
        rcases List.mem_append.mp h with h | h
        · exact no_open_of_mem_textItem htake h
        · simp at h
      | some found =>
        rw [itemsFrom_of_construct hdrop hc] at h
        rcases List.mem_append.mp h with h | h
        · exact no_open_of_mem_textItem htake h
        · rcases List.mem_cons.mp h with h | h
          · exact absurd h.symm (construct?_ne_text hc)
          · exact ih g inside hdrop found.1 found.2 hc h

end Bitext.Xml
