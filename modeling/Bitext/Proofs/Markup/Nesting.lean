import Bitext.Proofs.Markup.Tags

/-!
# Properly nested tags

Tags nest if every closing tag has the name of the innermost tag that is open, and no tag is left
open.  Self-closing tags open nothing and close nothing, so they may be left out.  All that counts of
a tag is its role, which is its kind and its name; it does not depend on attributes, nor on how many
blanks stand in the tag.

## Main definitions

* `nestsIn`: reading tags with a stack of the names that are open.
* `isNested`: tags that nest.
* `role`: what counts of a tag.

## Main results

* `isNested_congr`: nothing but roles matters
* `isNested_filter`: self-closing tags do not matter
* `map_role_map_collapse`: blanks in tags do not change roles
-/

namespace Bitext.Markup

variable {body t g : Text} {names gs ks : List Text}

/-- What stands between the brackets of a tag. -/
def inside (tag : Text) : Text := tag.tail.dropLast

@[simp] theorem inside_tagText (body : Text) : inside (tagText body) = body :=
  List.dropLast_concat

/-- The kind and the name of a tag. -/
def role (tag : Text) : TagKind × Text := (TagKind.of (inside tag), tagName (inside tag))

/-- The tag opens or closes a pair. -/
def isPaired (tag : Text) : Bool := TagKind.of (inside tag) != .selfClosing

/-- Tags nest inside the open tags with the given names, the innermost of which comes first. -/
def nestsIn (names : List Text) : List Text → Bool
  | [] => names.isEmpty
  | tag :: rest =>
    match TagKind.of (inside tag) with
    | .selfClosing => nestsIn names rest
    | .opening => nestsIn (tagName (inside tag) :: names) rest
    | .closing =>
      match names with
      | [] => false
      | name :: outer => name == tagName (inside tag) && nestsIn outer rest

/-- Every closing tag has the name of the innermost open tag, and nothing is left open. -/
def isNested (tags : List Text) : Bool := nestsIn [] tags

/-! ## Roles -/

theorem nestsIn_congr (names : List Text) (h : gs.map role = ks.map role) :
    nestsIn names gs = nestsIn names ks := by
  induction gs generalizing names ks with
  | nil =>
    obtain rfl := List.map_eq_nil_iff.mp h.symm
    rfl
  | cons g gs ih =>
    obtain ⟨k, ks, rfl, hrole, hrest⟩ := List.map_eq_cons_iff.mp h.symm
    obtain ⟨hkind, hname⟩ := Prod.mk.inj hrole
    have hnested := fun names => ih names hrest.symm
    cases names <;> simp only [nestsIn, hkind, hname, hnested]

/-- **Nothing but the roles of tags matters.** -/
theorem isNested_congr (h : gs.map role = ks.map role) : isNested gs = isNested ks :=
  nestsIn_congr [] h

/-! ## Self-closing tags -/

section Kinds

theorem nestsIn_of_selfClosing (h : TagKind.of (inside g) = .selfClosing) (names gs : List Text) :
    nestsIn names (g :: gs) = nestsIn names gs := by
  simp only [nestsIn, h]

theorem nestsIn_of_opening (h : TagKind.of (inside g) = .opening) (names gs : List Text) :
    nestsIn names (g :: gs) = nestsIn (tagName (inside g) :: names) gs := by
  simp only [nestsIn, h]

theorem nestsIn_nil_of_closing (h : TagKind.of (inside g) = .closing) (gs : List Text) :
    nestsIn [] (g :: gs) = false := by
  simp only [nestsIn, h]

theorem nestsIn_cons_of_closing (h : TagKind.of (inside g) = .closing) (name : Text)
    (outer gs : List Text) :
    nestsIn (name :: outer) (g :: gs) = (name == tagName (inside g) && nestsIn outer gs) := by
  simp only [nestsIn, h]

end Kinds

theorem nestsIn_filter (names gs : List Text) :
    nestsIn names (gs.filter isPaired) = nestsIn names gs := by
  induction gs generalizing names with
  | nil => rfl
  | cons g gs ih =>
    cases hkind : TagKind.of (inside g) with
    | selfClosing =>
      have hg : ¬ isPaired g := by simp [isPaired, hkind]
      rw [List.filter_cons_of_neg hg, ih, nestsIn_of_selfClosing hkind]
    | opening =>
      have hg : isPaired g := by simp [isPaired, hkind]
      rw [List.filter_cons_of_pos hg, nestsIn_of_opening hkind, nestsIn_of_opening hkind, ih]
    | closing =>
      have hg : isPaired g := by simp [isPaired, hkind]
      rw [List.filter_cons_of_pos hg]
      cases names with
      | nil => rw [nestsIn_nil_of_closing hkind, nestsIn_nil_of_closing hkind]
      | cons name outer =>
        rw [nestsIn_cons_of_closing hkind, nestsIn_cons_of_closing hkind, ih]

/-- **Self-closing tags do not matter.** -/
theorem isNested_filter (gs : List Text) : isNested (gs.filter isPaired) = isNested gs :=
  nestsIn_filter [] gs

/-! ## Blanks in tags -/

theorem dropWhile_squeeze (t : Text) : (Text.squeeze false t).dropWhile (· == '/') =
    Text.squeeze false (t.dropWhile (· == '/')) := by
  induction t with
  | nil => rfl
  | cons c t ih =>
    by_cases hc : c = '/'
    · rw [hc, Text.squeeze_cons_of_not_isSpace rfl, List.dropWhile_cons_of_pos rfl,
        List.dropWhile_cons_of_pos rfl, ih]
    · rw [List.dropWhile_cons_of_neg (by simpa using hc)]
      cases hspace : Text.isSpace c with
      | false =>
        rw [Text.squeeze_cons_of_not_isSpace hspace, List.dropWhile_cons_of_neg (by simpa using hc)]
      | true =>
        rw [Text.squeeze_false_cons_of_isSpace hspace, List.dropWhile_cons_of_neg (by decide)]

/-- What stands in front of the first blank is left. -/
theorem takeWhile_squeeze {p : Char → Bool} (hp : ∀ c, Text.isSpace c → p c = false) (t : Text) :
    (Text.squeeze false t).takeWhile p = t.takeWhile p := by
  induction t with
  | nil => rfl
  | cons c t ih =>
    cases hspace : Text.isSpace c with
    | false =>
      rw [Text.squeeze_cons_of_not_isSpace hspace, List.takeWhile_cons, List.takeWhile_cons, ih]
    | true =>
      rw [Text.squeeze_false_cons_of_isSpace hspace, List.takeWhile_cons, List.takeWhile_cons,
        hp c hspace, hp ' ' rfl]
      rfl

theorem tagName_squeeze (body : Text) : tagName (Text.squeeze false body) = tagName body := by
  rw [tagName, tagName, dropWhile_squeeze]
  refine takeWhile_squeeze (fun c hc => ?_) _
  rw [hc]
  rfl

theorem getLast?_cons_of_ne {c d : Char} (h : c ≠ d) (t : Text) :
    (c :: t).getLast? = some d ↔ t.getLast? = some d := by
  cases t with
  | nil => simp [h]
  | cons e t => rw [List.getLast?_cons_cons]

/-- A slash at the end stays there, and no other one gets there. -/
theorem getLast?_squeeze (behind : Bool) (t : Text) :
    (Text.squeeze behind t).getLast? = some '/' ↔ t.getLast? = some '/' := by
  induction t generalizing behind with
  | nil => rfl
  | cons c t ih =>
    cases hspace : Text.isSpace c with
    | false =>
      rw [Text.squeeze_cons_of_not_isSpace hspace]
      cases t with
      | nil => rfl
      | cons d t =>
        have hne : Text.squeeze false (d :: t) ≠ [] := by simp [Text.squeeze_false_eq_nil_iff]
        rw [List.getLast?_cons_of_ne_nil hne, List.getLast?_cons_cons]
        exact ih false
    | true =>
      have hslash : c ≠ '/' := by
        rintro rfl
        cases hspace
      rw [getLast?_cons_of_ne hslash]
      cases behind with
      | false =>
        rw [Text.squeeze_false_cons_of_isSpace hspace, getLast?_cons_of_ne (by decide)]
        exact ih true
      | true =>
        rw [Text.squeeze_true_cons_of_isSpace hspace]
        exact ih true

theorem head?_squeeze (t : Text) :
    (Text.squeeze false t).head? = some '/' ↔ t.head? = some '/' := by
  cases t with
  | nil => rfl
  | cons c t =>
    cases hspace : Text.isSpace c with
    | false => rw [Text.squeeze_cons_of_not_isSpace hspace]; rfl
    | true =>
      have hslash : c ≠ '/' := by
        rintro rfl
        cases hspace
      simp [Text.squeeze_false_cons_of_isSpace hspace, hslash]

/-- In front of a slash at the end, something is left or nothing was there. -/
theorem length_squeeze (h : body.getLast? = some '/') :
    2 ≤ (Text.squeeze false body).length ↔ 2 ≤ body.length := by
  obtain ⟨a, rfl⟩ := List.getLast?_eq_some_iff.mp h
  have hpos : 0 < (Text.squeeze false a).length ↔ 0 < a.length := by
    rw [List.length_pos_iff, List.length_pos_iff, ne_eq, ne_eq, Text.squeeze_false_eq_nil_iff]
  rw [Text.squeeze_append, Text.squeeze_cons_of_not_isSpace rfl, List.length_append,
    List.length_append]
  simp only [Text.squeeze_nil, List.length_singleton]
  omega

theorem kind_squeeze (body : Text) : TagKind.of (Text.squeeze false body) = TagKind.of body := by
  have hend : (2 ≤ (Text.squeeze false body).length &&
      (Text.squeeze false body).getLast? == some '/') =
        (2 ≤ body.length && body.getLast? == some '/') := by
    rw [Bool.eq_iff_iff]
    simp only [Bool.and_eq_true, decide_eq_true_eq, beq_iff_eq, getLast?_squeeze]
    exact and_congr_left length_squeeze
  have hstart : ((Text.squeeze false body).head? == some '/') = (body.head? == some '/') := by
    rw [Bool.eq_iff_iff, beq_iff_eq, beq_iff_eq]
    exact head?_squeeze body
  rw [TagKind.of, TagKind.of, hend, hstart]

/-- Dropping blanks in a tag changes neither its kind nor its name. -/
theorem role_collapse (h : IsTag g) : role (Text.collapse g) = role g := by
  obtain ⟨body, -, rfl⟩ := h
  rw [collapse_tagText, role, role, inside_tagText, inside_tagText, kind_squeeze, tagName_squeeze]

/-- **Dropping blanks in tags does not change their roles.** -/
theorem map_role_map_collapse (h : ∀ g ∈ gs, IsTag g) :
    (gs.map Text.collapse).map role = gs.map role := by
  rw [List.map_map]
  exact List.map_congr_left fun g hg => role_collapse (h g hg)

theorem filter_isPaired_map_collapse (h : ∀ g ∈ gs, IsTag g) :
    (gs.map Text.collapse).filter isPaired = (gs.filter isPaired).map Text.collapse := by
  rw [List.filter_map]
  refine congrArg (List.map Text.collapse) (List.filter_congr fun g hg => ?_)
  exact congrArg (·.1 != .selfClosing) (role_collapse (h g hg))

end Bitext.Markup
