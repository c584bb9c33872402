import Bitext.Markup.Piece
import Bitext.Proofs.Text.Blank

/-!
# Cutting what was put together

`unparse` always takes back `pieces`.  The converse holds where no character outside tags can be
taken for the start of a tag: a text without opening brackets stays in front of the pieces of what
follows it, a tag with a body that can be read is one piece, and a text without brackets may follow
anything.

## Main definitions

* `IsTagBody`: what can stand between the brackets of a tag.

## Main results

* `pieces_append_of_no_open`, `pieces_tagText_append`, `pieces_append_of_no_angle`
* `isTagBody_of_mem_pieces`: every tag that is found has such a body
-/

namespace Bitext.Markup

variable {a b t body : Text}

/-- What can stand between the brackets of a tag: something, but no bracket. -/
structure IsTagBody (body : Text) : Prop where
  ne_nil : body ≠ []
  isAngle : ∀ c ∈ body, isAngle c = false

theorem ne_open_of_no_angle (h : ∀ c ∈ a, isAngle c = false) : ∀ c ∈ a, c ≠ '<' := by
  rintro c hc rfl
  exact absurd (h '<' hc) (by decide)

theorem IsTagBody.ne_open (h : IsTagBody body) : ∀ c ∈ body, c ≠ '<' :=
  ne_open_of_no_angle h.isAngle

/-- Blanks are no brackets. -/
theorem isAngle_of_isBlank (h : Text.isBlank b = true) : ∀ c ∈ b, isAngle c = false := by
  intro c hc
  have hspace := Text.isBlank_iff.mp h c hc
  simp only [isAngle, Bool.or_eq_false_iff, beq_eq_false_iff_ne]
  constructor <;> (rintro rfl; revert hspace; decide)

@[simp] theorem unparse_nil : unparse [] = [] := rfl

@[simp] theorem unparse_cons (p : Piece) (ps : List Piece) :
    unparse (p :: ps) = p.text ++ unparse ps := rfl

@[simp] theorem unparse_append (ps qs : List Piece) :
    unparse (ps ++ qs) = unparse ps ++ unparse qs := by
  simp [unparse]

@[simp] theorem unparse_map_char (t : Text) : unparse (t.map Piece.char) = t := by
  induction t with
  | nil => rfl
  | cons c rest ih => rw [List.map_cons, unparse_cons, ih]; rfl

/-! ## Texts in front -/

theorem pieces_cons_of_ne_open {c : Char} (h : c ≠ '<') (t : Text) :
    pieces (c :: t) = .char c :: pieces t := by
  simp [pieces, h]

/-- A text without opening brackets stays in front of the pieces of what follows it. -/
theorem pieces_append_of_no_open (h : ∀ c ∈ a, c ≠ '<') (t : Text) :
    pieces (a ++ t) = a.map Piece.char ++ pieces t := by
  induction a with
  | nil => rfl
  | cons c rest ih =>
    rw [List.cons_append, pieces_cons_of_ne_open (h c List.mem_cons_self), List.map_cons,
      List.cons_append, ih fun d hd => h d (List.mem_cons_of_mem c hd)]

theorem pieces_of_no_open (h : ∀ c ∈ a, c ≠ '<') : pieces a = a.map Piece.char := by
  have := pieces_append_of_no_open h []
  simpa [pieces] using this

/-! ## Tags in front -/

theorem closeTag_map_char (h : ∀ c ∈ body, isAngle c = false) (ps : List Piece) :
    closeTag (body.map Piece.char ++ .char '>' :: ps) = some (body, ps) := by
  induction body with
  | nil => rfl
  | cons c rest ih =>
    have hc := h c List.mem_cons_self
    simp only [isAngle, Bool.or_eq_false_iff] at hc
    rw [List.map_cons, List.cons_append, closeTag, hc.1, hc.2,
      ih fun d hd => h d (List.mem_cons_of_mem c hd)]
    rfl

/-- **A written tag is read as one piece.** -/
theorem pieces_tagText_append (h : IsTagBody body) (t : Text) :
    pieces (tagText body ++ t) = .tag body :: pieces t := by
  -- Pieces are cut from the end, so the tag is closed over the pieces behind its bracket.
  have hinside : pieces (body ++ '>' :: t) = body.map Piece.char ++ .char '>' :: pieces t := by
    rw [pieces_append_of_no_open h.ne_open, pieces_cons_of_ne_open (by decide)]
  have hclose := closeTag_map_char h.isAngle (pieces t)
  obtain ⟨c, rest, rfl⟩ := List.exists_cons_of_ne_nil h.ne_nil
  rw [tagText, List.cons_append, List.append_assoc, List.singleton_append]
  simp only [pieces, beq_self_eq_true, if_true, hinside, hclose]

/-! ## Texts behind -/

theorem closeTag_append_map_char (h : ∀ c ∈ b, isAngle c = false) (ps : List Piece) :
    closeTag (ps ++ b.map Piece.char) =
      (closeTag ps).map fun found => (found.1, found.2 ++ b.map Piece.char) := by
  induction ps with
  -- No bracket is found behind the last piece.
  | nil =>
    induction b with
    | nil => rfl
    | cons c rest ih =>
      have hc := h c List.mem_cons_self
      simp only [isAngle, Bool.or_eq_false_iff] at hc
      have := ih fun d hd => h d (List.mem_cons_of_mem c hd)
      simp only [List.nil_append, closeTag, Option.map_none] at this
      simp [closeTag, hc.1, hc.2, this]
  | cons p rest ih =>
    cases p with
    | tag body => rfl
    | char c =>
      simp only [List.cons_append, closeTag, ih]
      split
      · rfl
      · split
        · rfl
        · cases closeTag rest <;> rfl

/-- A text without brackets may follow anything. -/
theorem pieces_append_of_no_angle (h : ∀ c ∈ b, isAngle c = false) (t : Text) :
    pieces (t ++ b) = pieces t ++ b.map Piece.char := by
  induction t with
  | nil => exact pieces_of_no_open (ne_open_of_no_angle h)
  | cons c rest ih =>
    simp only [List.cons_append, pieces, ih, closeTag_append_map_char h]
    split
    · cases closeTag (pieces rest) with
      | none => rfl
      | some found =>
        obtain ⟨body, after⟩ := found
        cases body <;> rfl
    · rfl

/-! ## The tags that are found -/

theorem closeTag_isAngle {ps after : List Piece} (h : closeTag ps = some (body, after)) :
    (∀ c ∈ body, isAngle c = false) ∧ after ⊆ ps := by
  induction ps generalizing body with
  | nil => cases h
  | cons p rest ih =>
    cases p with
    | tag b => cases h
    | char c =>
      simp only [closeTag] at h
      split at h
      · obtain ⟨rfl, rfl⟩ := Prod.mk.inj (Option.some.inj h)
        exact ⟨fun c hc => absurd hc List.not_mem_nil, List.subset_cons_self _ _⟩
      · split at h
        · cases h
        · rename_i hclose hopen
          -- The body goes on behind this character, which is no bracket.
          obtain ⟨⟨b, r⟩, hfound, heq⟩ := Option.map_eq_some_iff.mp h
          obtain ⟨rfl, rfl⟩ := Prod.mk.inj heq
          obtain ⟨hbody, hafter⟩ := ih hfound
          refine ⟨?_, fun q hq => List.mem_cons_of_mem _ (hafter hq)⟩
          intro d hd
          rcases List.mem_cons.mp hd with rfl | hd
          · simp_all [isAngle]
          · exact hbody d hd

/-- Every tag that is found has a body that can be read. -/
theorem isTagBody_of_mem_pieces (h : .tag body ∈ pieces t) : IsTagBody body := by
  induction t with
  | nil => cases h
  | cons c rest ih =>
    simp only [pieces] at h
    split at h
    -- An opening bracket may begin a tag; what stands behind that tag is among the later pieces.
    · split at h
      · rename_i hfound
        obtain ⟨hangle, hafter⟩ := closeTag_isAngle hfound
        rcases List.mem_cons.mp h with heq | h
        · cases heq
          exact ⟨List.cons_ne_nil _ _, hangle⟩
        · exact ih (hafter h)
      · rcases List.mem_cons.mp h with heq | h
        · cases heq
        · exact ih h
    · rcases List.mem_cons.mp h with heq | h
      · cases heq
      · exact ih h

/-! ## Texts without tags -/

theorem hasTags_iff : hasTags t ↔ ∃ body, .tag body ∈ pieces t := by
  simp only [hasTags, tagBodies, Bool.not_eq_true', List.isEmpty_eq_false_iff_exists_mem,
    List.mem_filterMap]
  constructor
  · rintro ⟨body, p, hp, hbody⟩
    cases p with
    | char c => cases hbody
    | tag b => exact ⟨b, hp⟩
  · rintro ⟨body, hp⟩
    exact ⟨body, .tag body, hp, rfl⟩

theorem hasTags_eq_false_of_no_open (h : ∀ c ∈ t, c ≠ '<') : hasTags t = false := by
  rw [Bool.eq_false_iff, Ne, hasTags_iff, pieces_of_no_open h]
  rintro ⟨body, hp⟩
  obtain ⟨c, -, hc⟩ := List.mem_map.mp hp
  cases hc

end Bitext.Markup
