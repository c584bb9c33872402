import Bitext.Proofs.Markup.Repaired
import Bitext.Proofs.Markup.Runs

/-!
# What renaming leaves alone

Renaming gives the tags of a text canonical names and takes their attributes away.  Behind it the
text is cut at the same places as before: every tag has become one tag of its kind, and the
characters around the tags are untouched, stray brackets among them.  Names are counted up along the
tags that are no closing tags, and a closing tag takes its name from a tag that is open, from the
right one if the tags nest.

Whether a tag is self-closing, closing or opening is asked of its written form, one kind at a time.
A tag with a slash at either end is found to be of two kinds; renaming asks for self-closing tags
first, and behind it no such tag is left.

## Main definitions

* `isOfKind`: the three kinds of tags, each by the written form.
* `IsRenamed`: a text is another one with canonical names.

## Main results

* `isOfKind_tagText`: the kinds that a tag is found to be of
* `existsUnique_isOfKind`: exactly when there is only one
* `Renaming.map_tagName_run`: the names that are given
* `isRenamed_canonical`: what renaming does to a text
-/

namespace Bitext.Markup

variable {t body : Text} {ps : List Piece}

/-! ## Kinds -/

/-- A text that begins like a closing tag. -/
def isClosingTag (g : Text) : Bool := ['<', '/'].isPrefixOf g

/-- A tag is found to be of a kind, whatever other kinds it is of. -/
def isOfKind (g : Text) : TagKind → Bool
  | .selfClosing => isSelfClosingTag g
  | .closing => isClosingTag g
  | .opening => isOpeningTag g

/-- A slash stands at either end of the body. -/
def hasTwoSlashes (body : Text) : Bool :=
  2 ≤ body.length && body.head? == some '/' && body.getLast? == some '/'

theorem soleTag?_tagText (h : IsTagBody body) : soleTag? (tagText body) = some body := by
  have hpieces := pieces_tagText_append h []
  rw [List.append_nil] at hpieces
  rw [soleTag?, hpieces]
  rfl

theorem isSelfClosingTag_tagText (h : IsTagBody body) :
    isSelfClosingTag (tagText body) = true ↔ TagKind.of body = .selfClosing := by
  rw [isSelfClosingTag, soleTag?_tagText h, Option.map_some, beq_iff_eq, Option.some.injEq]

theorem isOpeningTag_tagText (h : IsTagBody body) :
    isOpeningTag (tagText body) = true ↔ TagKind.of body = .opening := by
  rw [isOpeningTag, soleTag?_tagText h, Option.map_some, beq_iff_eq, Option.some.injEq]

/-- A slash at the start makes a closing tag, also where one at the end makes a self-closing one. -/
theorem isClosingTag_tagText (h : IsTagBody body) :
    isClosingTag (tagText body) = true ↔
      TagKind.of body = .closing ∨ hasTwoSlashes body = true := by
  have hslash : isClosingTag (tagText body) = (body.head? == some '/') := by
    obtain ⟨c, rest, rfl⟩ := List.exists_cons_of_ne_nil h.ne_nil
    exact (Bool.and_true _).trans Bool.beq_comm
  rw [hslash, TagKind.of, hasTwoSlashes]
  cases body.head? == some '/' <;> cases hlast : 2 ≤ body.length && body.getLast? == some '/' <;>
    simp_all

theorem kind_of_hasTwoSlashes (h : hasTwoSlashes body = true) : TagKind.of body = .selfClosing := by
  simp only [hasTwoSlashes, Bool.and_eq_true] at h
  rw [TagKind.of, if_pos (Bool.and_eq_true_iff.mpr ⟨h.1.1, h.2⟩)]

/-- **The kinds that a tag is found to be of**: the one that renaming takes it to be of, and closing
as well if a slash stands at either end. -/
theorem isOfKind_tagText (h : IsTagBody body) (kind : TagKind) :
    isOfKind (tagText body) kind = true ↔
      TagKind.of body = kind ∨ kind = .closing ∧ hasTwoSlashes body = true := by
  cases kind with
  | selfClosing => simp [isOfKind, isSelfClosingTag_tagText h]
  | closing => simp [isOfKind, isClosingTag_tagText h]
  | opening => simp [isOfKind, isOpeningTag_tagText h]

/-- **Exactly when a tag is of only one kind.** -/
theorem existsUnique_isOfKind (h : IsTagBody body) :
    (∃! kind, isOfKind (tagText body) kind = true) ↔ hasTwoSlashes body = false := by
  constructor
  · rintro ⟨kind, -, hunique⟩
    by_contra htwo
    rw [Bool.not_eq_false] at htwo
    -- The tag is self-closing and closing.
    have hself := hunique .selfClosing ((isOfKind_tagText h _).mpr (.inl (kind_of_hasTwoSlashes htwo)))
    have hclosing := hunique .closing ((isOfKind_tagText h _).mpr (.inr ⟨rfl, htwo⟩))
    rw [← hclosing] at hself
    cases hself
  · intro hone
    refine ⟨TagKind.of body, (isOfKind_tagText h _).mpr (.inl rfl), fun kind hkind => ?_⟩
    rcases (isOfKind_tagText h kind).mp hkind with hkind | ⟨-, htwo⟩
    · exact hkind.symm
    · rw [hone] at htwo
      cases htwo

/-- Next to a name there is a slash at one end at most. -/
theorem IsCanonicalBody.hasTwoSlashes_eq_false (h : IsCanonicalBody body) :
    hasTwoSlashes body = false := by
  cases h with
  | opening hname =>
    obtain ⟨c, rest, rfl, hslash, -⟩ := hname.isTagName.exists_cons
    simp [hasTwoSlashes, hslash]
  | empty hname =>
    obtain ⟨c, rest, rfl, hslash, -⟩ := hname.isTagName.exists_cons
    simp [hasTwoSlashes, hslash]
  | @closing name hname =>
    have hlast := hname.isTagName.getLast?_ne
    obtain ⟨c, rest, rfl, -⟩ := hname.isTagName.exists_cons
    simpa [hasTwoSlashes, List.getLast?_cons_cons] using hlast

/-! ## Names -/

/-- The tag gets a name of its own: it is no closing tag. -/
def isNumbered (body : Text) : Bool := TagKind.of body != .closing

namespace Renaming

variable {state : Renaming}

theorem isNumbered_step (h : HasNames state.opened) (body : Text) :
    isNumbered (state.step body).1 = isNumbered body := by
  rw [isNumbered, kind_step h, isNumbered]

theorem given_step (state : Renaming) (body : Text) :
    (state.step body).2.given = state.given + if isNumbered body then 1 else 0 := by
  unfold isNumbered
  cases hkind : TagKind.of body with
  | selfClosing => rw [step_of_selfClosing hkind]; rfl
  | closing => rw [step_of_closing hkind]; rfl
  | opening => rw [step_of_opening hkind]; rfl

theorem tagName_step (h : isNumbered body = true) (state : Renaming) :
    tagName (state.step body).1 = canonicalName (tagName body) (state.given + 1) := by
  have hname := isName_canonicalName (tagName body) (state.given + 1)
  cases hkind : TagKind.of body with
  | selfClosing =>
    rw [step_of_selfClosing hkind]
    exact tagName_empty hname
  | closing =>
    rw [isNumbered, hkind] at h
    cases h
  | opening =>
    rw [step_of_opening hkind]
    exact tagName_opening hname

/-- **The names that are given**: the tags that are no closing tags are counted, from the first
number that has not been given. -/
theorem map_tagName_run (h : HasNames state.opened) (ps : List Piece) :
    (((state.run ps).filterMap Piece.body?).filter isNumbered).map tagName =
      ((ps.filterMap Piece.body?).filter isNumbered).mapIdx fun k body =>
        canonicalName (tagName body) (state.given + k + 1) := by
  induction ps generalizing state with
  | nil => rfl
  | cons p ps ih =>
    cases p with
    | char c => exact ih h
    | tag body =>
      have hrest := ih (h.step body).2
      rw [given_step] at hrest
      rw [run_tag_cons, filterMap_body?_tag, filterMap_body?_tag, List.filter_cons,
        List.filter_cons, isNumbered_step h]
      split
      · rename_i hnumbered
        rw [if_pos hnumbered] at hrest
        rw [List.map_cons, tagName_step hnumbered, hrest, List.mapIdx_cons]
        simp only [Nat.add_zero, Nat.add_assoc, Nat.add_comm 1]
      · rename_i hclosing
        rw [if_neg hclosing] at hrest
        exact hrest

end Renaming

/-! ## Renamed texts -/

/-- The second text is the first one with canonical names. -/
structure IsRenamed (t u : Text) : Prop where
  /-- The characters in front of the tags, between them and behind them are the same. -/
  between : runs (pieces u) = runs (pieces t)
  /-- There is one tag for each tag, in order, and it has the same kind. -/
  kinds : (tagBodies u).map TagKind.of = (tagBodies t).map TagKind.of
  /-- No tag has anything left but a name and its slash. -/
  bodies : ∀ body ∈ tagBodies u, IsCanonicalBody body
  /-- The tags that are no closing tags are counted, and have their number in their name if their
  name was an identifier. -/
  names : ((tagBodies u).filter isNumbered).map tagName =
    ((tagBodies t).filter isNumbered).mapIdx fun k body =>
      if isIdentifier (tagName body) then 'T' :: Text.ofNat (k + 1) else ['T']
  /-- If every closing tag had the name of the tag that it closes, it still has. -/
  nested : isNested (tags t) = true → isNested (tags u) = true

/-- **What renaming does to a text with tags.**  It changes the names of the tags and takes their
attributes away; what is left of the text without its tags is collapsed, with a space in the place
of every tag that is not self-closing.  A tag is of one kind only unless a slash stands at either
end, and then it is taken to be self-closing; behind renaming every tag is of one kind only. -/
theorem isRenamed_canonical (htags : hasTags t = true) :
    IsRenamed t (canonical t) ∧
      (∀ body ∈ tagBodies t,
        (∀ kind, isOfKind (tagText body) kind = true ↔
          TagKind.of body = kind ∨ kind = .closing ∧ hasTwoSlashes body = true) ∧
        ((∃! kind, isOfKind (tagText body) kind = true) ↔ hasTwoSlashes body = false)) ∧
      (∀ body ∈ tagBodies (canonical t), ∀ kind,
        isOfKind (tagText body) kind = true ↔ TagKind.of body = kind) ∧
      unmarked t = Text.collapse
        (replaceTags (fun body => if TagKind.of body = .selfClosing then [] else [' ']) t) := by
  have hnames : Renaming.HasNames [] := fun _ htag => absurd htag List.not_mem_nil
  have hbodies : tagBodies (canonical t) = (renamed (pieces t)).filterMap Piece.body? := by
    rw [tagBodies_eq, pieces_canonical]
  have hcanonical : ∀ body ∈ tagBodies (canonical t), IsCanonicalBody body := by
    intro body hbody
    rw [hbodies] at hbody
    obtain ⟨p, hp, hbody⟩ := List.mem_filterMap.mp hbody
    cases p with
    | char c => cases hbody
    | tag other =>
      obtain rfl := Option.some.inj hbody
      exact isCanonicalBody_of_mem_renamed hp
  refine ⟨⟨?_, ?_, hcanonical, ?_, isNested_canonical⟩, ?_, ?_, ?_⟩
  -- The pieces of the renamed text are the renamed pieces, so each law is one about renaming them.
  · rw [pieces_canonical]
    exact runs_congr (Renaming.map_char?_run _ _)
  · rw [hbodies, tagBodies_eq]
    exact Renaming.map_kind_run hnames (pieces t)
  · have hrun := @Renaming.map_tagName_run ⟨[], 0⟩ hnames (pieces t)
    rw [hbodies, renamed, tagBodies_eq, hrun]
    simp only [Nat.zero_add, Renaming.canonicalName, tagLetter, List.singleton_append]
  · intro body hbody
    have htag := isTagBody_of_mem_tagBodies hbody
    exact ⟨isOfKind_tagText htag, existsUnique_isOfKind htag⟩
  · intro body hbody kind
    have hone := (hcanonical body hbody).hasTwoSlashes_eq_false
    rw [isOfKind_tagText (hcanonical body hbody).isTagBody, hone]
    simp
  · rw [unmarked, if_pos htags]

/-- Brackets that belong to no tag, attributes, a name that is no identifier, a tag with a slash at
either end, and closing tags with and without a partner. -/
def strayBrackets : Text := "a < <b x='1'>> <1>p</1 ></b></b/></i> <".toList

theorem isRenamed_canonical_strayBrackets :
    hasTags strayBrackets = true ∧
      IsRenamed strayBrackets "a < <T1>> <T>p</T></T1><T3/></T> <".toList ∧
      unmarked strayBrackets = "a < > p <".toList := by
  have htags : hasTags strayBrackets = true := by decide
  obtain ⟨hrenamed, -, -, hunmarked⟩ := isRenamed_canonical htags
  have hcanonical : canonical strayBrackets =
      "a < <T1>> <T>p</T></T1><T3/></T> <".toList := by decide +kernel
  have hcollapsed : Text.collapse (replaceTags
      (fun body => if TagKind.of body = .selfClosing then [] else [' ']) strayBrackets) =
        "a < > p <".toList := by decide +kernel
  exact ⟨htags, hcanonical ▸ hrenamed, hunmarked.trans hcollapsed⟩

/-- **A tag of two kinds**, which is a whole text. -/
theorem not_existsUnique_isOfKind_slashes :
    let t := "</b/>".toList
    hasTags t = true ∧ tags t = [t] ∧
      isOfKind t .selfClosing = true ∧ isOfKind t .closing = true ∧
      ¬ ∃! kind, isOfKind t kind = true := by
  intro t
  have hself : isOfKind t .selfClosing = true := by decide
  have hclosing : isOfKind t .closing = true := by decide
  refine ⟨by decide, by decide, hself, hclosing, ?_⟩
  rintro ⟨kind, -, hunique⟩
  have hsame : TagKind.selfClosing = .closing := (hunique _ hself).trans (hunique _ hclosing).symm
  cases hsame

end Bitext.Markup
