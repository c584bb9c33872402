import Bitext.Markup.Spacing
import Bitext.Proofs.Markup.Pieces
import Bitext.Proofs.Text.Squeeze

/-!
# The tags of texts that are put together

Tags are found from left to right as well: an opening bracket begins a tag whatever stands before
it, and a closing one ends the tag that is open.  So a tag that is put into a text is found where it
was put, and the tags in front of it and behind it are those of the two parts of the text.  Blanks
matter to no tag but that in which they stand.

## Main definitions

* `bodiesFrom`: the tags of a text, found from left to right.
* `IsTag`: a text that is one tag.

## Main results

* `bodiesFrom_none`: the same tags are found
* `tags_append_tag`: a tag inside a text
* `tags_collapse`, `tags_tighten`: what is left of tags when blanks are dropped
-/

namespace Bitext.Markup

variable {a b t g body : Text} {begun? : Option Text} {ps after : List Piece}

/-! ## From left to right -/

/-- The body that a closing bracket completes: there is none if no tag is open or if nothing stands
in it. -/
def closedBody (begun? : Option Text) : List Text := begun?.toList.filter (!·.isEmpty)

/-- The bodies of the tags that are found from left to right.  If a tag is open, `begun?` is what
stands between its opening bracket and the text. -/
def bodiesFrom (begun? : Option Text) : Text → List Text
  | [] => []
  | c :: t =>
    if c == '<' then bodiesFrom (some []) t
    else if c == '>' then closedBody begun? ++ bodiesFrom none t
    else bodiesFrom (begun?.map (· ++ [c])) t

@[simp] theorem bodiesFrom_open (begun? : Option Text) (t : Text) :
    bodiesFrom begun? ('<' :: t) = bodiesFrom (some []) t := rfl

@[simp] theorem bodiesFrom_close (begun? : Option Text) (t : Text) :
    bodiesFrom begun? ('>' :: t) = closedBody begun? ++ bodiesFrom none t := rfl

theorem bodiesFrom_cons {c : Char} (h : isAngle c = false) (begun? : Option Text) (t : Text) :
    bodiesFrom begun? (c :: t) = bodiesFrom (begun?.map (· ++ [c])) t := by
  rw [isAngle, Bool.or_eq_false_iff] at h
  rw [bodiesFrom, h.1, h.2]
  rfl

/-- A character is one of the two brackets or no bracket. -/
theorem angle_cases (c : Char) : c = '<' ∨ c = '>' ∨ isAngle c = false := by
  by_cases hopen : c = '<'
  · exact .inl hopen
  · by_cases hclose : c = '>'
    · exact .inr (.inl hclose)
    · refine .inr (.inr ?_)
      rw [isAngle, beq_eq_false_iff_ne.mpr hopen, beq_eq_false_iff_ne.mpr hclose]
      rfl

/-! ## The same tags -/

/-- The body of a tag. -/
def Piece.body? : Piece → Option Text
  | .char _ => none
  | .tag body => some body

theorem tagBodies_eq (t : Text) : tagBodies t = (pieces t).filterMap Piece.body? := rfl

/-- What is found behind an opening bracket and the characters `begun` in the pieces that follow. -/
def bodiesBehind (begun : Text) (ps : List Piece) : List Text :=
  match closeTag ps with
  | some (body, after) => closedBody (some (begun ++ body)) ++ after.filterMap Piece.body?
  | none => ps.filterMap Piece.body?

/-- No tag stands between an opening bracket and the next closing one. -/
theorem bodies_of_closeTag (h : closeTag ps = some (body, after)) :
    ps.filterMap Piece.body? = after.filterMap Piece.body? := by
  induction ps generalizing body with
  | nil => cases h
  | cons p ps ih =>
    cases p with
    | tag other => cases h
    | char c =>
      simp only [closeTag] at h
      split at h
      · cases h
        rfl
      · split at h
        · cases h
        · obtain ⟨⟨rest, after'⟩, hfound, heq⟩ := Option.map_eq_some_iff.mp h
          cases heq
          exact ih hfound

theorem closeTag_pieces_open (t : Text) : closeTag (pieces ('<' :: t)) = none := by
  simp only [pieces, beq_self_eq_true, if_true]
  split <;> rfl

theorem bodies_pieces_open (t : Text) :
    (pieces ('<' :: t)).filterMap Piece.body? = bodiesBehind [] (pieces t) := by
  simp only [pieces, beq_self_eq_true, if_true, bodiesBehind]
  split
  · rename_i hfound
    rw [hfound]
    rfl
  · rename_i hnone
    split
    · rename_i body after hfound
      -- Two brackets with nothing between them are no tag.
      cases body with
      | nil =>
        have hbodies := bodies_of_closeTag hfound
        exact hbodies
      | cons c body => exact absurd hfound (hnone c body after)
    · rfl

theorem bodiesFrom_eq (t : Text) :
    bodiesFrom none t = (pieces t).filterMap Piece.body? ∧
      ∀ begun, bodiesFrom (some begun) t = bodiesBehind begun (pieces t) := by
  induction t with
  | nil => exact ⟨rfl, fun begun => rfl⟩
  | cons c t ih =>
    obtain ⟨hnone, hsome⟩ := ih
    rcases angle_cases c with rfl | rfl | hc
    · refine ⟨?_, fun begun => ?_⟩
      · rw [bodiesFrom_open, hsome, bodies_pieces_open]
      · have hbehind : bodiesBehind begun (pieces ('<' :: t)) =
            (pieces ('<' :: t)).filterMap Piece.body? := by
          rw [bodiesBehind, closeTag_pieces_open]
        rw [bodiesFrom_open, hsome, hbehind, bodies_pieces_open]
    · have hpieces : pieces ('>' :: t) = .char '>' :: pieces t :=
        pieces_cons_of_ne_open (by decide) t
      refine ⟨?_, fun begun => ?_⟩
      · rw [bodiesFrom_close, hnone, hpieces]
        rfl
      · have hclosed : closeTag (.char '>' :: pieces t) = some ([], pieces t) := rfl
        rw [bodiesFrom_close, hnone, hpieces, bodiesBehind, hclosed]
        simp
    · have hopen : c ≠ '<' := by
        rintro rfl
        cases hc
      rw [pieces_cons_of_ne_open hopen]
      refine ⟨?_, fun begun => ?_⟩
      · rw [bodiesFrom_cons hc]
        exact hnone
      · rw [bodiesFrom_cons hc, Option.map_some, hsome, bodiesBehind, bodiesBehind]
        have hclose : closeTag (.char c :: pieces t) =
            (closeTag (pieces t)).map fun p => (c :: p.1, p.2) := by
          rw [isAngle, Bool.or_eq_false_iff] at hc
          rw [closeTag, hc.1, hc.2]
          rfl
        rw [hclose]
        cases closeTag (pieces t) with
        | none => rfl
        | some p =>
          simp only [Option.map_some, List.append_assoc, List.singleton_append]

/-- **The same tags are found** from left to right. -/
theorem bodiesFrom_none (t : Text) : bodiesFrom none t = tagBodies t := (bodiesFrom_eq t).1

/-! ## Parts of a text -/

/-- What stands in front of a text matters to its tags only by what it leaves open. -/
theorem exists_bodiesFrom_append (begun? : Option Text) (a : Text) :
    ∃ left?, ∀ t, bodiesFrom begun? (a ++ t) = bodiesFrom begun? a ++ bodiesFrom left? t := by
  induction a generalizing begun? with
  | nil => exact ⟨begun?, fun t => rfl⟩
  | cons c a ih =>
    rcases angle_cases c with rfl | rfl | hc
    · obtain ⟨left?, ha⟩ := ih (some [])
      exact ⟨left?, ha⟩
    · obtain ⟨left?, ha⟩ := ih none
      refine ⟨left?, fun t => ?_⟩
      rw [List.cons_append, bodiesFrom_close, bodiesFrom_close, ha, List.append_assoc]
    · obtain ⟨left?, ha⟩ := ih (begun?.map (· ++ [c]))
      refine ⟨left?, fun t => ?_⟩
      rw [List.cons_append, bodiesFrom_cons hc, bodiesFrom_cons hc, ha]

/-- Texts in which the same tags are found are alike behind the same text. -/
theorem bodiesFrom_append_congr {u : Text} (h : ∀ begun?, bodiesFrom begun? t = bodiesFrom begun? u)
    (begun? : Option Text) (a : Text) :
    bodiesFrom begun? (a ++ t) = bodiesFrom begun? (a ++ u) := by
  obtain ⟨left?, ha⟩ := exists_bodiesFrom_append begun? a
  rw [ha, ha, h]

/-- An open tag completes at most one more. -/
theorem bodiesFrom_none_suffix (begun? : Option Text) (t : Text) :
    bodiesFrom none t <:+ bodiesFrom begun? t := by
  induction t generalizing begun? with
  | nil => exact List.suffix_refl _
  | cons c t ih =>
    rcases angle_cases c with rfl | rfl | hc
    · exact List.suffix_refl _
    · exact List.suffix_append _ _
    · rw [bodiesFrom_cons hc, bodiesFrom_cons hc]
      exact ih _

/-- A text without brackets goes on with the tag that is open. -/
theorem bodiesFrom_append (h : ∀ c ∈ a, isAngle c = false) (begun? : Option Text) (t : Text) :
    bodiesFrom begun? (a ++ t) = bodiesFrom (begun?.map (· ++ a)) t := by
  induction a generalizing begun? with
  | nil => cases begun? <;> simp
  | cons c a ih =>
    rw [List.cons_append, bodiesFrom_cons (h c List.mem_cons_self),
      ih fun d hd => h d (List.mem_cons_of_mem c hd)]
    cases begun? <;> simp

theorem bodiesFrom_tagText_append (h : IsTagBody body) (begun? : Option Text) (t : Text) :
    bodiesFrom begun? (tagText body ++ t) = body :: bodiesFrom none t := by
  have hbody : closedBody (some body) = [body] := by
    simp [closedBody, h.ne_nil]
  rw [tagText, List.cons_append, bodiesFrom_open, List.append_assoc, bodiesFrom_append h.isAngle,
    Option.map_some, List.nil_append, List.singleton_append, bodiesFrom_close, hbody]
  rfl

/-! ## Tags inside texts -/

/-- A text that is one tag. -/
def IsTag (g : Text) : Prop := ∃ body, IsTagBody body ∧ g = tagText body

theorem isTagBody_of_mem_tagBodies (h : body ∈ tagBodies t) : IsTagBody body := by
  obtain ⟨p, hp, hbody⟩ := List.mem_filterMap.mp h
  cases p with
  | char c => cases hbody
  | tag other =>
    cases hbody
    exact isTagBody_of_mem_pieces hp

theorem isTag_of_mem_tags (h : g ∈ tags t) : IsTag g := by
  obtain ⟨body, hbody, rfl⟩ := List.mem_map.mp h
  exact ⟨body, isTagBody_of_mem_tagBodies hbody, rfl⟩

theorem tags_eq (t : Text) : tags t = (bodiesFrom none t).map tagText := by
  rw [bodiesFrom_none, tags]

/-- **A tag inside a text is found there**, between the tags of what stands before and behind it. -/
theorem tags_append_tag (h : IsTag g) (a t : Text) :
    tags (a ++ (g ++ t)) = tags a ++ g :: tags t := by
  obtain ⟨body, hbody, rfl⟩ := h
  obtain ⟨left?, ha⟩ := exists_bodiesFrom_append none a
  rw [tags_eq, tags_eq, tags_eq, ha, bodiesFrom_tagText_append hbody, List.map_append,
    List.map_cons]

/-- The parts of a text without tags have none. -/
theorem tags_eq_nil_of_append (h : tags (a ++ t) = []) : tags a = [] ∧ tags t = [] := by
  obtain ⟨left?, ha⟩ := exists_bodiesFrom_append none a
  rw [tags_eq, ha, List.map_append, List.append_eq_nil_iff, List.map_eq_nil_iff,
    List.map_eq_nil_iff] at h
  refine ⟨?_, ?_⟩
  · rw [tags_eq, h.1]
    rfl
  · have hsuffix := bodiesFrom_none_suffix left? t
    rw [h.2, List.suffix_nil] at hsuffix
    rw [tags_eq, hsuffix]
    rfl

theorem filterMap_body?_char (c : Char) (ps : List Piece) :
    (Piece.char c :: ps).filterMap Piece.body? = ps.filterMap Piece.body? := rfl

theorem filterMap_body?_tag (body : Text) (ps : List Piece) :
    (Piece.tag body :: ps).filterMap Piece.body? = body :: ps.filterMap Piece.body? := rfl

theorem filterMap_body?_map_char (a : Text) : (a.map Piece.char).filterMap Piece.body? = [] := by
  rw [List.filterMap_eq_nil_iff]
  intro p hp
  obtain ⟨c, -, rfl⟩ := List.mem_map.mp hp
  rfl

/-- A text without brackets adds no tag at the end. -/
theorem tags_append_of_no_angle (h : ∀ c ∈ b, isAngle c = false) (t : Text) :
    tags (t ++ b) = tags t := by
  rw [tags, tags, tagBodies_eq, tagBodies_eq, pieces_append_of_no_angle h, List.filterMap_append,
    filterMap_body?_map_char, List.append_nil]

/-- Tags at the end of a text. -/
theorem tags_append_flatten {gs : List Text} (h : ∀ g ∈ gs, IsTag g) (t : Text) :
    tags (t ++ gs.flatten) = tags t ++ gs := by
  induction gs generalizing t with
  | nil => simp
  | cons g gs ih =>
    have hrest := ih (fun k hk => h k (List.mem_cons_of_mem g hk)) []
    rw [List.flatten_cons, tags_append_tag (h g List.mem_cons_self)]
    rw [List.nil_append] at hrest
    rw [hrest]
    rfl

/-! ## Blanks -/

theorem isAngle_of_mem_squeeze {behind : Bool} {c : Char} (h : isAngle c = false) :
    ∀ d ∈ Text.squeeze behind [c], isAngle d = false := by
  intro d hd
  rcases Text.mem_of_mem_squeeze hd with rfl | hd
  · rfl
  · rw [List.mem_singleton.mp hd]
    exact h

theorem closedBody_squeeze (begun? : Option Text) :
    closedBody (begun?.map (Text.squeeze false)) =
      (closedBody begun?).map (Text.squeeze false) := by
  cases begun? with
  | none => rfl
  | some begun =>
    by_cases hnil : begun = []
    · rw [hnil]
      rfl
    · have hsqueeze : Text.squeeze false begun ≠ [] := mt Text.squeeze_false_eq_nil_iff.mp hnil
      simp [closedBody, hnil, hsqueeze]

/-- **Squeezing blanks squeezes the bodies of tags**, and no other tags are found. -/
theorem bodiesFrom_squeeze (begun? : Option Text) (behind : Bool) (t : Text)
    (h : ∀ begun ∈ begun?, Text.endsBlank false begun = behind) :
    bodiesFrom (begun?.map (Text.squeeze false)) (Text.squeeze behind t) =
      (bodiesFrom begun? t).map (Text.squeeze false) := by
  induction t generalizing begun? behind with
  | nil => rfl
  | cons c t ih =>
    rcases angle_cases c with rfl | rfl | hc
    · have hbody := ih (some []) false (by simp [Text.endsBlank])
      rw [Text.squeeze_cons_of_not_isSpace rfl, bodiesFrom_open, bodiesFrom_open]
      exact hbody
    · have hrest := ih none false (by simp)
      rw [Text.squeeze_cons_of_not_isSpace rfl, bodiesFrom_close, bodiesFrom_close,
        List.map_append, closedBody_squeeze]
      exact congrArg _ hrest
    · -- The open tag grows by the character, and its squeezed body by what is left of it.
      have hgrown : (begun?.map (Text.squeeze false)).map (· ++ Text.squeeze behind [c]) =
          (begun?.map (· ++ [c])).map (Text.squeeze false) := by
        cases begun? with
        | none => rfl
        | some begun => simp only [Option.map_some, Text.squeeze_append, h begun rfl]
      have hends : ∀ begun ∈ begun?.map (· ++ [c]),
          Text.endsBlank false begun = Text.isSpace c := by
        intro begun hbegun
        obtain ⟨b, -, rfl⟩ := Option.map_eq_some_iff.mp hbegun
        simp [Text.endsBlank]
      rw [Text.squeeze_cons, bodiesFrom_append (isAngle_of_mem_squeeze hc), bodiesFrom_cons hc,
        hgrown, ih _ _ hends]

theorem collapse_tagText (body : Text) :
    Text.collapse (tagText body) = tagText (Text.squeeze false body) := by
  have hsqueeze : Text.squeeze true (tagText body) = tagText (Text.squeeze false body) := by
    rw [tagText, Text.squeeze_cons_of_not_isSpace rfl, Text.squeeze_append,
      Text.squeeze_cons_of_not_isSpace rfl]
    rfl
  rw [Text.collapse_eq_squeeze, hsqueeze]
  intro c hc
  rw [hsqueeze, tagText, List.getLast?_cons, List.getLast?_concat] at hc
  cases hc
  rfl

theorem collapse_collapse_tagText (body : Text) :
    Text.collapse (Text.collapse (tagText body)) = Text.collapse (tagText body) := by
  rw [collapse_tagText, collapse_tagText, Text.squeeze_squeeze]

/-- **The tags of a collapsed text** are the collapsed tags of the text. -/
theorem tags_collapse (t : Text) : tags (Text.collapse t) = (tags t).map Text.collapse := by
  obtain ⟨b, hb, hsqueeze⟩ := Text.exists_squeeze_eq t
  have hbodies := bodiesFrom_squeeze none true t (by simp)
  rw [← tags_append_of_no_angle (isAngle_of_isBlank hb), ← hsqueeze, tags_eq, tags_eq]
  rw [Option.map_none] at hbodies
  rw [hbodies, List.map_map, List.map_map]
  exact List.map_congr_left fun body _ => (collapse_tagText body).symm

/-! ## Blanks inside pairs -/

theorem unparse_plainRun (ps : List Piece) :
    unparse ps = (plainRun ps).1 ++ unparse (plainRun ps).2 ∧
      ∀ c ∈ (plainRun ps).1, isAngle c = false := by
  induction ps with
  | nil => exact ⟨rfl, by simp [plainRun]⟩
  | cons p ps ih =>
    cases p with
    | tag body => exact ⟨rfl, by simp [plainRun]⟩
    | char c =>
      cases hc : isAngle c with
      | true => simp [plainRun, hc]
      | false =>
        refine ⟨?_, ?_⟩
        · simp only [plainRun, hc, Bool.false_eq_true, if_false, unparse_cons, Piece.text, ih.1]
          rfl
        · simp only [plainRun, hc, Bool.false_eq_true, if_false]
          exact List.forall_mem_cons.mpr ⟨hc, ih.2⟩

theorem unparse_of_pairAfter? {content : Text} (h : pairAfter? ps = some (content, body, after)) :
    unparse ps = content ++ (tagText body ++ unparse after) ∧ ∀ c ∈ content, isAngle c = false := by
  obtain ⟨hunparse, hangle⟩ := unparse_plainRun ps
  unfold pairAfter? at h
  split at h
  · cases h
  · rename_i hrun
    split at h
    · cases h
      rw [hrun] at hunparse hangle
      exact ⟨hunparse, hangle⟩
    · cases h
  · cases h

/-- What stands in front of a tag without a bracket matters to no tag. -/
theorem bodiesFrom_append_tag {u : Text} (ha : ∀ c ∈ a, isAngle c = false)
    (hb : ∀ c ∈ b, isAngle c = false) (h : ∀ begun?, bodiesFrom begun? t = bodiesFrom begun? u)
    (begun? : Option Text) (body : Text) :
    bodiesFrom begun? (a ++ (tagText body ++ t)) =
      bodiesFrom begun? (b ++ (tagText body ++ u)) := by
  rw [bodiesFrom_append ha, bodiesFrom_append hb]
  exact bodiesFrom_append_congr h (some []) (body ++ ['>'])

theorem bodiesFrom_tightenPieces (begun? : Option Text) (ps : List Piece) :
    bodiesFrom begun? (tightenPieces ps) = bodiesFrom begun? (unparse ps) := by
  fun_induction tightenPieces ps generalizing begun? with
  | case1 => rfl
  | case2 c rest ih => exact bodiesFrom_append_congr ih begun? [c]
  | case3 body rest hslash ih => exact bodiesFrom_append_congr ih begun? (tagText body)
  | case4 body rest hslash content closing after hfound kept ih =>
    obtain ⟨hrest, hangle⟩ := unparse_of_pairAfter? hfound
    have hkept : ∀ c ∈ kept, isAngle c = false := by
      intro c hc
      apply hangle
      simp only [kept] at hc
      split at hc
      · exact hc
      · exact Text.mem_of_mem_trim hc
    have hpair := fun b? => bodiesFrom_append_tag hkept hangle ih b? closing
    rw [unparse_cons, hrest, List.append_assoc, List.append_assoc]
    exact bodiesFrom_append_congr hpair begun? (tagText body)
  | case5 body rest hslash hfound ih => exact bodiesFrom_append_congr ih begun? (tagText body)

/-- **Tightening a text keeps its tags.** -/
theorem tags_tighten (t : Text) : tags (tighten t) = tags t := by
  rw [tags_eq, tags_eq, tighten, bodiesFrom_tightenPieces, unparse_pieces]

end Bitext.Markup
