import Bitext.Proofs.Tmx.Output

/-!
# End tags left out of a text

The end tags of variants, records, the body and the root are lines of their own in a written
document, and they stand nowhere else in it: no segment, no value and no other tag looks like one.
So a document without some of them has the same lines, but for blank ones in place of those tags.

## Main definitions

* `Omits`: a text without some of the end tags in it.
* `OmitsLines`: the same line by line.
* `IsClear`: no such end tag stands in the text.

## Main results

* `omits_lines_iff`: leaving out end tags is done line by line
* `IsClear.eq_of_omits`, `eq_or_eq_of_omits_endLine`: what can be left out of a line
* `isClear_escapeSegment`: a written segment is clear
-/

namespace Bitext.Tmx

open Bitext.Markup (tagText NormalForm Forest IsTagBody)
open Bitext.Xml (writtenAttributes HasKeys IsName)

variable {a b t u x l l' name body : Text} {ls ls' ms ms' names more : List Text}
  {kvs : List (Text × Text)} {n : Nat}

/-! ## Leaving out end tags -/

/-- The elements whose end tags a document can do without. -/
def outerNames : List Text := ["tuv", "tu", "body", "tmx"].map String.toList

/-- The second text is the first one without some end tags of outer elements.  The names are those
of the elements whose tags are left out, in order. -/
inductive Omits : Text → Text → List Text → Prop where
  | nil : Omits [] [] []
  | keep (c : Char) {t u : Text} {names : List Text} : Omits t u names →
      Omits (c :: t) (c :: u) names
  | leaveOut {t u name : Text} {names : List Text} : name ∈ outerNames → Omits t u names →
      Omits (tagText ('/' :: name) ++ t) u (name :: names)

theorem isName_of_mem_outerNames (h : name ∈ outerNames) : IsName name := by
  have hall : ∀ name ∈ outerNames, IsName name := by decide
  exact hall name h

theorem isTagBody_of_mem_outerNames (h : name ∈ outerNames) : IsTagBody ('/' :: name) :=
  Markup.isTagBody_closing (isName_of_mem_outerNames h).isTagName

theorem break_not_mem_endTag (h : name ∈ outerNames) : '\n' ∉ tagText ('/' :: name) := by
  have hname := (isName_of_mem_outerNames h).not_mem (c := '\n') rfl
  simp [tagText, hname]

namespace Omits

theorem refl (t : Text) : Omits t t [] := by
  induction t with
  | nil => exact .nil
  | cons c t ih => exact .keep c ih

theorem append (h : Omits a b names) (h' : Omits t u more) :
    Omits (a ++ t) (b ++ u) (names ++ more) := by
  induction h with
  | nil => exact h'
  | keep c _ ih => exact .keep c ih
  | leaveOut hname _ ih =>
    rw [List.append_assoc]
    exact .leaveOut hname ih

theorem eq_nil (h : Omits [] t names) : t = [] ∧ names = [] := by
  generalize hx : ([] : Text) = x at h
  cases h with
  | nil => exact ⟨rfl, rfl⟩
  | keep c h => cases hx
  | leaveOut hname h => cases hx

/-- The first character is kept, or it begins an end tag that is left out. -/
theorem cons_cases {c : Char} (h : Omits (c :: t) u names) :
    (∃ v, u = c :: v ∧ Omits t v names) ∨
      ∃ name ∈ outerNames, ∃ rest more, c :: t = tagText ('/' :: name) ++ rest ∧
        names = name :: more ∧ Omits rest u more := by
  generalize hx : c :: t = x at h
  cases h with
  | nil => cases hx
  | keep d h =>
    cases hx
    exact .inl ⟨_, rfl, h⟩
  | leaveOut hname h => exact .inr ⟨_, hname, _, _, rfl, rfl, h⟩

/-- A text without opening brackets is kept. -/
theorem of_no_open (ha : ∀ c ∈ a, c ≠ '<') (h : Omits (a ++ t) u names) :
    ∃ v, u = a ++ v ∧ Omits t v names := by
  induction a generalizing u with
  | nil => exact ⟨u, rfl, h⟩
  | cons c a ih =>
    rcases h.cons_cases with ⟨v, rfl, hrest⟩ | ⟨name, -, rest, more, htag, -⟩
    · obtain ⟨w, rfl, hw⟩ := ih (fun d hd => ha d (List.mem_cons_of_mem c hd)) hrest
      exact ⟨w, rfl, hw⟩
    · exact absurd (List.cons.inj htag).1 (ha c List.mem_cons_self)

end Omits

/-- A tag at the start of a text is found there. -/
theorem eq_of_tagText_append {body' : Text} (hb : IsTagBody body) (hb' : IsTagBody body')
    (h : tagText body ++ t = tagText body' ++ u) : body = body' ∧ t = u := by
  have hpieces := congrArg Markup.pieces h
  rw [Markup.pieces_tagText_append hb, Markup.pieces_tagText_append hb'] at hpieces
  have hbody : body = body' := by
    injection (List.cons.inj hpieces).1
  subst hbody
  exact ⟨rfl, List.append_cancel_left h⟩

/-- A tag is kept, or it is an end tag that is left out. -/
theorem Omits.tag_cases (hb : IsTagBody body) (h : Omits (tagText body ++ t) u names) :
    (∃ v, u = tagText body ++ v ∧ Omits t v names) ∨
      ∃ name ∈ outerNames, ∃ more, body = '/' :: name ∧ names = name :: more ∧ Omits t u more := by
  rcases Omits.cons_cases h with ⟨v, rfl, hrest⟩ | ⟨name, hname, rest, more, htag, rfl, hrest⟩
  · -- What is behind the opening bracket holds no other one, so all of it is kept.
    have hopen : ∀ c ∈ body ++ ['>'], c ≠ '<' := by
      intro c hc
      rcases List.mem_append.mp hc with hc | hc
      · exact hb.ne_open c hc
      · rw [List.mem_singleton.mp hc]
        decide
    obtain ⟨w, rfl, hw⟩ := Omits.of_no_open hopen hrest
    exact .inl ⟨w, rfl, hw⟩
  · obtain ⟨rfl, rfl⟩ := eq_of_tagText_append hb (isTagBody_of_mem_outerNames hname) htag
    exact .inr ⟨name, hname, more, rfl, rfl, hrest⟩

/-! ## Line by line -/

/-- Some end tags are left out of each of the lines. -/
inductive OmitsLines : List Text → List Text → List Text → Prop where
  | nil : OmitsLines [] [] []
  | cons {l l' : Text} {ls ls' names more : List Text} : Omits l l' names →
      OmitsLines ls ls' more → OmitsLines (l :: ls) (l' :: ls') (names ++ more)

/-- No end tag reaches over the end of a line. -/
theorem Omits.exists_split (h : Omits (l ++ '\n' :: t) u names) :
    ∃ l' v dropped others, u = l' ++ '\n' :: v ∧ names = dropped ++ others ∧
      Omits l l' dropped ∧ Omits t v others := by
  generalize hx : l ++ '\n' :: t = x at h
  induction h generalizing l with
  | nil => cases l <;> cases hx
  | keep c h ih =>
    cases l with
    | nil =>
      cases hx
      exact ⟨[], _, [], _, rfl, rfl, .nil, h⟩
    | cons d l =>
      obtain ⟨rfl, htail⟩ := List.cons.inj hx
      obtain ⟨l', v, dropped, others, rfl, rfl, hl, ht⟩ := ih htail
      exact ⟨_ :: l', v, dropped, others, rfl, rfl, .keep _ hl, ht⟩
  | leaveOut hname h ih =>
    rcases List.append_eq_append_iff.mp hx with ⟨rest, htag, hrest⟩ | ⟨rest, rfl, hrest⟩
    · -- The line would end inside the tag or right behind it.
      cases rest with
      | nil =>
        obtain ⟨l', v, dropped, others, rfl, rfl, hl, ht⟩ := ih (l := []) hrest
        obtain ⟨rfl, rfl⟩ := hl.eq_nil
        have hsole := Omits.leaveOut hname .nil
        rw [List.append_nil, htag, List.append_nil] at hsole
        exact ⟨[], v, [_], others, rfl, rfl, hsole, ht⟩
      | cons d rest =>
        obtain ⟨rfl, -⟩ := List.cons.inj hrest
        refine absurd ?_ (break_not_mem_endTag hname)
        rw [htag]
        exact List.mem_append_right _ List.mem_cons_self
    · obtain ⟨l', v, dropped, others, rfl, rfl, hl, ht⟩ := ih hrest.symm
      exact ⟨l', v, _ :: dropped, others, rfl, rfl, .leaveOut hname hl, ht⟩

/-- **End tags are left out line by line.** -/
theorem omits_lines_iff :
    Omits (lines ls) t names ↔ ∃ ls', t = lines ls' ∧ OmitsLines ls ls' names := by
  constructor
  · intro h
    induction ls generalizing t names with
    | nil =>
      obtain ⟨rfl, rfl⟩ := h.eq_nil
      exact ⟨[], rfl, .nil⟩
    | cons l ls ih =>
      rw [lines_cons] at h
      obtain ⟨l', v, dropped, others, rfl, rfl, hl, hrest⟩ := h.exists_split
      obtain ⟨ls', rfl, hlines⟩ := ih hrest
      exact ⟨l' :: ls', (lines_cons l' ls').symm, .cons hl hlines⟩
  · rintro ⟨ls', rfl, h⟩
    induction h with
    | nil => exact .nil
    | cons hl _ ih =>
      rw [lines_cons, lines_cons]
      exact hl.append (.keep '\n' ih)

namespace OmitsLines

theorem refl (ls : List Text) : OmitsLines ls ls [] := by
  induction ls with
  | nil => exact .nil
  | cons l ls ih => exact .cons (.refl l) ih

theorem append (h : OmitsLines ls ls' names) (h' : OmitsLines ms ms' more) :
    OmitsLines (ls ++ ms) (ls' ++ ms') (names ++ more) := by
  induction h with
  | nil => exact h'
  | cons hl _ ih =>
    rw [List.append_assoc]
    exact .cons hl ih

theorem exists_append (h : OmitsLines (ls ++ ms) ls' names) :
    ∃ front back dropped others, ls' = front ++ back ∧ names = dropped ++ others ∧
      OmitsLines ls front dropped ∧ OmitsLines ms back others := by
  induction ls generalizing ls' names with
  | nil => exact ⟨[], ls', [], names, rfl, rfl, .nil, h⟩
  | cons l ls ih =>
    cases h with
    | cons hl hrest =>
      obtain ⟨front, back, dropped, others, rfl, rfl, hfront, hback⟩ := ih hrest
      exact ⟨_ :: front, back, _ ++ dropped, others, rfl, (List.append_assoc ..).symm,
        .cons hl hfront, hback⟩

theorem exists_singleton (h : OmitsLines [l] ls' names) :
    ∃ l', ls' = [l'] ∧ Omits l l' names := by
  cases h with
  | cons hl hrest =>
    cases hrest with
    | nil => exact ⟨_, rfl, by rwa [List.append_nil]⟩

end OmitsLines

/-! ## Lines with an end tag -/

/-- The line with the end tag of an outer element. -/
def endLine (indent : Nat) (name : Text) : Text :=
  List.replicate indent ' ' ++ tagText ('/' :: name)

theorem ne_open_of_mem_blanks : ∀ c ∈ List.replicate n ' ', c ≠ '<' := by
  intro c hc
  rw [List.eq_of_mem_replicate hc]
  decide

theorem omits_endLine (n : Nat) (hname : name ∈ outerNames) :
    Omits (endLine n name) (List.replicate n ' ') [name] := by
  have htag := Omits.append (.refl (List.replicate n ' ')) (.leaveOut hname .nil)
  rwa [List.append_nil, List.append_nil, List.nil_append] at htag

/-- **The end tag is left out** of its line, and blanks are left, or it stays. -/
theorem eq_or_eq_of_omits_endLine (hname : name ∈ outerNames) (h : Omits (endLine n name) l names) :
    l = endLine n name ∧ names = [] ∨ l = List.replicate n ' ' ∧ names = [name] := by
  obtain ⟨t, rfl, htag⟩ := h.of_no_open ne_open_of_mem_blanks
  rw [← List.append_nil (tagText _)] at htag
  rcases htag.tag_cases (isTagBody_of_mem_outerNames hname) with
    ⟨v, rfl, hrest⟩ | ⟨other, -, more, hbody, rfl, hrest⟩
  · obtain ⟨rfl, rfl⟩ := hrest.eq_nil
    exact .inl ⟨by rw [endLine, List.append_nil], rfl⟩
  · obtain ⟨rfl, rfl⟩ := hrest.eq_nil
    rw [(List.cons.inj hbody).2, List.append_nil]
    exact .inr ⟨rfl, rfl⟩

/-! ## Lines without one -/

/-- No end tag of an outer element stands in the text. -/
inductive IsClear : Text → Prop where
  | nil : IsClear []
  | char {c : Char} {t : Text} : c ≠ '<' → IsClear t → IsClear (c :: t)
  | tag {body t : Text} : IsTagBody body → (∀ name ∈ outerNames, body ≠ '/' :: name) → IsClear t →
      IsClear (tagText body ++ t)

namespace IsClear

theorem append (ha : IsClear a) (hb : IsClear b) : IsClear (a ++ b) := by
  induction ha with
  | nil => exact hb
  | char hc _ ih => exact .char hc ih
  | tag hbody hne _ ih =>
    rw [List.append_assoc]
    exact .tag hbody hne ih

theorem of_no_open (h : ∀ c ∈ a, c ≠ '<') : IsClear a := by
  induction a with
  | nil => exact .nil
  | cons c a ih =>
    exact .char (h c List.mem_cons_self) (ih fun d hd => h d (List.mem_cons_of_mem c hd))

theorem indented (h : IsClear a) : IsClear (List.replicate n ' ' ++ a) :=
  .append (.of_no_open ne_open_of_mem_blanks) h

theorem sole_tag (hb : IsTagBody body) (hne : ∀ name ∈ outerNames, body ≠ '/' :: name) :
    IsClear (tagText body) := by
  have htag := IsClear.tag hb hne .nil
  rwa [List.append_nil] at htag

/-- **Nothing can be left out of a clear text.** -/
theorem eq_of_omits (h : IsClear a) (ho : Omits a t names) : t = a ∧ names = [] := by
  induction h generalizing t with
  | nil => exact ho.eq_nil
  | char hc _ ih =>
    rcases ho.cons_cases with ⟨v, rfl, hrest⟩ | ⟨name, -, rest, more, htag, -⟩
    · obtain ⟨rfl, rfl⟩ := ih hrest
      exact ⟨rfl, rfl⟩
    · exact absurd (List.cons.inj htag).1 hc
  | tag hbody hne _ ih =>
    rcases ho.tag_cases hbody with ⟨v, rfl, hrest⟩ | ⟨name, hname, more, hend, -⟩
    · obtain ⟨rfl, rfl⟩ := ih hrest
      exact ⟨rfl, rfl⟩
    · exact absurd hend (hne name hname)

/-- Lines that are clear stay in front of the others. -/
theorem exists_append (h : ∀ l ∈ ls, IsClear l) (ho : OmitsLines (ls ++ ms) ls' names) :
    ∃ back, ls' = ls ++ back ∧ OmitsLines ms back names := by
  induction ls generalizing ls' names with
  | nil => exact ⟨ls', rfl, ho⟩
  | cons l ls ih =>
    cases ho with
    | cons hl hrest =>
      obtain ⟨rfl, rfl⟩ := (h l List.mem_cons_self).eq_of_omits hl
      obtain ⟨back, rfl, hback⟩ := ih (fun k hk => h k (List.mem_cons_of_mem _ hk)) hrest
      exact ⟨back, rfl, hback⟩

end IsClear

/-! ## Clear tags -/

theorem isTagBody_append (ha : IsTagBody a) (hb : ∀ c ∈ b, Markup.isAngle c = false) :
    IsTagBody (a ++ b) := by
  refine ⟨List.append_ne_nil_of_left_ne_nil ha.ne_nil b, ?_⟩
  intro c hc
  rcases List.mem_append.mp hc with hc | hc
  · exact ha.isAngle c hc
  · exact hb c hc

theorem isAngle_of_mem_writtenAttributes (h : ∀ kv ∈ kvs, IsName kv.1) :
    ∀ c ∈ writtenAttributes kvs, Markup.isAngle c = false := by
  intro c hc
  obtain ⟨kv, hkv, hmem⟩ := List.mem_flatMap.mp hc
  simp only [Xml.writtenAttribute, List.mem_cons, List.mem_append, List.not_mem_nil, or_false]
    at hmem
  rcases hmem with rfl | hkey | rfl | rfl | hvalue | rfl
  · rfl
  · exact (Markup.isTagBody_name (h kv hkv).isTagName).isAngle c hkey
  · rfl
  · rfl
  · obtain ⟨hopen, hclose, -⟩ := Xml.isPlain_of_mem_escape hvalue
    rw [Markup.isAngle, beq_eq_false_iff_ne.mpr hopen, beq_eq_false_iff_ne.mpr hclose]
    rfl
  · rfl

/-- A tag that begins with a name is no end tag. -/
theorem isClear_tag (hname : IsName name) (ha : ∀ c ∈ a, Markup.isAngle c = false) :
    IsClear (tagText (name ++ a)) := by
  refine .sole_tag (isTagBody_append (Markup.isTagBody_name hname.isTagName) ha) ?_
  obtain ⟨c, rest, rfl, hslash, -⟩ := hname.isTagName.exists_cons
  intro outer _ hend
  exact hslash (List.cons.inj hend).1

theorem isClear_start (hname : IsName name) (h : ∀ kv ∈ kvs, IsName kv.1) :
    IsClear (tagText (name ++ writtenAttributes kvs)) :=
  isClear_tag hname (isAngle_of_mem_writtenAttributes h)

theorem isClear_sole (hname : IsName name) : IsClear (tagText name) := by
  have htag := isClear_tag hname (a := []) (by simp)
  rwa [List.append_nil] at htag

/-- The end tag of an inner element may not be left out. -/
theorem isClear_stop (hname : IsName name) (h : name ∉ outerNames) :
    IsClear (tagText ('/' :: name)) := by
  refine .sole_tag (Markup.isTagBody_closing hname.isTagName) ?_
  rintro outer houter hend
  exact h ((List.cons.inj hend).2 ▸ houter)

/-! ## Clear segments -/

theorem numberedName_not_mem_outerNames (n : Nat) : Markup.numberedName n ∉ outerNames := by
  have hfirst : ∀ name ∈ outerNames, name.head? ≠ some 'T' := by decide
  intro hmem
  exact hfirst _ hmem rfl

theorem isClear_print {f : Forest} (hr : f.IsReadable) (hn : f.IsNumbered n) : IsClear f.print := by
  induction f generalizing n with
  | nil => exact .nil
  | cons name text children tail rest ihc ihr =>
    obtain ⟨htext, hrc, htail, hrr⟩ := hr
    obtain ⟨rfl, hnc, hnr⟩ := Forest.IsNumbered.cons_iff.mp hn
    have hname := Markup.isName_numberedName (n + 1)
    have hstop := isClear_stop hname (numberedName_not_mem_outerNames (n + 1))
    rw [Forest.print]
    refine (IsClear.append ?_ (.of_no_open htail)).append (ihr hrr hnr)
    split
    · exact isClear_tag hname (by simp; rfl)
    · exact (((isClear_sole hname).append (.of_no_open htext)).append (ihc hrc hnc)).append hstop

/-- **A written segment is clear**, whatever its text looks like. -/
theorem isClear_escapeSegment (t : Text) : IsClear (escapeSegment t) := by
  obtain ⟨m, hm⟩ := exists_normalForm_escapeSegment t
  rw [← hm, NormalForm.markup]
  exact IsClear.append (.of_no_open m.no_open) (isClear_print m.isReadable m.isNumbered)

theorem isClear_escape (t : Text) : IsClear (Xml.escape t) :=
  .of_no_open fun _ hc => (Xml.isPlain_of_mem_escape hc).1

/-! ## Clear lines -/

section Lines

variable {stamp : Stamp} {u : TranslationUnit} {language : Text} {properties : Properties}

theorem isClear_propertyLine (indent : Nat) (key value : Text) :
    IsClear (propertyLine indent key value) := by
  have hstop : IsClear (tagText ('/' :: "prop".toList)) := isClear_stop isName_prop (by decide)
  rw [propertyLine_eq]
  exact .indented ((isClear_start isName_prop (hasKeys_type key).1).append
    ((isClear_escape value).append hstop))

theorem isClear_segmentLine (t : Text) :
    IsClear ("        <seg>".toList ++ escapeSegment t ++ "</seg>".toList) := by
  have hstart : IsClear (List.replicate 8 ' ' ++ tagText "seg".toList) :=
    .indented (isClear_sole isName_seg)
  exact (hstart.append (isClear_escapeSegment t)).append (isClear_stop isName_seg (by decide))

theorem isClear_variantStart (language : Text) :
    IsClear ("      <tuv".toList ++ attributeText "xml:lang" language ++ ['>']) := by
  have hkeys : HasKeys [("xml:lang".toList, language)] := hasKeys_sole (by decide)
  rw [variantStart_eq]
  exact .indented (isClear_start isName_tuv hkeys.1)

theorem isClear_of_mem_variantFront (h : l ∈ variantFront language properties t) : IsClear l := by
  simp only [variantFront, List.mem_append, List.mem_singleton, List.mem_map] at h
  rcases h with (rfl | ⟨e, -, rfl⟩) | rfl
  · exact isClear_variantStart language
  · exact isClear_propertyLine 8 e.1 e.2
  · exact isClear_segmentLine t

theorem isClear_of_mem_recordFront (h : l ∈ recordFront u) : IsClear l := by
  simp only [recordFront, List.mem_append, List.mem_singleton, List.mem_map] at h
  rcases h with rfl | ⟨e, -, rfl⟩
  · rw [recordLine_eq]
    exact .indented (isClear_start isName_tu (hasKeys_recordAttributes u).1)
  · exact isClear_propertyLine 6 e.1 e.2

theorem Stamp.isClear_of_mem_front (h : l ∈ stamp.front) : IsClear l := by
  simp only [Stamp.front, List.mem_cons, List.not_mem_nil, or_false] at h
  rcases h with rfl | rfl | rfl
  · have hkeys : HasKeys [("version".toList, "1.4".toList)] := hasKeys_sole (by decide)
    exact isClear_start isName_tmx hkeys.1
  · have hslash : ∀ c ∈ writtenAttributes stamp.attributes ++ ['/'], Markup.isAngle c = false := by
      intro c hc
      rcases List.mem_append.mp hc with hc | hc
      · exact isAngle_of_mem_writtenAttributes stamp.hasKeys_attributes.1 c hc
      · rw [List.mem_singleton.mp hc]
        rfl
    rw [Stamp.headerLine_eq, List.append_assoc "header".toList]
    exact .indented (isClear_tag isName_header hslash)
  · exact .indented (n := 2) (isClear_sole isName_body)

theorem isClear_declarationLine : IsClear declarationLine := by
  let body : Text := "?xml version=\"1.0\" encoding=\"UTF-8\"?".toList
  have hall : body.all (!Markup.isAngle ·) = true := by decide
  have hbody : Markup.IsTagBody body := by
    refine ⟨List.cons_ne_nil _ _, ?_⟩
    intro c hc
    exact (Bool.not_eq_true' _).mp (List.all_eq_true.mp hall c hc)
  exact .sole_tag hbody (by decide)

end Lines

end Bitext.Tmx
