import Bitext.Proofs.Markup.Inline
import Bitext.Proofs.Markup.Runs
import Bitext.Proofs.Markup.Strict
import Bitext.Proofs.Xml.Decoding

/-!
# Inline elements with any attributes

A closing bracket may stand for itself in the value of an attribute: between quotation marks it ends
no tag of a document.  The cut into tags knows no quotation marks, so it ends the tag there, and the
rest of the tag stands outside tags.

## Main definitions

* `QuotedAttribute`, `CharacterData`: what is written in tags and between them.
* `Quoted`: a forest of inline elements with such attributes; `Quoted.written` is its text and
  `Quoted.data` its character data.
* `spill`: what the cut leaves of a tag.
* `Quoted.exposed`: the character data and, where they are left, the rests of tags.

## Main results

* `resolves_written`: what stands outside the tags of a written forest
* `exposed_eq_data`, `close_mem_exposed`: the rests of tags are nothing, or show
* `isNested_written`: if nothing is left of tags they nest
-/

namespace Bitext.Markup

open Bitext.Unicode (Glyph)
open Bitext.Xml (IsDecoded)

variable {a c t u : Text} {ps : List Piece} {d : Char}

/-! ## Attributes and character data -/

/-- An attribute in double quotes.  In its value opening brackets, quotation marks and ampersands
are written as entities; closing brackets may be. -/
structure QuotedAttribute where
  key : XmlName
  value : Text
  open_not_mem : '<' ∉ value
  quote_not_mem : '"' ∉ value
  isSome_unescape? : (Xml.unescape? value).isSome

/-- An attribute as it is written behind a name or another attribute. -/
def QuotedAttribute.written (a : QuotedAttribute) : Text :=
  ' ' :: (a.key.text ++ '=' :: '"' :: (a.value ++ ['"']))

/-- Character data as they are written.  No angle bracket comes up when their entities are
resolved. -/
structure CharacterData where
  raw : Text
  isSome_unescape? : (Xml.unescape? raw).isSome
  open_not_mem : '<' ∉ Xml.unescape raw
  close_not_mem : '>' ∉ Xml.unescape raw

namespace CharacterData

/-- The data. -/
def text (t : CharacterData) : Text := Xml.unescape t.raw

theorem isDecoded (t : CharacterData) : IsDecoded t.raw t.text :=
  Xml.isDecoded_of_isSome t.isSome_unescape?

/-- No bracket stands in the written form either. -/
theorem ne_open (t : CharacterData) : ∀ c ∈ t.raw, c ≠ '<' := by
  rintro c hc rfl
  exact t.open_not_mem (t.isDecoded.mem (by decide) hc)

end CharacterData

/-- What stands between the brackets of the tag with which an element begins. -/
def quotedContent (name : XmlName) (attributes : List QuotedAttribute) : Text :=
  name.text ++ attributes.flatMap QuotedAttribute.written

section Content

variable (name : XmlName) (attributes : List QuotedAttribute)

theorem mem_quotedContent : d ∈ quotedContent name attributes ↔
    d ∈ name.text ∨
      ∃ a ∈ attributes, d = ' ' ∨ d ∈ a.key.text ∨ d = '=' ∨ d = '"' ∨ d ∈ a.value := by
  simp only [quotedContent, QuotedAttribute.written, List.mem_append, List.mem_flatMap,
    List.mem_cons, List.not_mem_nil, or_false]
  refine or_congr_right (exists_congr fun a => and_congr_right fun _ => ?_)
  tauto

/-- Only the values of attributes can hold brackets. -/
theorem exists_value_of_isAngle (hd : isAngle d = true) (h : d ∈ quotedContent name attributes) :
    ∃ a ∈ attributes, d ∈ a.value := by
  have hname (n : XmlName) : d ∉ n.text := by
    intro hmem
    rw [n.isAngle d hmem] at hd
    cases hd
  have hne {e : Char} (he : isAngle e = false) : d ≠ e := by
    rintro rfl
    rw [he] at hd
    cases hd
  obtain hmem | ⟨a, ha, hmem⟩ := (mem_quotedContent name attributes).mp h
  · exact absurd hmem (hname name)
  · refine ⟨a, ha, ?_⟩
    rcases hmem with hmem | hmem | hmem | hmem | hmem
    · exact absurd hmem (hne (by decide))
    · exact absurd hmem (hname a.key)
    · exact absurd hmem (hne (by decide))
    · exact absurd hmem (hne (by decide))
    · exact hmem

theorem open_not_mem_quotedContent : '<' ∉ quotedContent name attributes := by
  intro hopen
  obtain ⟨a, -, hmem⟩ := exists_value_of_isAngle name attributes (by decide) hopen
  exact a.open_not_mem hmem

theorem open_not_mem_quotedContent_slash : '<' ∉ quotedContent name attributes ++ ['/'] := by
  rw [List.mem_append, not_or]
  exact ⟨open_not_mem_quotedContent name attributes, by decide⟩

variable {attributes} in
theorem close_not_mem_quotedContent (h : ∀ a ∈ attributes, '>' ∉ a.value) :
    '>' ∉ quotedContent name attributes := by
  intro hclose
  obtain ⟨a, ha, hmem⟩ := exists_value_of_isAngle name attributes (by decide) hclose
  exact h a ha hmem

variable {attributes} in
theorem close_not_mem_quotedContent_slash (h : ∀ a ∈ attributes, '>' ∉ a.value) :
    '>' ∉ quotedContent name attributes ++ ['/'] := by
  rw [List.mem_append, not_or]
  exact ⟨close_not_mem_quotedContent name h, by decide⟩

theorem isStretch_quotedContent : Xml.IsStretch (quotedContent name attributes) := by
  have hblank : Xml.IsStretch [' '] := Xml.isStretch_singleton ⟨by decide, by decide, by decide⟩
  have hequals : Xml.IsStretch ['='] := Xml.isStretch_singleton ⟨by decide, by decide, by decide⟩
  refine name.isTagName.isStretch.append ?_
  induction attributes with
  | nil => exact Xml.isStretch_nil
  | cons a attributes ih =>
    -- A bracket in the value stands between quotation marks, where it ends nothing.
    have hquoted := Xml.isStretch_quoted (List.forall_mem_ne'.mpr a.quote_not_mem)
    exact (hblank.append (a.key.isTagName.isStretch.append (hequals.append hquoted))).append ih

theorem beginsTag_quotedContent : Xml.BeginsTag (quotedContent name attributes) :=
  name.isTagName.beginsTag.append _

theorem getLast?_quotedContent : (quotedContent name attributes).getLast? ≠ some '/' := by
  rcases List.eq_nil_or_concat attributes with rfl | ⟨earlier, a, rfl⟩
  · rw [quotedContent, List.flatMap_nil, List.append_nil]
    exact name.isTagName.getLast?_ne
  · have hlast : (quotedContent name (earlier.concat a)).getLast? = some '"' := by
      simp [quotedContent, QuotedAttribute.written, List.getLast?_append, List.getLast?_cons]
    rw [hlast]
    decide

theorem tagName_quotedContent {x : Text} (hx : ∀ c, x.head? = some c → c = '/') :
    tagName (quotedContent name attributes ++ x) = tagName name.text := by
  rw [quotedContent, List.append_assoc]
  refine tagName_append name fun c hc => ?_
  cases attributes with
  | nil => exact .inr (hx c hc)
  | cons a attributes =>
    cases hc
    exact .inl rfl

/-- What stands in a tag can be resolved as a whole, and a bracket comes up in values only. -/
theorem exists_isDecoded_quotedContent : ∃ u, IsDecoded (quotedContent name attributes) u ∧
    ('<' ∈ u → ∃ a ∈ attributes, '<' ∈ Xml.unescape a.value) := by
  have hname (n : XmlName) : IsDecoded n.text n.text :=
    .of_plain fun c hc => XmlName.ne_of_mem hc (by decide)
  have hopen (n : XmlName) : '<' ∉ n.text := fun hmem => XmlName.ne_of_mem hmem (by decide) rfl
  have hrest : ∃ u, IsDecoded (attributes.flatMap QuotedAttribute.written) u ∧
      ('<' ∈ u → ∃ a ∈ attributes, '<' ∈ Xml.unescape a.value) := by
    induction attributes with
    | nil => exact ⟨[], .nil, fun h => absurd h List.not_mem_nil⟩
    | cons a attributes ih =>
      obtain ⟨u, hu, hmem⟩ := ih
      have hvalue := Xml.isDecoded_of_isSome a.isSome_unescape?
      have hquote : IsDecoded ['"'] ['"'] := .char (by decide) .nil
      refine ⟨_, IsDecoded.append (.char (by decide) ((hname a.key).append (.char (by decide)
        (.char (by decide) (hvalue.append hquote))))) hu, fun h => ?_⟩
      simp only [List.mem_cons, List.mem_append, List.not_mem_nil, or_false] at h
      rcases h with (h | h | h | h | h | h) | h
      · cases h
      · exact absurd h (hopen a.key)
      · cases h
      · cases h
      · exact ⟨a, List.mem_cons_self, h⟩
      · cases h
      · obtain ⟨b, hb, hvalue⟩ := hmem h
        exact ⟨b, List.mem_cons_of_mem a hb, hvalue⟩
  obtain ⟨u, hu, hmem⟩ := hrest
  refine ⟨_, (hname name).append hu, fun h => ?_⟩
  exact hmem ((List.mem_append.mp h).resolve_left (hopen name))

end Content

/-! ## The cut of a tag -/

/-- What the cut into tags takes for the inside of a tag. -/
def cutBody (content : Text) : Text := content.takeWhile (· ≠ '>')

/-- What the cut into tags leaves of a tag: everything behind its first closing bracket. -/
def spill (content : Text) : Text := ((content ++ ['>']).dropWhile (· ≠ '>')).tail

section Cut

variable {content : Text}

theorem spill_cons_of_ne (h : d ≠ '>') (content : Text) : spill (d :: content) = spill content := by
  rw [spill, List.cons_append, List.dropWhile_cons_of_pos (by simpa using h), spill]

theorem spill_cons_close (content : Text) : spill ('>' :: content) = content ++ ['>'] := by
  rw [spill, List.cons_append, List.dropWhile_cons_of_neg (by simp), List.tail_cons]

/-- The tag that the cut finds, and what it leaves. -/
theorem append_close_eq (content : Text) :
    content ++ ['>'] = cutBody content ++ '>' :: spill content := by
  induction content with
  | nil => rfl
  | cons d content ih =>
    by_cases hd : d = '>'
    · subst hd
      rw [spill_cons_close, cutBody, List.takeWhile_cons_of_neg (by simp)]
      rfl
    · rw [spill_cons_of_ne hd, cutBody, List.takeWhile_cons_of_pos (by simpa using hd),
        List.cons_append, ih]
      rfl

/-- Nothing is left of a tag without a closing bracket in it. -/
theorem spill_of_not_mem (h : '>' ∉ content) : spill content = [] := by
  induction content with
  | nil => rfl
  | cons d content ih =>
    rw [List.mem_cons, not_or] at h
    rw [spill_cons_of_ne (Ne.symm h.1), ih h.2]

theorem cutBody_of_not_mem (h : '>' ∉ content) : cutBody content = content := by
  refine List.takeWhile_eq_self_iff.mpr fun d hd => decide_eq_true ?_
  rintro rfl
  exact h hd

/-- What is left of a tag ends with the bracket that closes it. -/
theorem close_mem_spill (h : '>' ∈ content) : '>' ∈ spill content := by
  induction content with
  | nil => cases h
  | cons d content ih =>
    by_cases hd : d = '>'
    · rw [hd, spill_cons_close]
      exact List.mem_append_right _ List.mem_cons_self
    · rw [spill_cons_of_ne hd]
      exact ih ((List.mem_cons.mp h).resolve_left (Ne.symm hd))

/-- **A tag is cut at its first closing bracket.** -/
theorem pieces_tagText_cut (hopen : '<' ∉ content) (hfirst : cutBody content ≠ []) (t : Text) :
    pieces (tagText content ++ t) =
      .tag (cutBody content) :: ((spill content).map Piece.char ++ pieces t) := by
  -- What is left of the tag is text in front of the rest, as it holds no opening bracket.
  have hcut : tagText content ++ t = tagText (cutBody content) ++ (spill content ++ t) := by
    rw [tagText, append_close_eq, tagText]
    simp only [List.cons_append, List.append_assoc, List.nil_append]
  have hbody : IsTagBody (cutBody content) := by
    refine ⟨hfirst, fun d hd => ?_⟩
    have hclose : d ≠ '>' := of_decide_eq_true (List.mem_takeWhile_imp (p := (· ≠ '>')) hd)
    have hne : d ≠ '<' := by
      rintro rfl
      exact hopen ((List.takeWhile_prefix _).subset hd)
    rw [isAngle, Bool.or_eq_false_iff, beq_eq_false_iff_ne, beq_eq_false_iff_ne]
    exact ⟨hne, hclose⟩
  have hrest : ∀ d ∈ spill content, d ≠ '<' := by
    rintro d hd rfl
    have hmem : '<' ∈ content ++ ['>'] := by
      rw [append_close_eq]
      exact List.mem_append_right _ (List.mem_cons_of_mem _ hd)
    rcases List.mem_append.mp hmem with hmem | hmem
    · exact hopen hmem
    · exact absurd (List.mem_singleton.mp hmem) (by decide)
  rw [hcut, pieces_tagText_append hbody, pieces_append_of_no_open hrest]

/-- No entity reaches beyond the bracket at which the tag is cut. -/
theorem exists_isDecoded_spill (h : IsDecoded content u) :
    ∃ w, IsDecoded (spill content) w ∧ ∀ d ∈ w, d ∈ u ∨ d = '>' := by
  have hclose : IsDecoded ['>'] ['>'] := .char (by decide) .nil
  have hwhole := h.append hclose
  -- The bracket at which the tag is cut separates entities.
  rw [append_close_eq] at hwhole
  obtain ⟨v, w, -, hw, hsplit⟩ := hwhole.exists_split (by decide)
  refine ⟨w, hw, fun d hd => ?_⟩
  have hmem : d ∈ u ++ ['>'] := by
    rw [hsplit]
    exact List.mem_append_right _ (List.mem_cons_of_mem _ hd)
  exact (List.mem_append.mp hmem).imp_right List.mem_singleton.mp

end Cut

/-! ## Runs that resolve -/

/-- Every entity between tags is one, and the runs resolve to the given text. -/
structure Resolves (ps : List Piece) (u : Text) : Prop where
  isSome : ∀ run ∈ runs ps, (Xml.unescape? run).isSome
  flatMap_eq : (runs ps).flatMap Xml.unescape = u

namespace Resolves

theorem nil : Resolves [] [] := ⟨by decide, rfl⟩

theorem tag (body : Text) (h : Resolves ps u) : Resolves (.tag body :: ps) u :=
  ⟨List.forall_mem_cons.mpr ⟨rfl, h.isSome⟩, h.flatMap_eq⟩

theorem map_char_append {v : Text} (ha : IsDecoded a v) (h : Resolves ps u) :
    Resolves (a.map Piece.char ++ ps) (v ++ u) := by
  obtain ⟨first, others, hruns⟩ := exists_runs_eq_cons ps
  obtain ⟨hsome, rfl⟩ := h
  rw [hruns, List.forall_mem_cons] at hsome
  have hfirst := ha.append (Xml.isDecoded_of_isSome hsome.1)
  constructor
  · rw [runs_map_char_append, hruns, List.modifyHead_cons, List.forall_mem_cons,
      hfirst.unescape?_eq]
    exact ⟨rfl, hsome.2⟩
  · rw [runs_map_char_append, hruns, List.modifyHead_cons, List.flatMap_cons, List.flatMap_cons,
      hfirst.unescape_eq, List.append_assoc]

end Resolves

/-! ## Inline elements -/

/-- Sibling elements as they are written, each with its tail. -/
inductive Quoted where
  | nil
  /-- An element without content that is written as one tag. -/
  | empty (name : XmlName) (attributes : List QuotedAttribute) (tail : CharacterData)
      (rest : Quoted)
  /-- An element that is written as two tags. -/
  | pair (name : XmlName) (attributes : List QuotedAttribute) (text : CharacterData)
      (children : Quoted) (tail : CharacterData) (rest : Quoted)

namespace Quoted

variable {f : Quoted}

/-- The elements as they are written. -/
def written : Quoted → Text
  | nil => []
  | empty name attributes tail rest =>
    tagText (quotedContent name attributes ++ ['/']) ++ (tail.raw ++ rest.written)
  | pair name attributes text children tail rest =>
    tagText (quotedContent name attributes) ++ (text.raw ++ (children.written ++
      (tagText ('/' :: name.text) ++ (tail.raw ++ rest.written))))

/-- The character data of the elements, in order. -/
def data : Quoted → Text
  | nil => []
  | empty _ _ tail rest => tail.text ++ rest.data
  | pair _ _ text children tail rest =>
    text.text ++ (children.data ++ (tail.text ++ rest.data))

/-- The attributes of each element. -/
def attributes : Quoted → List (List QuotedAttribute)
  | nil => []
  | empty _ attributes _ rest => attributes :: rest.attributes
  | pair _ attributes _ children _ rest => attributes :: (children.attributes ++ rest.attributes)

/-- The character data, and in front of them what is left of the tags. -/
def exposed : Quoted → Text
  | nil => []
  | empty name attributes tail rest =>
    Xml.unescape (spill (quotedContent name attributes ++ ['/'])) ++ (tail.text ++ rest.exposed)
  | pair name attributes text children tail rest =>
    Xml.unescape (spill (quotedContent name attributes)) ++ (text.text ++ (children.exposed ++
      (tail.text ++ rest.exposed)))

/-! ## What stands outside tags -/

/-- Inside a tag the reader sees a name first, so the cut does not come at once. -/
theorem cutBody_quotedContent_ne_nil (name : XmlName) (attributes : List QuotedAttribute)
    (x : Text) : cutBody (quotedContent name attributes ++ x) ≠ [] := by
  have hfirst : name.first ≠ '>' := XmlName.first_ne (by decide)
  have hcons : quotedContent name attributes ++ x =
      name.first :: (name.rest ++ attributes.flatMap QuotedAttribute.written ++ x) := rfl
  rw [cutBody, hcons, List.takeWhile_cons_of_pos (by simpa using hfirst)]
  exact List.cons_ne_nil _ _

/-- A tag that is cut leaves what it spills to the run behind it. -/
theorem resolves_tag {content : Text} (hopen : '<' ∉ content) (hfirst : cutBody content ≠ [])
    (hcontent : IsDecoded content u) {v : Text} (h : Resolves (Markup.pieces t) v) :
    Resolves (Markup.pieces (tagText content ++ t)) (Xml.unescape (spill content) ++ v) := by
  obtain ⟨w, hw, -⟩ := exists_isDecoded_spill hcontent
  rw [pieces_tagText_cut hopen hfirst, hw.unescape_eq]
  exact (h.map_char_append hw).tag _

theorem resolves_data (d : CharacterData) (h : Resolves (Markup.pieces t) u) :
    Resolves (Markup.pieces (d.raw ++ t)) (d.text ++ u) := by
  rw [pieces_append_of_no_open d.ne_open]
  exact h.map_char_append d.isDecoded

theorem isDecoded_slash : IsDecoded ['/'] ['/'] := .char (by decide) .nil

/-- **What stands outside the tags of a written forest** are its character data and what is left of
its tags. -/
theorem resolves_written (f : Quoted) (h : Resolves (Markup.pieces t) u) :
    Resolves (Markup.pieces (f.written ++ t)) (f.exposed ++ u) := by
  induction f generalizing t u with
  | nil => exact h
  | empty name attributes tail rest ih =>
    obtain ⟨v, hv, -⟩ := exists_isDecoded_quotedContent name attributes
    simp only [written, exposed, List.append_assoc]
    exact resolves_tag (open_not_mem_quotedContent_slash name attributes)
      (cutBody_quotedContent_ne_nil _ _ _) (hv.append isDecoded_slash) (resolves_data tail (ih h))
  | pair name attributes text children tail rest ihc ihr =>
    obtain ⟨v, hv, -⟩ := exists_isDecoded_quotedContent name attributes
    have hfirst := cutBody_quotedContent_ne_nil name attributes []
    rw [List.append_nil] at hfirst
    have hstop : IsTagBody ('/' :: name.text) := (isPlain_stop name).1
    simp only [written, exposed, List.append_assoc]
    -- Behind the children comes the end tag, which leaves nothing.
    refine resolves_tag (open_not_mem_quotedContent name attributes) hfirst hv
      (resolves_data text (ihc ?_))
    rw [pieces_tagText_append hstop]
    exact (resolves_data tail (ihr h)).tag _

/-! ## What is left of tags -/

section Spill

variable (name : XmlName) {attributes : List QuotedAttribute} {x : Text}

/-- What is left of a tag that is cut shows at least the bracket that closes it. -/
theorem close_mem_unescape_spill (h : ∃ a ∈ attributes, '>' ∈ a.value) (hx : IsDecoded x u) :
    '>' ∈ Xml.unescape (spill (quotedContent name attributes ++ x)) := by
  obtain ⟨v, hv, -⟩ := exists_isDecoded_quotedContent name attributes
  obtain ⟨w, hw, -⟩ := exists_isDecoded_spill (hv.append hx)
  obtain ⟨a, ha, hmem⟩ := h
  have hclose : '>' ∈ quotedContent name attributes :=
    (mem_quotedContent name attributes).mpr
      (.inr ⟨a, ha, .inr (.inr (.inr (.inr hmem)))⟩)
  rw [hw.unescape_eq]
  exact hw.mem (by decide) (close_mem_spill (List.mem_append_left x hclose))

/-- No tag comes up in it if no opening bracket comes up in the attributes. -/
theorem open_not_mem_unescape_spill (h : (∃ a ∈ attributes, '>' ∈ a.value) →
      ∀ a ∈ attributes, '<' ∉ Xml.unescape a.value) (hclose : '>' ∉ x) (hx : IsDecoded x u)
    (hopen : '<' ∉ u) :
    '<' ∉ Xml.unescape (spill (quotedContent name attributes ++ x)) := by
  by_cases hcut : ∃ a ∈ attributes, '>' ∈ a.value
  · obtain ⟨v, hv, hvalue⟩ := exists_isDecoded_quotedContent name attributes
    obtain ⟨w, hw, hmem⟩ := exists_isDecoded_spill (hv.append hx)
    rw [hw.unescape_eq]
    intro hbracket
    rcases hmem '<' hbracket with hmem | hmem
    · obtain ⟨a, ha, hmem⟩ := hvalue ((List.mem_append.mp hmem).resolve_right hopen)
      exact h hcut a ha hmem
    · cases hmem
  · have hnone : '>' ∉ quotedContent name attributes ++ x := by
      rw [List.mem_append, not_or]
      exact ⟨close_not_mem_quotedContent name fun a ha hmem => hcut ⟨a, ha, hmem⟩, hclose⟩
    rw [spill_of_not_mem hnone]
    exact List.not_mem_nil

end Spill

/-- **Without closing brackets in attributes** nothing but the character data stands outside
tags. -/
theorem exposed_eq_data (h : ∀ attributes ∈ f.attributes, ∀ a ∈ attributes, '>' ∉ a.value) :
    f.exposed = f.data := by
  induction f with
  | nil => rfl
  | empty name attributes tail rest ih =>
    obtain ⟨hfirst, hrest⟩ := List.forall_mem_cons.mp h
    rw [exposed, data, ih hrest, spill_of_not_mem (close_not_mem_quotedContent_slash name hfirst)]
    rfl
  | pair name attributes text children tail rest ihc ihr =>
    obtain ⟨hfirst, hrest⟩ := List.forall_mem_cons.mp h
    obtain ⟨hchildren, hrest⟩ := List.forall_mem_append.mp hrest
    rw [exposed, data, ihc hchildren, ihr hrest,
      spill_of_not_mem (close_not_mem_quotedContent name hfirst)]
    rfl

/-- **A closing bracket in an attribute** leaves one outside tags. -/
theorem close_mem_exposed {attributes : List QuotedAttribute} (h : attributes ∈ f.attributes)
    (hclose : ∃ a ∈ attributes, '>' ∈ a.value) : '>' ∈ f.exposed := by
  induction f with
  | nil => cases h
  | empty name first tail rest ih =>
    rw [exposed]
    rcases List.mem_cons.mp h with rfl | h
    · exact List.mem_append_left _ (close_mem_unescape_spill name hclose isDecoded_slash)
    · exact List.mem_append_right _ (List.mem_append_right _ (ih h))
  | pair name first text children tail rest ihc ihr =>
    rw [exposed]
    rcases List.mem_cons.mp h with rfl | h
    · have hleft := close_mem_unescape_spill name hclose IsDecoded.nil
      rw [List.append_nil] at hleft
      exact List.mem_append_left _ hleft
    · refine List.mem_append_right _ (List.mem_append_right _ ?_)
      rcases List.mem_append.mp h with h | h
      · exact List.mem_append_left _ (ihc h)
      · exact List.mem_append_right _ (List.mem_append_right _ (ihr h))

/-- No tag comes up outside tags if no opening bracket comes up in an attribute of a tag that is
cut. -/
theorem open_not_mem_exposed (h : ∀ attributes ∈ f.attributes, (∃ a ∈ attributes, '>' ∈ a.value) →
    ∀ a ∈ attributes, '<' ∉ Xml.unescape a.value) : '<' ∉ f.exposed := by
  induction f with
  | nil => exact List.not_mem_nil
  | empty name attributes tail rest ih =>
    obtain ⟨hfirst, hrest⟩ := List.forall_mem_cons.mp h
    simp only [exposed, List.mem_append, not_or]
    have hleft := open_not_mem_unescape_spill name hfirst (by decide) isDecoded_slash (by decide)
    exact ⟨hleft, tail.open_not_mem, ih hrest⟩
  | pair name attributes text children tail rest ihc ihr =>
    obtain ⟨hfirst, hrest⟩ := List.forall_mem_cons.mp h
    obtain ⟨hchildren, hrest⟩ := List.forall_mem_append.mp hrest
    have hleft := open_not_mem_unescape_spill name hfirst List.not_mem_nil .nil List.not_mem_nil
    rw [List.append_nil] at hleft
    simp only [exposed, List.mem_append, not_or]
    exact ⟨hleft, text.open_not_mem, ihc hchildren, tail.open_not_mem, ihr hrest⟩

/-- No closing bracket stands in character data. -/
theorem close_not_mem_data (f : Quoted) : '>' ∉ f.data := by
  induction f with
  | nil => exact List.not_mem_nil
  | empty name attributes tail rest ih =>
    simp only [data, List.mem_append, not_or]
    exact ⟨tail.close_not_mem, ih⟩
  | pair name attributes text children tail rest ihc ihr =>
    simp only [data, List.mem_append, not_or]
    exact ⟨text.close_not_mem, ihc, tail.close_not_mem, ihr⟩

/-! ## Nesting -/

/-- A tag without closing brackets in its attributes is one for the cut as well. -/
theorem tags_content_append {content : Text} (hopen : '<' ∉ content) (hclose : '>' ∉ content)
    (hne : content ≠ []) (t : Text) : tags (tagText content ++ t) = tagText content :: tags t := by
  have hcut := cutBody_of_not_mem hclose
  rw [tags_eq_tagsAmong, pieces_tagText_cut hopen (by rwa [hcut]), hcut, tagsAmong_tag,
    tagsAmong_map_char_append, tags_eq_tagsAmong]

theorem tags_data_append (d : CharacterData) (t : Text) : tags (d.raw ++ t) = tags t := by
  rw [tags_eq_tagsAmong, pieces_append_of_no_open d.ne_open, tagsAmong_map_char_append,
    tags_eq_tagsAmong]

theorem nestsIn_written (h : ∀ attributes ∈ f.attributes, ∀ a ∈ attributes, '>' ∉ a.value)
    (names : List Text) (t : Text) :
    nestsIn names (tags (f.written ++ t)) = nestsIn names (tags t) := by
  induction f generalizing names t with
  | nil => rfl
  | empty name attributes tail rest ih =>
    obtain ⟨hfirst, hrest⟩ := List.forall_mem_cons.mp h
    simp only [written, List.append_assoc]
    rw [tags_content_append (open_not_mem_quotedContent_slash name attributes)
        (close_not_mem_quotedContent_slash name hfirst) (by simp),
      nestsIn_of_selfClosing, tags_data_append, ih hrest]
    rw [inside_tagText]
    exact kind_append_slash name _
  | pair name attributes text children tail rest ihc ihr =>
    obtain ⟨hfirst, hrest⟩ := List.forall_mem_cons.mp h
    obtain ⟨hchildren, hrest⟩ := List.forall_mem_append.mp hrest
    have hname := tagName_quotedContent name attributes (x := []) nofun
    rw [List.append_nil] at hname
    have hstop (t : Text) :
        tags (tagText ('/' :: name.text) ++ t) = tagText ('/' :: name.text) :: tags t := by
      rw [tags_eq_tagsAmong, pieces_tagText_append (isPlain_stop name).1, tagsAmong_tag,
        tags_eq_tagsAmong]
    simp only [written, List.append_assoc]
    -- The end tag closes what the start tag has opened, whatever attributes that one has.
    rw [tags_content_append (open_not_mem_quotedContent name attributes)
        (close_not_mem_quotedContent name hfirst) (List.cons_ne_nil _ _),
      nestsIn_of_opening, inside_tagText, hname, tags_data_append, ihc hchildren, hstop,
      nestsIn_cons_of_closing, inside_tagText, tagName_slash_name, beq_self_eq_true, Bool.true_and,
      tags_data_append, ihr hrest]
    · rw [inside_tagText]
      exact kind_slash_name name
    · rw [inside_tagText]
      exact kind_append name (getLast?_quotedContent name attributes)

theorem tags_written_ne_nil (h : ∀ attributes ∈ f.attributes, ∀ a ∈ attributes, '>' ∉ a.value)
    (hf : f ≠ .nil) (d : CharacterData) : tags (d.raw ++ f.written) ≠ [] := by
  rw [tags_data_append]
  cases f with
  | nil => exact absurd rfl hf
  | empty name attributes tail rest =>
    have hfirst := (List.forall_mem_cons.mp h).1
    rw [written, tags_content_append (open_not_mem_quotedContent_slash name attributes)
      (close_not_mem_quotedContent_slash name hfirst) (by simp)]
    exact List.cons_ne_nil _ _
  | pair name attributes text children tail rest =>
    have hfirst := (List.forall_mem_cons.mp h).1
    rw [written, tags_content_append (open_not_mem_quotedContent name attributes)
      (close_not_mem_quotedContent name hfirst) (List.cons_ne_nil _ _)]
    exact List.cons_ne_nil _ _

/-- **If nothing is left of tags they nest.** -/
theorem isNested_written (h : ∀ attributes ∈ f.attributes, ∀ a ∈ attributes, '>' ∉ a.value)
    (d : CharacterData) : isNested (tags (d.raw ++ f.written)) = true := by
  have hnests := nestsIn_written h [] []
  rw [List.append_nil] at hnests
  rw [isNested, tags_data_append, hnests]
  rfl

end Quoted

end Bitext.Markup
