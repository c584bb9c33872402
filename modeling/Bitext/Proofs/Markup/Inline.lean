import Bitext.Proofs.Markup.Reading

/-!
# Inline elements as they are written

A forest of inline elements as a translation tool writes it: the names are XML names, the tags have
attributes in double quotes, and an element without content is written as one tag or as two.  Both
notions of a tag agree on such a text, so the two ways to its normal form agree as well: to rename
its tags and read the result strictly, or to read it as it stands and number the elements of the
tree.

## Main definitions

* `XmlName`, `InlineAttribute`, `PlainText`: what inline markup is made of.
* `Inline`: a forest of inline elements; `Inline.written` is its text and `Inline.forest` the forest
  without its attributes.

## Main results

* `treeOf?_written`: a written forest is read as the forest, in both readings
* `renamed_pieces`: renaming takes the attributes away
* `normalize_written`: both normal forms are the reduced and numbered forest
-/

namespace Bitext.Markup

open Bitext.Unicode (Glyph)

variable {reading : Reading} {ps : List Piece} {c : Char}

/-! ## Names -/

/-- A character with which an XML name can begin. -/
def startsXmlName (c : Char) : Bool :=
  let n := c.toNat
  c.isAlpha || c == '_' || c == ':' || (0xC0 ≤ n && n ≤ 0xD6) || (0xD8 ≤ n && n ≤ 0xF6) ||
    (0xF8 ≤ n && n ≤ 0x2FF) || (0x370 ≤ n && n ≤ 0x37D) || (0x37F ≤ n && n ≤ 0x1FFF) ||
    (0x200C ≤ n && n ≤ 0x200D) || (0x2070 ≤ n && n ≤ 0x218F) || (0x2C00 ≤ n && n ≤ 0x2FEF) ||
    (0x3001 ≤ n && n ≤ 0xD7FF) || (0xF900 ≤ n && n ≤ 0xFDCF) || (0xFDF0 ≤ n && n ≤ 0xFFFD) ||
    (0x10000 ≤ n && n ≤ 0xEFFFF)

/-- A character with which an XML name can go on. -/
def continuesXmlName (c : Char) : Bool :=
  let n := c.toNat
  startsXmlName c || c.isDigit || c == '-' || c == '.' || n == 0xB7 || (0x300 ≤ n && n ≤ 0x36F) ||
    (0x203F ≤ n && n ≤ 0x2040)

/-- An XML name. -/
structure XmlName where
  first : Char
  rest : Text
  starts : startsXmlName first = true
  continues : ∀ c ∈ rest, continuesXmlName c = true

namespace XmlName

/-- The characters of the name. -/
def text (name : XmlName) : Text := name.first :: name.rest

theorem continues_of_mem {name : XmlName} (h : c ∈ name.text) : continuesXmlName c = true := by
  rcases List.mem_cons.mp h with rfl | h
  · simp [continuesXmlName, name.starts]
  · exact name.continues c h

/-- No other character stands in a name. -/
theorem ne_of_mem {name : XmlName} {d : Char} (h : c ∈ name.text)
    (hd : continuesXmlName d = false) : c ≠ d := by
  rintro rfl
  rw [continues_of_mem h] at hd
  cases hd

/-- An XML name is read as a name. -/
theorem isTagName (name : XmlName) : Xml.IsTagName name.text :=
  .of_all (List.cons_ne_nil _ _) (fun _ => continues_of_mem) (by decide)

theorem isAngle (name : XmlName) : ∀ c ∈ name.text, isAngle c = false :=
  (isTagBody_name name.isTagName).isAngle

theorem first_ne {name : XmlName} {d : Char} (hd : continuesXmlName d = false) :
    name.first ≠ d :=
  ne_of_mem List.mem_cons_self hd

end XmlName

/-! ## Attributes and texts -/

/-- An attribute.  Its value may hold everything but angle brackets and double quotation marks. -/
structure InlineAttribute where
  key : XmlName
  value : Text
  isAngle : ∀ c ∈ value, isAngle c = false
  ne_quote : ∀ c ∈ value, c ≠ '"'

/-- An attribute as it is written behind a name or another attribute. -/
def InlineAttribute.written (a : InlineAttribute) : Text :=
  ' ' :: (a.key.text ++ '=' :: '"' :: (a.value ++ ['"']))

/-- A text without angle brackets. -/
structure PlainText where
  text : Text
  isAngle : ∀ c ∈ text, isAngle c = false

theorem PlainText.ne_open (t : PlainText) : ∀ c ∈ t.text, c ≠ '<' :=
  ne_open_of_no_angle t.isAngle

/-- What stands between the brackets of the tag with which an element begins. -/
def startContent (name : XmlName) (attributes : List InlineAttribute) : Text :=
  name.text ++ attributes.flatMap InlineAttribute.written

@[simp] theorem startContent_nil (name : XmlName) : startContent name [] = name.text := by
  rw [startContent, List.flatMap_nil, List.append_nil]

section StartContent

variable (name : XmlName) (attributes : List InlineAttribute)

theorem isAngle_written (a : InlineAttribute) : ∀ c ∈ a.written, isAngle c = false := by
  intro c hc
  simp only [InlineAttribute.written, List.mem_cons, List.mem_append, List.not_mem_nil,
    or_false] at hc
  rcases hc with rfl | hkey | rfl | rfl | hvalue | rfl
  · rfl
  · exact a.key.isAngle c hkey
  · rfl
  · rfl
  · exact a.isAngle c hvalue
  · rfl

theorem isStretch_written (a : InlineAttribute) : Xml.IsStretch a.written := by
  -- An apostrophe of the value stands between quotation marks, where it opens nothing.
  have hblank : Xml.IsStretch [' '] := Xml.isStretch_singleton ⟨by decide, by decide, by decide⟩
  have hequals : Xml.IsStretch ['='] := Xml.isStretch_singleton ⟨by decide, by decide, by decide⟩
  have hquoted := Xml.isStretch_quoted a.ne_quote
  exact hblank.append (a.key.isTagName.isStretch.append (hequals.append hquoted))

theorem isTagBody_startContent : IsTagBody (startContent name attributes) := by
  refine ⟨List.cons_ne_nil _ _, ?_⟩
  intro c hc
  rcases List.mem_append.mp hc with hc | hc
  · exact name.isAngle c hc
  · obtain ⟨a, -, hc⟩ := List.mem_flatMap.mp hc
    exact isAngle_written a c hc

theorem isStretch_startContent : Xml.IsStretch (startContent name attributes) := by
  refine name.isTagName.isStretch.append ?_
  induction attributes with
  | nil => exact Xml.isStretch_nil
  | cons a attributes ih => exact (isStretch_written a).append ih

/-- The attributes begin with a blank. -/
theorem head?_attributes : ∀ c, (attributes.flatMap InlineAttribute.written).head? = some c →
    c = ' ' := by
  intro c hc
  cases attributes with
  | nil => cases hc
  | cons a attributes =>
    cases hc
    rfl

theorem getLast?_startContent : (startContent name attributes).getLast? ≠ some '/' := by
  rcases List.eq_nil_or_concat attributes with rfl | ⟨earlier, a, rfl⟩
  · rw [startContent, List.flatMap_nil, List.append_nil]
    exact name.isTagName.getLast?_ne
  -- The last attribute ends with a quotation mark.
  · have hlast : (startContent name (earlier.concat a)).getLast? = some '"' := by
      simp [startContent, InlineAttribute.written, List.getLast?_append, List.getLast?_cons]
    rw [hlast]
    decide

/-- The reader takes the name up to the first attribute. -/
theorem shown_contentName_startContent :
    Glyph.shown (Xml.contentName (Glyph.ofText (startContent name attributes))) = name.text := by
  have hblank : ∀ c, (attributes.flatMap InlineAttribute.written).head? = some c →
      Xml.isTagSpace (.char c) = true := by
    intro c hc
    rw [head?_attributes attributes c hc]
    rfl
  rw [startContent, Xml.contentName_append name.isTagName.isTagSpace hblank, Glyph.shown_ofText]

/-! ## The three tags of elements -/

theorem kind_append {x : Text} (hlast : (name.text ++ x).getLast? ≠ some '/') :
    TagKind.of (name.text ++ x) = .opening := by
  have hfirst : name.first ≠ '/' := XmlName.first_ne (by decide)
  rw [TagKind.of, beq_eq_false_iff_ne.mpr hlast, Bool.and_false, if_neg Bool.false_ne_true, if_neg]
  simpa [XmlName.text] using hfirst

theorem kind_append_slash (x : Text) : TagKind.of (name.text ++ x ++ ['/']) = .selfClosing := by
  have hlength : 2 ≤ (name.text ++ x ++ ['/']).length := by
    simp [XmlName.text]
    omega
  rw [TagKind.of, List.getLast?_concat, if_pos]
  simpa using hlength

theorem kind_startContent : TagKind.of (startContent name attributes) = .opening :=
  kind_append name (getLast?_startContent name attributes)

theorem kind_startContent_slash :
    TagKind.of (startContent name attributes ++ ['/']) = .selfClosing :=
  kind_append_slash name _

theorem kind_slash_name : TagKind.of ('/' :: name.text) = .closing := by
  have hlast := name.isTagName.getLast?_ne
  rw [TagKind.of, if_neg, if_pos]
  · rfl
  · simpa [XmlName.text, List.getLast?_cons_cons] using hlast

/-- What follows a name does not belong to the name of the tag. -/
theorem tagName_append {x : Text} (hx : ∀ c, x.head? = some c → c = ' ' ∨ c = '/') :
    tagName (name.text ++ x) = tagName name.text := by
  have hfirst : name.first ≠ '/' := XmlName.first_ne (by decide)
  have hkept (y : Text) : (name.first :: y).dropWhile (· == '/') = name.first :: y :=
    List.dropWhile_cons_of_neg (by simpa using hfirst)
  rw [tagName, tagName, XmlName.text, List.cons_append, hkept, hkept, ← List.cons_append]
  -- The name ends at the first blank or slash, wherever that is.
  generalize name.first :: name.rest = a
  induction a with
  | nil =>
    cases x with
    | nil => rfl
    | cons c x => rcases hx c rfl with rfl | rfl <;> rfl
  | cons c a ih => rw [List.cons_append, List.takeWhile_cons, List.takeWhile_cons, ih]

theorem tagName_startContent : tagName (startContent name attributes) = tagName name.text :=
  tagName_append name fun c hc => .inl (head?_attributes attributes c hc)

theorem tagName_startContent_slash :
    tagName (startContent name attributes ++ ['/']) = tagName name.text := by
  rw [startContent, List.append_assoc]
  refine tagName_append name fun c hc => ?_
  -- The slash follows the name itself, or the blank of the first attribute does.
  cases hattributes : attributes.flatMap InlineAttribute.written with
  | nil =>
    rw [hattributes] at hc
    cases hc
    exact .inr rfl
  | cons d rest =>
    have hblank := head?_attributes attributes d (by rw [hattributes]; rfl)
    rw [hattributes] at hc
    cases hc
    exact .inl hblank

theorem tagName_slash_name : tagName ('/' :: name.text) = tagName name.text := by
  rw [tagName, List.dropWhile_cons_of_pos rfl]
  rfl

end StartContent

/-! ## Inline elements -/

/-- Sibling elements as they are written, each with its tail. -/
inductive Inline where
  | nil
  /-- An element without content that is written as one tag. -/
  | empty (name : XmlName) (attributes : List InlineAttribute) (tail : PlainText) (rest : Inline)
  /-- An element that is written as two tags. -/
  | pair (name : XmlName) (attributes : List InlineAttribute) (text : PlainText)
      (children : Inline) (tail : PlainText) (rest : Inline)

namespace Inline

/-- The elements without their attributes. -/
def forest : Inline → Forest
  | nil => .nil
  | empty name _ tail rest => .cons name.text [] .nil tail.text rest.forest
  | pair name _ text children tail rest =>
    .cons name.text text.text children.forest tail.text rest.forest

/-- The elements as they are written. -/
def written : Inline → Text
  | nil => []
  | empty name attributes tail rest =>
    tagText (startContent name attributes ++ ['/']) ++ tail.text ++ rest.written
  | pair name attributes text children tail rest =>
    tagText (startContent name attributes) ++ text.text ++ children.written ++
      tagText ('/' :: name.text) ++ tail.text ++ rest.written

/-- The root of the tree of a text and the elements behind it. -/
def root (t : PlainText) (f : Inline) : Element := ⟨[], t.text, f.forest, []⟩

/-- The written elements cut at their tags. -/
def pieces : Inline → List Piece
  | nil => []
  | empty name attributes tail rest =>
    .tag (startContent name attributes ++ ['/']) :: (tail.text.map .char ++ rest.pieces)
  | pair name attributes text children tail rest =>
    .tag (startContent name attributes) :: (text.text.map .char ++ (children.pieces ++
      .tag ('/' :: name.text) :: (tail.text.map .char ++ rest.pieces)))

theorem unparse_pieces (f : Inline) : unparse f.pieces = f.written := by
  induction f with
  | nil => rfl
  | empty name attributes tail rest ih =>
    simp only [pieces, written, unparse_cons, unparse_append, unparse_map_char, Piece.text, ih,
      List.append_assoc]
  | pair name attributes text children tail rest ihc ihr =>
    simp only [pieces, written, unparse_cons, unparse_append, unparse_map_char, Piece.text, ihc,
      ihr, List.append_assoc]

end Inline

/-! ## Both notions of a tag agree -/

/-- A piece that is one piece both for the cut into tags and for the reader. -/
def Piece.IsPlain : Piece → Prop
  | .char c => c ≠ '<'
  | .tag body => IsTagBody body ∧ Xml.BeginsTag body ∧ Xml.IsStretch body

theorem Piece.IsPlain.isSimple {p : Piece} (h : p.IsPlain) : p.IsSimple := by
  cases p with
  | char c => exact h
  | tag body => exact h.2

theorem isPlain_of_mem_map_char (t : PlainText) : ∀ p ∈ t.text.map Piece.char, p.IsPlain := by
  intro p hp
  obtain ⟨c, hc, rfl⟩ := List.mem_map.mp hp
  exact t.ne_open c hc

theorem isCut_of_isPlain (h : ∀ p ∈ ps, p.IsPlain) : IsCut ps := by
  induction ps with
  | nil => exact isCut_nil
  | cons p ps ih =>
    obtain ⟨hp, hps⟩ := List.forall_mem_cons.mp h
    cases p with
    | char c => exact isCut_char_iff.mpr ⟨ih hps, fun hc => absurd hc hp⟩
    | tag body => exact isCut_tag_iff.mpr ⟨hp.1, ih hps⟩

section IsPlain

variable (name : XmlName) (attributes : List InlineAttribute)

theorem isPlain_start : (Piece.tag (startContent name attributes)).IsPlain :=
  ⟨isTagBody_startContent name attributes, name.isTagName.beginsTag.append _,
    isStretch_startContent name attributes⟩

theorem isPlain_empty : (Piece.tag (startContent name attributes ++ ['/'])).IsPlain := by
  obtain ⟨hbody, hbegins, hstretch⟩ := isPlain_start name attributes
  refine ⟨⟨List.cons_ne_nil _ _, ?_⟩, hbegins.append _, hstretch.append Xml.isStretch_slash⟩
  intro c hc
  rcases List.mem_append.mp hc with hc | hc
  · exact hbody.isAngle c hc
  · rw [List.mem_singleton.mp hc]
    rfl

theorem isPlain_stop : (Piece.tag ('/' :: name.text)).IsPlain :=
  ⟨isTagBody_closing name.isTagName, isSimple_slash_name name.isTagName⟩

end IsPlain

theorem Inline.isPlain (f : Inline) : ∀ p ∈ f.pieces, p.IsPlain := by
  induction f with
  | nil => exact fun p hp => absurd hp List.not_mem_nil
  | empty name attributes tail rest ih =>
    rw [pieces, List.forall_mem_cons, List.forall_mem_append]
    exact ⟨isPlain_empty name attributes, isPlain_of_mem_map_char tail, ih⟩
  | pair name attributes text children tail rest ihc ihr =>
    rw [pieces, List.forall_mem_cons, List.forall_mem_append, List.forall_mem_append,
      List.forall_mem_cons, List.forall_mem_append]
    exact ⟨isPlain_start name attributes, isPlain_of_mem_map_char text, ihc, isPlain_stop name,
      isPlain_of_mem_map_char tail, ihr⟩

/-- The pieces of a text and the elements behind it. -/
theorem pieces_written (t : PlainText) (f : Inline) :
    pieces (t.text ++ f.written) = t.text.map Piece.char ++ f.pieces := by
  have hcut : IsCut (t.text.map Piece.char ++ f.pieces) :=
    (isCut_of_isPlain f.isPlain).map_char_append t.ne_open
  rwa [IsCut, unparse_append, unparse_map_char, Inline.unparse_pieces] at hcut

/-! ## Reading -/

namespace TreeBuilder

variable (b : TreeBuilder) (name : XmlName) (attributes : List InlineAttribute)

theorem readPiece_start :
    b.readPiece reading (.tag (startContent name attributes)) =
      some ⟨.named name.text, b.top :: b.around⟩ := by
  have hevent : Xml.tagEvent (Glyph.ofText (startContent name attributes)) =
      .start (Glyph.ofText (startContent name attributes)) :=
    Xml.tagEvent_start (XmlName.first_ne (by decide)) (getLast?_startContent name attributes)
  rw [readPiece, hevent, step, shown_contentName_startContent]

theorem readPiece_empty :
    b.readPiece reading (.tag (startContent name attributes ++ ['/'])) =
      some { b with top := b.top.addChild (.named name.text) } := by
  have hevent : Xml.tagEvent (Glyph.ofText (startContent name attributes ++ ['/'])) =
      .empty (Glyph.ofText (startContent name attributes)) :=
    Xml.tagEvent_empty (XmlName.first_ne (by decide)) _
  rw [readPiece, hevent, step, shown_contentName_startContent]

/-- **Written elements are added to the innermost open element.** -/
theorem readPieces_written (f : Inline) (b : TreeBuilder) (ps : List Piece) :
    b.readPieces reading (f.pieces ++ ps) =
      ({ b with top := b.top.addForest f.forest } : TreeBuilder).readPieces reading ps := by
  -- The pieces behind are general, because a closing tag follows the children of an element.
  induction f generalizing b ps with
  | nil => rw [Inline.forest, Unclosed.addForest_nil]; rfl
  | empty name attributes tail rest ih =>
    rw [Inline.pieces, List.cons_append, List.append_assoc, readPieces_cons, readPiece_empty,
      Option.bind_some, readPieces_chars, ih, Inline.forest, ← Unclosed.addForest_cons]
    rfl
  | pair name attributes text children tail rest ihc ihr =>
    simp only [Inline.pieces, List.cons_append, List.append_assoc]
    rw [readPieces_pair (readPiece_start · name attributes)
      (readPiece_slash_name name.isTagName) ihc, readPieces_chars, ihr, Inline.forest,
      ← Unclosed.addForest_cons]

end TreeBuilder

/-- A written forest begins with a tag, so a byte order mark can only stand in the text. -/
theorem head?_written_ne (t : PlainText) (f : Inline) (hmark : t.text.head? ≠ some '\uFEFF') :
    (t.text ++ f.written).head? ≠ some '\uFEFF' := by
  cases ht : t.text with
  | nil => cases f <;> simp [Inline.written, tagText]
  | cons c rest =>
    rw [ht] at hmark
    exact hmark

/-- **A written forest is read as the forest**, in both readings. -/
theorem treeOf?_written (t : PlainText) (f : Inline) (hmark : t.text.head? ≠ some '\uFEFF') :
    treeOf? reading (Xml.items (Glyph.ofText (t.text ++ f.written))) = some (f.root t) := by
  rw [items_ofText, withoutMark_of_head?_ne (head?_written_ne t f hmark), ← Inline.unparse_pieces]
  exact treeOf?_unparse t.ne_open (fun p hp => (f.isPlain p hp).isSimple) fun b =>
    TreeBuilder.readPieces_written f b []

/-! ## Renaming -/

/-- The name that renaming gives to a tag as number `n`. -/
def XmlName.canonical (name : XmlName) (n : Nat) : XmlName where
  first := 'T'
  rest := if isIdentifier (tagName name.text) then Text.ofNat n else []
  starts := rfl
  continues := by
    intro c hc
    split at hc
    · simp [continuesXmlName, isDigit_of_mem_ofNat hc]
    · cases hc

theorem XmlName.text_canonical (name : XmlName) (n : Nat) :
    (name.canonical n).text = Renaming.canonicalName (tagName name.text) n := by
  unfold XmlName.canonical XmlName.text Renaming.canonicalName
  split <;> rfl

namespace Inline

/-- The elements under the names that renaming gives, without attributes; `n` names were given
before, and the second component is the number of names given then. -/
def canonical (n : Nat) : Inline → Inline × Nat
  | nil => (nil, n)
  | empty name _ tail rest =>
    let (rest', last) := rest.canonical (n + 1)
    (empty (name.canonical (n + 1)) [] tail rest', last)
  | pair name _ text children tail rest =>
    let (children', m) := children.canonical (n + 1)
    let (rest', last) := rest.canonical m
    (pair (name.canonical (n + 1)) [] text children' tail rest', last)

/-- Renaming changes names only. -/
theorem anonymous_forest_canonical (n : Nat) (f : Inline) :
    (f.canonical n).1.forest.anonymous = f.forest.anonymous := by
  induction f generalizing n with
  | nil => rfl
  | empty name attributes tail rest ih => simp only [canonical, forest, Forest.anonymous, ih]
  | pair name attributes text children tail rest ihc ihr =>
    simp only [canonical, forest, Forest.anonymous, ihc, ihr]

end Inline

/-- **Renaming takes the attributes away** and gives each element its name, in both of its tags. -/
theorem Renaming.run_written (n : Nat) (f : Inline) (opened : List OpenedTag) (ps : List Piece) :
    Renaming.run ⟨opened, n⟩ (f.pieces ++ ps) =
      (f.canonical n).1.pieces ++ Renaming.run ⟨opened, (f.canonical n).2⟩ ps := by
  -- Behind an element the same tags are open as in front of it; only the number has grown.
  induction f generalizing n opened ps with
  | nil => rfl
  | empty name attributes tail rest ih =>
    simp only [Inline.pieces, Inline.canonical, List.cons_append, List.append_assoc]
    rw [run_tag (step_of_selfClosing (kind_startContent_slash name attributes) _),
      tagName_startContent_slash, run_chars, ih, startContent_nil, XmlName.text_canonical]
  | pair name attributes text children tail rest ihc ihr =>
    have hname : tagName ('/' :: name.text) = tagName (startContent name attributes) :=
      (tagName_slash_name name).trans (tagName_startContent name attributes).symm
    simp only [Inline.pieces, Inline.canonical, List.cons_append, List.append_assoc]
    rw [run_pair (kind_startContent name attributes) (kind_slash_name name) hname (ihc (n + 1)),
      tagName_startContent, run_chars, ihr, startContent_nil, XmlName.text_canonical]

theorem canonical_written (t : PlainText) (f : Inline) :
    canonical (t.text ++ f.written) = t.text ++ (f.canonical 0).1.written := by
  have hrun := Renaming.run_written 0 f [] []
  rw [List.append_nil, Renaming.run, List.append_nil] at hrun
  rw [canonical, pieces_written, Renaming.run_chars, hrun, unparse_append, unparse_map_char,
    Inline.unparse_pieces]

/-! ## Normal forms -/

theorem hasTags_written (t : PlainText) {f : Inline} (h : f ≠ .nil) :
    hasTags (t.text ++ f.written) = true := by
  rw [hasTags_iff, pieces_written]
  cases f with
  | nil => exact absurd rfl h
  | empty name attributes tail rest =>
    exact ⟨_, List.mem_append_right _ List.mem_cons_self⟩
  | pair name attributes text children tail rest =>
    exact ⟨_, List.mem_append_right _ List.mem_cons_self⟩

/-- **Both normal forms of written inline elements** are the forest without redundant structure,
numbered and without attributes. -/
theorem normalize_written (t : PlainText) {f : Inline} (hf : f ≠ .nil)
    (hmark : t.text.head? ≠ some '\uFEFF') :
    normalize (t.text ++ f.written) = ((f.root t).reduce.renumber tagLetter).markup ∧
      rename (t.text ++ f.written) = ((f.root t).reduce.renumber tagLetter).markup := by
  have htags := hasTags_written t hf
  refine ⟨?_, ?_⟩
  · -- The tree that the strict reading yields differs from the forest in names only.
    have hsame : (((f.canonical 0).1.root t).reduce.renumber tagLetter).markup =
        ((f.root t).reduce.renumber tagLetter).markup := by
      simp only [Element.markup, Element.renumber, Element.reduce, Inline.root]
      rw [Forest.renumber_reduce_congr (f.anonymous_forest_canonical 0)]
    rw [normalize, if_pos htags, canonical_written, parse, treeOf?_written t _ hmark]
    exact hsame
  -- The other reading takes the forest as it is written.
  · rw [rename, if_pos htags, parse, treeOf?_written t f hmark]

/-- An element with a prefix in its name and an apostrophe in an attribute, around one without
content. -/
def lineBreakInGroup : Inline :=
  .pair ⟨'x', [':', 'g'], rfl, List.all_eq_true.mp rfl⟩
    [⟨⟨'i', ['d'], rfl, List.all_eq_true.mp rfl⟩,
      ['i', 't', '\'', 's'], by simp [isAngle], by simp⟩]
    ⟨['b'], by simp [isAngle]⟩
    (.empty ⟨'b', ['r'], rfl, List.all_eq_true.mp rfl⟩ [] ⟨[' ', 'c'], by simp [isAngle]⟩ .nil)
    ⟨[], by simp⟩ .nil

theorem normalize_written_group :
    lineBreakInGroup ≠ .nil ∧ ['a', ' '].head? ≠ some '\uFEFF' ∧
      normalize "a <x:g id=\"it's\">b<br/> c</x:g>".toList = "a <T1>b<T2/> c</T1>".toList ∧
      rename "a <x:g id=\"it's\">b<br/> c</x:g>".toList = "a <T1>b<T2/> c</T1>".toList := by
  have hne : lineBreakInGroup ≠ .nil := fun h => by cases h
  have hmark : ['a', ' '].head? ≠ some '\uFEFF' := by decide
  have hresult : ((lineBreakInGroup.root ⟨['a', ' '], by simp [isAngle]⟩).reduce.renumber
      tagLetter).markup = "a <T1>b<T2/> c</T1>".toList := by
    decide +kernel
  obtain ⟨hnormalize, hrename⟩ := normalize_written ⟨['a', ' '], by simp [isAngle]⟩ hne hmark
  exact ⟨hne, hmark, hnormalize.trans hresult, hrename.trans hresult⟩

end Bitext.Markup
