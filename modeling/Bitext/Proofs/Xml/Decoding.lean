import Bitext.Proofs.Markup.Outside
import Bitext.Proofs.Xml.Entity

/-!
# Texts and what their entities resolve to

A text with entities is read from left to right, but what it resolves to can be said part by part:
every character stands for itself and every entity for one character.  No entity holds a blank or a
bracket, so a text may be cut at these, and blanks may be dropped, without touching any entity.

## Main definitions

* `IsDecoded`: a text and what its entities resolve to.
* `Separates`: a character that stands neither in an entity nor at its ends.

## Main results

* `unescape?_eq_some_iff`: resolving entities is being decoded
* `IsDecoded.exists_split`: a decoded text cut at a character that separates
* `IsDecoded.exists_collapse`: blanks dropped in front of decoding
* `unescape_append_blank`, `unescape_eq_nil_iff`: what decoding keeps of any text
-/

namespace Bitext.Xml

variable {a b t u v w name : Text} {c e : Char}

/-! ## Entities -/

theorem isAlphanum_of_digit? {radix n : Nat} (h : Text.digit? radix c = some n) :
    c.isAlphanum = true := by
  simp only [Text.digit?, Option.filter_eq_some_iff, Bool.and_eq_true, decide_eq_true_eq] at h
  obtain ⟨hvalue, -⟩ := h
  rw [Text.isAlphanum_iff]
  split at hvalue
  · omega
  split at hvalue
  · omega
  split at hvalue
  · omega
  · cases hvalue

theorem isAlphanum_of_number? {radix n : Nat} (h : Text.number? radix t = some n) :
    ∀ c ∈ t, c.isAlphanum = true := by
  have hdigits (t : Text) (m n : Nat) (h : t.foldlM
      (fun n c => (Text.digit? radix c).map (n * radix + ·)) m = some n) :
      ∀ c ∈ t, c.isAlphanum = true := by
    induction t generalizing m with
    | nil => nofun
    | cons d t ih =>
      obtain ⟨next, hnext, hrest⟩ := Option.bind_eq_some_iff.mp h
      obtain ⟨value, hvalue, -⟩ := Option.map_eq_some_iff.mp hnext
      exact List.forall_mem_cons.mpr ⟨isAlphanum_of_digit? hvalue, ih next hrest⟩
  unfold Text.number? at h
  split at h
  · cases h
  · exact hdigits t 0 n h

/-- The character stands neither in an entity nor at its ends. -/
def Separates (c : Char) : Prop := c.isAlphanum = false ∧ c ≠ '#' ∧ c ≠ '&' ∧ c ≠ ';'

instance (c : Char) : Decidable (Separates c) :=
  inferInstanceAs (Decidable (c.isAlphanum = false ∧ c ≠ '#' ∧ c ≠ '&' ∧ c ≠ ';'))

theorem separates_of_isSpace (h : Text.isSpace c = true) : Separates c := by
  have hother {d : Char} (hd : Text.isSpace d = false) : c ≠ d := by
    rintro rfl
    rw [h] at hd
    cases hd
  refine ⟨?_, hother (by decide), hother (by decide), hother (by decide)⟩
  rw [Bool.eq_false_iff]
  intro halphanum
  rw [Text.isSpace_of_isAlphanum halphanum] at h
  cases h

theorem ne_ampersand_of_isBlank (h : Text.isBlank t) : ∀ c ∈ t, c ≠ '&' :=
  fun c hc => (separates_of_isSpace (Text.isBlank_iff.mp h c hc)).2.2.1

/-- The name of an entity is made of letters, digits and number signs. -/
theorem mem_name_of_entity? (h : entity? name = some e) (hc : c ∈ name) :
    c.isAlphanum = true ∨ c = '#' := by
  unfold entity? at h
  split at h
  case h_6 digits =>
    obtain ⟨n, hn, -⟩ := Option.bind_eq_some_iff.mp h
    simp only [List.mem_cons] at hc
    rcases hc with rfl | rfl | hc
    · exact .inr rfl
    · exact .inl (by decide)
    · exact .inl (isAlphanum_of_number? hn c hc)
  case h_7 digits _ =>
    obtain ⟨n, hn, -⟩ := Option.bind_eq_some_iff.mp h
    rcases List.mem_cons.mp hc with rfl | hc
    · exact .inr rfl
    · exact .inl (isAlphanum_of_number? hn c hc)
  case h_8 => cases h
  all_goals
    simp only [List.mem_cons, List.not_mem_nil, or_false] at hc
    rcases hc with rfl | rfl | rfl | rfl | rfl | rfl <;> exact .inl (by decide)

theorem not_mem_name (h : entity? name = some e) (hc : Separates c ∨ c = '&' ∨ c = ';') :
    c ∉ name := by
  intro hmem
  have hname := mem_name_of_entity? h hmem
  rcases hc with ⟨halphanum, hnumber, -⟩ | rfl | rfl
  · rcases hname with h | h
    · rw [halphanum] at h
      cases h
    · exact hnumber h
  · exact absurd hname (by decide)
  · exact absurd hname (by decide)

/-! ## Decoded texts -/

/-- A text and what its entities resolve to. -/
inductive IsDecoded : Text → Text → Prop
  | nil : IsDecoded [] []
  | char {c : Char} {t u : Text} (hc : c ≠ '&') (h : IsDecoded t u) : IsDecoded (c :: t) (c :: u)
  | entity {name : Text} {e : Char} {t u : Text} (he : entity? name = some e)
      (h : IsDecoded t u) : IsDecoded ('&' :: (name ++ ';' :: t)) (e :: u)

theorem unescapeFrom_entity (he : entity? (v.reverse ++ name) = some e) (t : Text) :
    unescapeFrom (some v) (name ++ ';' :: t) = (unescape? t).map (e :: ·) := by
  induction name generalizing v with
  | nil =>
    rw [List.append_nil] at he
    rw [List.nil_append, unescapeFrom]
    simp only [beq_self_eq_true, if_true, he, Option.bind_some, unescape?]
  | cons c name ih =>
    have hmem : c ∈ v.reverse ++ c :: name := List.mem_append_right _ List.mem_cons_self
    have hsemicolon : c ≠ ';' := by
      rintro rfl
      exact not_mem_name he (.inr (.inr rfl)) hmem
    have hampersand : c ≠ '&' := by
      rintro rfl
      exact not_mem_name he (.inr (.inl rfl)) hmem
    rw [List.cons_append, unescapeFrom, if_neg (by simpa using hsemicolon),
      if_neg (by simpa using hampersand)]
    apply ih
    rwa [List.reverse_cons, List.append_assoc, List.singleton_append]

theorem IsDecoded.unescape?_eq (h : IsDecoded t u) : unescape? t = some u := by
  induction h with
  | nil => rfl
  | char hc _ ih =>
    rw [unescape?] at ih ⊢
    rw [unescapeFrom, if_neg (by simpa using hc), ih, Option.map_some]
  | entity he _ ih =>
    have hentity := unescapeFrom_entity (v := []) he
    rw [unescape?, unescapeFrom, if_pos (by rfl), hentity, ih, Option.map_some]

/-- Where an entity is being read, its name is completed first. -/
theorem isDecoded_of_unescapeFrom (t : Text) :
    (∀ u, unescapeFrom none t = some u → IsDecoded t u) ∧
      ∀ v u, unescapeFrom (some v) t = some u →
        ∃ name t' e u', t = name ++ ';' :: t' ∧ entity? (v.reverse ++ name) = some e ∧
          u = e :: u' ∧ IsDecoded t' u' := by
  induction t with
  | nil =>
    refine ⟨?_, nofun⟩
    rintro u ⟨⟩
    exact .nil
  | cons c t ih =>
    obtain ⟨ihplain, ihname⟩ := ih
    constructor
    · intro u h
      rw [unescapeFrom] at h
      split at h
      · rename_i hc
        obtain ⟨name, t', e, u', rfl, he, rfl, hdecoded⟩ := ihname [] u h
        rw [beq_iff_eq.mp hc]
        exact .entity he hdecoded
      · rename_i hc
        obtain ⟨u', hu', rfl⟩ := Option.map_eq_some_iff.mp h
        exact .char (by simpa using hc) (ihplain u' hu')
    · intro v u h
      rw [unescapeFrom] at h
      split at h
      · rename_i hc
        obtain ⟨e, he, hrest⟩ := Option.bind_eq_some_iff.mp h
        obtain ⟨u', hu', rfl⟩ := Option.map_eq_some_iff.mp hrest
        refine ⟨[], t, e, u', ?_, ?_, rfl, ihplain u' hu'⟩
        · rw [beq_iff_eq.mp hc]
          rfl
        · rwa [List.append_nil]
      · split at h
        · cases h
        · obtain ⟨name, t', e, u', rfl, he, rfl, hdecoded⟩ := ihname (c :: v) u h
          refine ⟨c :: name, t', e, u', rfl, ?_, rfl, hdecoded⟩
          rwa [List.reverse_cons, List.append_assoc, List.singleton_append] at he

/-- **Resolving entities is being decoded.** -/
theorem unescape?_eq_some_iff : unescape? t = some u ↔ IsDecoded t u :=
  ⟨(isDecoded_of_unescapeFrom t).1 u, IsDecoded.unescape?_eq⟩

theorem isDecoded_of_isSome (h : (unescape? t).isSome) : IsDecoded t (unescape t) := by
  obtain ⟨u, hu⟩ := Option.isSome_iff_exists.mp h
  rw [unescape, hu]
  exact unescape?_eq_some_iff.mp hu

namespace IsDecoded

theorem unescape_eq (h : IsDecoded t u) : unescape t = u := by
  rw [unescape, h.unescape?_eq, Option.getD_some]

/-- A text without ampersands stands for itself. -/
theorem of_plain (h : ∀ c ∈ t, c ≠ '&') : IsDecoded t t := by
  induction t with
  | nil => exact .nil
  | cons c t ih =>
    obtain ⟨hc, ht⟩ := List.forall_mem_cons.mp h
    exact .char hc (ih ht)

theorem append (h : IsDecoded t u) (h' : IsDecoded v w) : IsDecoded (t ++ v) (u ++ w) := by
  induction h with
  | nil => exact h'
  | char hc _ ih => exact .char hc ih
  | entity he _ ih =>
    rw [List.cons_append, List.append_assoc, List.cons_append]
    exact .entity he ih

/-- **A decoded text can be cut** at every character that separates. -/
theorem exists_split (hc : Separates c) (h : IsDecoded (a ++ c :: b) u) :
    ∃ v w, IsDecoded a v ∧ IsDecoded b w ∧ u = v ++ c :: w := by
  generalize ht : a ++ c :: b = t at h
  induction h generalizing a with
  | nil => cases a <;> cases ht
  | @char d t u hd h ih =>
    cases a with
    | nil =>
      cases ht
      exact ⟨[], u, .nil, h, rfl⟩
    | cons d' a =>
      cases ht
      obtain ⟨v, w, hv, hw, rfl⟩ := ih rfl
      exact ⟨d :: v, w, .char hd hv, hw, rfl⟩
  | @entity name e t u he h ih =>
    cases a with
    | nil =>
      cases ht
      exact absurd rfl hc.2.2.1
    | cons d' a =>
      obtain ⟨rfl, htail⟩ := List.cons.inj ht
      have hrest : a ++ c :: b = name ++ ';' :: t := htail
      -- The character does not stand in the name, so it stands behind the entity.
      obtain ⟨a', rfl⟩ : ∃ a', a = name ++ ';' :: a' := by
        rcases List.append_eq_append_iff.mp hrest with ⟨more, rfl, hmore⟩ | ⟨more, rfl, hmore⟩
        · cases more with
          | nil => exact absurd (List.cons.inj hmore).1 hc.2.2.2
          | cons d more =>
            obtain ⟨rfl, -⟩ := List.cons.inj hmore
            exact absurd (List.mem_append_right _ List.mem_cons_self)
              (not_mem_name he (.inl hc))
        · cases more with
          | nil => exact absurd (List.cons.inj hmore).1.symm hc.2.2.2
          | cons d more =>
            obtain ⟨rfl, -⟩ := List.cons.inj hmore
            exact ⟨more, rfl⟩
      rw [List.append_assoc, List.cons_append] at hrest
      have hbehind := (List.cons.inj (List.append_cancel_left hrest)).2
      obtain ⟨v, w, hv, hw, rfl⟩ := ih hbehind
      exact ⟨e :: v, w, .entity he hv, hw, rfl⟩

/-- A character that separates is decoded as it stands. -/
theorem mem (h : IsDecoded t u) (hc : Separates c) (hmem : c ∈ t) : c ∈ u := by
  obtain ⟨a, b, rfl⟩ := List.append_of_mem hmem
  obtain ⟨v, w, -, -, rfl⟩ := h.exists_split hc
  exact List.mem_append_right _ List.mem_cons_self

/-- Without its blanks at the end a decoded text is decoded. -/
theorem of_append_blank (hb : Text.isBlank b) (h : IsDecoded (t ++ b) u) :
    ∃ v, IsDecoded t v ∧ u = v ++ b := by
  -- Every blank separates, so they can be cut off one by one; the text in front takes the others.
  induction b generalizing t u with
  | nil => exact ⟨u, by rwa [List.append_nil] at h, (List.append_nil u).symm⟩
  | cons c b ih =>
    rw [List.append_cons] at h
    obtain ⟨x, hx, rfl⟩ := ih (Bool.and_eq_true_iff.mp hb).2 h
    obtain ⟨v, w, hv, hw, rfl⟩ := hx.exists_split
      (separates_of_isSpace (Bool.and_eq_true_iff.mp hb).1)
    cases hw
    exact ⟨v, hv, (List.append_cons ..).symm⟩

/-! ## Blanks dropped in front of decoding -/

theorem squeeze_of_no_blank (h : ∀ c ∈ name, Text.isSpace c = false) (behind : Bool) :
    Text.squeeze behind name = name := by
  induction name generalizing behind with
  | nil => rfl
  | cons c name ih =>
    obtain ⟨hc, hname⟩ := List.forall_mem_cons.mp h
    rw [Text.squeeze_cons_of_not_isSpace hc, ih hname]

/-- Squeezing blanks leaves every entity as it is. -/
theorem exists_squeeze (h : IsDecoded t u) (behind : Bool) :
    ∃ v, IsDecoded (Text.squeeze behind t) v ∧ Text.visible v = Text.visible u := by
  induction h generalizing behind with
  | nil => exact ⟨[], .nil, rfl⟩
  | @char c t u hc _ ih =>
    cases hspace : Text.isSpace c with
    | false =>
      obtain ⟨v, hv, hvisible⟩ := ih false
      rw [Text.squeeze_cons_of_not_isSpace hspace]
      refine ⟨c :: v, .char hc hv, ?_⟩
      rw [Text.visible_cons_of_not_isSpace hspace, Text.visible_cons_of_not_isSpace hspace,
        hvisible]
    | true =>
      obtain ⟨v, hv, hvisible⟩ := ih true
      rw [Text.visible_cons_of_isSpace hspace]
      cases behind with
      | false =>
        rw [Text.squeeze_false_cons_of_isSpace hspace]
        exact ⟨' ' :: v, .char (by decide) hv, hvisible⟩
      | true =>
        rw [Text.squeeze_true_cons_of_isSpace hspace]
        exact ⟨v, hv, hvisible⟩
  | @entity name e t u he _ ih =>
    -- No blank stands in an entity, so it is squeezed to itself.
    have hname : ∀ c ∈ name ++ [';'], Text.isSpace c = false := by
      intro c hc
      rw [Bool.eq_false_iff]
      intro hspace
      rcases List.mem_append.mp hc with hc | hc
      · exact not_mem_name he (.inl (separates_of_isSpace hspace)) hc
      · rw [List.mem_singleton.mp hc] at hspace
        exact absurd hspace (by decide)
    obtain ⟨v, hv, hvisible⟩ := ih (Text.endsBlank false (name ++ [';']))
    have hsqueeze : Text.squeeze behind ('&' :: (name ++ ';' :: t)) =
        '&' :: (name ++ ';' :: Text.squeeze (Text.endsBlank false (name ++ [';'])) t) := by
      rw [Text.squeeze_cons_of_not_isSpace (by decide), List.append_cons, Text.squeeze_append,
        squeeze_of_no_blank hname, List.append_assoc, List.singleton_append]
    rw [hsqueeze]
    refine ⟨e :: v, .entity he hv, ?_⟩
    rw [← List.singleton_append, Text.visible_append, hvisible, ← Text.visible_append]
    rfl

/-- **Collapsing blanks leaves every entity as it is.** -/
theorem exists_collapse (h : IsDecoded t u) :
    ∃ v, IsDecoded (Text.collapse t) v ∧ Text.visible v = Text.visible u := by
  obtain ⟨b, hb, hsqueeze⟩ := Text.exists_squeeze_eq t
  obtain ⟨x, hx, hvisible⟩ := h.exists_squeeze true
  rw [hsqueeze] at hx
  obtain ⟨v, hv, rfl⟩ := hx.of_append_blank hb
  rw [Text.visible_append, Text.visible_eq_nil_iff.mpr hb, List.append_nil] at hvisible
  exact ⟨v, hv, hvisible⟩

end IsDecoded

/-! ## Any text -/

/-- A text in front that holds no ampersand stays as it is. -/
theorem unescape?_append_of_plain (h : ∀ c ∈ a, c ≠ '&') (t : Text) :
    unescape? (a ++ t) = (unescape? t).map (a ++ ·) := by
  induction a with
  | nil => exact Option.map_id'.symm
  | cons c a ih =>
    obtain ⟨hc, ha⟩ := List.forall_mem_cons.mp h
    have hrest := ih ha
    rw [unescape?, unescape?] at hrest
    rw [unescape?, List.cons_append, unescapeFrom, if_neg (by simpa using hc), hrest,
      Option.map_map]
    rfl

theorem unescape_append_of_plain (h : ∀ c ∈ a, c ≠ '&') (t : Text) :
    unescape (a ++ t) = a ++ unescape t := by
  rw [unescape, unescape, unescape?_append_of_plain h]
  cases unescape? t <;> rfl

theorem unescape_cons_of_ne (h : c ≠ '&') (t : Text) : unescape (c :: t) = c :: unescape t :=
  unescape_append_of_plain (a := [c]) (by simpa using h) t

theorem unescape_blank_append (h : Text.isBlank a) (t : Text) :
    unescape (a ++ t) = a ++ unescape t :=
  unescape_append_of_plain (ne_ampersand_of_isBlank h) t

/-- Blanks at the end stay as they are, also behind an ampersand that begins no entity. -/
theorem unescape_append_blank (h : Text.isBlank b) (t : Text) :
    unescape (t ++ b) = unescape t ++ b := by
  have hplain := ne_ampersand_of_isBlank h
  cases ht : unescape? t with
  | some u =>
    have hdecoded := (unescape?_eq_some_iff.mp ht).append (.of_plain hplain)
    rw [hdecoded.unescape_eq, unescape, ht, Option.getD_some]
  | none =>
    have hnone : unescape? (t ++ b) = none := by
      rw [Option.eq_none_iff_forall_ne_some]
      intro u hu
      obtain ⟨v, hv, -⟩ := (unescape?_eq_some_iff.mp hu).of_append_blank h
      rw [hv.unescape?_eq] at ht
      cases ht
    rw [unescape, unescape, hnone, ht, Option.getD_none, Option.getD_none]

/-- Nothing but the empty text resolves to nothing. -/
theorem unescape_eq_nil_iff : unescape t = [] ↔ t = [] := by
  constructor
  · intro h
    cases ht : unescape? t with
    | none => rwa [unescape, ht, Option.getD_none] at h
    | some u =>
      rw [unescape, ht, Option.getD_some] at h
      cases unescape?_eq_some_iff.mp ht <;> first | rfl | cases h
  · rintro rfl
    rfl

theorem unescape_of_isBlank (h : Text.isBlank t) : unescape t = t := by
  have happend := unescape_blank_append h []
  rwa [List.append_nil, unescape_eq_nil_iff.mpr rfl, List.append_nil] at happend

end Bitext.Xml
