import Bitext.Proofs.Tmx.Events

/-!
# What becomes of records

Whatever is read, a segment is open only in a variant and a variant only in a record.  A record that
was opened is still open, or it has closed: then it has yielded all of its units in one go, or it
was counted as skipped.  So the records that were opened are exactly those that have yielded units,
those that were skipped, and the one that may be open.

## Main definitions

* `Passage`: one step of reading, from one state to the next.
* `DocumentState.passages`, `DocumentState.after`: the passages of a document and the state behind
  them.
* `DocumentState.IsNested`: what is open stands in what has to be open around it.
* `Accounts`: what reading does to the records.

## Main results

* `accounts_step`: one event
* `balance_passages`: all items of a document
* `DocumentState.opened_eq_yielded_add_skipped`: all records of a document
-/

namespace Bitext.Tmx

open Bitext.Unicode (Glyph)

/-- A passage from one state to the next, by an item or at the end of the input. -/
structure Passage where
  state : DocumentState
  /-- The item that is read; there is none at the end of the input. -/
  item? : Option Xml.Item
  next : DocumentState
  units : List TranslationUnit

namespace DocumentState

/-- Reads an item; a fault is only counted. -/
def readItem (reading : Reading) (s : DocumentState) :
    Xml.Item → DocumentState × List TranslationUnit
  | .event e => s.step reading e
  | .illFormed | .syntaxError => (s.recover, [])

/-- The passage by an item. -/
def passage (reading : Reading) (s : DocumentState) (item : Xml.Item) : Passage :=
  ⟨s, some item, (s.readItem reading item).1, (s.readItem reading item).2⟩

/-- The state behind the items. -/
def after (reading : Reading) (s : DocumentState) : List Xml.Item → DocumentState
  | [] => s
  | item :: rest => (s.passage reading item).next.after reading rest

/-- The passages by the items. -/
def passages (reading : Reading) (s : DocumentState) : List Xml.Item → List Passage
  | [] => []
  | item :: rest =>
    s.passage reading item :: (s.passage reading item).next.passages reading rest

/-- The passage at the end of the input. -/
def lastPassage (reading : Reading) (s : DocumentState) : Passage :=
  ⟨s, none, (s.finish reading).1, (s.finish reading).2⟩

/-- The state behind the end of the input. -/
def finished (reading : Reading) (items : List Xml.Item) : DocumentState :=
  ((({} : DocumentState).after reading items).finish reading).1

/-- All passages of a document, up to the end of the input. -/
def allPassages (reading : Reading) (s : DocumentState) (items : List Xml.Item) : List Passage :=
  s.passages reading items ++ [(s.after reading items).lastPassage reading]

/-! ## What is open -/

/-- An open segment stands in an open variant, and an open variant in an open record. -/
structure IsNested (s : DocumentState) : Prop where
  segment? : s.segment?.isSome → s.variant?.isSome
  variant? : s.variant?.isSome → s.record?.isSome

/-- The number of records that are open. -/
def openRecords (s : DocumentState) : Nat := if s.record?.isSome then 1 else 0

/-- The open record with its open variant. -/
def closing? (s : DocumentState) : Option Record :=
  s.record?.map fun r => withVariant r s.variant?

/-- The item is a start tag or an empty tag of a record, and stands in no segment. -/
def opens (s : DocumentState) : Xml.Item → Bool
  | .event (.start content) | .event (.empty content) =>
    s.segment?.isNone && Xml.contentName content == Xml.word "tu"
  | _ => false

/-- The content of the open segment is stored in its variant. -/
def stored (s : DocumentState) : DocumentState :=
  match s.segment? with
  | none => s
  | some g => s.closeSegment g.raw

end DocumentState

namespace Passage

/-- The passage opens a record. -/
def opens (p : Passage) : Bool := p.item?.any p.state.opens

/-- The passage yields units. -/
def yields (p : Passage) : Bool := !p.units.isEmpty

/-- The state in which a record closes, if one does: an item that closes a record stores the content
of the open segment first, while the end of the input leaves it out. -/
def closing (p : Passage) : DocumentState := if p.item?.isSome then p.state.stored else p.state

end Passage

namespace DocumentState

variable {reading : Reading} {s s' : DocumentState} {r : Record} {n : Nat}
  {p : DocumentState × List TranslationUnit}

theorem stored_of_none (h : s.segment? = none) : s.stored = s := by
  rw [stored, h]

@[simp] theorem record?_stored (s : DocumentState) : s.stored.record? = s.record? := by
  unfold stored
  split <;> rfl

@[simp] theorem skipped_stored (s : DocumentState) : s.stored.skipped = s.skipped := by
  unfold stored
  split <;> rfl

theorem IsNested.variant?_eq_none (h : s.IsNested) (hrecord : s.record? = none) :
    s.variant? = none := by
  rw [← Option.not_isSome_iff_eq_none]
  intro hvariant
  have hopen := h.variant? hvariant
  rw [hrecord] at hopen
  cases hopen

theorem IsNested.segment?_eq_none (h : s.IsNested) (hvariant : s.variant? = none) :
    s.segment? = none := by
  rw [← Option.not_isSome_iff_eq_none]
  intro hsegment
  have hopen := h.segment? hsegment
  rw [hvariant] at hopen
  cases hopen

/-! ## What reading does to the records -/

/-- What reading does to the records, of which it opens `n`: a record that closes yields all of its
units or is counted as skipped, and nothing is left of a record that has yielded units. -/
structure Accounts (reading : Reading) (s : DocumentState) (n : Nat)
    (p : DocumentState × List TranslationUnit) : Prop where
  isNested : p.1.IsNested
  balance : (if !p.2.isEmpty then 1 else 0) + p.1.skipped + p.1.openRecords =
    n + s.skipped + s.openRecords
  units : p.2 ≠ [] →
    (∃ r, s.closing? = some r ∧
      p.2 = r.units reading.request reading.fileName s.sourceLanguage?) ∧
    p.1.variant? = none ∧ ∀ r ∈ p.1.record?, r.variants = []

/-- Nothing closes, and nothing is opened. -/
theorem Accounts.of_silent (hnested : s'.IsNested)
    (hrecord : s'.record?.isSome = s.record?.isSome) (hskipped : s'.skipped = s.skipped) :
    Accounts reading s 0 (s', []) := by
  refine ⟨hnested, ?_, fun h => absurd rfl h⟩
  simp only [openRecords, hrecord, hskipped, List.isEmpty_nil, Bool.not_true, Bool.false_eq_true,
    if_false]

/-- The same is open as before. -/
theorem Accounts.of_same (h : s.IsNested) (hrecord : s'.record?.isSome = s.record?.isSome)
    (hvariant : s'.variant?.isSome = s.variant?.isSome)
    (hsegment : s'.segment?.isSome = s.segment?.isSome) (hskipped : s'.skipped = s.skipped) :
    Accounts reading s 0 (s', []) := by
  refine .of_silent ⟨?_, ?_⟩ hrecord hskipped
  · rw [hsegment, hvariant]
    exact h.segment?
  · rw [hvariant, hrecord]
    exact h.variant?

theorem openRecords_stored (s : DocumentState) : s.stored.openRecords = s.openRecords := by
  rw [openRecords, openRecords, record?_stored]

/-- Where nothing closes, it makes no difference whether the open segment is stored. -/
theorem Accounts.stored (h : Accounts reading s 0 (s', [])) :
    Accounts reading s.stored 0 (s', []) := by
  refine ⟨h.isNested, ?_, fun hne => absurd rfl hne⟩
  rw [skipped_stored, openRecords_stored]
  exact h.balance

/-- A state may be replaced by one that has the same record and has counted the same. -/
theorem Accounts.of_eq (h : Accounts reading s' n p) (hclosing : s'.closing? = s.closing?)
    (hskipped : s'.skipped = s.skipped) (hlanguage : s'.sourceLanguage? = s.sourceLanguage?) :
    Accounts reading s n p := by
  have hrecord : s'.record?.isSome = s.record?.isSome := by
    have hsome := congrArg Option.isSome hclosing
    rwa [closing?, closing?, Option.isSome_map, Option.isSome_map] at hsome
  obtain ⟨hnested, hbalance, hunits⟩ := h
  rw [openRecords.eq_1 s', hrecord, hskipped] at hbalance
  rw [hclosing, hlanguage] at hunits
  exact ⟨hnested, hbalance, hunits⟩

theorem isNested_of_none (hvariant : s.variant? = none) (hsegment : s.segment? = none) :
    s.IsNested := by
  constructor <;> simp [hvariant, hsegment]

/-! ### Closing -/

/-- A record that closes yields its units, or is counted. -/
theorem accounts_closeRecord (h : s.IsNested) : Accounts reading s 0 (s.closeRecord reading) := by
  unfold closeRecord
  split
  · exact .of_silent h rfl rfl
  · rename_i r hr
    have hclosing : s.closing? = some (withVariant r s.variant?) := by rw [closing?, hr]; rfl
    refine ⟨isNested_of_none rfl rfl, ?_, fun _ => ⟨⟨_, hclosing, rfl⟩, rfl, by simp⟩⟩
    simp only [openRecords, hr, Option.isSome_some, Option.isSome_none, if_true]
    cases ((withVariant r s.variant?).units reading.request reading.fileName
        s.sourceLanguage?).isEmpty with
    | true =>
      simp only [Bool.not_true, Bool.false_eq_true, if_false, if_true]
      omega
    | false =>
      simp only [Bool.not_false, Bool.false_eq_true, if_false, if_true]
      omega

theorem accounts_closeOverdue (reading : Reading) (h : s.IsNested) :
    Accounts reading s 0 (s.closeOverdue reading) := by
  unfold closeOverdue
  split
  · have hrecovered : s.recover.IsNested := ⟨h.segment?, h.variant?⟩
    exact (accounts_closeRecord hrecovered).of_eq rfl rfl rfl
  · exact .of_silent h rfl rfl

/-- Nothing is open behind a record that had to be closed, nor if there was none. -/
theorem closed_closeOverdue (reading : Reading) (h : s.IsNested) :
    (s.closeOverdue reading).1.record? = none ∧ (s.closeOverdue reading).1.variant? = none ∧
      (s.closeOverdue reading).1.segment? = none := by
  unfold closeOverdue
  cases hr : s.record? with
  | none =>
    have hvariant := h.variant?_eq_none hr
    simp only [Option.isSome_none, Bool.false_eq_true, if_false]
    exact ⟨hr, hvariant, h.segment?_eq_none hvariant⟩
  | some r =>
    simp only [Option.isSome_some, if_true, closeRecord, recover, hr]
    exact ⟨trivial, trivial, trivial⟩

theorem isNested_closeSegment (h : s.IsNested) (raw : Text) : (s.closeSegment raw).IsNested := by
  refine ⟨fun hsegment => absurd hsegment Bool.false_ne_true, fun hvariant => h.variant? ?_⟩
  rwa [closeSegment, Option.isSome_map] at hvariant

theorem accounts_closeProperty (h : s.IsNested) :
    Accounts reading s 0 (s.closeProperty, []) := by
  unfold closeProperty
  split
  · exact .of_silent h rfl rfl
  · simp only
    -- The property is put into the variant or the record, which stays open.
    split
    · rename_i v hv
      refine .of_silent ⟨fun _ => rfl, fun _ => h.variant? (by rw [hv]; rfl)⟩ rfl rfl
    · rename_i hv
      refine .of_silent ⟨h.segment?, fun hvariant => ?_⟩ Option.isSome_map rfl
      exact absurd hvariant (by simp [hv])

theorem accounts_closeVariant (hsegment : s.segment? = none) :
    Accounts reading s 0 (s.closeVariant, []) :=
  .of_silent (isNested_of_none rfl hsegment) Option.isSome_map rfl

/-! ### Opening -/

/-- A record without variants has no units. -/
theorem units_of_no_variants (h : r.variants = []) (request : Import) (fileName : Text)
    (language? : Option Text) : r.units request fileName language? = [] := by
  have hsides : r.sides = [] := by rw [Record.sides, h, List.filterMap_nil]
  have hpairs : sidePairs request.pairs language? [] = [] := by
    unfold sidePairs
    split
    · simp [sideIn?]
    · cases language? <;> rfl
  rw [Record.units, hsides, hpairs, List.map_nil]

/-- A record that is overdue closes before the new one opens, and an empty one closes at once. -/
theorem accounts_openRecord (h : s.IsNested) (content : List Glyph) (isEmpty : Bool) :
    Accounts reading s 1 (s.openRecord reading content isEmpty) := by
  obtain ⟨hnested, hbalance, hunits⟩ := accounts_closeOverdue reading h
  obtain ⟨hrecord, hvariant, hsegment⟩ := closed_closeOverdue reading h
  unfold openRecord
  simp only
  simp only [openRecords, hrecord, Option.isSome_none, Bool.false_eq_true, if_false] at hbalance
  split
  · simp only [closeRecord, hvariant, withVariant, Option.toList_none, List.append_nil]
    rw [units_of_no_variants rfl, List.append_nil]
    refine ⟨isNested_of_none rfl rfl, ?_, fun hne => ⟨(hunits hne).1, rfl, by simp⟩⟩
    simp only [openRecords, Option.isSome_none, Bool.false_eq_true, if_false, List.isEmpty_nil,
      if_true]
    omega
  · refine ⟨isNested_of_none hvariant hsegment, ?_, fun hne => ⟨(hunits hne).1, hvariant, ?_⟩⟩
    · simp only [openRecords, Option.isSome_some, if_true]
      omega
    · rintro r ⟨⟩
      rfl

theorem accounts_openVariant (h : s.IsNested) (hsegment : s.segment? = none)
    (content : List Glyph) (isEmpty : Bool) :
    Accounts reading s 0 (s.openVariant content isEmpty, []) := by
  unfold openVariant
  split
  · exact .of_silent h rfl rfl
  · rename_i r hr
    have hopen : (some r).isSome = s.record?.isSome := by rw [hr]
    simp only
    split
    · exact .of_silent (isNested_of_none rfl hsegment) hopen rfl
    · exact .of_silent ⟨fun _ => rfl, fun _ => rfl⟩ hopen rfl

theorem accounts_openSegment (h : s.IsNested) (isEmpty : Bool) :
    Accounts reading s 0 (s.openSegment isEmpty, []) := by
  unfold openSegment
  split
  · exact .of_silent h rfl rfl
  · rename_i hvariant
    split
    · exact .of_silent (isNested_closeSegment h []) rfl rfl
    · refine .of_silent ⟨fun _ => ?_, h.variant?⟩ rfl rfl
      simpa [Option.isSome_iff_ne_none] using hvariant

/-! ### Events -/

/-- Of the start tags only that of a record opens one. -/
theorem accounts_openElement (h : s.IsNested) (hsegment : s.segment? = none)
    (content : List Glyph) (isEmpty : Bool) :
    Accounts reading s (if Xml.contentName content = Xml.word "tu" then 1 else 0)
      (s.openElement reading content isEmpty) := by
  by_cases hrecord : Xml.contentName content = Xml.word "tu"
  · rw [if_pos hrecord, openElement_tu isEmpty hrecord]
    exact accounts_openRecord h content isEmpty
  -- One case for each other name with a meaning, in the order in which they are looked for.
  rw [if_neg hrecord]
  unfold openElement
  simp only [hrecord, if_false]
  split
  · exact .of_same h rfl rfl rfl rfl
  split
  · exact .of_same h rfl rfl rfl rfl
  split
  · exact accounts_openVariant h hsegment content isEmpty
  split
  · exact .of_same h rfl rfl rfl rfl
  split
  · exact accounts_openSegment h isEmpty
  · exact .of_silent h rfl rfl

theorem accounts_closeElement (h : s.IsNested) (hsegment : s.segment? = none)
    (name : List Glyph) : Accounts reading s 0 (s.closeElement reading name) := by
  unfold closeElement
  split
  · exact accounts_closeProperty h
  split
  · exact accounts_closeVariant hsegment
  split
  · exact accounts_closeRecord h
  split
  · exact accounts_closeOverdue reading h
  · exact .of_silent h rfl rfl

/-- What an open segment takes as content closes nothing. -/
theorem accounts_inSegment (h : s.IsNested) {g : OpenSegment} (hg : s.segment? = some g)
    (g' : OpenSegment) : Accounts reading s.stored 0 ({ s with segment? := some g' }, []) :=
  .stored (.of_same h rfl rfl (by rw [hg]; rfl) rfl)

/-- An end tag in a segment is content, or the content is stored before anything closes. -/
theorem accounts_closeInSegment (h : s.IsNested) {g : OpenSegment} (hg : s.segment? = some g)
    (name : List Glyph) : Accounts reading s.stored 0 (s.closeInSegment reading name g) := by
  have hstored : s.stored = s.closeSegment g.raw := by rw [stored, hg]
  have hclosed := isNested_closeSegment h g.raw
  unfold closeInSegment
  simp only
  split
  · exact accounts_inSegment h hg _
  split
  · exact accounts_inSegment h hg _
  rw [hstored]
  split
  · exact .of_silent hclosed rfl rfl
  · have hrecovered : (s.closeSegment g.raw).recover.IsNested :=
      ⟨hclosed.segment?, hclosed.variant?⟩
    exact (accounts_closeElement hrecovered rfl name).of_eq rfl rfl rfl

theorem accounts_addText (h : s.IsNested) (inSegment inProperty : Text) :
    Accounts reading s.stored 0 (s.addText inSegment inProperty, []) := by
  unfold addText
  split
  · rename_i g hg
    exact accounts_inSegment h hg _
  · exact .stored (.of_same h rfl rfl rfl rfl)

/-- **One event**: a record opens only by its own tag outside segments, and a record that closes
yields its units or is counted. -/
theorem accounts_step (h : s.IsNested) (e : Xml.Event) :
    Accounts reading s.stored (if s.opens (.event e) then 1 else 0) (s.step reading e) := by
  cases hsegment : s.segment? with
  | some g =>
    cases e with
    | start content | empty content =>
      simp only [step, opens, hsegment]
      exact accounts_inSegment h hsegment _
    | stop name =>
      simp only [step, opens, hsegment]
      exact accounts_closeInSegment h hsegment name
    | text raw | data raw => exact accounts_addText h _ _
    | other => exact .stored (.of_same h rfl rfl rfl rfl)
  | none =>
    cases e with
    | start content | empty content =>
      simp only [step, opens, hsegment, Option.isNone_none, Bool.true_and, beq_iff_eq]
      rw [stored_of_none hsegment]
      exact accounts_openElement h hsegment content _
    | stop name =>
      simp only [step, opens, hsegment]
      rw [stored_of_none hsegment]
      exact accounts_closeElement h hsegment name
    | text raw | data raw => exact accounts_addText h _ _
    | other => exact .stored (.of_same h rfl rfl rfl rfl)

/-- One item; a fault does nothing to the records. -/
theorem accounts_readItem (reading : Reading) (h : s.IsNested) (item : Xml.Item) :
    Accounts reading s.stored (if s.opens item then 1 else 0) (s.readItem reading item) := by
  cases item with
  | event e => exact accounts_step h e
  | illFormed | syntaxError => exact .stored (.of_same h rfl rfl rfl rfl)

/-! ## Whole documents -/

theorem accounts_finish (h : s.IsNested) : Accounts reading s 0 (s.finish reading) := by
  obtain ⟨hnested, hbalance, hunits⟩ := accounts_closeOverdue reading h
  exact ⟨⟨hnested.segment?, hnested.variant?⟩, hbalance, hunits⟩

theorem isNested_after (reading : Reading) (h : s.IsNested) (items : List Xml.Item) :
    (s.after reading items).IsNested := by
  induction items generalizing s with
  | nil => exact h
  | cons item rest ih => exact ih (accounts_readItem reading h item).isNested

/-- Every passage accounts for its records. -/
theorem accounts_of_mem_allPassages (h : s.IsNested) {items : List Xml.Item} {p : Passage}
    (hp : p ∈ s.allPassages reading items) :
    Accounts reading p.closing (if p.opens then 1 else 0) (p.next, p.units) := by
  induction items generalizing s with
  | nil =>
    rw [allPassages, passages, List.nil_append, List.mem_singleton] at hp
    subst hp
    exact accounts_finish h
  | cons item rest ih =>
    rw [allPassages, passages, List.cons_append] at hp
    rcases List.mem_cons.mp hp with rfl | hp
    · exact accounts_readItem reading h item
    · exact ih (accounts_readItem reading h item).isNested hp

/-- Of the records that were open or opened, each is still open, has yielded units or was
counted. -/
theorem balance_passages (reading : Reading) (h : s.IsNested) (items : List Xml.Item) :
    (s.passages reading items).countP Passage.yields +
        (s.after reading items).skipped + (s.after reading items).openRecords =
      (s.passages reading items).countP Passage.opens + s.skipped + s.openRecords := by
  induction items generalizing s with
  | nil => simp [passages, after]
  | cons item rest ih =>
    have hitem := accounts_readItem reading h item
    have hrest := ih (s := (s.passage reading item).next) hitem.isNested
    -- The units that an item yields are those of one record, so they count once.
    have hfirst : (if (s.passage reading item).yields then 1 else 0) +
        (s.passage reading item).next.skipped + (s.passage reading item).next.openRecords =
          (if (s.passage reading item).opens then 1 else 0) + s.stored.skipped +
            s.stored.openRecords := hitem.balance
    rw [skipped_stored, openRecords_stored] at hfirst
    rw [passages, after, List.countP_cons, List.countP_cons]
    omega

/-- **All records are accounted for**, whatever is read.  What is open stands in what has to be open
around it, and the records that were opened are those that have yielded units, those that were
skipped, and the one that may be open.  At the end of the input nothing is open any more.  Units are
those of the record that was open, and nothing of it is left behind. -/
theorem opened_eq_yielded_add_skipped (reading : Reading) (items : List Xml.Item) :
    (after reading {} items).IsNested ∧
      (passages reading {} items).countP Passage.opens =
        (passages reading {} items).countP Passage.yields + (after reading {} items).skipped +
          (after reading {} items).openRecords ∧
      ((finished reading items).record? = none ∧ (finished reading items).variant? = none ∧
        (finished reading items).segment? = none) ∧
      (allPassages reading {} items).countP Passage.opens =
        (allPassages reading {} items).countP Passage.yields + (finished reading items).skipped ∧
      ∀ p ∈ allPassages reading {} items, p.units ≠ [] →
        (∃ r, p.closing.closing? = some r ∧
          p.units = r.units reading.request reading.fileName p.closing.sourceLanguage?) ∧
        p.next.variant? = none ∧ ∀ r ∈ p.next.record?, r.variants = [] := by
  have hstart : ({} : DocumentState).IsNested := isNested_of_none rfl rfl
  have hnested := isNested_after reading hstart items
  have hbalance : (passages reading {} items).countP Passage.opens =
      (passages reading {} items).countP Passage.yields + (after reading {} items).skipped +
        (after reading {} items).openRecords :=
    (balance_passages reading hstart items).symm
  have hclosed := closed_closeOverdue reading hnested
  refine ⟨hnested, hbalance, hclosed, ?_, fun p hp => (accounts_of_mem_allPassages hstart hp).units⟩
  -- The end of the input opens no record, and the one that is open yields its units or is counted.
  have hlast : (if ((after reading {} items).lastPassage reading).yields then 1 else 0) +
      (finished reading items).skipped + (finished reading items).openRecords =
        0 + (after reading {} items).skipped + (after reading {} items).openRecords :=
    (accounts_finish hnested).balance
  have hopens : ((after reading {} items).lastPassage reading).opens = false := rfl
  have hnone : (finished reading items).openRecords = 0 := by
    rw [openRecords, finished, finish, hclosed.1]
    rfl
  rw [allPassages, List.countP_append, List.countP_append, List.countP_singleton,
    List.countP_singleton, hopens]
  simp only [Bool.false_eq_true, if_false]
  omega

end DocumentState

end Bitext.Tmx
