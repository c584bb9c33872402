import Bitext.Proofs.Markup.Content
import Bitext.Proofs.Markup.Projection

/-!
# The recovering reading

Where the strict reading goes on, the recovering one does the same: a closing tag that names the
innermost element closes it, and nothing is left to close at the end.  Where the strict reading
stops, the recovering one goes on, so it makes a tree of every sequence of events.  Whatever a
closing tag closes, the outline of the tree is that of the events: it has one element for each event
that begins one, and all text.  Only a text that cannot be cut into events is read as no tree.

## Main results

* `treeOf?_recovering_of_strict`: a tree that is read strictly is read in recovery as well
* `exists_treeOf?_recovering`: recovery makes a tree of every sequence of events
* `treeOf?_eq_none_of_fault`: no reading gets past a fault
* `parse_recovering_extends_strict`: what the recovering reading does with every text
-/

namespace Bitext.Markup

open Bitext.Unicode (Glyph)

variable {name : Text} {reading : Reading} {root : Element} {items : List Xml.Item}

/-! ## What the strict reading does -/

namespace TreeBuilder

variable {b b' : TreeBuilder} {e : Xml.Event}

theorem close_recovering_of_strict (h : b.close .strict name = some b') :
    b.close .recovering name = some b' := by
  obtain ⟨top, around⟩ := b
  cases around with
  | nil => cases h
  | cons parent outer =>
    rw [close_strict_cons] at h
    split at h
    · rename_i htop
      cases h
      rw [← htop]
      exact close_top ⟨parent, outer⟩ top
    · cases h

/-- Only closing tags are read differently. -/
theorem step_recovering_of_strict (h : b.step .strict e = some b') :
    b.step .recovering e = some b' := by
  cases e with
  | stop name => exact close_recovering_of_strict h
  | start content | empty content | text raw | data raw | other => exact h

theorem run_recovering_of_strict (h : b.run .strict items = some b') :
    b.run .recovering items = some b' := by
  induction items generalizing b with
  | nil => exact h
  | cons item items ih =>
    cases item with
    | event e =>
      obtain ⟨next, hnext, hrest⟩ := Option.bind_eq_some_iff.mp h
      exact Option.bind_eq_some_iff.mpr ⟨next, step_recovering_of_strict hnext, ih hrest⟩
    | illFormed | syntaxError => cases h

theorem finish_recovering_of_strict (h : b.finish .strict = some root) :
    b.finish .recovering = some root := by
  unfold finish at h
  split at h
  · cases h
  · cases h
    rfl

end TreeBuilder

/-- **A tree that is read strictly is read in recovery as well.** -/
theorem treeOf?_recovering_of_strict (h : treeOf? .strict items = some root) :
    treeOf? .recovering items = some root := by
  obtain ⟨b, hrun, hfinish⟩ := Option.bind_eq_some_iff.mp h
  exact Option.bind_eq_some_iff.mpr ⟨b, TreeBuilder.run_recovering_of_strict hrun,
    TreeBuilder.finish_recovering_of_strict hfinish⟩

/-! ## What the recovering reading does -/

namespace TreeBuilder

/-- No event stops the recovery. -/
theorem exists_step_recovering (b : TreeBuilder) (e : Xml.Event) :
    ∃ b', b.step .recovering e = some b' := by
  cases e with
  | stop name =>
    rw [step, close.eq_def]
    cases b.openNames.idxOf? (Glyph.shown name) with
    | none => exact ⟨b, rfl⟩
    | some depth => exact ⟨_, rfl⟩
  | start content | empty content | text raw | data raw | other => exact ⟨_, rfl⟩

theorem exists_run_recovering (b : TreeBuilder) (events : List Xml.Event) :
    ∃ b', b.run .recovering (events.map .event) = some b' := by
  induction events generalizing b with
  | nil => exact ⟨b, rfl⟩
  | cons e events ih =>
    obtain ⟨next, hnext⟩ := b.exists_step_recovering e
    obtain ⟨b', hrest⟩ := ih next
    exact ⟨b', Option.bind_eq_some_iff.mpr ⟨next, hnext, hrest⟩⟩

theorem exists_readPieces_recovering (b : TreeBuilder) (ps : List Piece) :
    ∃ b', b.readPieces .recovering ps = some b' := by
  induction ps generalizing b with
  | nil => exact ⟨b, rfl⟩
  | cons p ps ih =>
    have hpiece : ∃ next, b.readPiece .recovering p = some next := by
      cases p with
      | char c => exact ⟨_, rfl⟩
      | tag body => exact b.exists_step_recovering _
    obtain ⟨next, hnext⟩ := hpiece
    obtain ⟨b', hrest⟩ := ih next
    exact ⟨b', Option.bind_eq_some_iff.mpr ⟨next, hnext, hrest⟩⟩

theorem run_eq_none_of_fault (h : .illFormed ∈ items ∨ .syntaxError ∈ items) (b : TreeBuilder) :
    b.run reading items = none := by
  induction items generalizing b with
  | nil => simp at h
  | cons item items ih =>
    cases item with
    | event e =>
      have hrest : .illFormed ∈ items ∨ .syntaxError ∈ items := by simpa using h
      rw [run]
      cases b.step reading e with
      | none => rfl
      | some next => exact ih hrest next
    | illFormed | syntaxError => rfl

/-- The root has no tail. -/
theorem tail_of_finish {b : TreeBuilder} (h : b.finish reading = some root) : root.tail = [] := by
  unfold finish at h
  split at h
  · cases h
  · cases h
    rfl

end TreeBuilder

/-- **Recovery makes a tree of every sequence of events**, whichever elements they open and
close. -/
theorem exists_treeOf?_recovering (events : List Xml.Event) :
    ∃ root, treeOf? .recovering (events.map .event) = some root := by
  obtain ⟨b, hrun⟩ := TreeBuilder.initial.exists_run_recovering events
  exact ⟨_, Option.bind_eq_some_iff.mpr ⟨b, hrun, rfl⟩⟩

/-- **No reading gets past a fault.** -/
theorem treeOf?_eq_none_of_fault (h : .illFormed ∈ items ∨ .syntaxError ∈ items) :
    treeOf? reading items = none := by
  rw [treeOf?, TreeBuilder.run_eq_none_of_fault h]
  rfl

/-- Items without a fault are events. -/
theorem exists_eq_map_event (h : .illFormed ∉ items) (h' : .syntaxError ∉ items) :
    ∃ events : List Xml.Event, items = events.map .event := by
  induction items with
  | nil => exact ⟨[], rfl⟩
  | cons item items ih =>
    obtain ⟨hne, hrest⟩ := not_or.mp (mt List.mem_cons.mpr h)
    obtain ⟨hne', hrest'⟩ := not_or.mp (mt List.mem_cons.mpr h')
    obtain ⟨events, rfl⟩ := ih hrest hrest'
    cases item with
    | event e => exact ⟨e :: events, rfl⟩
    | illFormed => exact absurd rfl hne
    | syntaxError => exact absurd rfl hne'

/-- Recovery fails on faults only. -/
theorem treeOf?_recovering_eq_none_iff :
    treeOf? .recovering items = none ↔ .illFormed ∈ items ∨ .syntaxError ∈ items := by
  refine ⟨fun hnone => ?_, treeOf?_eq_none_of_fault⟩
  by_contra hfault
  obtain ⟨hwell, hsyntax⟩ := not_or.mp hfault
  obtain ⟨events, rfl⟩ := exists_eq_map_event hwell hsyntax
  obtain ⟨root, hroot⟩ := exists_treeOf?_recovering events
  rw [hroot] at hnone
  cases hnone

/-- **The tree of a sequence of events** has no name and no tail at its root, one element for each
event that begins one, and all characters, in order. -/
theorem tree_of_events {events : List Xml.Event}
    (h : treeOf? reading (events.map .event) = some root) :
    root.name = [] ∧ root.tail = [] ∧
      root.children.names = events.filterMap Xml.Event.name? ∧
      root.content = events.flatMap Xml.Event.characters := by
  have houtline := outline_of_treeOf? h
  have hnames := root.filterMap_body?_outline
  rw [houtline, filterMap_body?_tag, Xml.Event.filterMap_body?_flatMap_outline] at hnames
  obtain ⟨hname, hchildren⟩ := List.cons.inj hnames
  have hcontent := root.filterMap_char?_outline
  rw [houtline, filterMap_char?_tag, Xml.Event.filterMap_char?_flatMap_outline] at hcontent
  obtain ⟨b, -, hfinish⟩ := Option.bind_eq_some_iff.mp h
  exact ⟨hname.symm, TreeBuilder.tail_of_finish hfinish, hchildren.symm, hcontent.symm⟩

/-- **The recovering reading extends the strict one.**  It reads the same tree where the strict one
reads a tree, and has no tree only for a text that cannot be cut into events.  Of every sequence of
events, whichever closing tags are missing, stray or out of order, it makes a tree with one element
for each event that begins one, in order, and all text, in order. -/
theorem parse_recovering_extends_strict :
    (∀ t root, parse .strict t = .tree root → parse .recovering t = .tree root) ∧
      (∀ t plain, parse .recovering t = .degraded plain ↔
        plain = strip t ∧ (.illFormed ∈ Xml.items (Glyph.ofText t) ∨
          .syntaxError ∈ Xml.items (Glyph.ofText t))) ∧
      ∀ events : List Xml.Event, ∃ root,
        treeOf? .recovering (events.map .event) = some root ∧ root.name = [] ∧ root.tail = [] ∧
          root.children.names = events.filterMap Xml.Event.name? ∧
          root.content = events.flatMap Xml.Event.characters ∧
          root.outline = .tag [] :: events.flatMap Xml.Event.outline := by
  refine ⟨fun t root hstrict => ?_, fun t plain => ?_, fun events => ?_⟩
  · exact parse_eq_tree_iff.mpr (treeOf?_recovering_of_strict (parse_eq_tree_iff.mp hstrict))
  · rw [← treeOf?_recovering_eq_none_iff, parse]
    cases treeOf? .recovering (Xml.items (Glyph.ofText t)) with
    | none => simp [eq_comm]
    | some root => simp
  · obtain ⟨root, hroot⟩ := exists_treeOf?_recovering events
    obtain ⟨hname, htail, hnames, hcontent⟩ := tree_of_events hroot
    exact ⟨root, hroot, hname, htail, hnames, hcontent, outline_of_treeOf? hroot⟩

/-- A text with a closing tag that closes nothing, and with a tag that is never closed. -/
def strayTags : Text := "</u>a <b><i>x</b> c".toList

/-- The events of the text. -/
def strayEvents : List Xml.Event :=
  [.stop (Xml.word "u"), .text (Xml.word "a "), .start (Xml.word "b"), .start (Xml.word "i"),
    .text (Xml.word "x"), .stop (Xml.word "b"), .text (Xml.word " c")]

/-- A tag that is closed is read in both ways, and stray tags by recovering only. -/
theorem parse_recovering_stray :
    parse .recovering "a <b>x</b> c".toList =
        .tree ⟨[], "a ".toList, .cons ['b'] ['x'] .nil " c".toList .nil, []⟩ ∧
      parse .strict strayTags = .degraded "a x c".toList ∧
      parse .recovering strayTags ≠ .degraded "a x c".toList ∧
      ∃ root, parse .recovering strayTags = .tree root ∧
        root.children.names = [['b'], ['i']] ∧ root.content = "a x c".toList := by
  obtain ⟨hstrict, hdegraded, hevents⟩ := parse_recovering_extends_strict
  have hitems : Xml.items (Glyph.ofText strayTags) = strayEvents.map .event := by decide +kernel
  refine ⟨hstrict _ _ (by decide +kernel), by decide +kernel, fun hparse => ?_, ?_⟩
  · obtain ⟨-, hfault⟩ := (hdegraded _ _).mp hparse
    rw [hitems] at hfault
    revert hfault
    decide
  · obtain ⟨root, htree, -, -, hnames, hcontent, -⟩ := hevents strayEvents
    rw [← hitems] at htree
    exact ⟨root, parse_eq_tree_iff.mpr htree, hnames, hcontent⟩

end Bitext.Markup
