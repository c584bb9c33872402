import Bitext.Proofs.Markup.Projection
import Bitext.Proofs.Markup.Runs

/-!
# Reading what was written

A written tree is read as the same tree, in both readings.  Its names have to be such that a tag can
hold them, as identifiers are, and its texts and tails must not hold an opening bracket; nothing is
asked of closing brackets, quotation marks and blanks in them.  What is lost is a byte order mark at
the start, so of these trees just those are not read back whose written form begins with one.

## Main results

* `isTagName_of_isIdentifier`: identifiers are names that a tag can hold
* `Element.parse_markup_iff`: which written trees are read back
-/

namespace Bitext.Markup

open Bitext.Xml (IsTagName)

variable {name : Text} {f : Forest} {e : Element}

/-- **Identifiers are names that a tag can hold.** -/
theorem isTagName_of_isIdentifier (h : isIdentifier name = true) : IsTagName name := by
  cases name with
  | nil => cases h
  | cons c rest =>
    obtain ⟨hstart, hrest⟩ := Bool.and_eq_true_iff.mp h
    have hall : ∀ d ∈ c :: rest, isNamePart d = true := by
      refine List.forall_mem_cons.mpr ⟨?_, List.all_eq_true.mp hrest⟩
      simp [isNamePart, hstart]
    exact .of_all (List.cons_ne_nil c rest) hall (by decide)

theorem Forest.isNamed_iff : f.IsNamed ↔ ∀ name ∈ f.names, IsTagName name := by
  induction f with
  | nil => simp [IsNamed, names]
  | cons name text children tail rest ihc ihr =>
    rw [IsNamed, names, List.forall_mem_cons, List.forall_mem_append, ihc, ihr]

/-- **A written tree is read as the same tree**, in both readings, exactly if it does not begin with
a byte order mark. -/
theorem Element.parse_markup_iff (hname : e.name = []) (htail : e.tail = [])
    (hnames : ∀ name ∈ e.children.names, isIdentifier name = true)
    (htexts : ∀ t ∈ e.texts, '<' ∉ t) (reading : Reading) :
    parse reading e.markup = .tree e ↔ e.markup.head? ≠ some '\uFEFF' := by
  obtain ⟨_, text, children, _⟩ := e
  subst hname htail
  have hopen : ∀ t ∈ text :: children.texts, ∀ c ∈ t, c ≠ '<' := by
    rintro t ht c hc rfl
    exact htexts t ht hc
  obtain ⟨htext, hchildren⟩ := List.forall_mem_cons.mp hopen
  have hnamed : children.IsNamed :=
    Forest.isNamed_iff.mpr fun name hname => isTagName_of_isIdentifier (hnames name hname)
  have hparse : parse reading (text ++ children.print) =
      .tree ⟨[], withoutMark text, children, []⟩ :=
    parse_append_print htext (Forest.isReadable_iff.mpr hchildren) hnamed
  rw [Element.markup, hparse, ← withoutMark_eq_self_iff_append_print]
  simp

/-- An element inside another, between texts with blanks, a bracket and a quotation mark, and one
that is empty. -/
def nestedTree : Element :=
  ⟨[], "Hello ".toList,
    .cons ['b'] "big > ".toList (.cons "i-1.x".toList "bo'ld".toList .nil [] .nil) " world".toList
      (.cons "_br".toList [] .nil ['!'] .nil), []⟩

theorem parse_markup_nestedTree :
    nestedTree.name = [] ∧ nestedTree.tail = [] ∧
      (∀ name ∈ nestedTree.children.names, isIdentifier name = true) ∧
      (∀ t ∈ nestedTree.texts, '<' ∉ t) ∧ nestedTree.markup.head? ≠ some '\uFEFF' ∧
      parse .strict nestedTree.markup = .tree nestedTree ∧
      parse .recovering nestedTree.markup = .tree nestedTree := by
  have hnames : ∀ name ∈ nestedTree.children.names, isIdentifier name = true := by decide
  have htexts : ∀ t ∈ nestedTree.texts, '<' ∉ t := by decide
  have hmark : nestedTree.markup.head? ≠ some '\uFEFF' := by decide
  exact ⟨rfl, rfl, hnames, htexts, hmark,
    (Element.parse_markup_iff rfl rfl hnames htexts .strict).mpr hmark,
    (Element.parse_markup_iff rfl rfl hnames htexts .recovering).mpr hmark⟩

end Bitext.Markup
