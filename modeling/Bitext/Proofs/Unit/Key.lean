import Bitext.Proofs.Unicode.Utf8
import Bitext.Unit.Basic
import Mathlib.Data.List.Basic

/-!
# What a content key tells apart

A content key is a digest of both texts with a zero byte between them.  It tells the texts of units
apart as far as the digest tells bytes apart, and as far as the zero byte shows where the first text
ends.  No text that is free of zero characters is encoded with a zero byte, so for such texts the
digest is all that has to be relied on.

## Main definitions

* `TranslationUnit.keyBytes`: what is digested.
* `TranslationUnit.IsZeroFree`: units without zero characters.
* `CollisionFree`: units of which no two have one digest for different bytes.

## Main results

* `keyBytes_eq_iff`, `contentKey_eq_iff`: units with equal keys have equal texts
-/

namespace Bitext

namespace TranslationUnit

variable {u v : TranslationUnit}

/-- The bytes whose digest is the content key. -/
def keyBytes (u : TranslationUnit) : List UInt8 :=
  Unicode.Utf8.encode u.sourceText ++ 0 :: Unicode.Utf8.encode u.targetText

theorem contentKey_eq (u : TranslationUnit) : u.contentKey = Digest.sha256 u.keyBytes := rfl

/-- Neither text has a zero character. -/
structure IsZeroFree (u : TranslationUnit) : Prop where
  source : '\x00' ∉ u.sourceText
  target : '\x00' ∉ u.targetText

theorem IsZeroFree.reversed (h : u.IsZeroFree) : u.reversed.IsZeroFree := ⟨h.target, h.source⟩

/-- The digested bytes show both texts, if these are free of zero characters. -/
theorem keyBytes_eq_iff (hu : u.IsZeroFree) :
    u.keyBytes = v.keyBytes ↔ u.sourceText = v.sourceText ∧ u.targetText = v.targetText := by
  rw [keyBytes, keyBytes, List.append_cons_inj_of_notMem
    (Unicode.Utf8.zero_notMem_encode hu.source) (Unicode.Utf8.zero_notMem_encode hu.target)]
  constructor
  · rintro ⟨hsource, -, htarget⟩
    exact ⟨Unicode.Utf8.encode_injective hsource, Unicode.Utf8.encode_injective htarget⟩
  · rintro ⟨hsource, htarget⟩
    exact ⟨congrArg _ hsource, rfl, congrArg _ htarget⟩

end TranslationUnit

/-- No two of the units have one digest for different bytes. -/
def CollisionFree (units : List TranslationUnit) : Prop :=
  ∀ u ∈ units, ∀ v ∈ units, u.contentKey = v.contentKey → u.keyBytes = v.keyBytes

/-- **Units with equal keys have equal texts**, if the digest tells their bytes apart. -/
theorem CollisionFree.contentKey_eq_iff {units : List TranslationUnit} (h : CollisionFree units)
    {u v : TranslationUnit} (hu : u ∈ units) (hv : v ∈ units) (hzero : u.IsZeroFree) :
    u.contentKey = v.contentKey ↔ u.sourceText = v.sourceText ∧ u.targetText = v.targetText := by
  rw [← TranslationUnit.keyBytes_eq_iff hzero]
  refine ⟨h u hu v hv, fun hbytes => ?_⟩
  rw [TranslationUnit.contentKey_eq, hbytes, TranslationUnit.contentKey_eq]

end Bitext
