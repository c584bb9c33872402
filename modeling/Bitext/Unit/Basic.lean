import Bitext.Language
import Bitext.Unit.Digest
import Bitext.Unit.Properties

/-!
# Translation units

A unit is what a translation memory consists of: a text with its translation, their languages, and
where both come from.  Units can be looked at from either side; `reversed` exchanges the sides.
-/
namespace Bitext

/-- A text, its translation, and what is known about them. -/
structure TranslationUnit where
  sourceText : Text
  targetText : Text
  sourceLanguage : Text
  targetLanguage : Text
  /-- The domains the unit belongs to. -/
  domains : List Text := []
  /-- The file the unit was read from. -/
  fileName? : Option Text := none
  identifier? : Option Text := none
  created? : Option Text := none
  changed? : Option Text := none
  industry? : Option Text := none
  kind? : Option Text := none
  organization? : Option Text := none
  properties : Properties := .empty
  sourceProperties : Properties := .empty
  targetProperties : Properties := .empty
  userName? : Option Text := none
  /-- How many checks the unit has failed, if it was checked. -/
  failedChecks? : Option Nat := none
  deriving DecidableEq, Inhabited, Repr

namespace TranslationUnit

/-- The languages of the unit. -/
def pair (u : TranslationUnit) : LanguagePair := .ofCodes u.sourceLanguage u.targetLanguage

/-- Both texts have something visible. -/
def isUsable (u : TranslationUnit) : Bool :=
  !Text.isBlank u.sourceText && !Text.isBlank u.targetText

/-- The unit seen from the other side. -/
def reversed (u : TranslationUnit) : TranslationUnit :=
  { u with
    sourceText := u.targetText
    targetText := u.sourceText
    sourceLanguage := u.targetLanguage
    targetLanguage := u.sourceLanguage
    sourceProperties := u.targetProperties
    targetProperties := u.sourceProperties }

/-- The unit belongs to one of the given domains. -/
def hasAnyDomain (u : TranslationUnit) (domains : List Text) : Bool :=
  u.domains.any domains.contains

/-- The unit as seen from a pair, if it belongs to the pair in either direction. -/
def oriented? (u : TranslationUnit) (pair : LanguagePair) : Option TranslationUnit :=
  if u.pair = pair then some u
  else if u.pair.reversed = pair then some u.reversed
  else none

/-- A key that units with equal texts share: the digest of both texts with a zero byte between
them. -/
def contentKey (u : TranslationUnit) : Text :=
  Digest.sha256 (Unicode.Utf8.encode u.sourceText ++ 0 :: Unicode.Utf8.encode u.targetText)

end TranslationUnit

end Bitext
