import Bitext.Score.Basic
import Bitext.Unit.Basic

/-!
# Adjusted scores and the best candidate

Candidates carry a score from 0 to 100.  A candidate outside the preferred domains loses a fraction
of its score and some points more, a dirty one loses points if that was asked for, and the result is
kept between 0 and 100.  The best candidate is the first one that reaches 100, or else the first of
those with the greatest score.
-/
namespace Bitext

/-- A unit with its score before adjustment. -/
structure Candidate (α : Type) where
  unit : TranslationUnit
  score : α

/-- The points that candidates lose. -/
structure Penalties (α : Type) where
  /-- Points lost outside the preferred domains. -/
  domain : α
  /-- Points lost by dirty candidates. -/
  dirty : α
  /-- The number of failed checks that makes a candidate dirty. -/
  dirtyThreshold : Nat

/-- What a query prefers. -/
structure Preferences where
  /-- The preferred domains; nothing or an empty list prefers none. -/
  domains? : Option (List Text) := none
  penalizeDirty : Bool := false
  deriving DecidableEq, Repr

namespace Preferences

/-- The unit belongs to a preferred domain, or no domain is preferred. -/
def suits (p : Preferences) (u : TranslationUnit) : Bool :=
  match p.domains? with
  | none => true
  | some domains => domains.isEmpty || u.hasAnyDomain domains

end Preferences

section Adjustment

variable {α : Type} [Score α]

/-- The candidate has failed enough checks to be dirty. -/
def Penalties.marksDirty (p : Penalties α) (u : TranslationUnit) : Bool :=
  u.failedChecks?.any (p.dirtyThreshold ≤ ·)

/-- The score of a candidate after adjustment; `fraction` is the part lost outside the preferred
domains. -/
def Penalties.adjust (p : Penalties α) (preferences : Preferences) (fraction : α)
    (c : Candidate α) : α :=
  let score :=
    if preferences.suits c.unit then c.score
    else c.score * (Score.ofNat 1 - fraction) - p.domain
  let score :=
    if preferences.penalizeDirty && p.marksDirty c.unit then score - p.dirty else score
  Score.clamp (Score.ofNat 0) (Score.ofNat 100) score

end Adjustment

/-! ## Selection -/

/-- A chosen candidate: its place in the list and its score, and whether the search ended on it
because nothing can be better. -/
structure Selection (α : Type) where
  index : Nat
  score : α
  isPerfect : Bool

section Selecting

variable {α β : Type} [Score α]

/-- The best of the candidate chosen so far and the next one. -/
def Selection.best (chosen? : Option (Selection α)) (index : Nat) (score : α) : Selection α :=
  match chosen? with
  | none => ⟨index, score, false⟩
  | some chosen => if Score.lt chosen.score score then ⟨index, score, false⟩ else chosen

/-- Goes on with the candidates from place `index` on; the second component counts the candidates
that were scored. -/
def selectFrom (score : β → α) (chosen? : Option (Selection α)) (index : Nat) :
    List β → Option (Selection α) × Nat
  | [] => (chosen?, 0)
  | c :: rest =>
    let s := score c
    if Score.le (Score.ofNat 100) s then (some ⟨index, s, true⟩, 1)
    else
      let (selection?, scored) :=
        selectFrom score (some (Selection.best chosen? index s)) (index + 1) rest
      (selection?, scored + 1)

/-- The best candidate under a score function, and how many candidates were scored to find it. -/
def select (score : β → α) (candidates : List β) : Option (Selection α) × Nat :=
  selectFrom score none 0 candidates

end Selecting

/-! ## Matches -/

/-- What a query answers with: the texts of a unit, the final score, and where the unit is from. -/
structure Match (α : Type) where
  source : Text
  target : Text
  score : α
  sourceProperties : Properties := .empty
  targetProperties : Properties := .empty
  domains : List Text := []
  fileName? : Option Text := none

/-- The match for a unit. -/
def Match.ofUnit {α : Type} (u : TranslationUnit) (score : α) : Match α :=
  ⟨u.sourceText, u.targetText, score, u.sourceProperties, u.targetProperties, u.domains,
    u.fileName?⟩

/-- The match for the best candidate by adjusted score. -/
def Penalties.bestMatch? {α : Type} [Score α] (p : Penalties α) (preferences : Preferences)
    (fraction : α) (candidates : List (Candidate α)) : Option (Match α) := do
  let selection ← (select (p.adjust preferences fraction) candidates).1
  let c ← candidates[selection.index]?
  return .ofUnit c.unit selection.score

end Bitext
