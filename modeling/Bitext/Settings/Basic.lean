import Bitext.Job.Export
import Bitext.Score.Selection
import Bitext.Query.Basic

/-!
# Settings

What can be set: penalties, limits, the size of batches, what exported documents say about their
making, and where exports are kept.  Settings are checked in a fixed order, and the first fault is
reported.  The checks are comparisons, so that what is no number fails exactly those that ask for a
range.
-/
namespace Bitext

/-- The settings of a run. -/
structure Settings (α : Type) where
  /-- Points lost outside the preferred domain. -/
  domainPenalty : α
  /-- Points lost by dirty units, if they are penalized. -/
  dirtyPenalty : α
  /-- The part of the score lost outside the preferred domain. -/
  mismatchPenalty : α
  /-- The least score of a match, if a query does not say. -/
  minMatch : α
  candidateLimit : Nat
  concordanceLimit : Nat
  /-- The number of failed checks that makes a unit dirty. -/
  dirtyThreshold : Nat
  /-- How many units are stored or checked at a time. -/
  batchSize : Nat
  /-- What exported documents say about their making. -/
  stamp : Job.ExportStamp
  /-- Where exports are kept, unless in the usual place. -/
  exportRoot? : Option Text

namespace Settings

/-- What exported documents say if nothing is set. -/
def standardStamp : Job.ExportStamp :=
  ⟨"tm-engine".toList, "0.5.1".toList, "pangeatm.tmx".toList⟩

section

variable {α : Type} [Score α]

/-- The settings of a run for which nothing is set. -/
def standard : Settings α where
  domainPenalty := Score.ofNat 5
  dirtyPenalty := Score.ofNat 5
  mismatchPenalty := Score.ofNat 1 / Score.ofNat 5
  minMatch := Score.ofNat 75
  candidateLimit := 10
  concordanceLimit := 10
  dirtyThreshold := 1
  batchSize := 50
  stamp := standardStamp
  exportRoot? := none

/-- The points that candidates lose. -/
def penalties (s : Settings α) : Penalties α := ⟨s.domainPenalty, s.dirtyPenalty, s.dirtyThreshold⟩

/-- The limits and the penalty of an engine. -/
def engineSettings (s : Settings α) : EngineSettings α :=
  ⟨s.mismatchPenalty, s.candidateLimit, s.concordanceLimit⟩

end

/-! ## Checks -/

/-- What can be wrong with settings. -/
inductive Flaw where
  | minMatch
  | mismatchPenalty
  | penalties
  | candidateLimit
  | concordanceLimit
  | batchSize
  | defaultMember
  deriving DecidableEq, Repr

/-- The flaw in words. -/
def Flaw.message : Flaw → Text
  | .minMatch => "query.min_match must be in [0, 100]".toList
  | .mismatchPenalty => "query.mismatch_penalty must be in [0.0, 1.0]".toList
  | .penalties => "query.p_domain and query.p_dirty must be >= 0".toList
  | .candidateLimit => "query.candidate_limit must be >= 1".toList
  | .concordanceLimit => "query.concordance_limit must be >= 1".toList
  | .batchSize => "maintenance.chunk_size must be > 0".toList
  | .defaultMember => "tmx.default_member must not be empty".toList

/-- The number lies between two natural numbers. -/
def isBetween {α : Type} [Score α] (low high : Nat) (x : α) : Bool :=
  Score.le (Score.ofNat low) x && Score.le x (Score.ofNat high)

/-- The number is below zero. -/
def isNegative {α : Type} [Score α] (x : α) : Bool := Score.lt x (Score.ofNat 0)

/-- The first flaw of settings, if there is one. -/
def flaw? {α : Type} [Score α] (s : Settings α) : Option Flaw :=
  if !isBetween 0 100 s.minMatch then some .minMatch
  else if !isBetween 0 1 s.mismatchPenalty then some .mismatchPenalty
  else if isNegative s.domainPenalty || isNegative s.dirtyPenalty then some .penalties
  else if s.candidateLimit = 0 then some .candidateLimit
  else if s.concordanceLimit = 0 then some .concordanceLimit
  else if s.batchSize = 0 then some .batchSize
  else if Text.isBlank s.stamp.defaultMember then some .defaultMember
  else none

end Settings

end Bitext
