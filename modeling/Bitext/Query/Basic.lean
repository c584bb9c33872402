import Bitext.Memory.Basic
import Bitext.Transfer.Basic

/-!
# Queries

Answers queries from a backend.  Candidates are scored again by their similarity to the query, then
adjusted.  The best match of a query is exact if its adjusted score is perfect, fuzzy if it reaches
the threshold, and too weak otherwise; the concordance of a query is the list of its different
matches.

## Main definitions

* `Query`: the parameters that a list of query texts is asked with.
* `Outcome`: how a single query ended.
* `Engine.answer`: the outcome of a query.
* `Engine.concordance`: all matches above the threshold, one for each target text, best first.
-/
namespace Bitext

/-- How results are written. -/
inductive OutputFormat where
  /-- Structured output. -/
  | json
  /-- A line of source, target and score for each match. -/
  | moses
  deriving DecidableEq, Repr

/-- The parameters of a request with one or more query texts. -/
structure Query (α : Type) where
  texts : List Text
  pair : LanguagePair
  output : OutputFormat
  /-- The greatest number of matches in a concordance. -/
  limit : Nat
  /-- Only units of these domains are retrieved; an empty list means any. -/
  domains : List Text
  /-- Units outside this domain lose points. -/
  preferredDomain? : Option Text
  /-- The least score of a match. -/
  minMatch : α
  /-- Concordances instead of best matches are wanted. -/
  concordance : Bool
  /-- A translation is wanted where there is no match. -/
  automaticTranslation : Bool
  /-- Only units with as many words as the query are retrieved. -/
  exactLength : Bool
  sourceProperties : Properties
  targetProperties : Properties
  penalizeDirty : Bool

namespace Query

variable {α : Type}

/-- What is retrieved at all. -/
def searchFilters (q : Query α) : SearchFilters :=
  { domains := q.domains, exactLength := q.exactLength }

/-- What loses points. -/
def preferences (q : Query α) : Preferences :=
  { domains? := q.preferredDomain?.map ([·]), penalizeDirty := q.penalizeDirty }

/-- The unit has the properties that the query asks for on both sides. -/
def admits (q : Query α) (u : TranslationUnit) : Bool :=
  u.sourceProperties.includes q.sourceProperties && u.targetProperties.includes q.targetProperties

end Query

/-- How a query ended. -/
inductive Outcome (α : Type) where
  /-- The query was blank, or nothing was retrieved. -/
  | noCandidates
  /-- The best candidate was too weak. -/
  | belowThreshold (best : α)
  | exact (m : Match α)
  | fuzzy (m : Match α)
  /-- The match was made by automatic translation. -/
  | translated (m : Match α)

/-- The match of an outcome. -/
def Outcome.match? {α : Type} : Outcome α → Option (Match α)
  | .noCandidates | .belowThreshold _ => none
  | .exact m | .fuzzy m | .translated m => some m

/-- Limits and the penalty of an engine. -/
structure EngineSettings (α : Type) where
  /-- The part of the score lost outside the preferred domain. -/
  mismatchPenalty : α
  /-- How many candidates are retrieved for a perfect match; weaker thresholds retrieve more. -/
  candidateLimit : Nat
  /-- How many candidates are retrieved at least for a concordance. -/
  concordanceLimit : Nat

/-- Chooses among candidates of which none is perfect. -/
abbrev FuzzyStrategy (α : Type) := Text → List (Candidate α) → Preferences → Option (Match α)

/-- Everything that answering queries depends on. -/
structure Engine (α : Type) where
  backend : Backend α
  penalties : Penalties α
  settings : EngineSettings α
  /-- Replaces the choice of the best candidate. -/
  strategy? : Option (FuzzyStrategy α) := none
  /-- Automatic translation. -/
  translate? : Text → LanguagePair → Option Text := fun _ _ => none
  /-- With tokenizers, the tags of a query are carried over to the target of its match. -/
  tokenizers? : Option Tokenizers := none

namespace Engine

variable {α : Type} [Score α]

/-- How many candidates are retrieved for a threshold: the limit at a threshold of 100, up to ten
times as many at 10 and below. -/
def candidateCap (limit : Nat) (minMatch : α) : Nat :=
  let factor :=
    Score.ofNat 100 / Score.clamp (Score.ofNat 10) (Score.ofNat 100) minMatch
  match Score.ceil? (Score.ofNat limit * factor) with
  | some cap => max cap limit
  | none => limit

/-- The candidates that the backend has for a query, scored by their similarity to it. -/
def retrieve (e : Engine α) (text : Text) (q : Query α) (limit : Nat) :
    Except Error (List (Candidate α)) := do
  let hits ← e.backend.search text q.pair q.searchFilters limit
  let admitted := hits.filter (q.admits ·.unit)
  return admitted.map fun c => ⟨c.unit, similarity text c.unit.sourceText * Score.ofNat 100⟩

/-- The adjusted score of a candidate. -/
def adjust (e : Engine α) (q : Query α) (c : Candidate α) : α :=
  e.penalties.adjust q.preferences e.settings.mismatchPenalty c

/-- The outcome for a list of candidates. -/
def judge (e : Engine α) (text : Text) (q : Query α) (candidates : List (Candidate α)) :
    Outcome α :=
  match (select (e.adjust q) candidates).1 with
  | none => .noCandidates
  | some best =>
    match candidates[best.index]? with
    | none => .noCandidates
    | some c =>
      let own : Match α := .ofUnit c.unit best.score
      if best.isPerfect then .exact own
      else
        -- A strategy replaces the choice among candidates, but not the threshold.
        let chosen? :=
          match e.strategy? with
          | some strategy => strategy text candidates q.preferences
          | none => some own
        match chosen? with
        | some m =>
          if Score.le q.minMatch m.score then .fuzzy m else .belowThreshold m.score
        | none => .belowThreshold best.score

/-- The outcome of a query without automatic translation and transfer of tags. -/
def bestMatch (e : Engine α) (text : Text) (q : Query α) : Except Error (Outcome α) :=
  if Text.isBlank text then .ok .noCandidates
  else do
    let cap := candidateCap e.settings.candidateLimit q.minMatch
    return e.judge text q (← e.retrieve text q cap)

/-- A translation takes the place of a missing match, if one is wanted and there is one. -/
def orTranslated (e : Engine α) (text : Text) (q : Query α) (outcome : Outcome α) : Outcome α :=
  match outcome with
  | .noCandidates | .belowThreshold _ =>
    if q.automaticTranslation then
      match e.translate? text q.pair with
      | some target => .translated ⟨text, target, Score.ofNat 0, .empty, .empty, [], none⟩
      | none => outcome
    else outcome
  | _ => outcome

/-- The match with the tags of the query. -/
def retag (tokenizers : Tokenizers) (text : Text) (q : Query α) (m : Match α) :
    Except Error (Match α) := do
  return { m with target := ← Transfer.transfer tokenizers q.pair text m.target }

/-- Carries the tags of the query over to the match that was found in the memory. -/
def withQueryTags (e : Engine α) (text : Text) (q : Query α) (outcome : Outcome α) :
    Except Error (Outcome α) :=
  match e.tokenizers? with
  | none => .ok outcome
  | some tokenizers =>
    if Markup.hasTags text then
      match outcome with
      | .exact m => .exact <$> retag tokenizers text q m
      | .fuzzy m => .fuzzy <$> retag tokenizers text q m
      | other => .ok other
    else .ok outcome

/-- The outcome of a query. -/
def answer (e : Engine α) (text : Text) (q : Query α) : Except Error (Outcome α) := do
  e.withQueryTags text q (e.orTranslated text q (← e.bestMatch text q))

/-- Of matches with one target, only the first. -/
def distinctTargets (seen : List Text) : List (Match α) → List (Match α)
  | [] => []
  | m :: rest =>
    if seen.contains m.target then distinctTargets seen rest
    else m :: distinctTargets (m.target :: seen) rest

/-- The matches above the threshold among candidates, one for each target, best first. -/
def rank (e : Engine α) (q : Query α) (candidates : List (Candidate α)) : List (Match α) :=
  let matches_ := candidates.map fun c => Match.ofUnit c.unit (e.adjust q c)
  let strong := matches_.filter fun m => Score.le q.minMatch m.score
  (distinctTargets [] (strong.mergeSort fun a b => !Score.lt a.score b.score)).take q.limit

/-- The concordance of a query. -/
def concordance (e : Engine α) (text : Text) (q : Query α) : Except Error (List (Match α)) :=
  if Text.isBlank text then .ok []
  else do
    return e.rank q (← e.retrieve text q (max e.settings.concordanceLimit q.limit))

/-- The best match of every query text. -/
def bestMatches (e : Engine α) (q : Query α) : Except Error (List (Option (Match α))) :=
  q.texts.mapM fun text => return (← e.answer text q).match?

/-- The matches of every query text: at most one, or its concordance. -/
def run (e : Engine α) (q : Query α) : Except Error (List (List (Match α))) :=
  if q.concordance then q.texts.mapM fun text => e.concordance text q
  else return (← e.bestMatches q).map Option.toList

end Engine

end Bitext
