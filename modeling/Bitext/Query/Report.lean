import Bitext.Json.Basic
import Bitext.Query.Basic

/-!
# Written results

The results of queries as structured output, or one match a line.
-/
namespace Bitext

/-- A match as structured output, with its score in a given form. -/
def Match.json {α : Type} (score : α → Json) (m : Match α) : Json :=
  Json.sorted [
    Json.member "tm_src" (.string m.source),
    Json.member "tm_tgt" (.string m.target),
    Json.member "match" (score m.score),
    Json.member "source_metadata" (Json.ofMap m.sourceProperties.entries),
    Json.member "target_metadata" (Json.ofMap m.targetProperties.entries),
    Json.member "domain" (Json.ofTexts m.domains),
    Json.member "file_name" (Json.ofText? m.fileName?)]

namespace Query

/-- A line for a match: source, target and score with tabs between them. -/
def line {α : Type} (score : α → Text) (m : Match α) : Text :=
  m.source ++ '\t' :: (m.target ++ '\t' :: score m.score)

/-- One line for each match, and an empty one for a query without any. -/
def lines {α : Type} (score : α → Text) (results : List (List (Match α))) : Text :=
  Text.join ['\n'] (results.map fun ms => Text.join ['\n'] (ms.map (line score)))

/-- Every query with its matches. -/
def resultsJson (texts : List Text) (results : List (List (Match Float))) : Json :=
  .array <| (texts.zip results).map fun (text, ms) =>
    .object [
      Json.member "query" (.string text),
      Json.member "results" (.array (ms.map (Match.json Json.ofFloat)))]

/-- The results in a format. -/
def render (format : OutputFormat) (texts : List Text) (results : List (List (Match Float))) :
    Text :=
  match format with
  | .json => (resultsJson texts results).pretty
  | .moses => lines Decimal.shown.write results

end Query

end Bitext
