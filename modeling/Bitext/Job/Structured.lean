import Bitext.Job.ContentCheck
import Bitext.Job.Duplicates
import Bitext.Job.Export
import Bitext.Json.Basic

/-!
# Units and results of jobs as structured output

Each is an object with a member for every field; fields without a value are null.
-/
namespace Bitext

/-- A unit. -/
def TranslationUnit.json (u : TranslationUnit) : Json :=
  .object [
    Json.member "source_text" (.string u.sourceText),
    Json.member "target_text" (.string u.targetText),
    Json.member "source_language" (.string u.sourceLanguage),
    Json.member "target_language" (.string u.targetLanguage),
    Json.member "domain" (Json.ofTexts u.domains),
    Json.member "file_name" (Json.ofText? u.fileName?),
    Json.member "tuid" (Json.ofText? u.identifier?),
    Json.member "tm_creation_date" (Json.ofText? u.created?),
    Json.member "tm_change_date" (Json.ofText? u.changed?),
    Json.member "industry" (Json.ofText? u.industry?),
    Json.member "type" (Json.ofText? u.kind?),
    Json.member "organization" (Json.ofText? u.organization?),
    Json.member "metadata" (Json.ofMap u.properties.entries),
    Json.member "source_metadata" (Json.ofMap u.sourceProperties.entries),
    Json.member "target_metadata" (Json.ofMap u.targetProperties.entries),
    Json.member "username" (Json.ofText? u.userName?),
    Json.member "dirty_score" ((u.failedChecks?.map Json.ofNat).getD .null)]

namespace Job

/-- The result of a content check. -/
def CheckSummary.json (s : CheckSummary) : Json :=
  .object [
    Json.member "checked" (Json.ofNat s.checked),
    Json.member "passed" (Json.ofNat s.passed),
    Json.member "failed" (Json.ofNat s.failed),
    Json.member "flagged" (.array (s.flagged.map TranslationUnit.json))]

/-- A group of duplicates. -/
def DuplicateGroup.json (g : DuplicateGroup) : Json :=
  .object [
    Json.member "key" (.string g.key),
    Json.member "source_text" (.string g.sourceText),
    Json.member "target_text" (.string g.targetText),
    Json.member "count" (Json.ofNat g.count),
    Json.member "domains" (Json.ofTexts g.domains),
    Json.member "file_names" (Json.ofTexts g.fileNames)]

/-- A finished export. -/
def ExportRecord.json (r : ExportRecord) : Json :=
  .object [
    Json.member "id" (.string r.id),
    Json.member "path" (.string r.path),
    Json.member "member" (.string r.member),
    Json.member "units" (Json.ofNat r.units)]

end Job

end Bitext
