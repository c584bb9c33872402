import Bitext.Error
import Bitext.Json.Basic

/-!
# Jobs

What long-running jobs tell while they work and when they fail: progress as people or programs read
it, and failures as a chain of contexts with a cause at its end.
-/
namespace Bitext

/-! ## Progress -/

/-- A sign of life of a job. -/
inductive Progress where
  /-- The job looks for its input. -/
  | scanning (job : Text)
  /-- The job has come to `count` units, of `total?` if that is known. -/
  | processing (job : Text) (count : Nat) (total? : Option Nat)
  deriving DecidableEq, Repr

/-- Puts a comma before every third digit from the end; the digits are given last one first. -/
def groupDigits : Text → Text
  | a :: b :: c :: d :: rest => a :: b :: c :: ',' :: groupDigits (d :: rest)
  | rest => rest

/-- A number with its digits in groups of three. -/
def groupedNumber (n : Nat) : Text := (groupDigits (Text.ofNat n).reverse).reverse

namespace Progress

/-- The line that people read. -/
def line : Progress → Text
  | .scanning job => job ++ "  scanning...".toList
  | .processing job count total? =>
    let total := (total?.map fun n => " / ".toList ++ groupedNumber n).getD []
    job ++ "  processing  ".toList ++ groupedNumber count ++ total ++ " units".toList

/-- The object that programs read. -/
def json : Progress → Json
  | .scanning job =>
    Json.sorted [
      Json.member "event" (.string "progress".toList),
      Json.member "job" (.string job),
      Json.member "phase" (.string "scanning".toList)]
  | .processing job count total? =>
    Json.sorted [
      Json.member "event" (.string "progress".toList),
      Json.member "job" (.string job),
      Json.member "phase" (.string "processing".toList),
      Json.member "n" (Json.ofNat count),
      Json.member "total" ((total?.map Json.ofNat).getD .null)]

end Progress

/-- How progress is told. -/
inductive ProgressMode where
  | off
  | human
  | json
  deriving DecidableEq, Repr

/-- The lines that tell progress. -/
def ProgressMode.write (mode : ProgressMode) (events : List Progress) : Text :=
  match mode with
  | .off => []
  | .human => events.flatMap fun p => p.line ++ ['\n']
  | .json => events.flatMap fun p => p.json.compact ++ ['\n']

/-! ## Failures -/

/-- What is at the end of a chain of contexts. -/
inductive Cause where
  | engine (e : Error)
  /-- A fault that a job met itself. -/
  | file (fault : FileFault)
  deriving DecidableEq, Repr

/-- Why a job failed: contexts from the outside in, and the cause if something else failed first. -/
structure Failure where
  contexts : List Text
  cause? : Option Cause := none
  deriving DecidableEq, Repr

/-- The cause in words. -/
def Cause.message : Cause → Text
  | .engine e => e.message
  | .file fault => fault.message

/-- The messages of a failure from the outside in. -/
def Failure.chain (f : Failure) : List Text := f.contexts ++ (f.cause?.map Cause.message).toList

/-- A message whose lines after the first one start with a margin. -/
def withMargin (margin message : Text) : Text :=
  Text.join ('\n' :: margin) (message.splitOnP (· == '\n'))

/-- A cause on lines of its own; where there are several, they are numbered. -/
def causeLines (number? : Option Nat) (message : Text) : Text :=
  match number? with
  | none => "\n    ".toList ++ withMargin "    ".toList message
  | some n =>
    let number := Text.ofNat n
    '\n' :: (List.replicate (5 - number.length) ' ' ++ number ++ ": ".toList ++
      withMargin "       ".toList message)

/-- The failure as it is told: the outermost message, and what caused it. -/
def Failure.report (f : Failure) : Text :=
  "Error: ".toList ++ f.chain.headD [] ++
    match f.chain.tail with
    | [] => []
    | [cause] => "\n\nCaused by:".toList ++ causeLines none cause
    | causes =>
      "\n\nCaused by:".toList ++ causes.zipIdx.flatMap fun (cause, n) => causeLines (some n) cause

/-- A job that has ended: what it told, and how it ended. -/
structure Finished (α : Type) where
  progress : List Progress
  result : Except Failure α

/-- The job with its result in another form. -/
def Finished.map {α β : Type} (f : α → β) (x : Finished α) : Finished β :=
  ⟨x.progress, x.result.map f⟩

end Bitext
