import Bitext.Command.Run
import Std.Time.DateTime.Timestamp

/-!
# The program

Runs a command line on the machine: the files are those of the operating system, results go to the
standard output and diagnostics to the standard error.
-/
namespace Bitext

namespace Text

/-- The two lower-case hexadecimal digits of a byte. -/
def ofByte (b : UInt8) : Text :=
  let digits := Nat.toDigits 16 b.toNat
  List.replicate (2 - digits.length) '0' ++ digits

/-- The identifier that sixteen random bytes make: five groups of hexadecimal digits.  Six of the bits
tell that it is a random one. -/
def identifier (random : Bytes) : Text :=
  let marked := random.zipIdx.map fun (b, i) =>
    if i = 6 then (b &&& 0x0F) ||| 0x40 else if i = 8 then (b &&& 0x3F) ||| 0x80 else b
  let digits := marked.flatMap ofByte
  join ['-'] [digits.take 8, (digits.drop 8).take 4, (digits.drop 12).take 4,
    (digits.drop 16).take 4, digits.drop 20]

end Text

/-- The fault that the operating system reports. -/
def FileFault.ofSystem (e : IO.Error) : FileFault :=
  let other (code : UInt32) (details : String) : FileFault :=
    .other (details.toList ++ " (os error ".toList ++ Text.ofNat code.toNat ++ [')'])
  match e with
  | .noFileOrDirectory .. => .notFound
  | .alreadyExists .. => .alreadyExists
  | .permissionDenied _ 13 _ => .permissionDenied
  | .inappropriateType _ 20 _ => .notADirectory
  | .inappropriateType _ 21 _ => .isADirectory
  | .unsatisfiedConstraints 39 _ => .notEmpty
  | .invalidArgument .. => .invalidArgument
  | .permissionDenied _ code details | .inappropriateType _ code details
  | .unsatisfiedConstraints code details | .resourceBusy code details
  | .otherError code details | .hardwareFault code details
  | .resourceExhausted _ code details | .noSuchThing _ code details => other code details
  | e => .other (toString e).toList

/-- Carries out an operation on files. -/
def attempted {α : Type} (operation : IO α) : IO (Except FileFault α) := do
  try return .ok (← operation)
  catch e => return .error (.ofSystem e)

instance : FileAccess IO where
  read path := attempted do return (← IO.FS.readBinFile (String.ofList path)).toList
  isPresent path := do
    match ← attempted (IO.FS.Handle.mk (String.ofList path) .read) with
    | .error .notFound | .error .notADirectory => return false
    | _ => return true
  isDirectory path := do
    match ← attempted (IO.FS.createDir (String.ofList (path ++ "/.".toList))) with
    | .error .alreadyExists => return true
    | _ => return false
  makeDirectory path := attempted (IO.FS.createDir (String.ofList path))
  write path content :=
    attempted (IO.FS.writeBinFile (String.ofList path) ⟨content.toArray⟩)
  move source target :=
    attempted (IO.FS.rename (String.ofList source) (String.ofList target))
  removeTree path := attempted (IO.FS.removeDirAll (String.ofList path))

/-- What the machine tells about a run. -/
def surroundings : IO Command.Surroundings := do
  let directory := (← IO.getEnv "TMPDIR").getD "/tmp"
  let random ← IO.getRandomBytes 16
  let seconds := (← Std.Time.Timestamp.now).toSecondsSinceUnixEpoch.val
  return {
    temporaryDirectory := directory.toList
    nextId := Text.identifier random.toList
    now := (Timestamp.ofSeconds? seconds).getD ⟨1970, 1, 1, 0, 0, 0⟩
    isInteractive := ← (← IO.getStderr).isTty }

end Bitext

/-- Runs the command line and ends with its code. -/
def main (words : List String) : IO UInt32 := do
  let ending ← Bitext.Command.runLine (← Bitext.surroundings) (words.map String.toList)
  (← IO.getStderr).putStr (String.ofList ending.diagnostics)
  (← IO.getStdout).putStr (String.ofList ending.output)
  return UInt32.ofNat ending.code
