import Bitext.Text.Basic

/-!
# Errors

What can go wrong in the engine itself, by cause.  Malformed markup and empty results are not among
the errors: markup degrades to plain text, and "no match" is a result.  `Error.message` is the one
place that puts a cause into words.
-/
namespace Bitext

/-- What an operation on a file or directory can fail of. -/
inductive FileFault where
  | notFound
  | notADirectory
  | isADirectory
  | alreadyExists
  | notEmpty
  | permissionDenied
  | invalidArgument
  | invalidText
  /-- Any other fault, in the words of the operating system. -/
  | other (description : Text)
  deriving DecidableEq, Repr

/-- The cause of a failure. -/
inductive Error where
  /-- There is no tokenizer for a language. -/
  | noTokenizer (language : Text)
  /-- There are more placeholders than tags to put in their place. -/
  | tagsExhausted (needed supplied : Nat)
  /-- The memory could not be reached. -/
  | retrieval (operation : Text) (pair : Text) (reason : Text)
  /-- A member of an archive is encrypted. -/
  | memberEncrypted (archive member : Text)
  /-- A member of an archive is compressed in a way that cannot be read. -/
  | memberCompression (archive member method : Text)
  /-- An archive was written to after it had been closed. -/
  | archiveClosed
  /-- An archive cannot be read or written for a reason in its format. -/
  | archiveDamaged (archive : Text)
  /-- A file or directory could not be used. -/
  | file (fault : FileFault)
  deriving DecidableEq, Repr

namespace FileFault

/-- The fault in the words of the operating system. -/
def message : FileFault → Text
  | .notFound => "No such file or directory (os error 2)".toList
  | .notADirectory => "Not a directory (os error 20)".toList
  | .isADirectory => "Is a directory (os error 21)".toList
  | .alreadyExists => "File exists (os error 17)".toList
  | .notEmpty => "Directory not empty (os error 39)".toList
  | .permissionDenied => "Permission denied (os error 13)".toList
  | .invalidArgument => "Invalid argument (os error 22)".toList
  | .invalidText => "stream did not contain valid UTF-8".toList
  | .other description => description

end FileFault

namespace Error

/-- The cause in words. -/
def message : Error → Text
  | .noTokenizer language =>
    "no tokenizer registered for language '".toList ++ language ++ "'".toList
  | .tagsExhausted needed supplied =>
    "tag placeholder #".toList ++ Text.ofNat needed ++ " has no matching tag (".toList ++
      Text.ofNat supplied ++ " supplied)".toList
  | .retrieval operation pair reason =>
    operation ++ " failed for ".toList ++ pair ++ ": ".toList ++ reason
  | .memberEncrypted archive member =>
    "archive ".toList ++ archive ++ ": member ".toList ++ member ++ " is encrypted".toList
  | .memberCompression archive member method =>
    "archive ".toList ++ archive ++ ": member ".toList ++ member ++
      " uses unsupported compression ".toList ++ method
  | .archiveClosed => "archive <stream>: archive already closed".toList
  | .archiveDamaged archive => "archive ".toList ++ archive ++ ": invalid archive".toList
  | .file fault => fault.message

end Error

end Bitext
