import Bitext.Bytes
import Bitext.Error
import Bitext.Files.Path

/-!
# Access to files

The operations on files and directories that the jobs need, for any monad that has them.  A file
tree is one place to carry them out, the machine the program runs on another.
-/
namespace Bitext

/-- A monad in which files and directories can be used by their paths. -/
class FileAccess (m : Type → Type) where
  /-- The bytes of a file. -/
  read : (path : Text) → m (Except FileFault Bytes)
  /-- There is a file or a directory. -/
  isPresent : (path : Text) → m Bool
  /-- There is a directory. -/
  isDirectory : (path : Text) → m Bool
  /-- Makes a directory in an existing one. -/
  makeDirectory : (path : Text) → m (Except FileFault Unit)
  /-- Writes a file, in place of an earlier one. -/
  write : (path : Text) → Bytes → m (Except FileFault Unit)
  /-- Moves a directory to a path where nothing is. -/
  move : (source target : Text) → m (Except FileFault Unit)
  /-- Removes a directory with everything in it. -/
  removeTree : (path : Text) → m (Except FileFault Unit)

/-- A monad in which directories can be listed as well. -/
class DirectoryListing (m : Type → Type) extends FileAccess m where
  /-- The size of a file; nothing for directories and for what does not exist. -/
  size? : (path : Text) → m (Option Nat)
  /-- The names of everything in a directory. -/
  names : (path : Text) → m (Except FileFault (List Text))

namespace FileAccess

variable {m : Type → Type} [Monad m] [FileAccess m]

/-- Makes the directory that the components lead to, and first those around it as far as they are
missing.  A directory that exists is left alone; `reversed` are the components, last one first. -/
def makeAll (isAbsolute : Bool) : (reversed : List Text) → m (Except FileFault Unit)
  | [] => return .ok ()
  | last :: around => do
    let path := Path.ofComponents isAbsolute (last :: around).reverse
    match ← makeDirectory path with
    | .ok () => return .ok ()
    | .error .notFound =>
      match ← makeAll isAbsolute around with
      | .error fault => return .error fault
      | .ok () =>
        match ← makeDirectory path with
        | .ok () => return .ok ()
        | .error fault => if ← isDirectory path then return .ok () else return .error fault
    | .error fault => if ← isDirectory path then return .ok () else return .error fault

/-- Makes a directory together with all that are missing around it. -/
def makeDirectories (path : Text) : m (Except FileFault Unit) :=
  makeAll (Path.isAbsolute path) (Path.components path).reverse

end FileAccess

end Bitext
