import Bitext.Archive.Layout
import Bitext.Error

/-!
# Archives packed piece by piece

A packer is told what comes next in an archive: a member begins, or its content goes on.  It keeps
what it needs to know in a state and emits bytes whenever it likes, the last ones when the archive
is finished; put together, they are the archive.

## Main definitions

* `Operation`: what a packer is told.
* `Packer`: a way of packing.
* `storing`: emits the record of each member when the next one begins.
-/
namespace Bitext.Archive

/-- What comes next in an archive. -/
inductive Operation where
  /-- A member begins. -/
  | start (name : Text) (modified : FileTime)
  /-- The content of the member goes on. -/
  | append (data : Bytes)
  deriving DecidableEq, Repr

/-- The state behind an operation, with what was emitted on the way.  An operation that fails may
have emitted something as well. -/
structure Packed (σ : Type) where
  state : σ
  emitted : Bytes
  fault? : Option Error := none

/-- A way of packing archives. -/
structure Packer (σ : Type) where
  /-- The state before the first member. -/
  initial : σ
  perform : Operation → σ → Packed σ
  /-- Emits what is left; nothing can be packed behind it. -/
  finish : σ → Packed Unit

/-- The members of an archive that is being packed. -/
structure Packing where
  /-- The members whose records have been emitted. -/
  finished : List Member := []
  /-- The member whose content goes on. -/
  current? : Option Member := none
  deriving DecidableEq, Repr

/-- All members that have begun. -/
def Packing.members (z : Packing) : List Member := z.finished ++ z.current?.toList

/-- The packer that emits the record of each member when it is complete.  No name is taken twice,
and content needs a member that has begun. -/
def storing : Packer Packing where
  initial := {}
  perform
    | .start name modified, z =>
      if z.members.any (·.name = name) then ⟨z, [], some (.archiveDamaged "<stream>".toList)⟩
      else ⟨⟨z.members, some ⟨name, modified, []⟩⟩, z.current?.toList.flatMap memberRecord, none⟩
    | .append data, z =>
      match z.current? with
      | none => ⟨z, [], some (.file (.other "No file has been started".toList))⟩
      | some m => ⟨{ z with current? := some { m with content := m.content ++ data } }, [], none⟩
  finish z := ⟨(), (encode z.members).drop (z.finished.flatMap memberRecord).length, none⟩

end Bitext.Archive
