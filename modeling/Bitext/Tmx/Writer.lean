import Bitext.Archive.Packer
import Bitext.Tmx.Output

/-!
# Documents written chunk by chunk

An archive of documents is written without ever being there as a whole.  What a packer emits goes to
a sink, and the writer hands out what it finds in the sink: a member comes as a sequence of chunks
that are made while they are asked for, the end of the archive as one more chunk.  `Session` says
which documents an archive gets; here is how their bytes get out.

## Main definitions

* `Writer`: an archive in the making, and its sink.
* `Chunks`: a member in the making, which goes through four stages.
* `Chunks.next`, `Chunks.drain`: the next chunk, and all that are left.
* `Writer.run`, `Writer.runAll`: members and closings, one after another.
-/
namespace Bitext.Tmx

open Archive (Operation Packer)

variable {σ : Type}

/-- An archive that is being written with a packer. -/
structure Writer (σ : Type) where
  stamp : Stamp
  /-- The state of the packer; nothing once the archive has been closed. -/
  archive? : Option σ
  /-- What has been emitted and not yet been handed out. -/
  sink : Bytes := []
  deriving DecidableEq, Repr

namespace Writer

/-- An archive without members. -/
def create (p : Packer σ) (stamp : Stamp) : Writer σ := ⟨stamp, some p.initial, []⟩

/-- Packs operations until one of them fails. -/
def pack (p : Packer σ) : List Operation → Writer σ → Option Error × Writer σ
  | [], w => (none, w)
  | o :: os, w =>
    match w.archive? with
    | none => (some .archiveClosed, w)
    | some z =>
      let packed := p.perform o z
      let w := { w with archive? := some packed.state, sink := w.sink ++ packed.emitted }
      match packed.fault? with
      | some fault => (some fault, w)
      | none => pack p os w

/-- What is in the sink, if there is anything. -/
def chunk? (w : Writer σ) : Option Bytes := if w.sink.isEmpty then none else some w.sink

/-- The writer with an empty sink. -/
def emptied (w : Writer σ) : Writer σ := { w with sink := [] }

/-- Finishes the archive and hands out the last chunk.  Closing it again does nothing. -/
def close (p : Packer σ) (w : Writer σ) : List (Except Error Bytes) × Writer σ :=
  match w.archive? with
  | none => ([], w)
  | some z =>
    let packed := p.finish z
    let w := { w with archive? := none, sink := w.sink ++ packed.emitted }
    match packed.fault? with
    | some fault => ([.error fault], w)
    | none => (w.chunk?.toList.map .ok, w.emptied)

end Writer

/-! ## Members -/

/-- What is written next. -/
inductive Stage where
  | header
  | units
  | footer
  | done
  deriving DecidableEq, Repr

/-- A member that is being written, with the units that are left. -/
structure Chunks (σ : Type) where
  writer : Writer σ
  member : Text
  units : List TranslationUnit
  stage : Stage := .header
  deriving DecidableEq, Repr

namespace Chunks

/-- The same member with another state of the writer. -/
def withWriter (c : Chunks σ) (w : Writer σ) : Chunks σ := { c with writer := w }

/-- What is packed at once. -/
def operations (c : Chunks σ) : List Operation :=
  match c.stage, c.units with
  | .header, _ =>
    [.start c.member (.ofTimestamp c.writer.stamp.created),
      .append (Unicode.Utf8.encode c.writer.stamp.header)]
  | .units, u :: _ => [.append (Unicode.Utf8.encode (unitText u))]
  | .units, [] => []
  | .footer, _ => [.append (Unicode.Utf8.encode footer)]
  | .done, _ => []

/-- What is left to be written behind it. -/
def advance (c : Chunks σ) : Chunks σ :=
  match c.stage, c.units with
  | .header, _ => { c with stage := .units }
  | .units, _ :: us => { c with units := us }
  | .units, [] => { c with stage := .footer }
  | .footer, _ => { c with stage := .done }
  | .done, _ => c

/-- A bound on the turns that are left. -/
def remaining (c : Chunks σ) : Nat :=
  match c.stage with
  | .header => c.units.length + 3
  | .units => c.units.length + 2
  | .footer => 1
  | .done => 0

theorem remaining_advance_lt {c : Chunks σ} (h : c.stage ≠ .done) :
    c.advance.remaining < c.remaining := by
  obtain ⟨w, member, us, stage⟩ := c
  cases stage with
  | header => exact Nat.lt_succ_self _
  | units =>
    cases us with
    | nil => exact Nat.lt_succ_self _
    | cons u us => exact Nat.lt_succ_self _
  | footer => exact Nat.zero_lt_one
  | done => exact absurd rfl h

/-- Goes on until there is a chunk, or nothing is left to be written. -/
def step (p : Packer σ) (c : Chunks σ) : Except Error (Option Bytes) × Chunks σ :=
  if c.stage = .done then (.ok c.writer.chunk?, c.withWriter c.writer.emptied)
  else
    let (fault?, w) := c.writer.pack p c.operations
    match fault? with
    | some fault => (.error fault, { c with writer := w, units := c.advance.units })
    | none =>
      match w.chunk? with
      | some chunk => (.ok (some chunk), c.advance.withWriter w.emptied)
      | none => step p (c.advance.withWriter w.emptied)
termination_by c.remaining
decreasing_by exact remaining_advance_lt ‹_›

/-- The next chunk, if there is one.  Nothing is written behind an error. -/
def next (p : Packer σ) (c : Chunks σ) : Option (Except Error Bytes) × Chunks σ :=
  match c.step p with
  | (.ok chunk?, c) => (chunk?.map .ok, c)
  | (.error fault, c) => (some (.error fault), { c with stage := .done })

/-- A step that hands out a chunk leaves less to be written, or nothing of what was in the sink. -/
theorem step_decreases {p : Packer σ} {c c' : Chunks σ} {chunk : Bytes}
    (h : c.step p = (.ok (some chunk), c')) :
    c'.remaining < c.remaining ∨
      c'.remaining = c.remaining ∧ c'.writer.sink.length < c.writer.sink.length := by
  fun_induction step p c with
  | case1 c hdone =>
    obtain ⟨hchunk, rfl⟩ := Prod.mk.inj h
    have hsink : c.writer.sink ≠ [] := by
      intro hsink
      simp [Writer.chunk?, hsink] at hchunk
    exact .inr ⟨rfl, List.length_pos_iff.mpr hsink⟩
  | case2 c hdone fault w hpack => cases h
  | case3 c hdone w hpack chunk hchunk =>
    obtain ⟨-, rfl⟩ := Prod.mk.inj h
    exact .inl (remaining_advance_lt hdone)
  | case4 c hdone w hpack hchunk ih =>
    rcases ih h with hless | ⟨hless, -⟩
    · exact .inl (Nat.lt_trans hless (remaining_advance_lt hdone))
    · exact .inl (hless ▸ remaining_advance_lt hdone)

/-- Whatever is handed out, there is less to come behind it. -/
theorem next_decreases {p : Packer σ} {c c' : Chunks σ} {item : Except Error Bytes}
    (h : c.next p = (some item, c')) :
    c'.remaining < c.remaining ∨
      c'.remaining = c.remaining ∧ c'.writer.sink.length < c.writer.sink.length := by
  unfold next at h
  split at h
  next chunk? c₁ hstep =>
    obtain ⟨hitem, rfl⟩ := Prod.mk.inj h
    obtain ⟨chunk, rfl, -⟩ := Option.map_eq_some_iff.mp hitem
    exact step_decreases hstep
  next fault c₁ hstep =>
    obtain ⟨-, rfl⟩ := Prod.mk.inj h
    have hdone : c.stage ≠ .done := by
      intro hdone
      rw [step, if_pos hdone] at hstep
      cases hstep
    exact .inl (Nat.lt_of_le_of_lt (Nat.zero_le _) (remaining_advance_lt hdone))

/-- All chunks that are left. -/
def drain (p : Packer σ) (c : Chunks σ) : List (Except Error Bytes) × Chunks σ :=
  match _ : c.next p with
  | (none, c) => ([], c)
  | (some item, c) =>
    let (items, c) := drain p c
    (item :: items, c)
termination_by (c.remaining, c.writer.sink.length)
decreasing_by exact Prod.lex_def.mpr (next_decreases ‹_›)

end Chunks

/-! ## Sessions -/

/-- A document that becomes a member of an archive. -/
structure NewMember where
  units : List TranslationUnit
  name? : Option Text := none
  deriving DecidableEq, Repr

/-- The name of the member: the default one if none is given. -/
def NewMember.name (stamp : Stamp) (m : NewMember) : Text := m.name?.getD stamp.defaultMember

/-- What a writer is told to do. -/
inductive Step where
  /-- All chunks of a member are asked for. -/
  | write (m : NewMember)
  | close
  deriving DecidableEq, Repr

/-- What comes of a step. -/
structure Outcome where
  items : List (Except Error Bytes)
  /-- The units that were not taken. -/
  unread : List TranslationUnit := []

namespace Writer

/-- Begins a member; nothing happens to the archive until chunks are asked for. -/
def begin (w : Writer σ) (m : NewMember) : Chunks σ :=
  { writer := w, member := m.name w.stamp, units := m.units }

/-- Takes a step, and hands out everything that comes of it. -/
def run (p : Packer σ) (w : Writer σ) : Step → Outcome × Writer σ
  | .write m =>
    let (items, c) := (w.begin m).drain p
    (⟨items, c.units⟩, c.writer)
  | .close =>
    let (items, w) := w.close p
    (⟨items, []⟩, w)

/-- Takes steps one after another. -/
def runAll (p : Packer σ) (w : Writer σ) : List Step → List Outcome × Writer σ
  | [] => ([], w)
  | s :: steps =>
    let (outcome, w) := w.run p s
    let (outcomes, w) := runAll p w steps
    (outcome :: outcomes, w)

end Writer

/-- The bytes that were handed out. -/
def Outcome.bytes (outcomes : List Outcome) : Bytes :=
  outcomes.flatMap fun o => o.items.flatMap fun
    | .ok chunk => chunk
    | .error _ => []

end Bitext.Tmx
