import Bitext.Proofs.Archive.Packer
import Bitext.Proofs.Tmx.RoundTrip
import Bitext.Tmx.Writer

/-!
# What a writer hands out

However a packer cuts its bytes and whenever the sink is emptied, the chunks of a session are the
bytes that the packer emits, in order and none of them empty.  So a faithful packer makes an archive
of them that holds the documents written before the first closing, and nothing that is tried behind
it adds a byte.

## Main definitions

* `Chunks.script`: everything that is packed for what is left of a member.
* `NewMember.packed`: the member that an archive is expected to hold.
* `Outcome.refused`: what comes of a step once the archive is closed.

## Main results

* `drain_done`, `drain_fault`, `drain_advance`: the chunks of a member, one turn after another
* `length_drain_le`, `ne_nil_of_mem_drain`: the chunks end, and none is empty
* `drain_of_performAll?`: the chunks are what the packer emits
* `Writer.exists_parts_runAll`: the chunks of a session hold its members
* `Writer.runAll_stores_written`: the law of sessions
-/

namespace Bitext.Tmx

open Archive (Operation Packer Cut Stores Fits)
open Unicode (Utf8.encode)
open Session (sampleStamp sampleUnit)

variable {σ : Type} {p : Packer σ} {w : Writer σ} {c c' : Chunks σ} {z z' : σ} {b : Bytes}
  {os : List Operation} {fault : Error} {stamp : Stamp}

/-! ## Packing -/

namespace Writer

theorem ne_nil_of_mem_chunk? {chunk : Bytes} (h : chunk ∈ w.chunk?.toList) : chunk ≠ [] := by
  rw [Option.mem_toList, chunk?] at h
  split at h
  next hempty => cases h
  next hsome =>
    obtain rfl := Option.some.inj h
    exact fun hnil => hsome (List.isEmpty_iff.mpr hnil)

theorem flatten_chunk? (w : Writer σ) : w.chunk?.toList.flatten = w.sink := by
  rw [chunk?]
  split
  next hempty => exact (List.isEmpty_iff.mp hempty).symm
  next hsome => exact List.append_nil w.sink

theorem length_chunk?_le (w : Writer σ) : w.chunk?.toList.length ≤ 1 := by
  cases w.chunk? with
  | none => exact Nat.zero_le 1
  | some chunk => exact Nat.le_refl 1

/-- Nothing is packed into a closed archive. -/
theorem pack_of_closed (h : w.archive? = none) (o : Operation) (os : List Operation) :
    w.pack p (o :: os) = (some .archiveClosed, w) := by
  rw [pack, h]

/-- What a packer emits goes to the sink. -/
theorem pack_of_performAll? (h : p.performAll? os z = some (z', b)) (stamp : Stamp)
    (sink : Bytes) :
    (⟨stamp, some z, sink⟩ : Writer σ).pack p os = (none, ⟨stamp, some z', sink ++ b⟩) := by
  induction os generalizing z b sink with
  | nil =>
    obtain ⟨rfl, rfl⟩ := Prod.mk.inj (Option.some.inj h)
    rw [pack, List.append_nil]
  | cons o os ih =>
    obtain ⟨hfault, x, hrest, rfl⟩ := Packer.exists_of_performAll?_cons h
    simp only [pack, hfault]
    rw [ih hrest, List.append_assoc]

end Writer

/-! ## Chunks -/

namespace Chunks

theorem drain_of_none (h : c.next p = (none, c')) : c.drain p = ([], c') := by
  unfold drain
  split
  next c₁ hnext =>
    rw [h] at hnext
    rw [(Prod.mk.inj hnext).2]
  next item c₁ hnext =>
    rw [h] at hnext
    cases hnext

theorem drain_of_some {item : Except Error Bytes} (h : c.next p = (some item, c')) :
    c.drain p = (item :: (c'.drain p).1, (c'.drain p).2) := by
  rw [drain]
  split
  next c₁ hnext =>
    rw [h] at hnext
    cases hnext
  next item₁ c₁ hnext =>
    rw [h] at hnext
    obtain ⟨hitem, rfl⟩ := Prod.mk.inj hnext
    rw [Option.some.inj hitem]

/-- What is handed out is said by the next item. -/
theorem drain_congr (h : c.next p = c'.next p) : c.drain p = c'.drain p := by
  obtain ⟨item?, c₁, hnext⟩ : ∃ item? c₁, c'.next p = (item?, c₁) := ⟨_, _, rfl⟩
  cases item? with
  | none => rw [drain_of_none hnext, drain_of_none (h.trans hnext)]
  | some item => rw [drain_of_some hnext, drain_of_some (h.trans hnext)]

/-- **Nothing is left to be written**: what is in the sink is the last chunk. -/
theorem drain_done (h : c.stage = .done) :
    c.drain p = (c.writer.chunk?.toList.map .ok, c.withWriter c.writer.emptied) := by
  have hnext (c : Chunks σ) (h : c.stage = .done) :
      c.next p = (c.writer.chunk?.map .ok, c.withWriter c.writer.emptied) := by
    rw [next, step, if_pos h]
  have hfirst := hnext c h
  cases hchunk : c.writer.chunk? with
  | none =>
    rw [hchunk] at hfirst
    exact drain_of_none hfirst
  | some chunk =>
    rw [hchunk] at hfirst
    rw [drain_of_some hfirst, drain_of_none (hnext (c.withWriter c.writer.emptied) h)]
    rfl

/-- **An error ends a member**: behind it comes what had been emitted by then. -/
theorem drain_fault (h : c.stage ≠ .done) (hpack : c.writer.pack p c.operations = (some fault, w)) :
    c.drain p = (.error fault :: w.chunk?.toList.map .ok,
      { c with writer := w.emptied, units := c.advance.units, stage := .done }) := by
  have hnext : c.next p = (some (.error fault),
      { c with writer := w, units := c.advance.units, stage := .done }) := by
    rw [next, step, if_neg h, hpack]
  rw [drain_of_some hnext, drain_done rfl]
  rfl

/-- **A turn hands out what was emitted in it**, if that is anything, and the rest comes behind. -/
theorem drain_advance (h : c.stage ≠ .done) (hpack : c.writer.pack p c.operations = (none, w)) :
    c.drain p =
      (w.chunk?.toList.map .ok ++ (drain p (c.advance.withWriter w.emptied)).1,
        (drain p (c.advance.withWriter w.emptied)).2) := by
  cases hchunk : w.chunk? with
  | none =>
    have hnext : c.next p = next p (c.advance.withWriter w.emptied) := by
      rw [next, next, step, if_neg h, hpack]
      simp only [hchunk]
    exact drain_congr hnext
  | some chunk =>
    have hnext : c.next p = (some (.ok chunk), (c.advance.withWriter w.emptied)) := by
      rw [next, step, if_neg h, hpack]
      simp only [hchunk, Option.map_some]
    exact drain_of_some hnext

/-- The turns of a member: what holds when it is done or has failed, and is kept backwards by each
turn that succeeds, holds of every member. -/
@[elab_as_elim]
theorem turns (p : Packer σ) {motive : Chunks σ → Prop}
    (done : ∀ c, c.stage = .done → motive c)
    (fault : ∀ c fault w, c.stage ≠ .done → c.writer.pack p c.operations = (some fault, w) →
      motive c)
    (advance : ∀ c w, c.stage ≠ .done → c.writer.pack p c.operations = (none, w) →
      motive (c.advance.withWriter w.emptied) → motive c) (c : Chunks σ) : motive c := by
  by_cases h : c.stage = .done
  · exact done c h
  · cases hpack : c.writer.pack p c.operations with
    | mk fault? w =>
      cases fault? with
      | some e => exact fault c e w h hpack
      | none => exact advance c w h hpack (turns p done fault advance _)
termination_by c.remaining
decreasing_by exact remaining_advance_lt ‹_›

/-- **The chunks end**, after a turn for each unit and a few more. -/
theorem length_drain_le (p : Packer σ) (c : Chunks σ) :
    (c.drain p).1.length ≤ c.remaining + 1 := by
  induction c using turns p with
  | done c h =>
    rw [drain_done h, List.length_map]
    exact Nat.le_trans c.writer.length_chunk?_le (Nat.le_add_left 1 _)
  | fault c fault w h hpack =>
    have hsome := Nat.lt_of_le_of_lt (Nat.zero_le _) (remaining_advance_lt h)
    have hchunk := w.length_chunk?_le
    rw [drain_fault h hpack, List.length_cons, List.length_map]
    omega
  | advance c w h hpack ih =>
    have hless : remaining (c.advance.withWriter w.emptied) < c.remaining :=
      remaining_advance_lt h
    have hchunk := w.length_chunk?_le
    rw [drain_advance h hpack, List.length_append, List.length_map]
    omega

/-- **No chunk is empty.** -/
theorem ne_nil_of_mem_drain {chunk : Bytes} (h : .ok chunk ∈ (c.drain p).1) : chunk ≠ [] := by
  have hsink {w : Writer σ} (h : .ok chunk ∈ w.chunk?.toList.map (Except.ok (ε := Error))) :
      chunk ≠ [] := by
    obtain ⟨chunk, hchunk, heq⟩ := List.mem_map.mp h
    exact Except.ok.inj heq ▸ Writer.ne_nil_of_mem_chunk? hchunk
  induction c using turns p with
  | done c hdone =>
    rw [drain_done hdone] at h
    exact hsink h
  | fault c fault w hdone hpack =>
    rw [drain_fault hdone hpack] at h
    rcases List.mem_cons.mp h with h | h
    · cases h
    · exact hsink h
  | advance c w hdone hpack ih =>
    rw [drain_advance hdone hpack] at h
    rcases List.mem_append.mp h with h | h
    · exact hsink h
    · exact ih h

/-! ## Members -/

/-- Everything that is packed for what is left of a member. -/
def script (c : Chunks σ) : List Operation :=
  let rest := c.units.map (fun u => .append (Utf8.encode (unitText u))) ++
    [.append (Utf8.encode footer)]
  match c.stage with
  | .header =>
    .start c.member (.ofTimestamp c.writer.stamp.created) ::
      .append (Utf8.encode c.writer.stamp.header) :: rest
  | .units => rest
  | .footer => [.append (Utf8.encode footer)]
  | .done => []

/-- A turn packs the first part of the script. -/
theorem script_eq (c : Chunks σ) : c.script = c.operations ++ c.advance.script := by
  obtain ⟨w, member, us, stage⟩ := c
  cases stage with
  | header => rfl
  | units =>
    cases us with
    | nil => rfl
    | cons u us => rfl
  | footer => rfl
  | done => rfl

/-- The script depends on what is written, not on how far the archive is. -/
theorem script_withWriter (h : w.stamp = c.writer.stamp) : (c.withWriter w).script = c.script := by
  simp only [script, withWriter, h]

/-- The units have been written when it is the turn of the footer. -/
def UnitsFirst (c : Chunks σ) : Prop := c.stage = .footer ∨ c.stage = .done → c.units = []

theorem UnitsFirst.advance (h : c.UnitsFirst) : c.advance.UnitsFirst := by
  obtain ⟨w, member, us, stage⟩ := c
  cases stage with
  | header => rintro (h | h) <;> cases h
  | units =>
    cases us with
    | nil => exact fun _ => rfl
    | cons u us => rintro (h | h) <;> cases h
  | footer => exact fun _ => h (.inl rfl)
  | done => exact h

theorem member_advance (c : Chunks σ) : c.advance.member = c.member := by
  unfold advance
  split <;> rfl

theorem writer_advance (c : Chunks σ) : c.advance.writer = c.writer := by
  unfold advance
  split <;> rfl

/-- What is left when everything has been handed out. -/
def ended (c : Chunks σ) (z : σ) : Chunks σ := ⟨⟨c.writer.stamp, some z, []⟩, c.member, [], .done⟩

/-- A turn of a script that succeeds. -/
theorem pack_of_script (harchive : c.writer.archive? = some z)
    (h : p.performAll? c.script z = some (z', b)) :
    ∃ z₁ x y, c.writer.pack p c.operations =
        (none, ⟨c.writer.stamp, some z₁, c.writer.sink ++ x⟩) ∧
      p.performAll? c.advance.script z₁ = some (z', y) ∧ b = x ++ y := by
  rw [script_eq] at h
  obtain ⟨z₁, x, y, hfirst, hrest, hb⟩ := Packer.exists_of_performAll?_append h
  have hpack := Writer.pack_of_performAll? hfirst c.writer.stamp c.writer.sink
  rw [← harchive] at hpack
  exact ⟨z₁, x, y, hpack, hrest, hb⟩

/-- **The chunks of a member are what the packer emits**, and all units are written. -/
theorem drain_of_performAll? (hunits : c.UnitsFirst) (harchive : c.writer.archive? = some z)
    (h : p.performAll? c.script z = some (z', b)) :
    ∃ chunks : List Bytes, c.drain p = (chunks.map .ok, c.ended z') ∧
      chunks.flatten = c.writer.sink ++ b := by
  induction c using turns p generalizing z b with
  | done c hdone =>
    obtain ⟨⟨stamp, archive?, sink⟩, member, us, stage⟩ := c
    obtain rfl : stage = .done := hdone
    obtain rfl : us = [] := hunits (.inr rfl)
    obtain rfl : archive? = some z := harchive
    obtain ⟨rfl, rfl⟩ := Prod.mk.inj (Option.some.inj h)
    refine ⟨_, drain_done rfl, ?_⟩
    rw [Writer.flatten_chunk?, List.append_nil]
  | fault c fault w hdone hpack =>
    obtain ⟨z₁, x, y, hsuccess, -, -⟩ := pack_of_script harchive h
    rw [hpack] at hsuccess
    cases hsuccess
  | advance c w hdone hpack ih =>
    obtain ⟨z₁, x, y, hsuccess, hrest, rfl⟩ := pack_of_script harchive h
    have hw : w = ⟨c.writer.stamp, some z₁, c.writer.sink ++ x⟩ :=
      (Prod.mk.inj (hpack.symm.trans hsuccess)).2
    have hemptied : w.emptied = ⟨c.writer.stamp, some z₁, []⟩ := by rw [hw, Writer.emptied]
    have hstamp : w.emptied.stamp = c.advance.writer.stamp := by rw [hemptied, writer_advance]
    rw [← script_withWriter hstamp] at hrest
    obtain ⟨chunks, hdrain, hflatten⟩ :=
      ih hunits.advance (congrArg Writer.archive? hemptied) hrest
    refine ⟨w.chunk?.toList ++ chunks, ?_, ?_⟩
    · rw [drain_advance hdone hpack, hdrain, List.map_append]
      simp only [ended, withWriter, hemptied, member_advance]
    · have hsink : w.sink = c.writer.sink ++ x := congrArg Writer.sink hw
      rw [List.flatten_append, Writer.flatten_chunk?, hflatten, hsink, List.append_assoc]
      rfl

end Chunks

/-! ## New members -/

namespace NewMember

/-- The member that the archive is expected to hold: a header, the units and a footer. -/
def packed (stamp : Stamp) (m : NewMember) : Archive.Member :=
  ⟨m.name stamp, .ofTimestamp stamp.created,
    Utf8.encode (stamp.header ++ m.units.flatMap unitText ++ footer)⟩

/-- The pieces in which a writer packs the member. -/
def cut (stamp : Stamp) (m : NewMember) : Cut :=
  ⟨m.name stamp, .ofTimestamp stamp.created,
    Utf8.encode stamp.header ::
      (m.units.map (fun u => Utf8.encode (unitText u)) ++ [Utf8.encode footer])⟩

/-- **The pieces are those of the member.** -/
theorem member_cut (stamp : Stamp) (m : NewMember) : (m.cut stamp).member = m.packed stamp := by
  have hunits : (m.units.map fun u => Utf8.encode (unitText u)).flatten =
      Utf8.encode (m.units.flatMap unitText) := by
    rw [Unicode.Utf8.encode, List.flatMap_assoc, List.flatMap_def]
    rfl
  rw [cut, Cut.member, packed, List.flatten_cons, List.flatten_append, hunits]
  simp only [Unicode.Utf8.encode, List.flatMap_append, List.flatten_cons, List.flatten_nil,
    List.append_nil, List.append_assoc]

/-- A writer packs the pieces one after another. -/
theorem operations_cut (w : Writer σ) (m : NewMember) :
    (m.cut w.stamp).operations = (w.begin m).script := by
  rw [Cut.operations, cut, List.map_cons, List.map_append, List.map_map]
  rfl

end NewMember

/-! ## Sessions -/

/-- What comes of a step once the archive is closed. -/
def Outcome.refused : Step → Outcome
  | .write m => ⟨[.error .archiveClosed], m.units⟩
  | .close => ⟨[], []⟩

/-- What comes of a member that is written in given chunks. -/
def Outcome.written (chunks : List Bytes) : Outcome := ⟨chunks.map .ok, []⟩

namespace Writer

theorem length_runAll (p : Packer σ) (w : Writer σ) (steps : List Step) :
    (w.runAll p steps).1.length = steps.length := by
  induction steps generalizing w with
  | nil => rfl
  | cons s steps ih => rw [runAll, List.length_cons, ih, List.length_cons]

theorem runAll_append (p : Packer σ) (w : Writer σ) (steps steps' : List Step) :
    w.runAll p (steps ++ steps') =
      ((w.runAll p steps).1 ++ ((w.runAll p steps).2.runAll p steps').1,
        ((w.runAll p steps).2.runAll p steps').2) := by
  induction steps generalizing w with
  | nil => rfl
  | cons s steps ih => simp only [List.cons_append, runAll, ih]

/-- **A member is written** in chunks that are what the packer emits. -/
theorem run_write_of_performAll? {m : NewMember}
    (h : p.performAll? (m.cut stamp).operations z = some (z', b)) :
    ∃ chunks, (⟨stamp, some z, []⟩ : Writer σ).run p (.write m) =
        (.written chunks, ⟨stamp, some z', []⟩) ∧ chunks.flatten = b := by
  have hscript := NewMember.operations_cut (⟨stamp, some z, []⟩ : Writer σ) m
  have hunits : ((⟨stamp, some z, []⟩ : Writer σ).begin m).UnitsFirst := by
    rintro (h | h) <;> cases h
  obtain ⟨chunks, hdrain, hflatten⟩ := Chunks.drain_of_performAll? hunits rfl (hscript ▸ h)
  refine ⟨chunks, ?_, hflatten⟩
  rw [run, hdrain]
  rfl

/-- **Members are written one after another**, and the chunks of all of them are what the packer
emits. -/
theorem runAll_write_of_performAll? {writes : List NewMember}
    (h : p.performAll? (writes.flatMap fun m => (m.cut stamp).operations) z = some (z', b)) :
    ∃ parts : List (List Bytes), (⟨stamp, some z, []⟩ : Writer σ).runAll p (writes.map .write) =
        (parts.map .written, ⟨stamp, some z', []⟩) ∧ parts.flatten.flatten = b := by
  induction writes generalizing z b with
  | nil =>
    obtain ⟨rfl, rfl⟩ := Prod.mk.inj (Option.some.inj h)
    exact ⟨[], rfl, rfl⟩
  | cons m writes ih =>
    obtain ⟨z₁, x, y, hfirst, hrest, rfl⟩ := Packer.exists_of_performAll?_append h
    obtain ⟨chunks, hrun, hchunks⟩ := run_write_of_performAll? hfirst
    obtain ⟨parts, hruns, hparts⟩ := ih hrest
    refine ⟨chunks :: parts, ?_, ?_⟩
    · simp only [List.map_cons, runAll, hrun, hruns]
    · rw [List.flatten_cons, List.flatten_append, hchunks, hparts]

/-- The last chunk is what the packer emits at the end. -/
theorem run_close (hfault : (p.finish z).fault? = none) (stamp : Stamp) :
    ∃ chunks, (⟨stamp, some z, []⟩ : Writer σ).run p .close =
        (.written chunks, ⟨stamp, none, []⟩) ∧ chunks.flatten = (p.finish z).emitted := by
  refine ⟨(⟨stamp, none, (p.finish z).emitted⟩ : Writer σ).chunk?.toList, ?_, ?_⟩
  · simp only [run, close, hfault, List.nil_append]
    rfl
  · rw [flatten_chunk?]

/-- **A closed archive refuses everything**, and stays as it is. -/
theorem run_of_closed (p : Packer σ) (stamp : Stamp) (s : Step) :
    (⟨stamp, none, []⟩ : Writer σ).run p s = (.refused s, ⟨stamp, none, []⟩) := by
  cases s with
  | close => rfl
  | write m =>
    have hpack : (⟨stamp, none, []⟩ : Writer σ).pack p
        (((⟨stamp, none, []⟩ : Writer σ).begin m).operations) =
          (some .archiveClosed, ⟨stamp, none, []⟩) := pack_of_closed rfl _ _
    have hheader : ((⟨stamp, none, []⟩ : Writer σ).begin m).stage ≠ .done := Stage.noConfusion
    have hdrain := Chunks.drain_fault hheader hpack
    rw [run, hdrain]
    rfl

theorem runAll_of_closed (p : Packer σ) (stamp : Stamp) (steps : List Step) :
    (⟨stamp, none, []⟩ : Writer σ).runAll p steps = (steps.map .refused, ⟨stamp, none, []⟩) := by
  induction steps with
  | nil => rfl
  | cons s steps ih => simp only [runAll, run_of_closed, ih, List.map_cons]

end Writer

theorem bytes_append (outcomes outcomes' : List Outcome) :
    Outcome.bytes (outcomes ++ outcomes') = Outcome.bytes outcomes ++ Outcome.bytes outcomes' :=
  List.flatMap_append

theorem bytes_singleton (chunks : List Bytes) :
    Outcome.bytes [.written chunks] = chunks.flatten := by
  simp [Outcome.bytes, Outcome.written, List.flatMap_map]

theorem bytes_written (parts : List (List Bytes)) :
    Outcome.bytes (parts.map .written) = parts.flatten.flatten := by
  induction parts with
  | nil => rfl
  | cons chunks parts ih =>
    rw [List.map_cons, ← List.singleton_append, bytes_append, ih, bytes_singleton,
      List.flatten_cons, List.flatten_append]

/-- What is refused adds no byte. -/
theorem bytes_refused (steps : List Step) : Outcome.bytes (steps.map .refused) = [] := by
  induction steps with
  | nil => rfl
  | cons s steps ih =>
    rw [List.map_cons, ← List.singleton_append, bytes_append, ih, List.append_nil]
    cases s <;> rfl

namespace Writer

/-- **The chunks up to the first closing are an archive that holds the members**, if the packer is
faithful; whatever is tried behind it is refused and adds no byte. -/
theorem exists_parts_runAll {accepts : List Archive.Member → Prop} (hp : p.IsFaithful accepts)
    (writes : List NewMember) (after : List Step) (hnames : (writes.map (·.name stamp)).Nodup)
    (haccepts : accepts (writes.map (·.packed stamp))) :
    ∃ parts : List (List Bytes), parts.length = writes.length + 1 ∧
      ((create p stamp).runAll p (writes.map .write ++ .close :: after)).1 =
        parts.map .written ++ after.map .refused ∧
      Stores parts.flatten.flatten (writes.map (·.packed stamp)) ∧
      Outcome.bytes ((create p stamp).runAll p (writes.map .write ++ .close :: after)).1 =
        parts.flatten.flatten := by
  have hmembers : (writes.map (·.cut stamp)).map (·.member) = writes.map (·.packed stamp) := by
    rw [List.map_map]
    exact List.map_congr_left fun m _ => m.member_cut stamp
  have hcuts : (writes.map (·.cut stamp)).map (·.name) = writes.map (·.name stamp) := by
    rw [List.map_map]
    rfl
  obtain ⟨z, b, hpacked, hfault, hstores⟩ :=
    hp (writes.map (·.cut stamp)) (hcuts ▸ hnames) (hmembers ▸ haccepts)
  rw [List.flatMap_map] at hpacked
  obtain ⟨parts, hruns, hparts⟩ := runAll_write_of_performAll? hpacked
  obtain ⟨last, hclose, hlast⟩ := run_close hfault stamp
  have hlength : parts.length = writes.length := by
    have hlength := length_runAll p ⟨stamp, some p.initial, []⟩ (writes.map .write)
    rwa [hruns, List.length_map, List.length_map] at hlength
  have hall : ((create p stamp).runAll p (writes.map .write ++ .close :: after)).1 =
      (parts ++ [last]).map .written ++ after.map .refused := by
    rw [runAll_append]
    simp only [create, hruns, runAll, hclose, runAll_of_closed, List.map_append, List.map_cons,
      List.map_nil, List.append_assoc, List.singleton_append]
  have hbytes : (parts ++ [last]).flatten.flatten = b ++ (p.finish z).emitted := by
    rw [List.flatten_append, List.flatten_append, hparts, List.flatten_singleton, hlast]
  refine ⟨parts ++ [last], ?_, hall, ?_, ?_⟩
  · rw [List.length_append, hlength, List.length_singleton]
  · rw [hbytes, ← hmembers]
    exact hstores
  · rw [hall, bytes_append, bytes_written, bytes_refused, List.append_nil]

/-- **The law of sessions.**  Every member that is written comes in finitely many chunks, none of
them empty.  Written with a faithful packer, the chunks up to the first closing are an archive that
holds the members, in order; whatever is tried behind it is refused and adds no byte. -/
theorem runAll_stores_written {accepts : List Archive.Member → Prop} (hp : p.IsFaithful accepts)
    (stamp : Stamp) (writes : List NewMember) (after : List Step)
    (hnames : (writes.map (·.name stamp)).Nodup)
    (haccepts : accepts (writes.map (·.packed stamp))) :
    (∀ (w : Writer σ) (m : NewMember),
      (w.run p (.write m)).1.items.length ≤ m.units.length + 4 ∧
      ∀ chunk, .ok chunk ∈ (w.run p (.write m)).1.items → chunk ≠ []) ∧
    ∃ parts : List (List Bytes), parts.length = writes.length + 1 ∧
      ((create p stamp).runAll p (writes.map .write ++ .close :: after)).1 =
        parts.map .written ++ after.map .refused ∧
      Stores parts.flatten.flatten (writes.map (·.packed stamp)) ∧
      Outcome.bytes ((create p stamp).runAll p (writes.map .write ++ .close :: after)).1 =
        parts.flatten.flatten :=
  ⟨fun _ _ => ⟨Chunks.length_drain_le p _, fun _ => Chunks.ne_nil_of_mem_drain⟩,
    exists_parts_runAll hp writes after hnames haccepts⟩

/-- Two members, the second one without units and under the default name. -/
theorem runAll_stores_written_sample :
    ∃ parts : List (List Bytes), parts.length = 3 ∧
      ((create Archive.storing sampleStamp).runAll Archive.storing
        [.write ⟨[sampleUnit], some "a.tmx".toList⟩, .write ⟨[], none⟩, .close,
          .write ⟨[sampleUnit], some "c.tmx".toList⟩, .close]).1 =
        parts.map .written ++ [⟨[.error .archiveClosed], [sampleUnit]⟩, ⟨[], []⟩] ∧
      Stores parts.flatten.flatten
        [NewMember.packed sampleStamp ⟨[sampleUnit], some "a.tmx".toList⟩,
          NewMember.packed sampleStamp ⟨[], none⟩] := by
  have hfits : Fits
      ([⟨[sampleUnit], some "a.tmx".toList⟩, ⟨[], none⟩].map (NewMember.packed sampleStamp)) := by
    refine ⟨by decide, by decide +kernel, by decide +kernel, by decide +kernel⟩
  obtain ⟨-, parts, hlength, houtcomes, hstores, -⟩ := runAll_stores_written
    Archive.storing_isFaithful sampleStamp [⟨[sampleUnit], some "a.tmx".toList⟩, ⟨[], none⟩]
    [.write ⟨[sampleUnit], some "c.tmx".toList⟩, .close] (by decide +kernel) hfits
  exact ⟨parts, hlength, houtcomes, hstores⟩

end Writer

end Bitext.Tmx
