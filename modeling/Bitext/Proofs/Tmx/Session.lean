import Bitext.Proofs.Tmx.Writer

/-!
# Sessions as writers

A session says which members an archive gets and what is refused; a writer hands out chunks.  With
the packer that lays members out as `encode` does, a writer goes through every sequence of steps as
the session does, with members of any names: both refuse the same steps for the same reason, and
once the archive is closed the chunks are the encoding of the members of the session.

What was written is read back, from the encoding of a session and from the chunks of a writer with
any faithful packer: the units of all members in order, each of them restored.

## Main definitions

* `Session.run`, `Session.runAll`: what a session makes of steps.
* `Represents`: a writer is as far as a session.

## Main results

* `run_storing`: a step keeps the writer as far as the session
* `runAll_storing`: so do all steps
* `bytes_runAll_storing`: the chunks of a closed session
* `Session.readAll_written`: the round trip
-/

namespace Bitext.Tmx

open Archive (Packer Packing Stores Fits storing)

/-- Why a step failed, if it did. -/
def Outcome.fault? (o : Outcome) : Option Error :=
  o.items.findSome? fun
    | .ok _ => none
    | .error fault => some fault

theorem fault?_written (chunks : List Bytes) : (Outcome.written chunks).fault? = none := by
  rw [Outcome.fault?, Outcome.written, List.findSome?_map]
  exact List.findSome?_eq_none_iff.mpr fun _ _ => rfl

namespace Session

/-- What a session makes of a step; a step that fails changes nothing. -/
def run (s : Session) : Step → Option Error × Session
  | .write m =>
    match s.write m.units m.name? with
    | .ok s => (none, s)
    | .error fault => (some fault, s)
  | .close => (none, s.close)

def runAll (s : Session) : List Step → List (Option Error) × Session
  | [] => ([], s)
  | step :: steps =>
    let (fault?, s) := s.run step
    let (faults, s) := runAll s steps
    (fault? :: faults, s)

end Session

/-- **A writer is as far as a session** when the given bytes have been handed out: while it is open,
the packer has the members of the session; when it is closed, the bytes are their encoding. -/
inductive Represents : Writer Packing → Session → Bytes → Prop
  | opened {stamp : Stamp} {members : List WrittenMember} {z : Packing}
    (h : z.members = (Session.mk stamp members false).archive) :
    Represents ⟨stamp, some z, []⟩ ⟨stamp, members, false⟩ z.records
  | closed {stamp : Stamp} {members : List WrittenMember} :
    Represents ⟨stamp, none, []⟩ ⟨stamp, members, true⟩
      (Archive.encode (Session.mk stamp members true).archive)

variable {stamp : Stamp} {z : Packing} {w : Writer Packing} {s : Session} {b : Bytes}
  {m : NewMember}

theorem Represents.bytes_of_isClosed (h : Represents w s b) (hclosed : s.isClosed = true) :
    b = Archive.encode s.archive := by
  cases h with
  | opened h => cases hclosed
  | closed => rfl

/-- The members of a session go by their names. -/
theorem any_name_members (h : z.members = s.archive) (name : Text) :
    z.members.any (·.name = name) = s.members.any (·.name = name) := by
  rw [h, Session.archive, List.any_map]
  rfl

/-- **A name that is taken** is refused before anything is packed. -/
theorem run_write_taken (h : z.members.any (·.name = m.name stamp) = true) :
    (⟨stamp, some z, []⟩ : Writer Packing).run storing (.write m) =
      (⟨[.error (.archiveDamaged "<stream>".toList)], m.units⟩, ⟨stamp, some z, []⟩) := by
  have hstart : storing.perform (.start (m.name stamp) (.ofTimestamp stamp.created)) z =
      ⟨z, [], some (.archiveDamaged "<stream>".toList)⟩ := by
    simp only [storing, h, if_true]
  have hpack : (⟨stamp, some z, []⟩ : Writer Packing).pack storing
      ((⟨stamp, some z, []⟩ : Writer Packing).begin m).operations =
        (some (.archiveDamaged "<stream>".toList), ⟨stamp, some z, []⟩) := by
    simp only [Chunks.operations, Writer.begin, Writer.pack, hstart, List.append_nil]
  have hheader : ((⟨stamp, some z, []⟩ : Writer Packing).begin m).stage ≠ .done :=
    Stage.noConfusion
  rw [Writer.run, Chunks.drain_fault hheader hpack]
  rfl

/-- **A step keeps the writer as far as the session**, and fails in both or in none. -/
theorem run_storing (h : Represents w s b) (step : Step) :
    (w.run storing step).1.fault? = (s.run step).1 ∧
      Represents (w.run storing step).2 (s.run step).2
        (b ++ Outcome.bytes [(w.run storing step).1]) := by
  cases h with
  | @closed stamp members =>
    rw [Writer.run_of_closed]
    have hbytes : Outcome.bytes [.refused step] = [] := bytes_refused [step]
    rw [hbytes, List.append_nil]
    cases step with
    | write m => exact ⟨rfl, .closed⟩
    | close => exact ⟨rfl, .closed⟩
  | @opened stamp members z h =>
    cases step with
    | close =>
      obtain ⟨chunks, hrun, hchunks⟩ := Writer.run_close (p := storing) (z := z) rfl stamp
      rw [hrun, bytes_singleton, hchunks, Archive.finish_storing, h]
      exact ⟨fault?_written chunks, .closed⟩
    | write m =>
      have hnames := any_name_members h (m.name stamp)
      cases htaken : z.members.any (·.name = m.name stamp) with
      | true =>
        have hwrite : (Session.mk stamp members false).write m.units m.name? =
            .error (.archiveDamaged "<stream>".toList) :=
          if_pos (hnames.symm.trans htaken)
        rw [run_write_taken htaken, Session.run, hwrite]
        exact ⟨rfl, (List.append_nil z.records).symm ▸ .opened h⟩
      | false =>
        have hwrite : (Session.mk stamp members false).write m.units m.name? =
            .ok ⟨stamp, members ++ [⟨m.name stamp, documentText stamp m.units⟩], false⟩ :=
          if_neg (Bool.eq_false_iff.mp (hnames.symm.trans htaken))
        have hnew : (m.cut stamp).name ∉ z.members.map (·.name) := by
          intro hmem
          obtain ⟨m', hm', hname⟩ := List.mem_map.mp hmem
          exact absurd (decide_eq_true hname) (List.any_eq_false.mp htaken m' hm')
        obtain ⟨chunks, hrun, hchunks⟩ :=
          Writer.run_write_of_performAll? (Archive.performAll?_operations hnew)
        rw [hrun, bytes_singleton, hchunks, ← Archive.records_begun, Session.run, hwrite]
        refine ⟨fault?_written chunks, .opened ?_⟩
        have hbegun : (⟨z.members, some (m.cut stamp).member⟩ : Packing).members =
            z.members ++ [(m.cut stamp).member] := rfl
        rw [hbegun, h, m.member_cut, Session.archive, Session.archive, List.map_append]
        rfl

/-- **All steps keep the writer as far as the session.** -/
theorem runAll_storing (h : Represents w s b) (steps : List Step) :
    (w.runAll storing steps).1.map Outcome.fault? = (s.runAll steps).1 ∧
      Represents (w.runAll storing steps).2 (s.runAll steps).2
        (b ++ Outcome.bytes (w.runAll storing steps).1) := by
  induction steps generalizing w s b with
  | nil => exact ⟨rfl, (List.append_nil b).symm ▸ h⟩
  | cons step steps ih =>
    obtain ⟨hfault, hstep⟩ := run_storing h step
    obtain ⟨hfaults, hsteps⟩ := ih hstep
    rw [List.append_assoc, ← bytes_append, List.singleton_append] at hsteps
    refine ⟨?_, hsteps⟩
    simp only [Writer.runAll, Session.runAll, List.map_cons, hfault, hfaults]

/-- **The chunks of a session that was closed** are the encoding of its members, and its steps
failed as those of the writer did. -/
theorem bytes_runAll_storing (stamp : Stamp) (steps : List Step)
    (hclosed : (Session.runAll { stamp } steps).2.isClosed = true) :
    ((Writer.create storing stamp).runAll storing steps).1.map Outcome.fault? =
        (Session.runAll { stamp } steps).1 ∧
      Outcome.bytes ((Writer.create storing stamp).runAll storing steps).1 =
        Archive.encode (Session.runAll { stamp } steps).2.archive := by
  have hinitial : Represents (Writer.create storing stamp) { stamp } [] := .opened rfl
  obtain ⟨hfaults, hsteps⟩ := runAll_storing hinitial steps
  exact ⟨hfaults, hsteps.bytes_of_isClosed hclosed⟩

/-! ## Reading back -/

namespace Session

/-- **What a session wrote is read back**: the units of all members, in order, each restored.  So it
is if a writer hands out the archive chunk by chunk. -/
theorem readAll_written (stamp : Stamp) (members : List (Text × List TranslationUnit))
    (hnames : (members.map Prod.fst).Nodup) (hfiles : ∀ m ∈ members, IsFileName m.1)
    (hunits : ∀ m ∈ members, ∀ u ∈ m.2, IsPortable stamp u) :
    let writes := members.map fun m => (⟨m.2, some m.1⟩ : NewMember)
    let AreRead := fun path bytes => ∃ documents, documentsOf {} path bytes = .ok documents ∧
      readAll documents = ((members.flatMap Prod.snd).map restored,
        { documents := members.length, units := (members.flatMap Prod.snd).length })
    ∃ s : Session,
      members.foldlM (fun s m => s.write m.2 (some m.1)) ({ stamp } : Session) = .ok s ∧
      (Fits s.close.archive → Stores (Archive.encode s.close.archive) s.close.archive) ∧
      (∀ path bytes, Stores bytes s.close.archive → AreRead path bytes) ∧
      (∀ {σ : Type} (p : Packer σ) (accepts : List Archive.Member → Prop),
        p.IsFaithful accepts → accepts s.close.archive → ∀ after path,
          AreRead path (Outcome.bytes
            ((Writer.create p stamp).runAll p (writes.map .write ++ .close :: after)).1)) ∧
      ∀ u key, (restored u).properties.get? key =
        if key = fileNameKey then none
        else if key = industryKey then u.industry?
        else if key = kindKey then u.kind?
        else if key = organizationKey then u.organization?
        else u.properties.get? key := by
  intro writes AreRead
  have hwritten := write_members ({ stamp } : Session) members rfl hnames
  rw [List.nil_append] at hwritten
  have harchive := archive_eq stamp members true
  have hread : ∀ path bytes, Stores bytes (writtenArchive stamp members) → AreRead path bytes :=
    fun path bytes hstores => readAll_writtenArchive hfiles hunits hstores path
  have hpacked : writes.map (·.packed stamp) = writtenArchive stamp members := by
    rw [List.map_map]
    rfl
  have hwriteNames : (writes.map (·.name stamp)).Nodup := by
    rw [List.map_map]
    exact hnames
  refine ⟨_, hwritten, Archive.stores_encode, fun path bytes hstores => ?_, ?_,
    fun u key => get?_keptProperties u key⟩
  · exact hread path bytes (harchive ▸ hstores)
  · intro σ p accepts hp haccepts after path
    have haccepted : accepts (writes.map (·.packed stamp)) := by
      rw [hpacked, ← harchive]
      exact haccepts
    obtain ⟨parts, -, -, hstores, hbytes⟩ :=
      Writer.exists_parts_runAll hp writes after hwriteNames haccepted
    rw [hbytes]
    exact hread path _ (hpacked ▸ hstores)

theorem readAll_written_sample :
    ∃ documents, documentsOf {} "a.zip".toList (Outcome.bytes
        ((Writer.create storing sampleStamp).runAll storing
          [.write ⟨[sampleUnit], some "a.tmx".toList⟩, .close]).1) = .ok documents ∧
      (readAll documents).1 = [restored sampleUnit] := by
  obtain ⟨s, hwritten, -, -, hread, -⟩ := readAll_written sampleStamp
    [("a.tmx".toList, [sampleUnit])] (by decide) (by decide)
    (by
      intro m hm u hu
      obtain rfl := List.mem_singleton.mp hm
      obtain rfl := List.mem_singleton.mp hu
      exact isPortable_sampleUnit)
  have hsession : Session.mk sampleStamp
      [⟨"a.tmx".toList, documentText sampleStamp [sampleUnit]⟩] false = s :=
    Except.ok.inj hwritten
  subst hsession
  obtain ⟨documents, hopened, hunits⟩ :=
    hread storing Fits Archive.storing_isFaithful fits_sample [] "a.zip".toList
  exact ⟨documents, hopened, congrArg Prod.fst hunits⟩

end Session

end Bitext.Tmx
