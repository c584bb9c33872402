import Bitext.Proofs.Job.Listing

/-!
# Deleting exports

Deleting an export is to touch nothing else: what is listed afterwards is what was listed before
without the files of the export, and an identifier that is not listed changes nothing that is kept.
The identifier is joined to the directory of the user as it is, and whatever directory the path
leads to is removed.  For the name of an export that is the directory of the export, but the empty
identifier leads to the directory of the user, two dots lead to that of all users, and an absolute
path leads anywhere.

## Main definitions

* `Exports.Reached`: the file trees that runs and deletions come to.
* `Exports.TouchesOnly`: deleting an export touches nothing else.
* `Exports.IsProtected`: what deleting an export has to leave as it is.

## Main results

* `Exports.Reached.isSound`: runs and deletions keep a file tree sound
* `Exports.isListed_deleted_iff`: what is listed after a deletion
* `Exports.touchesOnly_iff`: which deletions touch nothing else
-/

namespace Bitext.Job.Exports

open Bitext.Path (IsName join)

variable {t : FileTree} {e : Exports} {userName id : Text} {place : Place} {f : ExportFile}

/-- The file tree after an export was deleted. -/
def deleted (e : Exports) (t : FileTree) (userName id : Text) : FileTree :=
  ((e.delete userName id : StateM FileTree _).run t).2

theorem deleted_eq (e : Exports) (t : FileTree) (userName id : Text) :
    e.deleted t userName id = (t.withoutTree (e.finished userName id)).2 := by
  rw [deleted, delete, StateT.run_bind]
  cases hremoved : t.withoutTree (e.finished userName id) with
  | mk result tree =>
    have hrun : (FileAccess.removeTree (e.finished userName id) : StateM FileTree _).run t =
        (result, tree) := hremoved
    rw [hrun]
    -- Whatever the removal answers, the tree is the one that it leaves.
    rcases result with (_ | _) | _ <;> rfl

/-! ## Runs and deletions -/

/-- The file trees that are reached from sound ones by runs, be they successful or not, and by
deletions of whatever identifiers. -/
inductive Reached (e : Exports) : FileTree → Prop where
  | start {t : FileTree} (h : t.IsSound) : Reached e t
  | run {t : FileTree} {α : Type} (h : Reached e t) (backend : Backend α) (r : ExportRequest)
      (id : Text) (created : Timestamp) (hid : IsExportName id) :
      Reached e ((e.run backend r id created : StateM FileTree _).run t).2
  | delete {t : FileTree} (h : Reached e t) (userName id : Text) :
      Reached e (e.deleted t userName id)

section Run

variable {α : Type} (backend : Backend α) (r : ExportRequest) (created : Timestamp)

theorem keepsSound_writeArchive (e : Exports) (path : Text) :
    KeepsSound (e.writeArchive backend r created path : StateM FileTree _) := by
  rw [writeArchive]
  refine (KeepsSound.write path []).bind ?_
  intro emptied
  split
  · exact KeepsSound.pure _
  · split
    · exact KeepsSound.pure _
    · dsimp only
      split
      · exact KeepsSound.pure _
      · refine (KeepsSound.write path _).bind ?_
        intro written
        split
        · exact KeepsSound.pure _
        · exact KeepsSound.pure _

/-- **A run** keeps a file tree sound: the staging directory only gets another name. -/
theorem keepsSound_run (e : Exports) (hid : IsName id) :
    KeepsSound (e.run backend r id created : StateM FileTree _) := by
  rw [run]
  refine (KeepsSound.makeDirectories _).bind ?_
  intro made
  split
  · exact KeepsSound.pure _
  · refine (keepsSound_writeArchive backend r created e _).bind ?_
    intro written
    split
    · exact (KeepsSound.removeTree _).bind fun _ => KeepsSound.pure _
    · refine (KeepsSound.move hid.dot hid).bind ?_
      intro moved
      split
      · exact KeepsSound.pure _
      · exact KeepsSound.pure _

end Run

/-- **Runs and deletions** keep a file tree sound. -/
theorem Reached.isSound (h : e.Reached t) : t.IsSound := by
  induction h with
  | start h => exact h
  | run _ backend r id created hid ih =>
    exact keepsSound_run backend r created e hid.toIsName _ ih
  | delete _ userName id ih =>
    rw [deleted_eq]
    exact ih.withoutTree _

/-! ## What a deletion has to leave -/

/-- A file is listed among the exports of a user. -/
def Lists (e : Exports) (t : FileTree) (userName : Text) (f : ExportFile) : Prop :=
  ∃ files, e.listing t userName = .ok files ∧ f ∈ files

/-- A place is that of a staging directory, or inside of one. -/
def IsStaged (e : Exports) (t : FileTree) (place : Place) : Prop :=
  ∃ userName id, IsName userName ∧ IsName id ∧ t.placeOf (e.staging userName id) <+: place

/-- **Deleting an export touches nothing else.** -/
structure TouchesOnly (e : Exports) (t : FileTree) (userName id : Text) : Prop where
  /-- The files of the export are listed no more, and all others as before. -/
  listing : ∀ v, IsName v → e.listing (e.deleted t userName id) v =
    (e.listing t v).map (·.filter fun f => v ≠ userName || f.id ≠ id)
  /-- An identifier that is not listed changes no staging directory and nothing outside of where
  exports are kept. -/
  unlisted : (∀ f, e.Lists t userName f → f.id ≠ id) → ∀ place,
    e.IsStaged t place ∨ ¬t.placeOf e.root <+: place →
      (e.deleted t userName id).node? place = t.node? place

/-- What deleting an export has to leave as it is. -/
inductive IsProtected (e : Exports) (t : FileTree) (userName id : Text) : Place → Prop where
  /-- The files of other exports, and the places that the paths to them pass. -/
  | listed {v : Text} {f : ExportFile} {place : Place} (hv : IsName v) (hf : e.Lists t v f)
      (hother : v = userName → f.id ≠ id) (hplace : place ∈ t.wayTo f.path ++ [t.placeOf f.path]) :
      IsProtected e t userName id place
  /-- What is in staging or outside of where exports are kept, if the export is not listed. -/
  | unlisted {place : Place} (hunlisted : ∀ f, e.Lists t userName f → f.id ≠ id)
      (hexists : t.node? place ≠ none)
      (hplace : e.IsStaged t place ∨ ¬t.placeOf e.root <+: place) :
      IsProtected e t userName id place

/-! ## The tree after a deletion -/

theorem node?_deleted_of_loses (h : t.Loses (e.finished userName id) place) :
    (e.deleted t userName id).node? place = none := by
  rw [deleted_eq]
  exact FileTree.node?_of_loses h

theorem node?_deleted_of_not_loses (h : ¬t.Loses (e.finished userName id) place) :
    (e.deleted t userName id).node? place = t.node? place := by
  rw [deleted_eq]
  exact FileTree.node?_of_not_loses h

theorem workingDirectory_deleted (e : Exports) (t : FileTree) (userName id : Text) :
    (e.deleted t userName id).workingDirectory = t.workingDirectory := by
  rw [deleted_eq]
  exact FileTree.workingDirectory_withoutTree t _

/-! ## What is listed after a deletion -/

theorem lists_iff (h : t.IsSound) (hu : IsName userName) :
    e.Lists t userName f ↔ e.IsListed t userName f := by
  obtain ⟨files, hlisting, hmem, -⟩ := exists_listing h e hu
  rw [← hmem, Lists, hlisting]
  constructor
  · rintro ⟨_, ⟨⟩, hf⟩
    exact hf
  · intro hf
    exact ⟨files, rfl, hf⟩

namespace IsListed

/-- The path of a listed file passes directories and leads to a file. -/
theorem node?_ne_none (h : e.IsListed t userName f)
    (hplace : place ∈ t.wayTo f.path ++ [t.placeOf f.path]) : t.node? place ≠ none := by
  obtain ⟨content, hnode, -⟩ := h.file
  rw [h.path, FileTree.wayTo_join h.name, FileTree.placeOf_join h.name] at hplace
  rcases List.mem_append.mp hplace with hway | hfile
  · rw [h.opens place hway]
    exact Option.some_ne_none _
  · rw [List.mem_singleton.mp hfile, hnode]
    exact Option.some_ne_none _

/-- A file stays listed as long as its path passes the same. -/
theorem of_node?_eq {t' : FileTree} (h : e.IsListed t userName f)
    (hworking : t'.workingDirectory = t.workingDirectory)
    (hsame : ∀ w ∈ t.wayTo f.path ++ [t.placeOf f.path], t'.node? w = t.node? w) :
    e.IsListed t' userName f := by
  obtain ⟨content, hnode, hsize⟩ := h.file
  rw [h.path, FileTree.wayTo_join h.name, FileTree.placeOf_join h.name] at hsame
  refine ⟨h.id, h.name, ?_, ⟨content, ?_, hsize⟩, h.path⟩
  · intro w hw
    rw [FileTree.wayTo_congr hworking, FileTree.placeOf_congr hworking] at hw
    rw [hsame w (List.mem_append_left _ hw)]
    exact h.opens w hw
  · rw [FileTree.placeOf_congr hworking, hsame _ (List.mem_append_right _ List.mem_cons_self)]
    exact hnode

/-- A listed file is lost with its export. -/
theorem loses (h : e.IsListed t userName f) :
    t.Loses (e.finished userName f.id) (t.placeOf f.path) := by
  have hresolve := FileTree.resolve_of_opens h.id.toIsName h.opens
  have hdirectory := h.opens _ (List.mem_append_right _ List.mem_cons_self)
  rw [h.path, FileTree.placeOf_join h.name]
  refine ⟨_, hresolve, hdirectory, List.prefix_append _ _, ?_⟩
  intro hsame
  have hlength := congrArg List.length hsame
  rw [List.length_append, List.length_singleton] at hlength
  exact absurd hlength (Nat.succ_ne_self _)

end IsListed

/-- **What is listed after a deletion**: the files that were listed, if no place on the way to them
is lost. -/
theorem isListed_deleted_iff {v : Text} :
    e.IsListed (e.deleted t userName id) v f ↔ e.IsListed t v f ∧
      ∀ w ∈ t.wayTo f.path ++ [t.placeOf f.path], ¬t.Loses (e.finished userName id) w := by
  have hworking := workingDirectory_deleted e t userName id
  constructor
  · intro hf
    -- What is passed afterwards is still there, so it was not lost.
    have hkept : ∀ w ∈ t.wayTo f.path ++ [t.placeOf f.path],
        ¬t.Loses (e.finished userName id) w := by
      intro w hw hloses
      rw [← FileTree.wayTo_congr hworking, ← FileTree.placeOf_congr hworking] at hw
      exact hf.node?_ne_none hw (node?_deleted_of_loses hloses)
    refine ⟨hf.of_node?_eq hworking.symm ?_, hkept⟩
    intro w hw
    rw [FileTree.wayTo_congr hworking, FileTree.placeOf_congr hworking] at hw
    exact (node?_deleted_of_not_loses (hkept w hw)).symm
  · rintro ⟨hf, hkept⟩
    exact hf.of_node?_eq hworking fun w hw => node?_deleted_of_not_loses (hkept w hw)

/-! ## What deletions touch -/

/-- A deletion that takes nothing it has to leave touches nothing else. -/
theorem touchesOnly_of_not_isProtected (h : t.IsSound)
    (hkept : ∀ place, t.Loses (e.finished userName id) place →
      ¬e.IsProtected t userName id place) : e.TouchesOnly t userName id where
  listing := by
    intro v hv
    have hsound : (e.deleted t userName id).IsSound := by
      rw [deleted_eq]
      exact h.withoutTree _
    refine listing_eq_filter h hsound hv fun f => ?_
    rw [isListed_deleted_iff, Bool.or_eq_true, decide_eq_true_eq, decide_eq_true_eq]
    refine and_congr_right fun hf => ?_
    constructor
    -- The files of the export are lost with its directory.
    · intro hway
      by_contra hother
      rw [not_or, not_not, not_not] at hother
      obtain ⟨rfl, rfl⟩ := hother
      exact hway _ (List.mem_append_right _ List.mem_cons_self) hf.loses
    -- All other listed files are protected, and so is what leads to them.
    · intro hother w hw hloses
      refine hkept w hloses (.listed hv ((lists_iff h hv).mpr hf) ?_ hw)
      intro hsame
      exact hother.resolve_left fun hne => hne hsame
  unlisted := by
    intro hunlisted place hplace
    by_cases hloses : t.Loses (e.finished userName id) place
    · have hnone : t.node? place = none := by
        by_contra hexists
        exact hkept place hloses (.unlisted hunlisted hexists hplace)
      rw [node?_deleted_of_loses hloses, hnone]
    · exact node?_deleted_of_not_loses hloses

/-- A deletion that touches nothing else takes nothing it has to leave. -/
theorem TouchesOnly.not_isProtected (h : t.IsSound) (htouches : e.TouchesOnly t userName id)
    (hloses : t.Loses (e.finished userName id) place) : ¬e.IsProtected t userName id place := by
  have hsound : (e.deleted t userName id).IsSound := by
    rw [deleted_eq]
    exact h.withoutTree _
  rintro (⟨hv, ⟨files, hlisting, hf⟩, hother, hway⟩ | ⟨hunlisted, hexists, hplace⟩)
  · rename_i v f
    have hafter : e.Lists (e.deleted t userName id) v f := by
      have hlisted := htouches.listing v hv
      rw [hlisting] at hlisted
      refine ⟨_, hlisted, List.mem_filter.mpr ⟨hf, ?_⟩⟩
      by_cases hsame : v = userName
      · exact Bool.or_eq_true_iff.mpr (.inr (decide_eq_true (hother hsame)))
      · exact Bool.or_eq_true_iff.mpr (.inl (decide_eq_true hsame))
    obtain ⟨-, hkept⟩ := isListed_deleted_iff.mp ((lists_iff hsound hv).mp hafter)
    exact hkept place hway hloses
  · rw [← htouches.unlisted hunlisted place hplace] at hexists
    exact hexists (node?_deleted_of_loses hloses)

theorem placeOf_finished (hu : IsName userName) (hid : IsName id) :
    t.placeOf (e.finished userName id) = t.placeOf e.root ++ [userName, id] := by
  rw [finished, FileTree.placeOf_join hid, userDirectory, FileTree.placeOf_join hu,
    List.append_assoc]
  rfl

theorem placeOf_staging (hu : IsName userName) (hid : IsName id) :
    t.placeOf (e.staging userName id) = t.placeOf e.root ++ [userName, '.' :: id] :=
  placeOf_finished hu hid.dot

/-- On the way to a listed file there are the places on the way to the exports, and those around the
file. -/
theorem IsListed.prefix_of_mem_wayTo (hf : e.IsListed t userName f) (hu : IsName userName)
    (hplace : place ∈ t.wayTo f.path ++ [t.placeOf f.path]) :
    place ∈ t.wayTo e.root ∨ place <+: t.placeOf e.root ++ [userName, f.id] ++ [f.name] := by
  rw [hf.path, FileTree.wayTo_join hf.name, FileTree.placeOf_join hf.name,
    placeOf_finished hu hf.id.toIsName, finished, FileTree.wayTo_join hf.id.toIsName, userDirectory,
    FileTree.wayTo_join hu, FileTree.placeOf_join hu] at hplace
  simp only [List.mem_append, List.mem_singleton, or_assoc] at hplace
  rcases hplace with hway | rfl | rfl | rfl | rfl
  · exact .inl hway
  · exact .inr ⟨[userName, f.id, f.name], by simp⟩
  · exact .inr ⟨[f.id, f.name], by simp⟩
  · exact .inr ⟨[f.name], rfl⟩
  · exact .inr List.prefix_rfl

/-- **The name of an export** leads to nothing that has to be left, unless the way to the exports
leads through the export itself. -/
theorem not_isProtected_of_isExportName (hsound : t.IsSound) (hu : IsName userName)
    (hid : IsExportName id) (hroot : ¬t.LeadsThrough e.root (t.placeOf (e.finished userName id)))
    (hloses : t.Loses (e.finished userName id) place) : ¬e.IsProtected t userName id place := by
  have hinside : t.placeOf e.root ++ [userName, id] <+: place := by
    obtain ⟨removed, hresolve, -, hinside, -⟩ := hloses
    obtain ⟨-, rfl⟩ := (FileTree.resolve_eq_ok (Path.join_ne_nil hid.toIsName)).mp hresolve
    rw [FileTree.target_join hid.toIsName, ← FileTree.placeOf_join hid.toIsName] at hinside
    rwa [← placeOf_finished hu hid.toIsName]
  rintro (⟨hv, hf, hother, hway⟩ | ⟨-, -, ⟨v, id', hv, hid', hstaged⟩ | houtside⟩)
  · have hlisted := (lists_iff hsound hv).mp hf
    rcases hlisted.prefix_of_mem_wayTo hv hway with hway | hbelow
    · exact hroot ⟨place, hway, by rwa [placeOf_finished hu hid.toIsName]⟩
    -- The file would be in the directory of the export.
    · have hfile := hinside.trans hbelow
      rw [List.append_assoc, List.prefix_append_right_inj] at hfile
      obtain ⟨huser, hfile⟩ := List.cons_prefix_cons.mp hfile
      obtain ⟨hexport, -⟩ := List.cons_prefix_cons.mp hfile
      exact hother huser.symm hexport.symm
  -- A staging directory has a dot in front of its name, and the export has none.
  · rw [placeOf_staging hv hid'] at hstaged
    have hbelow := List.prefix_of_prefix_length_le hinside hstaged (by simp)
    rw [List.prefix_append_right_inj] at hbelow
    obtain ⟨-, hlast⟩ := List.cons_prefix_cons.mp hbelow
    obtain ⟨rfl, -⟩ := List.cons_prefix_cons.mp hlast
    exact hid.visible rfl
  · exact houtside ((List.prefix_append _ _).trans hinside)

/-- **Which deletions touch nothing else.**  Exactly what is lost with the directory that the
identifier leads to is there no more.  So a deletion touches nothing else if and only if nothing is
lost that has to be left, which is so for the name of an export unless the way to the exports leads
through the export itself. -/
theorem touchesOnly_iff (h : e.Reached t) (hu : IsName userName) (id : Text) :
    (∀ place, (t.Loses (e.finished userName id) place →
        (e.deleted t userName id).node? place = none) ∧
      (¬t.Loses (e.finished userName id) place →
        (e.deleted t userName id).node? place = t.node? place)) ∧
    (e.TouchesOnly t userName id ↔ ∀ place, t.Loses (e.finished userName id) place →
      ¬e.IsProtected t userName id place) ∧
    (IsExportName id → ¬t.LeadsThrough e.root (t.placeOf (e.finished userName id)) →
      e.TouchesOnly t userName id) := by
  refine ⟨fun place => ⟨node?_deleted_of_loses, node?_deleted_of_not_loses⟩, ⟨?_, ?_⟩, ?_⟩
  · intro htouches place hloses
    exact htouches.not_isProtected h.isSound hloses
  · exact touchesOnly_of_not_isProtected h.isSound
  · intro hid hroot
    apply touchesOnly_of_not_isProtected h.isSound
    intro place hloses
    exact not_isProtected_of_isExportName h.isSound hu hid hroot hloses

/-! ### An example -/

/-- Exports that are kept at the root. -/
def rootExports : Exports :=
  ⟨"/exports".toList, ⟨"tool".toList, "1".toList, "memory.tmx".toList⟩⟩

/-- What is reached by the only export of a user. -/
def oneExport : FileTree :=
  ((rootExports.run (({} : Memory).backend : Backend Rat)
    { pair := ⟨"en".toList, "es".toList⟩, userName := "alice".toList } "1".toList
    ⟨2024, 5, 6, 7, 8, 9⟩ : StateM FileTree _).run {}).2

theorem reached_oneExport : rootExports.Reached oneExport :=
  .run (.start FileTree.isSound_empty) _ _ _ _ (by decide)

/-- Deleting the export by its name touches nothing else, and neither does deleting another one. -/
theorem touchesOnly_name : rootExports.Reached oneExport ∧ IsName "alice".toList ∧
    rootExports.TouchesOnly oneExport "alice".toList "1".toList ∧
    rootExports.TouchesOnly oneExport "alice".toList "2".toList := by
  have hname : IsName "alice".toList := by decide
  have hroot (id : Text) (hid : IsName id) : ¬oneExport.LeadsThrough rootExports.root
      (oneExport.placeOf (rootExports.finished "alice".toList id)) := by
    rw [placeOf_finished hname hid]
    exact FileTree.not_leadsThrough (by decide) ["alice".toList] id
  refine ⟨reached_oneExport, hname, ?_, ?_⟩
  · exact (touchesOnly_iff reached_oneExport hname "1".toList).2.2 (by decide)
      (hroot _ (by decide))
  · exact (touchesOnly_iff reached_oneExport hname "2".toList).2.2 (by decide)
      (hroot _ (by decide))

/-- **The empty identifier** is that of no export, but deleting it takes the export with it. -/
theorem not_touchesOnly_nil : rootExports.Reached oneExport ∧ IsName "alice".toList ∧
    ((rootExports.listing oneExport "alice".toList).toOption.map fun files => files.map (·.path)) =
      some ["/exports/alice/1/EN_ES.zip".toList] ∧
    ((rootExports.listing oneExport "alice".toList).toOption.map fun files => files.map (·.id)) =
      some ["1".toList] ∧
    (rootExports.listing (rootExports.deleted oneExport "alice".toList [])
      "alice".toList).toOption = some [] ∧
    ¬rootExports.TouchesOnly oneExport "alice".toList [] := by
  have hname : IsName "alice".toList := by decide
  refine ⟨reached_oneExport, hname, by decide +kernel, by decide +kernel, by decide +kernel, ?_⟩
  intro htouches
  have hkept := congrArg (fun list => list.toOption.map List.length)
    (htouches.listing "alice".toList hname)
  revert hkept
  decide +kernel

end Bitext.Job.Exports
