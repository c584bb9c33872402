import Bitext.Job.Export
import Bitext.Proofs.Files.Sound
import Bitext.Proofs.Text.Order

/-!
# Lists of exports

Listing finds the files of all finished exports of a user: what is at a name in a directory whose
name is that of an export, in the directory of the user.  No file is listed twice, and the list is
in the order of identifiers and names; so it is known as soon as it is known what is on it.

## Main definitions

* `IsExportName`: what a finished export can be called.
* `Exports.listing`: what listing a user's exports yields.
* `Exports.IsListed`: files that are found where finished exports are.

## Main results

* `Exports.exists_listing`: what is listed
* `Exports.listing_eq_filter`: lists of two trees of which the first lists some files of the second
-/

namespace Bitext.Job

open Bitext.Path (IsName join)

variable {t : FileTree} {e : Exports} {userName directory id name : Text} {f g k : ExportFile}

/-- What a finished export can be called: a name that does not start with a dot. -/
structure IsExportName (id : Text) : Prop extends IsName id where
  visible : id.head? ≠ some '.'

instance (id : Text) : Decidable (IsExportName id) :=
  decidable_of_iff (IsName id ∧ id.head? ≠ some '.') ⟨fun ⟨h, h'⟩ => ⟨h, h'⟩, fun h => ⟨h.1, h.2⟩⟩

/-! ## The order of lists -/

/-- A file is listed before another one. -/
def ExportFile.precedes (a b : ExportFile) : Bool :=
  Text.precedes a.id b.id || (a.id == b.id && Text.atMost a.name b.name)

namespace ExportFile

theorem precedes_iff : f.precedes g = true ↔
    Text.precedes f.id g.id = true ∨ f.id = g.id ∧ Text.atMost f.name g.name = true := by
  rw [precedes, Bool.or_eq_true, Bool.and_eq_true, beq_iff_eq]

theorem precedes_trans (hfg : f.precedes g = true) (hgk : g.precedes k = true) :
    f.precedes k = true := by
  rw [precedes_iff] at *
  rcases hfg with hfg | ⟨hid, hfg⟩
  · rcases hgk with hgk | ⟨hid, -⟩
    · exact .inl (Text.precedes_trans hfg hgk)
    · exact .inl (hid ▸ hfg)
  · rcases hgk with hgk | ⟨hid', hgk⟩
    · exact .inl (hid ▸ hgk)
    · exact .inr ⟨hid.trans hid', Text.atMost_trans hfg hgk⟩

theorem precedes_total (f g : ExportFile) : f.precedes g = true ∨ g.precedes f = true := by
  rw [precedes_iff, precedes_iff]
  rcases eq_or_ne f.id g.id with hid | hid
  · rcases Text.atMost_total f.name g.name with hname | hname
    · exact .inl (.inr ⟨hid, hname⟩)
    · exact .inr (.inr ⟨hid.symm, hname⟩)
  · by_cases hfg : Text.precedes f.id g.id = true
    · exact .inl (.inl hfg)
    · exact .inr (.inl (Text.precedes_of_not hid hfg))

/-- Files of which either may come first have the same identifier and the same name. -/
theorem precedes_antisymm (hfg : f.precedes g = true) (hgf : g.precedes f = true) :
    f.id = g.id ∧ f.name = g.name := by
  rw [precedes_iff] at hfg hgf
  rcases hfg with hfg | ⟨hid, hfg⟩
  · rcases hgf with hgf | ⟨hid, -⟩
    · rw [Text.not_precedes_of_precedes hfg] at hgf
      cases hgf
    · exact absurd hid (Text.ne_of_precedes hfg)
  · refine ⟨hid, ?_⟩
    rcases hgf with hgf | ⟨-, hgf⟩
    · exact absurd hid (Text.ne_of_precedes hgf)
    · rcases Text.atMost_iff.mp hfg with hfg | hname
      · rw [Text.atMost, hfg] at hgf
        cases hgf
      · exact hname

end ExportFile

namespace Exports

/-! ## What listing reads -/

/-- What is found at a path, if it is a file. -/
def fileAt? (t : FileTree) (directory id name : Text) : Option ExportFile :=
  match t.locate? (join directory name) with
  | some (_, .file content) => some ⟨name, join directory name, id, content.length⟩
  | _ => none

/-- The files of an export, or none if it is in staging. -/
def filesAt (t : FileTree) (directory id : Text) : List ExportFile :=
  if id.head? == some '.' then []
  else if t.hasDirectoryAt (join directory id) then
    (t.namesIn (t.target (join directory id))).filterMap (fileAt? t (join directory id) id)
  else []

/-- The files of all exports of a user. -/
def filesFor (e : Exports) (t : FileTree) (userName : Text) : List ExportFile :=
  if t.hasDirectoryAt (e.userDirectory userName) then
    (t.namesIn (t.target (e.userDirectory userName))).flatMap
      (filesAt t (e.userDirectory userName))
  else []

theorem run_isDirectory (path : Text) :
    (FileAccess.isDirectory path : StateM FileTree Bool).run t =
      (t.hasDirectoryAt path, t) := rfl

theorem run_names (path : Text) :
    (DirectoryListing.names path : StateM FileTree _).run t =
      ((t.resolve path).map t.namesIn, t) := rfl

theorem run_size? (path : Text) :
    (DirectoryListing.size? path : StateM FileTree _).run t =
      ((t.locate? path).bind fun (_, node) =>
        match node with
        | .directory => none
        | .file content => some content.length, t) := rfl

theorem run_filesIn (directory id : Text) (names : List Text) :
    (filesIn directory id names : StateM FileTree _).run t =
      (names.filterMap (fileAt? t directory id), t) := by
  induction names with
  | nil => rfl
  | cons name names ih =>
    rw [filesIn, StateT.run_bind, ih, List.filterMap_cons, fileAt?]
    show StateT.run (_ >>= _) t = _
    rw [StateT.run_bind, run_size?]
    rcases t.locate? (join directory name) with _ | ⟨place, _ | content⟩
    · rfl
    · rfl
    · rfl

theorem run_filesOf (directory : Text) (ids : List Text) :
    (filesOf directory none ids : StateM FileTree _).run t =
      (.ok (ids.flatMap (filesAt t directory)), t) := by
  induction ids with
  | nil => rfl
  | cons id ids ih =>
    rw [filesOf, List.flatMap_cons, filesAt]
    by_cases hstaged : (id.head? == some '.') = true
    · rw [if_pos hstaged, hstaged, Bool.true_or, if_pos rfl, ih, List.nil_append]
    · rw [if_neg hstaged, if_neg (by rw [Option.any_none, Bool.or_false]; exact hstaged),
        StateT.run_bind, run_isDirectory]
      by_cases hdirectory : t.hasDirectoryAt (join directory id) = true
      -- What was found to be a directory can be listed.
      · rw [if_pos hdirectory, hdirectory]
        show StateT.run (_ >>= _) t = _
        rw [StateT.run_bind, run_names, FileTree.resolve_of_hasDirectoryAt hdirectory]
        show StateT.run (_ >>= _) t = _
        rw [StateT.run_bind, run_filesIn]
        show StateT.run (_ >>= _) t = _
        rw [StateT.run_bind, ih]
        rfl
      · rw [if_neg hdirectory, Bool.eq_false_iff.mpr hdirectory, List.nil_append]
        exact ih

theorem run_list (e : Exports) (t : FileTree) (userName : Text) :
    (e.list userName none : StateM FileTree _).run t =
      (.ok ((e.filesFor t userName).mergeSort ExportFile.precedes), t) := by
  rw [list, StateT.run_bind, run_isDirectory, filesFor]
  by_cases hdirectory : t.hasDirectoryAt (e.userDirectory userName) = true
  · rw [if_pos hdirectory, hdirectory]
    show StateT.run (_ >>= _) t = _
    rw [StateT.run_bind, run_names, FileTree.resolve_of_hasDirectoryAt hdirectory]
    show StateT.run (_ >>= _) t = _
    rw [StateT.run_bind, run_filesOf]
    rfl
  · rw [if_neg hdirectory, Bool.eq_false_iff.mpr hdirectory, List.mergeSort_nil]
    rfl

/-! ## What is listed -/

/-- What listing the exports of a user yields. -/
def listing (e : Exports) (t : FileTree) (userName : Text) : Except Failure (List ExportFile) :=
  ((e.list userName none : StateM FileTree _).run t).1

/-- A file is found where the finished exports of a user are. -/
structure IsListed (e : Exports) (t : FileTree) (userName : Text) (f : ExportFile) : Prop where
  id : IsExportName f.id
  name : IsName f.name
  opens : t.Opens (e.finished userName f.id)
  file : ∃ content, t.node? (t.placeOf (e.finished userName f.id) ++ [f.name]) =
    some (.file content) ∧ f.size = content.length
  path : f.path = join (e.finished userName f.id) f.name

theorem fileAt?_eq_some (hname : IsName name) :
    fileAt? t directory id name = some f ↔
      t.Opens directory ∧ ∃ content, t.node? (t.placeOf directory ++ [name]) =
        some (.file content) ∧ ⟨name, join directory name, id, content.length⟩ = f := by
  have hlocate (content : Bytes) :
      t.locate? (join directory name) = some (t.placeOf directory ++ [name], .file content) ↔
        t.Opens directory ∧ t.node? (t.placeOf directory ++ [name]) = some (.file content) := by
    rw [FileTree.locate?_eq_some (Path.join_ne_nil hname), FileTree.passed_join hname,
      FileTree.target_join hname, and_iff_right rfl]
    rfl
  rw [fileAt?]
  constructor
  · intro hfile
    split at hfile
    · rename_i place content hsome
      obtain ⟨-, htarget, -⟩ := (FileTree.locate?_eq_some (Path.join_ne_nil hname)).mp hsome
      rw [FileTree.target_join hname] at htarget
      subst htarget
      obtain ⟨hopens, hnode⟩ := (hlocate content).mp hsome
      exact ⟨hopens, content, hnode, Option.some.inj hfile⟩
    · cases hfile
  · rintro ⟨hopens, content, hnode, rfl⟩
    rw [(hlocate content).mpr ⟨hopens, hnode⟩]

theorem fileAt?_fields (h : fileAt? t directory id name = some f) : f.id = id ∧ f.name = name := by
  rw [fileAt?] at h
  split at h
  · cases h
    exact ⟨rfl, rfl⟩
  · cases h

theorem id_of_mem_filesAt (h : f ∈ filesAt t directory id) : f.id = id := by
  rw [filesAt] at h
  split at h
  · cases h
  · split at h
    · obtain ⟨name, -, hfile⟩ := List.mem_filterMap.mp h
      exact (fileAt?_fields hfile).1
    · cases h

section Sound

variable (h : t.IsSound)

include h

theorem mem_filesAt (hid : IsName id) :
    f ∈ filesAt t directory id ↔ id.head? ≠ some '.' ∧ t.Opens (join directory id) ∧
      ∃ name, IsName name ∧ ∃ content,
        t.node? (t.placeOf (join directory id) ++ [name]) = some (.file content) ∧
          ⟨name, join (join directory id) name, id, content.length⟩ = f := by
  have htarget : t.target (join directory id) = t.placeOf (join directory id) := by
    rw [FileTree.target_join hid, FileTree.placeOf_join hid]
  rw [filesAt, htarget]
  by_cases hstaged : (id.head? == some '.') = true
  · rw [if_pos hstaged]
    exact iff_of_false List.not_mem_nil fun hlisted => hlisted.1 (beq_iff_eq.mp hstaged)
  · rw [if_neg hstaged, ← FileTree.hasDirectoryAt_join hid]
    by_cases hdirectory : t.hasDirectoryAt (join directory id) = true
    · rw [if_pos hdirectory, and_iff_right fun hdot => hstaged (beq_iff_eq.mpr hdot),
        and_iff_right hdirectory, List.mem_filterMap]
      constructor
      · rintro ⟨name, hmem, hfile⟩
        have hname : IsName name := h.isName _ _ ((t.mem_namesIn _ _).mp hmem)
        obtain ⟨-, hcontent⟩ := (fileAt?_eq_some hname).mp hfile
        exact ⟨name, hname, hcontent⟩
      · rintro ⟨name, hname, content, hnode, hfile⟩
        refine ⟨name, (t.mem_namesIn _ _).mpr (by rw [hnode]; exact Option.some_ne_none _), ?_⟩
        exact (fileAt?_eq_some hname).mpr
          ⟨(FileTree.hasDirectoryAt_join hid).mp hdirectory, content, hnode, hfile⟩
    · rw [if_neg hdirectory]
      exact iff_of_false List.not_mem_nil fun hlisted => hdirectory hlisted.2.1

/-- What listing finds is what is there. -/
theorem mem_filesFor (hu : IsName userName) :
    f ∈ e.filesFor t userName ↔ e.IsListed t userName f := by
  have htarget : t.target (e.userDirectory userName) = t.placeOf (e.userDirectory userName) := by
    rw [userDirectory, FileTree.target_join hu, FileTree.placeOf_join hu]
  rw [filesFor, htarget]
  constructor
  · intro hf
    split at hf
    · obtain ⟨id, hmem, hf⟩ := List.mem_flatMap.mp hf
      have hid : IsName id := h.isName _ _ ((t.mem_namesIn _ _).mp hmem)
      obtain ⟨hvisible, hopens, name, hname, content, hnode, rfl⟩ := (mem_filesAt h hid).mp hf
      exact ⟨⟨hid, hvisible⟩, hname, hopens, ⟨content, hnode, rfl⟩, rfl⟩
    · cases hf
  · rintro ⟨hid, hname, hopens, ⟨content, hnode, hsize⟩, hpath⟩
    obtain ⟨hopensUser, hdirectory⟩ := (FileTree.opens_join hid.toIsName).mp hopens
    have hfound : t.hasDirectoryAt (e.userDirectory userName) = true :=
      (FileTree.hasDirectoryAt_join hu).mpr hopensUser
    rw [if_pos hfound]
    refine List.mem_flatMap.mpr
      ⟨f.id, (t.mem_namesIn _ _).mpr (by rw [hdirectory]; exact Option.some_ne_none _), ?_⟩
    refine (mem_filesAt h hid.toIsName).mpr
      ⟨hid.visible, hopens, f.name, hname, content, hnode, ?_⟩
    rw [← hsize]
    exact hpath ▸ rfl

theorem nodup_filesAt (directory id : Text) : (filesAt t directory id).Nodup := by
  rw [filesAt]
  split
  · exact List.nodup_nil
  · split
    · refine (h.nodup_namesIn _).filterMap ?_
      intro name name' f hf hf'
      exact (fileAt?_fields hf).2.symm.trans (fileAt?_fields hf').2
    · exact List.nodup_nil

/-- No file is found twice: those of different exports have different identifiers. -/
theorem nodup_filesFor (e : Exports) (userName : Text) : (e.filesFor t userName).Nodup := by
  rw [filesFor]
  split
  · refine List.nodup_flatMap.mpr ⟨fun id _ => nodup_filesAt h _ id, ?_⟩
    refine (h.nodup_namesIn _).imp fun {id id'} hne => ?_
    intro f hf hf'
    exact hne ((id_of_mem_filesAt hf).symm.trans (id_of_mem_filesAt hf'))
  · exact List.nodup_nil

/-- **What is listed**: the files where the finished exports are, once each, and in order. -/
theorem exists_listing (e : Exports) (hu : IsName userName) :
    ∃ files, e.listing t userName = .ok files ∧ (∀ f, f ∈ files ↔ e.IsListed t userName f) ∧
      files.Nodup ∧ files.Pairwise fun f g => f.precedes g := by
  refine ⟨(e.filesFor t userName).mergeSort ExportFile.precedes, ?_, ?_, ?_, ?_⟩
  · rw [listing, run_list]
  · intro f
    rw [List.mem_mergeSort, mem_filesFor h hu]
  · exact (List.mergeSort_perm _ _).nodup_iff.mpr (nodup_filesFor h e userName)
  · apply List.pairwise_mergeSort
    · intro f g k
      exact ExportFile.precedes_trans
    · intro f g
      rw [Bool.or_eq_true]
      exact ExportFile.precedes_total f g

end Sound

/-- A listed file is known by its identifier and its name. -/
theorem IsListed.eq_of_same (hf : e.IsListed t userName f) (hg : e.IsListed t userName g)
    (hid : f.id = g.id) (hname : f.name = g.name) : f = g := by
  obtain ⟨content, hnode, hsize⟩ := hf.file
  obtain ⟨content', hnode', hsize'⟩ := hg.file
  have hpath := hf.path
  rw [hid, hname] at hnode hpath
  rw [hnode] at hnode'
  cases hnode'
  cases f
  cases g
  simp only [ExportFile.mk.injEq]
  exact ⟨hname, hpath.trans hg.path.symm, hid, hsize.trans hsize'.symm⟩

/-- **A list is known** as soon as it is known what is on it. -/
theorem listing_eq_filter {t' : FileTree} {keeps : ExportFile → Bool} (h : t.IsSound)
    (h' : t'.IsSound) (hu : IsName userName)
    (hkeeps : ∀ f, e.IsListed t' userName f ↔ e.IsListed t userName f ∧ keeps f = true) :
    e.listing t' userName = (e.listing t userName).map (·.filter keeps) := by
  obtain ⟨files, hlisting, hmem, hnodup, hsorted⟩ := exists_listing h e hu
  obtain ⟨files', hlisting', hmem', hnodup', hsorted'⟩ := exists_listing h' e hu
  have hperm : files'.Perm (files.filter keeps) := by
    rw [List.perm_ext_iff_of_nodup hnodup' (hnodup.filter _)]
    intro f
    rw [hmem', hkeeps, List.mem_filter, hmem]
  rw [hlisting, hlisting']
  show Except.ok files' = .ok (files.filter keeps)
  congr 1
  -- Two lists in order that have the same files are the same list.
  refine hperm.eq_of_pairwise ?_ hsorted' (hsorted.sublist List.filter_sublist)
  intro f g hf hg hfg hgf
  obtain ⟨hid, hname⟩ := ExportFile.precedes_antisymm hfg hgf
  exact ((hmem' f).mp hf).eq_of_same ((hmem' g).mp (hperm.mem_iff.mpr hg)) hid hname

end Exports

end Bitext.Job
