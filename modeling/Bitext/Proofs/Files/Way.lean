import Bitext.Proofs.Files.Path
import Bitext.Proofs.Files.Tree
import Mathlib.Data.List.Infix

/-!
# The way along a path

Where a path leads does not depend on what there is; only whether it can be followed does.  A path
passes places from which a step is taken, and each of them has to be a directory.  If a name is
joined to a path, then the place that the first path leads to is passed as well.

## Main definitions

* `Place.walk`, `Place.way`: where steps lead, and the places on the way.
* `FileTree.target`, `FileTree.passed`: where a path leads, and the places on the way.
* `FileTree.placeOf`, `FileTree.wayTo`: the same for the components of a path.
* `FileTree.LeadsThrough`: whether the way along a path leads into a place.

## Main results

* `FileTree.resolve_eq_ok`: when a path can be followed
* `FileTree.target_join`, `FileTree.passed_join`: the way along a path with a name joined to it
-/

namespace Bitext

namespace Place

/-- Where a step leads. -/
def step (here : Place) (name : Text) : Place :=
  if name = ['.'] then here else if name = "..".toList then here.dropLast else here ++ [name]

/-- Where steps lead. -/
def walk (here : Place) (steps : List Text) : Place := steps.foldl step here

/-- The places from which steps are taken. -/
def way (here : Place) : (steps : List Text) → List Place
  | [] => []
  | name :: rest => here :: way (here.step name) rest

variable {here : Place} {name : Text} {steps : List Text}

theorem step_of_isName (h : Path.IsName name) : here.step name = here ++ [name] := by
  rw [step, if_neg h.ne_dot, if_neg h.ne_dots]

theorem walk_concat (here : Place) (steps : List Text) (name : Text) :
    here.walk (steps ++ [name]) = (here.walk steps).step name := by
  rw [walk, List.foldl_append]
  rfl

theorem way_concat (here : Place) (steps : List Text) (name : Text) :
    here.way (steps ++ [name]) = here.way steps ++ [here.walk steps] := by
  induction steps generalizing here with
  | nil => rfl
  | cons first steps ih =>
    show here :: (here.step first).way (steps ++ [name]) = _
    rw [ih]
    rfl

/-- Without steps upwards, no place on the way is deeper than the place that is reached. -/
theorem length_le_of_mem_way {w : Place} (hsteps : "..".toList ∉ steps) (hw : w ∈ here.way steps) :
    w.length ≤ (here.walk steps).length := by
  induction steps using List.reverseRecOn generalizing w with
  | nil => cases hw
  | append_singleton steps name ih =>
    rw [List.mem_append, List.mem_singleton, not_or] at hsteps
    have hdeeper : (here.walk steps).length ≤ ((here.walk steps).step name).length := by
      rw [step, if_neg (Ne.symm hsteps.2)]
      split
      · exact le_refl _
      · rw [List.length_append]
        exact Nat.le_add_right _ _
    rw [walk_concat]
    rw [way_concat, List.mem_append, List.mem_singleton] at hw
    rcases hw with hw | rfl
    · exact (ih hsteps.1 hw).trans hdeeper
    · exact hdeeper

end Place

namespace FileTree

variable {t : FileTree} {here place : Place} {base name path : Text}

/-- **Steps can be taken** if they are taken from directories only. -/
theorem resolveFrom_eq_ok (steps : List Text) :
    t.resolveFrom here steps = .ok place ↔
      (∀ w ∈ here.way steps, t.node? w = some .directory) ∧ here.walk steps = place := by
  induction steps generalizing here with
  | nil =>
    show Except.ok here = .ok place ↔ _
    rw [Except.ok.injEq]
    exact ⟨fun h => ⟨fun w hw => absurd hw List.not_mem_nil, h⟩, fun h => h.2⟩
  | cons name steps ih =>
    have hstep : (∀ w ∈ here.way (name :: steps), t.node? w = some .directory) ↔
        t.node? here = some .directory ∧
          ∀ w ∈ (here.step name).way steps, t.node? w = some .directory := List.forall_mem_cons
    rw [hstep, and_assoc]
    show _ ↔ _ ∧ _ ∧ (here.step name).walk steps = place
    rw [← ih, resolveFrom, Place.step]
    split
    · rename_i hnode
      simp [hnode]
    · rename_i hnode
      simp [hnode]
    · rename_i hnode
      rw [hnode, and_iff_right rfl]
      split
      · exact Iff.rfl
      · split
        · exact Iff.rfl
        · exact Iff.rfl

/-! ## Paths -/

/-- The place at which a path starts. -/
def start (t : FileTree) (path : Text) : Place :=
  if Path.isAbsolute path then [] else t.workingDirectory

/-- The place that a path leads to. -/
def target (t : FileTree) (path : Text) : Place := (t.start path).walk (Path.steps path)

/-- The places that a path passes. -/
def passed (t : FileTree) (path : Text) : List Place := (t.start path).way (Path.steps path)

/-- The place that the components of a path lead to. -/
def placeOf (t : FileTree) (path : Text) : Place := (t.start path).walk (Path.components path)

/-- The places that the components of a path pass. -/
def wayTo (t : FileTree) (path : Text) : List Place := (t.start path).way (Path.components path)

/-- **A path can be followed** if all places that it passes are directories. -/
theorem resolve_eq_ok (hpath : path ≠ []) :
    t.resolve path = .ok place ↔
      (∀ w ∈ t.passed path, t.node? w = some .directory) ∧ t.target path = place := by
  rw [resolve, if_neg (by simpa using hpath)]
  exact resolveFrom_eq_ok _

section Join

variable (hname : Path.IsName name)

include hname

theorem start_join : t.start (Path.join base name) = t.start base := by
  rw [start, start, Path.isAbsolute_join hname]

theorem placeOf_join : t.placeOf (Path.join base name) = t.placeOf base ++ [name] := by
  rw [placeOf, start_join hname, Path.components_join base hname, Place.walk_concat,
    Place.step_of_isName hname]
  rfl

theorem wayTo_join : t.wayTo (Path.join base name) = t.wayTo base ++ [t.placeOf base] := by
  rw [wayTo, start_join hname, Path.components_join base hname, Place.way_concat]
  rfl

/-- A name that is joined to a path is the last step. -/
theorem target_join : t.target (Path.join base name) = t.placeOf base ++ [name] := by
  rw [← placeOf_join hname, placeOf, target, Path.steps_join base hname,
    Path.components_join base hname]

theorem passed_join : t.passed (Path.join base name) = t.wayTo base ++ [t.placeOf base] := by
  rw [← wayTo_join hname, wayTo, passed, Path.steps_join base hname,
    Path.components_join base hname]

end Join

/-- Ways depend on nothing but where relative paths start. -/
theorem placeOf_congr {t' : FileTree} (h : t'.workingDirectory = t.workingDirectory)
    (path : Text) : t'.placeOf path = t.placeOf path := by
  rw [placeOf, placeOf, start, start, h]

theorem wayTo_congr {t' : FileTree} (h : t'.workingDirectory = t.workingDirectory)
    (path : Text) : t'.wayTo path = t.wayTo path := by
  rw [wayTo, wayTo, start, start, h]

/-! ## What is found at a path -/

theorem locate?_eq_some {node : Node} (hpath : path ≠ []) :
    t.locate? path = some (place, node) ↔
      (∀ w ∈ t.passed path, t.node? w = some .directory) ∧ t.target path = place ∧
        t.node? place = some node := by
  rw [← and_assoc, ← resolve_eq_ok hpath, locate?]
  split
  · rename_i hresolve
    simp [hresolve]
  · rename_i hresolve
    rw [hresolve, Option.map_eq_some_iff, Except.ok.injEq]
    constructor
    · rintro ⟨_, hnode, hsame⟩
      obtain ⟨rfl, rfl⟩ := Prod.mk.inj hsame
      exact ⟨rfl, hnode⟩
    · rintro ⟨rfl, hnode⟩
      exact ⟨node, hnode, rfl⟩

/-- The path leads to a directory. -/
def hasDirectoryAt (t : FileTree) (path : Text) : Bool :=
  (t.locate? path).any (·.2 == .directory)

theorem resolve_of_hasDirectoryAt (h : t.hasDirectoryAt path = true) :
    t.resolve path = .ok (t.target path) := by
  obtain ⟨⟨place, node⟩, hlocate, -⟩ := (Option.any_eq_true _ _).mp h
  have hpath : path ≠ [] := by
    rintro rfl
    cases hlocate
  obtain ⟨hpassed, -⟩ := (locate?_eq_some hpath).mp hlocate
  exact (resolve_eq_ok hpath).mpr ⟨hpassed, rfl⟩

/-- The components of a path pass directories and lead to one. -/
def Opens (t : FileTree) (path : Text) : Prop :=
  ∀ w ∈ t.wayTo path ++ [t.placeOf path], t.node? w = some .directory

theorem opens_join (hname : Path.IsName name) :
    t.Opens (Path.join base name) ↔
      t.Opens base ∧ t.node? (t.placeOf base ++ [name]) = some .directory := by
  rw [Opens, wayTo_join hname, placeOf_join hname, List.forall_mem_append,
    List.forall_mem_singleton]
  rfl

theorem hasDirectoryAt_join (hname : Path.IsName name) :
    t.hasDirectoryAt (Path.join base name) = true ↔ t.Opens (Path.join base name) := by
  rw [opens_join hname, Opens, ← passed_join hname, ← target_join hname, hasDirectoryAt,
    Option.any_eq_true]
  constructor
  · rintro ⟨⟨place, node⟩, hlocate, hdirectory⟩
    obtain ⟨hpassed, htarget, hnode⟩ := (locate?_eq_some (Path.join_ne_nil hname)).mp hlocate
    obtain rfl : node = .directory := beq_iff_eq.mp hdirectory
    exact ⟨hpassed, htarget ▸ hnode⟩
  · rintro ⟨hpassed, hnode⟩
    exact ⟨(_, _), (locate?_eq_some (Path.join_ne_nil hname)).mpr ⟨hpassed, rfl, hnode⟩,
      beq_self_eq_true _⟩

theorem resolve_of_opens (hname : Path.IsName name) (h : t.Opens (Path.join base name)) :
    t.resolve (Path.join base name) = .ok (t.placeOf (Path.join base name)) := by
  rw [resolve_of_hasDirectoryAt ((hasDirectoryAt_join hname).mpr h), target_join hname,
    placeOf_join hname]

/-! ## Ways through a place -/

/-- The way along a path leads through a place, or through what is inside. -/
def LeadsThrough (t : FileTree) (path : Text) (place : Place) : Prop :=
  ∃ w ∈ t.wayTo path, place <+: w

/-- Without two dots, the way along a path does not lead through anything in the directory that the
path leads to. -/
theorem not_leadsThrough (hpath : "..".toList ∉ Path.components path) (around : Place)
    (name : Text) : ¬t.LeadsThrough path (t.placeOf path ++ around ++ [name]) := by
  rintro ⟨w, hw, hbelow⟩
  have hdeep := hbelow.length_le
  have hshallow := Place.length_le_of_mem_way hpath hw
  rw [List.length_append, List.length_append, List.length_singleton] at hdeep
  change w.length ≤ (t.placeOf path).length at hshallow
  omega

end FileTree

end Bitext
